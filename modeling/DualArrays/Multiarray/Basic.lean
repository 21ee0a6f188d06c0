import DualArrays.Matrix.Basic
import DualArrays.Config.Basic

namespace DualArrays

def maxOrder : Nat := 6

def checkOrder (extents : List Nat) : Except Error Unit :=
  if extents.length = 0 ∨ extents.length > maxOrder then
    .error (.invalidArgument "multiarray order must be between 1 and MAX_ORDER")
  else .ok ()

/-- The (index, extent) pairs in the order the offset folds them: last index first for
column-major storage, first index first for row-major storage. -/
def Layout.foldOrder (l : Layout) (pairs : List (Nat × Nat)) : List (Nat × Nat) :=
  match l with
  | .col => pairs.reverse
  | .row => pairs

/-- The buffer offset of an index: `off * e + i` folded over the pairs. -/
def Layout.linear (l : Layout) (extents index : List Nat) : Nat :=
  (l.foldOrder (index.zip extents)).foldl (fun off p => off * p.2 + p.1) 0

/-- `linear` in machine words, aborting when a product or a sum overflows. -/
def Layout.linearChecked (l : Layout) (extents index : List Nat) : Except Failure Nat :=
  (l.foldOrder (index.zip extents)).foldlM (fun off p => do Word.add (← Word.mul off p.2) p.1) 0

/-- A multiarray: its extents, its layout and its buffer. -/
structure Multiarray (α : Type) where
  extents : List Nat
  layout : Layout
  data : Array α

namespace Multiarray

section Plain

variable {α : Type}

def order (m : Multiarray α) : Nat := m.extents.length

def size (m : Multiarray α) : Nat := m.data.size

def offset (m : Multiarray α) (index : List Nat) : Nat := m.layout.linear m.extents index

def offsetChecked (m : Multiarray α) (index : List Nat) : Except Failure Nat :=
  m.layout.linearChecked m.extents index

def contains (m : Multiarray α) (index : List Nat) : Bool :=
  index.length == m.extents.length && (index.zip m.extents).all fun p => p.1 < p.2

def indexError (m : Multiarray α) (index : List Nat) : Error :=
  .index "Multiarray" index m.extents

def requireCol (m : Multiarray α) (op : String) : Except Error Unit :=
  if m.layout = .col then .ok () else .error (.layout op .col m.layout)

/-- The number of columns: the product of the extents after the first, aborting when it
overflows. -/
def trailingLen (m : Multiarray α) : Except Failure Nat := Word.prod (m.extents.drop 1)

def ofMatrix (m : Matrix α) : Multiarray α := ⟨[m.rows, m.cols], m.layout, m.data⟩

def fill (m : Multiarray α) (x : α) : Multiarray α :=
  { m with data := Array.replicate m.data.size x }

def mapData {β : Type} (m : Multiarray α) (f : α → β) : Multiarray β :=
  ⟨m.extents, m.layout, m.data.map f⟩

end Plain

section Element

variable {α : Type} [Element α]

def get (m : Multiarray α) (index : List Nat) : Except Error α :=
  if m.contains index then .ok (m.data.getD (m.offset index) Element.dflt)
  else .error (m.indexError index)

def setIn (index : List Nat) (x : α) : InPlace (Multiarray α) Unit := do
  let m ← MonadState.get
  if !m.contains index then throw (m.indexError index)
  modify fun m => { m with data := m.data.setIfInBounds (m.offset index) x }

def set (m : Multiarray α) (index : List Nat) (x : α) : Except Error (Multiarray α) :=
  (setIn index x).apply m

def filled (extents : List Nat) (l : Layout) (x : α) : Except Error (Multiarray α) := do
  checkOrder extents
  let len ← Storage.checkedLen "Multiarray" extents
  return ⟨extents, l, ← Storage.filled "Multiarray" extents len x⟩

def zeros (extents : List Nat) (l : Layout) : Except Error (Multiarray α) :=
  filled extents l Element.dflt

/-- A multiarray over a buffer given in storage order, which must hold as many entries as
the extents describe; `container` names it in errors. -/
def ofData (container : String) (extents : List Nat) (l : Layout) (data : Array α) :
    Except Error (Multiarray α) := do
  checkOrder extents
  Storage.checkLen container extents data.size
  return ⟨extents, l, data⟩

def copy (m : Multiarray α) : Except Error (Multiarray α) := do
  return { m with data := ← Storage.copy "Multiarray" m.extents m.data }

/-- Column `j`: the entries whose trailing indices make up `j`, which needs column-major
storage. -/
def colAt (op : String) (m : Multiarray α) (j : Nat) : Except Failure (Vector α) := do
  Except.toFailure (m.requireCol op)
  let trailing ← m.trailingLen
  if j ≥ trailing then throw (.error (m.indexError [0, j]))
  let n := m.extents.headD 0
  return ⟨m.data.extract (j * n) (j * n + n)⟩

/-- The column-major matrix of the first two indices at the trailing indices `tail`. -/
def subMatrix (m : Multiarray α) (tail : List Nat) : Except Failure (Matrix α) := do
  Except.toFailure (m.requireCol "Multiarray::sub_matrix")
  let dims := m.extents
  if dims.length < 2 ∨ tail.length ≠ dims.length - 2 then
    throw (.error (.dimension "Multiarray::sub_matrix" [dims.length - 2] [tail.length]))
  if (tail.zip (dims.drop 2)).any (fun p => p.1 ≥ p.2) then
    throw (.error (m.indexError ([0, 0] ++ tail)))
  let rows := dims.headD 0
  let cols := (dims.drop 1).headD 0
  let block ← Layout.col.linearChecked (dims.drop 2) tail
  let start ← Word.mul (← Word.mul block rows) cols
  let _ ← Word.add start (← Word.mul rows cols)
  return Matrix.ofFn rows cols .col fun i j => m.data.getD (start + j * rows + i) Element.dflt

def toMatrix (op : String) (m : Multiarray α) : Except Error (Matrix α) :=
  match m.extents with
  | [rows, cols] => Matrix.ofData "Multiarray" rows cols m.layout m.data
  | _ => .error (.dimension op [2] [m.order])

def toVector (m : Multiarray α) : Except Error (Vector α) :=
  if m.order = 1 then .ok ⟨m.data⟩
  else .error (.dimension "Multiarray::as_vector" [1] [m.order])

/-- The plain text `multiarray(extents=[..], layout=L, data=[..])`, with only the first two
and the last entry past four entries. -/
def text (m : Multiarray α) : String :=
  let head := "multiarray(extents=" ++ listText m.extents ++ ", layout=" ++ m.layout.text ++
    ", data=["
  let xs := m.data.toList.map Element.text
  if xs.length ≤ 4 then head ++ ", ".intercalate xs ++ "])"
  else head ++ xs.headD "" ++ ", " ++ (xs.drop 1).headD "" ++ ", ..., " ++ xs.getLastD "" ++ "])"

def debugText (m : Multiarray α) : String :=
  "MultiarrayBase \x7b data: [" ++ ", ".intercalate (m.data.toList.map Element.debugText) ++
    "], extents: " ++ listText m.extents ++ ", layout: " ++ m.layout.debugText ++ " \x7d"

def zerosWith (c : Config) (extents : List Nat) : Except Error (Multiarray α) :=
  zeros extents c.layout

/-- Node values of the solution: `nodes × n_var`. -/
def solution (c : Config) (nodes : Nat) : Except Error (Multiarray α) :=
  zerosWith c [nodes, c.nVar]

/-- Node values of the flux: `nodes × n_eq`. -/
def flux (c : Config) (nodes : Nat) : Except Error (Multiarray α) :=
  zerosWith c [nodes, c.nEq]

/-- Node values of the flux Jacobian: `nodes × n_eq × n_var`. -/
def fluxJacobian (c : Config) (nodes : Nat) : Except Error (Multiarray α) :=
  zerosWith c [nodes, c.nEq, c.nVar]

/-- Basis coefficients of order `p`: `n_basis(p) × n_var`. -/
def coefficients (c : Config) (p : Nat) : Except Failure (Multiarray α) := do
  let nb ← c.nBasis p
  Except.toFailure (zerosWith c [nb, c.nVar])

end Element

section Scalar

variable {α ρ : Type} [RealFloat ρ] [Scalar α ρ]

def ofReal (m : Multiarray ρ) : Except Error (Multiarray α) := do
  let _ ← (zeros m.extents m.layout : Except Error (Multiarray α))
  return m.mapData Scalar.ofReal

def realPart (m : Multiarray α) : Except Error (Multiarray ρ) := do
  let _ ← (zeros m.extents m.layout : Except Error (Multiarray ρ))
  return m.mapData Scalar.re

def imagPart (m : Multiarray α) : Except Error (Multiarray ρ) := do
  let _ ← (zeros m.extents m.layout : Except Error (Multiarray ρ))
  return m.mapData Scalar.im

def scale (m : Multiarray α) (a : α) : Multiarray α := m.mapData (· * a)

end Scalar

end Multiarray

end DualArrays
