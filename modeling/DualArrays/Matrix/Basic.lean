import DualArrays.Vector.Basic

/-!
# Matrices

A `Matrix α` has `rows × cols` entries in one buffer and a layout tag: entry `(i, j)` sits
at `i * cols + j` in row-major layout and at `j * rows + i` in column-major layout
(`Layout.offset`). Every read and write goes through that offset, so an operation given in
logical indices means the same in both layouts; `Layout.position` is its inverse, and
`offset_lt` and `position_offset` say that the two are a bijection between the logical
indices and the buffer positions.

Index errors name the matrix's extents; row access needs row-major storage and column
access column-major storage.
-/

namespace DualArrays

namespace Layout

/-- The buffer position of entry `(i, j)` of a `rows × cols` matrix. -/
def offset (l : Layout) (rows cols i j : Nat) : Nat :=
  match l with
  | .row => i * cols + j
  | .col => j * rows + i

/-- The logical index of buffer position `k` of a `rows × cols` matrix. -/
def position (l : Layout) (rows cols k : Nat) : Nat × Nat :=
  match l with
  | .row => (k / cols, k % cols)
  | .col => (k % rows, k / rows)

theorem offset_lt (l : Layout) {rows cols i j : Nat} (hi : i < rows) (hj : j < cols) :
    l.offset rows cols i j < rows * cols := by
  cases l with
  | row =>
    show i * cols + j < rows * cols
    have : (i + 1) * cols ≤ rows * cols := Nat.mul_le_mul_right _ hi
    rw [Nat.succ_mul] at this
    omega
  | col =>
    show j * rows + i < rows * cols
    have : (j + 1) * rows ≤ cols * rows := Nat.mul_le_mul_right _ hj
    rw [Nat.succ_mul] at this
    rw [Nat.mul_comm rows cols]
    omega

theorem position_offset (l : Layout) {rows cols i j : Nat} (hi : i < rows) (hj : j < cols) :
    l.position rows cols (l.offset rows cols i j) = (i, j) := by
  cases l with
  | row =>
    simp only [position, offset, Prod.mk.injEq]
    have hc : 0 < cols := by omega
    constructor
    · rw [Nat.mul_comm, Nat.mul_add_div hc, Nat.div_eq_of_lt hj, Nat.add_zero]
    · rw [Nat.mul_comm, Nat.mul_add_mod, Nat.mod_eq_of_lt hj]
  | col =>
    simp only [position, offset, Prod.mk.injEq]
    have hr : 0 < rows := by omega
    constructor
    · rw [Nat.mul_comm, Nat.mul_add_mod, Nat.mod_eq_of_lt hi]
    · rw [Nat.mul_comm, Nat.mul_add_div hr, Nat.div_eq_of_lt hi, Nat.add_zero]

theorem offset_injective (l : Layout) {rows cols i j i' j' : Nat} (hi : i < rows)
    (hj : j < cols) (hi' : i' < rows) (hj' : j' < cols)
    (h : l.offset rows cols i j = l.offset rows cols i' j') : i = i' ∧ j = j' := by
  have e1 := l.position_offset hi hj
  have e2 := l.position_offset hi' hj'
  rw [h, e2] at e1
  simp only [Prod.mk.injEq] at e1
  exact ⟨e1.1.symm, e1.2.symm⟩

end Layout

/-- A rank-two container with a layout tag. -/
structure Matrix (α : Type) where
  rows : Nat
  cols : Nat
  layout : Layout
  data : Array α
  size_eq : data.size = rows * cols

namespace Matrix

section Plain

variable {α : Type}

def size (m : Matrix α) : Nat := m.data.size

def offset (m : Matrix α) (i j : Nat) : Nat := m.layout.offset m.rows m.cols i j

def indexError (m : Matrix α) (i j : Nat) : Error := .index "Matrix" [i, j] [m.rows, m.cols]

def requireLayout (m : Matrix α) (op : String) (l : Layout) : Except Error Unit :=
  if m.layout = l then .ok () else .error (.layout op l m.layout)

def ofFn (rows cols : Nat) (l : Layout) (f : Nat → Nat → α) : Matrix α where
  rows := rows
  cols := cols
  layout := l
  data := Array.ofFn fun (k : Fin (rows * cols)) =>
    let p := l.position rows cols k.val
    f p.1 p.2
  size_eq := by simp

/-- The same matrix with its buffer read in another way: the entry at each position is
replaced by `f` of it. -/
def mapData (m : Matrix α) (f : α → α) : Matrix α :=
  { m with data := m.data.map f, size_eq := by simp [m.size_eq] }

/-- The matrix with buffer position `k` replaced by `x` (nothing happens outside the
buffer). -/
def setAt (m : Matrix α) (k : Nat) (x : α) : Matrix α :=
  { m with data := m.data.setIfInBounds k x, size_eq := by simp [m.size_eq] }

/-- The rows and columns swapped by a change of layout tag: the buffer stays, so entry
`(i, j)` of the result is entry `(j, i)` of the matrix. -/
def transpose (m : Matrix α) : Matrix α where
  rows := m.cols
  cols := m.rows
  layout := m.layout.flip
  data := m.data
  size_eq := by rw [m.size_eq, Nat.mul_comm]

def fill (m : Matrix α) (x : α) : Matrix α :=
  { m with data := Array.replicate (m.rows * m.cols) x, size_eq := by simp }

def toVector (m : Matrix α) : Vector α := ⟨m.data⟩

/-- Entry `(i, j)` read through the offset; outside the matrix the given default. -/
def read (m : Matrix α) (d : α) (i j : Nat) : α := m.data.getD (m.offset i j) d

end Plain

section Element

variable {α : Type} [Element α]

def get (m : Matrix α) (i j : Nat) : Except Error α :=
  if i < m.rows ∧ j < m.cols then .ok (m.read Element.dflt i j) else .error (m.indexError i j)

/-- Writes `x` at entry `(i, j)` in place, once the index is found inside the matrix. -/
def setIn (i j : Nat) (x : α) : InPlace (Matrix α) Unit := do
  let m ← MonadState.get
  if i ≥ m.rows ∨ j ≥ m.cols then throw (m.indexError i j)
  modify fun m => m.setAt (m.offset i j) x

def set (m : Matrix α) (i j : Nat) (x : α) : Except Error (Matrix α) := (setIn i j x).apply m

def filled (rows cols : Nat) (l : Layout) (x : α) : Except Error (Matrix α) := do
  let len ← Storage.checkedLen "Matrix" [rows, cols]
  Storage.reserve "Matrix" [rows, cols] len (Element.size α)
  return ⟨rows, cols, l, Array.replicate (rows * cols) x, by simp⟩

def zeros (rows cols : Nat) (l : Layout) : Except Error (Matrix α) :=
  filled rows cols l Element.dflt

/-- A matrix over a buffer given in storage order, which must hold `rows * cols` entries;
`container` names the matrix in errors. -/
def ofData (container : String) (rows cols : Nat) (l : Layout) (data : Array α) :
    Except Error (Matrix α) :=
  match Word.prod? [rows, cols] with
  | none => .error (.allocation container [rows, cols] .extentOverflow)
  | some n =>
    if h : data.size = rows * cols then .ok ⟨rows, cols, l, data, h⟩
    else .error (.invariant container ("extents " ++ listText [rows, cols] ++ " describe " ++
      toString n ++ " elements, buffer holds " ++ toString data.size))

def copy (m : Matrix α) : Except Error (Matrix α) := do
  Storage.reserve "Matrix" [m.rows, m.cols] m.size (Element.size α)
  return m

def toLayout (m : Matrix α) (l : Layout) : Except Error (Matrix α) := do
  let _ ← (zeros m.rows m.cols l : Except Error (Matrix α))
  return ofFn m.rows m.cols l (m.read Element.dflt)

/-- Stores the matrix in layout `l` in place: nothing changes when it already is, and
otherwise the matrix is replaced by its copy in layout `l` once that copy is had. -/
def setLayoutIn (l : Layout) : InPlace (Matrix α) Unit := do
  let m ← MonadState.get
  if m.layout = l then return
  let m' ← InPlace.lift (m.toLayout l)
  modify fun _ => m'

def setLayout (m : Matrix α) (l : Layout) : Except Error (Matrix α) := (setLayoutIn l).apply m

def rowAt (op : String) (m : Matrix α) (i : Nat) : Except Error (Vector α) := do
  m.requireLayout op .row
  if i < m.rows then return ⟨m.data.extract (i * m.cols) (i * m.cols + m.cols)⟩
  else throw (m.indexError i 0)

def colAt (op : String) (m : Matrix α) (j : Nat) : Except Error (Vector α) := do
  m.requireLayout op .col
  if j < m.cols then return ⟨m.data.extract (j * m.rows) (j * m.rows + m.rows)⟩
  else throw (m.indexError 0 j)

def writeAll (m : Matrix α) (writes : List ((Nat × Nat) × α)) : Matrix α :=
  writes.foldl (fun acc w => acc.setAt (acc.offset w.1.1 w.1.2) w.2) m

/-- Writes `src` over row `i` in place, once the row is found and `src` has `cols`
entries. -/
def setRowIn (i : Nat) (src : Array α) : InPlace (Matrix α) Unit := do
  let m ← MonadState.get
  if i ≥ m.rows then throw (m.indexError i 0)
  if m.cols ≠ src.size then throw (.dimension "Matrix::set_row" [m.cols] [src.size])
  modify fun m => m.writeAll (src.toList.zipIdx.map fun (x, j) => ((i, j), x))

def setRow (m : Matrix α) (i : Nat) (src : Array α) : Except Error (Matrix α) :=
  (setRowIn i src).apply m

/-- Writes `src` over column `j` in place, once the column is found and `src` has `rows`
entries. -/
def setColIn (j : Nat) (src : Array α) : InPlace (Matrix α) Unit := do
  let m ← MonadState.get
  if j ≥ m.cols then throw (m.indexError 0 j)
  if m.rows ≠ src.size then throw (.dimension "Matrix::set_col" [m.rows] [src.size])
  modify fun m => m.writeAll (src.toList.zipIdx.map fun (x, i) => ((i, j), x))

def setCol (m : Matrix α) (j : Nat) (src : Array α) : Except Error (Matrix α) :=
  (setColIn j src).apply m

def setColToValIn (j : Nat) (x : α) : InPlace (Matrix α) Unit := do
  let m ← MonadState.get
  if j ≥ m.cols then throw (m.indexError 0 j)
  modify fun m => m.writeAll ((List.range m.rows).map fun i => ((i, j), x))

def setColToVal (m : Matrix α) (j : Nat) (x : α) : Except Error (Matrix α) :=
  (setColToValIn j x).apply m

/-- A block of `src.rows × src.cols` entries at `(row0, col0)` must lie inside the
matrix; otherwise the index error names the block's far corner, saturated at the largest
word. -/
def checkBlock (m : Matrix α) (row0 col0 : Nat) (src : Matrix α) : Except Error Unit :=
  if row0 + src.rows ≤ m.rows ∧ col0 + src.cols ≤ m.cols then .ok ()
  else .error (m.indexError (Word.addSat row0 src.rows) (Word.addSat col0 src.cols))

def indices (rows cols : Nat) : List (Nat × Nat) :=
  (List.range rows).flatMap fun i => (List.range cols).map fun j => (i, j)

def setBlockIn (row0 col0 : Nat) (src : Matrix α) : InPlace (Matrix α) Unit := do
  let m ← MonadState.get
  InPlace.lift (m.checkBlock row0 col0 src)
  modify fun m => m.writeAll ((indices src.rows src.cols).map fun (i, j) =>
    ((row0 + i, col0 + j), src.read Element.dflt i j))

def setBlock (m : Matrix α) (row0 col0 : Nat) (src : Matrix α) : Except Error (Matrix α) :=
  (setBlockIn row0 col0 src).apply m

/-- Rows `start … start + n - 1`, which needs row-major storage. -/
def sliceRows (m : Matrix α) (start n : Nat) : Except Error (Matrix α) := do
  m.requireLayout "Matrix::slice_rows" .row
  if h : start + n ≤ m.rows then
    return ⟨n, m.cols, .row, (m.data.extract (start * m.cols) ((start + n) * m.cols)), by
      simp only [Array.size_extract, m.size_eq]
      have : (start + n) * m.cols ≤ m.rows * m.cols := Nat.mul_le_mul_right _ h
      rw [Nat.min_eq_left this, Nat.add_mul]
      omega⟩
  else throw (m.indexError (Word.addSat start n) 0)

/-- Columns `start … start + n - 1`, which needs column-major storage. -/
def sliceCols (m : Matrix α) (start n : Nat) : Except Error (Matrix α) := do
  m.requireLayout "Matrix::slice_cols" .col
  if h : start + n ≤ m.cols then
    return ⟨m.rows, n, .col, (m.data.extract (start * m.rows) ((start + n) * m.rows)), by
      simp only [Array.size_extract, m.size_eq]
      have : (start + n) * m.rows ≤ m.cols * m.rows := Nat.mul_le_mul_right _ h
      rw [Nat.mul_comm m.rows m.cols, Nat.min_eq_left this, Nat.add_mul, Nat.mul_comm m.rows n]
      omega⟩
  else throw (m.indexError 0 (Word.addSat start n))

/-- The plain text: `matrix([\n  [a, b],\n  [c, d]\n], layout=R)`, or
`matrix([], extents=(r, c), layout=R)` without entries. -/
def text (m : Matrix α) : String :=
  if m.size = 0 then
    "matrix([], extents=(" ++ toString m.rows ++ ", " ++ toString m.cols ++ "), layout=" ++
      m.layout.text ++ ")"
  else
    let row (i : Nat) : String :=
      "  [" ++ ", ".intercalate ((List.range m.cols).map fun j =>
        Element.text (m.read Element.dflt i j)) ++ "]"
    "matrix([\n" ++ ",\n".intercalate ((List.range m.rows).map row) ++ "\n], layout=" ++
      m.layout.text ++ ")"

end Element

section Scalar

variable {α ρ : Type} [RealFloat ρ] [Scalar α ρ]

def identity (n : Nat) (l : Layout) : Except Error (Matrix α) := do
  let z ← (zeros n n l : Except Error (Matrix α))
  return z.writeAll ((List.range n).map fun i => ((i, i), Scalar.one))

def ofReal (m : Matrix ρ) : Except Error (Matrix α) := do
  let _ ← (zeros m.rows m.cols m.layout : Except Error (Matrix α))
  return ⟨m.rows, m.cols, m.layout, m.data.map Scalar.ofReal, by simp [m.size_eq]⟩

def addBlockIn (row0 col0 : Nat) (src : Matrix α) : InPlace (Matrix α) Unit := do
  let m ← MonadState.get
  InPlace.lift (m.checkBlock row0 col0 src)
  modify fun m => (indices src.rows src.cols).foldl (fun acc (i, j) =>
    let k := acc.offset (row0 + i) (col0 + j)
    acc.setAt k (acc.data.getD k Element.dflt + src.read Element.dflt i j)) m

def addBlock (m : Matrix α) (row0 col0 : Nat) (src : Matrix α) : Except Error (Matrix α) :=
  (addBlockIn row0 col0 src).apply m

/-- Every entry multiplied by `a` on the right. -/
def scale (m : Matrix α) (a : α) : Matrix α := m.mapData (· * a)

def map (m : Matrix α) (f : α → α) : Except Error (Matrix α) := do
  let c ← m.copy
  return c.mapData f

/-- Sums along an axis: axis `0` sums each column, axis `1` each row, in row-by-row order
of the entries. -/
def sumAxis (m : Matrix α) (axis : Nat) : Except Error (Vector α) := do
  let n ← match axis with
    | 0 => pure m.cols
    | 1 => pure m.rows
    | _ => throw (.invalidArgument "matrix axis must be 0 or 1")
  let z ← (Vector.zeros n : Except Error (Vector α))
  let sums := (indices m.rows m.cols).foldl (fun (acc : Array α) (i, j) =>
    let k := if axis = 0 then j else i
    acc.setIfInBounds k (acc.getD k Element.dflt + m.read Element.dflt i j)) z.data
  return ⟨sums⟩

def realPart (m : Matrix α) : Except Error (Matrix ρ) := do
  let _ ← (zeros m.rows m.cols m.layout : Except Error (Matrix ρ))
  return ⟨m.rows, m.cols, m.layout, m.data.map Scalar.re, by simp [m.size_eq]⟩

def imagPart (m : Matrix α) : Except Error (Matrix ρ) := do
  let _ ← (zeros m.rows m.cols m.layout : Except Error (Matrix ρ))
  return ⟨m.rows, m.cols, m.layout, m.data.map Scalar.im, by simp [m.size_eq]⟩

end Scalar

section Lemmas

variable {α : Type}

theorem read_ofFn (rows cols : Nat) (l : Layout) (f : Nat → Nat → α) (d : α) {i j : Nat}
    (hi : i < rows) (hj : j < cols) : (ofFn rows cols l f).read d i j = f i j := by
  have hk := l.offset_lt hi hj
  simp only [read, offset, ofFn]
  rw [Array.getD_eq_getD_getElem?, Array.getElem?_ofFn]
  simp [hk, l.position_offset hi hj]

@[simp] theorem transpose_transpose (m : Matrix α) : m.transpose.transpose = m := by
  cases m
  simp [transpose]

theorem read_transpose (m : Matrix α) (d : α) (i j : Nat) :
    m.transpose.read d i j = m.read d j i := by
  cases m with
  | mk rows cols layout data h =>
    cases layout <;> simp [read, transpose, offset, Layout.offset, Layout.flip]

end Lemmas

end Matrix

end DualArrays
