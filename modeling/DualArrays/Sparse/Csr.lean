import DualArrays.Matrix.Basic
import DualArrays.Display.Tolerance

/-!
# Compressed sparse rows

A CSR operator keeps three buffers: `rowIndex` of `rows + 1` offsets, not decreasing, from
`0` to the number of stored entries `nnz`; `columns`, the column of every stored entry, each
below `cols`; and `values`. Row `r` holds the entries between `rowIndex[r]` and
`rowIndex[r + 1]`; a row need not be sorted and a column may repeat in it, in which case the
entries add up.

`validate` checks the buffers in a fixed order and names the first rule broken.
-/

namespace DualArrays

/-- A sparse operator in compressed sparse row form. -/
structure Csr (α : Type) where
  rowIndex : Array Nat
  columns : Array Nat
  values : Array α
  cols : Nat

/-- Checks the CSR rules for the given buffers: a first offset of zero, offsets that do not
decrease, a last offset equal to the number of columns and of values, every column below
`cols`. -/
def Csr.validate (rowIndex columns : Array Nat) (nValues cols : Nat) : Except Error Unit := do
  let fail (reason : String) : Except Error Unit := .error (.invariant "CsrOperator" reason)
  match rowIndex.toList with
  | [] => fail "row_index is empty"
  | first :: _ =>
    if first ≠ 0 then fail ("row_index[0] = " ++ toString first ++ ", expected 0")
    else if !(rowIndex.toList.zip (rowIndex.toList.drop 1)).all (fun p => p.1 ≤ p.2) then
      fail "row_index is not non-decreasing"
    else
      let nnz := rowIndex.toList.getLastD 0
      if columns.size ≠ nnz ∨ nValues ≠ nnz then
        fail ("row_index ends at " ++ toString nnz ++ ", but columns has " ++
          toString columns.size ++ " and values " ++ toString nValues ++ " entries")
      else if !columns.all (· < cols) then
        fail ("column index out of range for " ++ toString cols ++ " columns")
      else .ok ()

namespace Csr

section Plain

variable {α : Type}

/-- The number of rows: one less than the number of offsets. -/
def rows (a : Csr α) : Nat := a.rowIndex.size - 1

def nnz (a : Csr α) : Nat := a.values.size

def withCols (cols : Nat) (rowIndex columns : Array Nat) (values : Array α) :
    Except Error (Csr α) := do
  validate rowIndex columns values.size cols
  return ⟨rowIndex, columns, values, cols⟩

/-- An operator with one column past the largest column index, none without entries. -/
def ofParts (rowIndex columns : Array Nat) (values : Array α) : Except Failure (Csr α) := do
  let cols ← match columns.toList.max? with
    | some c => Word.add c 1
    | none => pure 0
  Except.toFailure (withCols cols rowIndex columns values)

def row (a : Csr α) (r : Nat) : Except Error (Array Nat × Array α) :=
  if r < a.rows then
    let start := a.rowIndex.getD r 0
    let stop := a.rowIndex.getD (r + 1) 0
    .ok (a.columns.extract start stop, a.values.extract start stop)
  else .error (.index "CsrOperator" [r] [a.rows])

/-- Equal column counts, offsets, columns and values, the values by `eq`. -/
def beq (eq : α → α → Bool) (a b : Csr α) : Bool :=
  a.cols == b.cols && a.rowIndex == b.rowIndex && a.columns == b.columns &&
    a.values.size == b.values.size && (Array.zipWith eq a.values b.values).all id

end Plain

section Element

variable {α : Type} [Element α]

def copy (a : Csr α) : Except Error (Csr α) := do
  let extents := [a.rows, a.cols]
  Storage.reserve "CsrOperator" extents a.rowIndex.size 8
  Storage.reserve "CsrOperator" extents a.columns.size 8
  Storage.reserve "CsrOperator" extents a.values.size (Element.size α)
  return a

def text (a : Csr α) : String :=
  "csr(shape=(" ++ toString a.rows ++ ", " ++ toString a.cols ++ "), nnz=" ++
    toString a.nnz ++ ", values=[" ++ ", ".intercalate (a.values.toList.map Element.text) ++ "])"

def debugText (a : Csr α) : String :=
  "CsrBase \x7b row_index: " ++ listText a.rowIndex.toList ++ ", columns: " ++
    listText a.columns.toList ++ ", values: [" ++
    ", ".intercalate (a.values.toList.map Element.debugText) ++ "], cols: " ++
    toString a.cols ++ " \x7d"

end Element

section Scalar

variable {α ρ : Type} [RealFloat ρ] [Scalar α ρ]

/-- Entry `(r, c)`: the sum of the stored entries of row `r` in column `c`. -/
def get (a : Csr α) (r c : Nat) : Except Error α :=
  if c ≥ a.cols ∨ r ≥ a.rows then .error (.index "CsrOperator" [r, c] [a.rows, a.cols])
  else do
    let (cs, vs) ← a.row r
    return Scalar.sum ((cs.toList.zip vs.toList).filter (·.1 == c) |>.map (·.2))

/-- The stored entries in row-major order: `(row, column, value)`. -/
def entries (a : Csr α) : List (Nat × Nat × α) :=
  (List.range a.rows).flatMap fun r =>
    let start := a.rowIndex.getD r 0
    let stop := a.rowIndex.getD (r + 1) 0
    (List.range (stop - start)).map fun k =>
      (r, a.columns.getD (start + k) 0, a.values.getD (start + k) Element.dflt)

/-- The dense matrix in layout `l`: every stored entry added to a zero entry, in storage
order. -/
def toDense (a : Csr α) (l : Layout) : Except Error (Matrix α) := do
  let m ← (Matrix.zeros a.rows a.cols l : Except Error (Matrix α))
  return a.entries.foldl (fun m e =>
    m.setAt (m.offset e.1 e.2.1) (m.read Element.dflt e.1 e.2.1 + e.2.2)) m

/-- Whether compression keeps a value: its modulus reaches the tolerance and it is not zero. -/
def keeps (tol : ρ) (v : α) : Bool :=
  RealFloat.le tol (Scalar.modulus v) && !Element.eq v Scalar.zero

def keptRow (m : Matrix α) (tol : ρ) (i : Nat) : List (Nat × α) :=
  ((List.range m.cols).map fun j => (j, m.read Element.dflt i j)).filter fun p => keeps tol p.2

def keptRows (m : Matrix α) (tol : ρ) : List (List (Nat × α)) :=
  (List.range m.rows).map (keptRow m tol)

def compress (m : Matrix α) (tol : ρ) : Except Error (Csr α) :=
  let perRow := keptRows m tol
  let counts := perRow.map List.length
  let rowIndex := (counts.foldl (fun acc n => acc ++ [acc.getLastD 0 + n]) [0]).toArray
  let flat := perRow.flatten
  withCols m.cols rowIndex (flat.map (·.1)).toArray (flat.map (·.2)).toArray

/-- `compress` as the library builds it: the buffer of `rows + 1` offsets is allocated first,
then the columns and values grow by one push each per kept entry. A count past the largest
word, a buffer past `isize::MAX` bytes or a request the allocator refuses aborts. -/
def ofDense (m : Matrix α) (tol : ρ) : Except Failure (Csr α) := do
  let n ← Word.add m.rows 1
  Storage.allocate (n * 8)
  Storage.pushPairs 8 (Element.size α) (keptRows m tol).flatten.length 0 0 0
  Except.toFailure (compress m tol)

/-- The line of row `r` in the display: its stored entries as `(column,value)`, read through
`row`; none when the row cannot be read. -/
def rowText (a : Csr α) (tol : ρ) (r : Nat) : Option String := do
  let (cs, vs) ← (a.row r).toOption
  return "row " ++ toString r ++ ":" ++ String.join ((cs.toList.zip vs.toList).map fun p =>
    " (" ++ toString p.1 ++ "," ++ Tolerance.entry tol p.2 ++ ")") ++ "\n"

/-- The rows, one line each, under a header with the shape. A row that cannot be read fails
the display (`none`), with no text. -/
def tolText (a : Csr α) (tol : ρ) : Option String := do
  let lines ← (List.range a.rows).mapM (a.rowText tol)
  return "CSR operator: " ++ toString a.rows ++ " x " ++ toString a.cols ++ ", nnz = " ++
    toString a.nnz ++ "\n" ++ String.join lines

end Scalar

end Csr

end DualArrays
