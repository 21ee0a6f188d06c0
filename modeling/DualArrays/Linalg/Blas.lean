import DualArrays.Multiarray.Basic

namespace DualArrays

inductive Transpose where
  | no
  | yes
  deriving DecidableEq, Repr

namespace Transpose

/-- The flag of a letter: `N` or `n` as stored, `T` or `t` transposed. -/
def ofChar? : Char → Option Transpose
  | 'N' | 'n' => some .no
  | 'T' | 't' => some .yes
  | _ => none

def toChar : Transpose → Char
  | .no => 'N'
  | .yes => 'T'

end Transpose

inductive Side where
  | left
  | right
  deriving DecidableEq, Repr

namespace Blas

section Plain

variable {β : Type}

def opExtents (a : Matrix β) : Transpose → Nat × Nat
  | .no => (a.rows, a.cols)
  | .yes => (a.cols, a.rows)

def opAt (a : Matrix β) (d : β) : Transpose → Nat → Nat → β
  | .no, i, j => a.read d i j
  | .yes, i, j => a.read d j i

end Plain

section Scalar

variable {α ρ : Type} [RealFloat ρ] [Scalar α ρ]

def sumTo (n : Nat) (f : Nat → α) : α := (List.range n).foldl (fun s k => s + f k) Scalar.zero

/-- `α s` when overwriting, `α s + β y` otherwise. -/
def combine (overwrite : Bool) (alpha beta s y : α) : α :=
  if overwrite then alpha * s else alpha * s + beta * y

/-- `y ← α op(A) x + β y` with the products `mul aᵢⱼ xⱼ`. -/
def mvWith {β : Type} [Element β] (mul : β → α → α) (trans : Transpose) (alpha : α)
    (a : Matrix β) (x : Array α) (beta : α) (y : Array α) : Except Error (Array α) :=
  let (m, n) := opExtents a trans
  if x.size ≠ n ∨ y.size ≠ m then .error (.dimension "mv" [m, n] [y.size, x.size])
  else
    let overwrite := Element.eq beta Scalar.zero
    .ok (y.mapIdx fun i yi =>
      combine overwrite alpha beta
        (sumTo n fun j => mul (opAt a Element.dflt trans i j) (x.getD j Element.dflt)) yi)

def mv (trans : Transpose) (alpha : α) (a : Matrix α) (x : Array α) (beta : α)
    (y : Array α) : Except Error (Array α) :=
  mvWith (· * ·) trans alpha a x beta y

def mvReal (trans : Transpose) (alpha : α) (a : Matrix ρ) (x : Array α) (beta : α)
    (y : Array α) : Except Error (Array α) :=
  mvWith (fun aij xj => Scalar.scale xj aij) trans alpha a x beta y

def mvNew (trans : Transpose) (alpha : α) (a : Matrix α) (x : Array α) :
    Except Error (Vector α) := do
  let y ← (Vector.zeros (opExtents a trans).1 : Except Error (Vector α))
  return ⟨← mv trans alpha a x Scalar.zero y.data⟩

/-- `C ← α op(A) op(B) + β C` with the products `mul aᵢₚ bₚⱼ`. -/
def mmWith {β : Type} [Element β] (mul : β → α → α) (transA transB : Transpose)
    (alpha : α) (a : Matrix β) (b : Matrix α) (beta : α) (c : Matrix α) :
    Except Error (Matrix α) :=
  let (m, k) := opExtents a transA
  let (kb, n) := opExtents b transB
  if kb ≠ k then .error (.dimension "mm" [k, n] [kb, n])
  else if c.rows ≠ m ∨ c.cols ≠ n then .error (.dimension "mm" [m, n] [c.rows, c.cols])
  else
    let overwrite := Element.eq beta Scalar.zero
    .ok (Matrix.ofFn c.rows c.cols c.layout fun i j =>
      combine overwrite alpha beta
        (sumTo k fun p => mul (opAt a Element.dflt transA i p) (opAt b Element.dflt transB p j))
        (c.read Element.dflt i j))

def mm (transA transB : Transpose) (alpha : α) (a b : Matrix α) (beta : α) (c : Matrix α) :
    Except Error (Matrix α) :=
  mmWith (· * ·) transA transB alpha a b beta c

def mmReal (transA transB : Transpose) (alpha : α) (a : Matrix ρ) (b : Matrix α) (beta : α)
    (c : Matrix α) : Except Error (Matrix α) :=
  mmWith (fun x y => Scalar.scale y x) transA transB alpha a b beta c

def mmNew (transA transB : Transpose) (alpha : α) (a b : Matrix α) (l : Layout) :
    Except Error (Matrix α) := do
  let c ← Matrix.zeros (opExtents a transA).1 (opExtents b transB).2 l
  mm transA transB alpha a b Scalar.zero c

/-- `α A B` for a column-major multiarray `B` whose first extent is the number of columns
of `A`: every column of `B` is multiplied by `A`. -/
def mmMultiarray (alpha : α) (a : Matrix α) (b : Multiarray α) :
    Except Failure (Multiarray α) := do
  Except.toFailure (b.requireCol "mm_multiarray")
  let inner := b.extents.headD 0
  if a.cols ≠ inner then
    throw (.error (.dimension "mm_multiarray" [a.cols] [inner]))
  let extents := a.rows :: b.extents.drop 1
  let _ ← Except.toFailure (Multiarray.zeros (α := α) extents .col)
  let nCols ← Word.prod (b.extents.drop 1)
  let columns := if a.rows = 0 then [] else (List.range nCols).map fun col =>
    (List.range a.rows).map fun i =>
      alpha * sumTo inner fun p =>
        a.read Element.dflt i p * b.data.getD (col * inner + p) Element.dflt
  return ⟨extents, .col, columns.flatten.toArray⟩

/-- `A ← A diag(f)` or `diag(f) A` with `f = α / d` when inverting, `α d` otherwise. -/
def scaleByDiagonal (side : Side) (alpha : α) (a : Matrix α) (d : Array α) (invert : Bool) :
    Except Error (Matrix α) :=
  let expected := match side with
    | .left => a.rows
    | .right => a.cols
  if d.size ≠ expected then .error (.dimension "scale_by_diagonal" [expected] [d.size])
  else
    .ok (Matrix.ofFn a.rows a.cols a.layout fun i j =>
      let di := d.getD (match side with | .left => i | .right => j) Element.dflt
      let f := if invert then alpha / di else alpha * di
      a.read Element.dflt i j * f)

def asum (x : Array α) : ρ := x.foldl (fun s v => s + Scalar.modulus v) (-RealFloat.zero)

/-- The first index of largest modulus, none for no entries; a NaN modulus is never
largest unless it comes first. -/
def iamax (x : Array α) : Option Nat :=
  (x.toList.zipIdx.foldl (fun best p =>
    let m := Scalar.modulus p.1
    match best with
    | some (_, b) => if RealFloat.le m b then best else some (p.2, m)
    | none => some (p.2, m)) none).map (·.1)

end Scalar

end Blas

namespace Matrix

variable {α ρ : Type} [RealFloat ρ] [Scalar α ρ]

def matvec (m : Matrix α) (x : Array α) : Except Error (Vector α) :=
  Blas.mvNew .no Scalar.one m x

def matmul (m b : Matrix α) : Except Error (Matrix α) :=
  Blas.mmNew .no .no Scalar.one m b m.layout

def maxAbs (m : Matrix α) : ρ := Reduce.maximumAbs m.data

/-- The largest modulus of an entry-wise difference, relative to the larger of the two
largest moduli when that exceeds epsilon. -/
def normDiff (m b : Matrix α) : Except Error ρ :=
  if m.rows ≠ b.rows ∨ m.cols ≠ b.cols then
    .error (.dimension "Matrix::norm_diff" [m.rows, m.cols] [b.rows, b.cols])
  else
    let diff := (Matrix.indices m.rows m.cols).foldl (fun d p =>
      RealFloat.fmax d (Scalar.modulus (m.read Element.dflt p.1 p.2 - b.read Element.dflt p.1 p.2)))
      RealFloat.zero
    let den := RealFloat.fmax m.maxAbs b.maxAbs
    .ok (if RealFloat.lt RealFloat.epsilon den then diff / den else diff)

end Matrix

end DualArrays
