import DualArrays.Error
import DualArrays.InPlace
import DualArrays.Scalar.Basic

namespace DualArrays

inductive NormKind where
  | l2
  | inf
  deriving Repr, DecidableEq, Inhabited

namespace Reduce

open RealFloat

variable {α ρ : Type} [RealFloat ρ] [Scalar α ρ]

def sameLen (op : String) (a b : Nat) : Except Error Unit :=
  if a = b then .ok () else .error (.dimension op [a] [b])

/-- The real sum of a list of reals, left to right from `-0.0`. -/
def realSum (xs : List ρ) : ρ := Scalar.sum xs

/-- The largest modulus of the entries, starting from zero. -/
def maximumAbs (xs : Array α) : ρ :=
  xs.foldl (fun acc x => fmax acc (Scalar.modulus x)) zero

def norm (xs : Array α) : NormKind → ρ
  | .l2 => RealFloat.sqrt (realSum (xs.toList.map fun x => let m := Scalar.modulus x; m * m))
  | .inf => maximumAbs xs

def normRealPart (xs : Array α) : NormKind → ρ
  | .l2 => RealFloat.sqrt (realSum (xs.toList.map fun x => let r := Scalar.re x; r * r))
  | .inf => xs.foldl (fun acc x => fmax acc (abs (Scalar.re x))) zero

/-- The norm of the difference relative to the larger norm of the two operands, or the
absolute norm when both operands are below machine epsilon. -/
def normDiff (a b : Array α) (k : NormKind) : Except Error ρ := do
  sameLen "math::norm_diff" a.size b.size
  let diff := Array.zipWith (· - ·) a b
  let absNorm := norm diff k
  let den := fmax (norm a k) (norm b k)
  return if lt epsilon den then absNorm / den else absNorm

def normDiffInfAbs (a b : Array α) : Except Error ρ := do
  sameLen "math::norm_diff_inf_abs" a.size b.size
  return (Array.zipWith (· - ·) a b).foldl (fun acc d => fmax acc (Scalar.modulus d)) zero

/-- `x₀` and `x₁` agree to `tol`, relative to `|x₀|` unless that is below epsilon. -/
def equal (x0 x1 : α) (tol : ρ) : Bool :=
  let m := Scalar.modulus x0
  if lt m epsilon then lt (Scalar.modulus (x0 - x1)) tol
  else lt (Scalar.modulus (x0 - x1) / m) tol

/-- `x₀` and `x₁` agree to `tol`, relative to `|den|` unless that is below epsilon. -/
def equalRel (x0 x1 : α) (tol : ρ) (den : α) : Bool :=
  let d := Scalar.modulus den
  if lt d epsilon then lt (Scalar.modulus (x0 - x1)) tol
  else lt (Scalar.modulus (x0 - x1) / d) tol

def allEqual (a b : Array α) (tol : ρ) : Bool :=
  a.size == b.size && (Array.zipWith (fun x y => equal x y tol) a b).all id

def average (xs : Array α) : Except Error α :=
  if xs.isEmpty then .error (.invalidArgument "average of an empty slice")
  else .ok (Scalar.unscale (Scalar.sum xs.toList) (ofUInt64 xs.size.toUInt64))

/-- The first entry of least real part. -/
def minimum (xs : Array α) : Option α :=
  match xs.toList with
  | [] => none
  | x :: rest => some (rest.foldl (fun a b => if lt (Scalar.re b) (Scalar.re a) then b else a) x)

/-- The largest real part, by `fmax` from the first entry. -/
def maximumReal (xs : Array α) : Option ρ :=
  match xs.toList with
  | [] => none
  | x :: rest => some (rest.foldl (fun a b => fmax a (Scalar.re b)) (Scalar.re x))

def dot (a b : Array α) : Except Error α := do
  sameLen "math::dot" a.size b.size
  return Scalar.sum (Array.zipWith (· * ·) a b).toList

def dotReal (a : Array ρ) (b : Array α) : Except Error ρ := do
  sameLen "math::dot_real" a.size b.size
  return realSum (Array.zipWith (fun x y => x * Scalar.re y) a b).toList

def zYxpz (x y z : Array α) : Except Error (Array α) := do
  sameLen "math::z_yxpz" x.size y.size
  sameLen "math::z_yxpz" x.size z.size
  return Array.zipWith (fun zi (xi, yi) => zi + yi * xi) z (Array.zip x y)

def zYxpzReal (x : Array ρ) (y z : Array α) : Except Error (Array α) := do
  sameLen "math::z_yxpz_real" x.size y.size
  sameLen "math::z_yxpz_real" x.size z.size
  return Array.zipWith (fun zi (xi, yi) => zi + Scalar.scale yi xi) z (Array.zip x y)

def axpyIn (alpha : α) (x : Array α) : InPlace (Array α) Unit := do
  let y ← get
  InPlace.lift (sameLen "math::axpy" x.size y.size)
  modify fun y => Array.zipWith (fun yi xi => yi + alpha * xi) y x

def axpy (alpha : α) (x y : Array α) : Except Error (Array α) := (axpyIn alpha x).apply y

def addConstant (xs : Array α) (c : α) : Array α := xs.map (· + c)

end Reduce

end DualArrays
