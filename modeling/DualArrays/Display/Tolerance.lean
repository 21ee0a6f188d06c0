import DualArrays.Matrix.Basic
import DualArrays.Config.Basic

namespace DualArrays

namespace Tolerance

variable {α ρ : Type} [RealFloat ρ] [Scalar α ρ]

/-- One entry: zero when its modulus is below `tol`, then a space, the real part in eleven
columns and, for a complex type, the signed imaginary part and `i`. -/
def entry (tol : ρ) (x : α) : String :=
  let x := if RealFloat.lt (Scalar.modulus x) tol then Scalar.zero else x
  let re := " " ++ Decimal.padLeft 11 (RealFloat.scientificText 4 false (Scalar.re x))
  if Scalar.isComplex α then re ++ RealFloat.scientificText 4 true (Scalar.im x) ++ "i"
  else re

def line (tol : ρ) (xs : List α) : String :=
  String.join (xs.map (entry tol)) ++ "\n"

def grid (tol : ρ) (rows cols : Nat) (entryAt : Nat → Nat → α) : String :=
  String.join ((List.range rows).map fun i => line tol ((List.range cols).map (entryAt i)))

def ofConfig (c : Config) : ρ := RealFloat.ofFloat c.printTol

end Tolerance

def Vector.tolText {α ρ : Type} [RealFloat ρ] [Scalar α ρ] (v : Vector α) (tol : ρ) :
    String :=
  Tolerance.line tol v.data.toList

def Matrix.tolText {α ρ : Type} [RealFloat ρ] [Scalar α ρ] (m : Matrix α) (tol : ρ) :
    String :=
  Tolerance.grid tol m.rows m.cols (m.read Element.dflt)

end DualArrays
