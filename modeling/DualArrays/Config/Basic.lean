import DualArrays.Error
import DualArrays.Scalar.Real

namespace DualArrays

/-- Solver settings. -/
structure Config where
  dim : Nat := 2
  nEq : Nat := 1
  nVar : Nat := 1
  pMax : Nat := 2
  layout : Layout := .col
  complexStep : Float := 1e-30
  checkDuality : Bool := true
  printTol : Float := 1e-15

namespace Config

/-- The settings agree field by field, reals by IEEE equality. -/
def beq (a b : Config) : Bool :=
  a.dim == b.dim && a.nEq == b.nEq && a.nVar == b.nVar && a.pMax == b.pMax &&
    a.layout == b.layout && a.complexStep == b.complexStep &&
    a.checkDuality == b.checkDuality && a.printTol == b.printTol

/-- Checks the settings: the dimension is 1, 2 or 3, both counts are positive, the
complex step is finite and positive, the print tolerance finite and not negative. -/
def validate (c : Config) : Except Error Unit := do
  if !(1 ≤ c.dim ∧ c.dim ≤ 3) then
    throw (.config ("dim must be 1, 2 or 3, got " ++ toString c.dim))
  if c.nEq = 0 ∨ c.nVar = 0 then
    throw (.config "n_eq and n_var must be positive")
  if !(c.complexStep.isFinite && c.complexStep > 0.0) then
    throw (.config ("complex_step must be finite and positive, got " ++
      RealFloat.plainText c.complexStep))
  if !(c.printTol.isFinite && c.printTol ≥ 0.0) then
    throw (.config ("print_tol must be finite and non-negative, got " ++
      RealFloat.plainText c.printTol))

/-- The number of tensor-product basis functions of order `p`, `(p + 1) ^ dim`. Orders above
`pMax` are refused; a dimension beyond 32 bits or a power beyond a machine word is an
overflow of the basis size, and `p + 1` itself aborts when it overflows. -/
def nBasis (c : Config) (p : Nat) : Except Failure Nat := do
  if p > c.pMax then
    throw (.error (.config ("order " ++ toString p ++ " exceeds p_max = " ++ toString c.pMax)))
  let overflow : Failure := .error (.config ("basis size overflows for p = " ++ toString p))
  if c.dim ≥ Nat.pow 2 32 then throw overflow
  let base ← Word.add p 1
  match Word.pow? base c.dim with
  | some n => return n
  | none => throw overflow

end Config

end DualArrays
