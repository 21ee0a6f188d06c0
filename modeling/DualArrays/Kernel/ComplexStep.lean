import DualArrays.Kernel.Dual
import DualArrays.Matrix.Basic
import DualArrays.Config.Basic

/-!
# Complex-step differentiation

For a holomorphic `f`, `f(x + i h) = f(x) + i h f'(x) + O(h²)`, so `Im f(x + i h) / h` is the
derivative with no subtractive cancellation and `h` may be tiny (`1e-30` by default). A
Jacobian takes one complex evaluation per input: input `j` is perturbed and the imaginary
parts of the outputs, divided by `h`, form column `j`.

With the duality check on, the real part of every perturbed output is compared with the
real evaluation. An output that differs by more than `1e-12` (relative) is evaluated again
at `h / 2`; a holomorphic kernel drifts by `-h² f''(x) / 2`, so the drift must at least
halve. Otherwise the kernel's choices went differently at the complex point and the column
is refused.
-/

namespace DualArrays

/-- The settings of complex-step differentiation. -/
structure ComplexStep where
  step : Float := 1e-30
  checkDuality : Bool := true

namespace ComplexStep

/-- Relative deviation of a real part below which no refinement is done. -/
def dualityTolerance : Float := 1e-12

/-- Largest accepted ratio of the drift at `h / 2` to the drift at `h`. -/
def driftRatio : Float := 0.5

/-- The step `h`, which must be finite and positive, with the duality check on. -/
def new (step : Float) : Except Error ComplexStep :=
  if step.isFinite && step > 0.0 then .ok { step }
  else .error (.invalidArgument "complex step must be finite and positive")

def ofConfig (c : Config) : Except Error ComplexStep :=
  (new c.complexStep).map fun s => { s with checkDuality := c.checkDuality }

def withCheckDuality (s : ComplexStep) (on : Bool) : ComplexStep := { s with checkDuality := on }

/-- The value and the derivative of `f` at `x`: the real part of `f(x + i h)` and its
imaginary part over `h`. -/
def derivative (s : ComplexStep) (f : Complex Float → Complex Float) (x : Float) :
    Float × Float :=
  let fx := f ⟨x, s.step⟩
  (fx.re, fx.im / s.step)

def perturb (s : ComplexStep) (x : Array Float) (j : Nat) :
    Except Error (Vector (Complex Float)) :=
  if j ≥ x.size then .error (.index "ComplexStep" [j] [x.size])
  else (Vector.zeros (α := Complex Float) x.size).map fun _ =>
    ⟨x.mapIdx fun i r => ⟨r, if i = j then s.step else 0.0⟩⟩

/-- How far a perturbed real part lies from the real value, when they disagree beyond the
duality tolerance; two NaNs agree. -/
def drift (real perturbed : Float) : Option Float :=
  if (real.isNaN && perturbed.isNaN) || Reduce.equal real perturbed dualityTolerance then none
  else some (real - perturbed).abs

/-- The real parts of the perturbed outputs of column `j` match the real outputs, up to a
drift that at least halves with the step. -/
def verifyDuality (s : ComplexStep) (k : DualKernel) (x : Array Float) (j : Nat)
    (real : Array Float) (perturbed : Array (Complex Float)) : Except Error Unit := do
  let drifted := (List.range real.size).filter fun i =>
    (drift (real.getD i 0.0) (perturbed.getD i Complex.zero').re).isSome
  if drifted.isEmpty then return
  let xc ← ({ s with step := 0.5 * s.step } : ComplexStep).perturb x j
  let refined ← k.evaluateIn xc.data
  for i in drifted do
    let r := real.getD i 0.0
    let c := (perturbed.getD i Complex.zero').re
    let d := (r - c).abs
    let dHalf := (drift r (refined.data.getD i Complex.zero').re).getD 0.0
    if !(dHalf ≤ driftRatio * d) then
      throw (.invariant "ComplexStep" ("column " ++ toString j ++ ": output " ++ toString i ++
        " has real part " ++ RealFloat.plainText c ++ " under perturbation, " ++
        RealFloat.plainText r ++ " without"))

/-- Column `j` of the Jacobian, checked against the real outputs `baseline` when given. -/
def column (s : ComplexStep) (k : DualKernel) (x : Array Float) (j : Nat)
    (baseline : Option (Array Float)) : Except Error (Vector Float) := do
  let xc ← s.perturb x j
  let fc ← k.evaluateIn xc.data
  if let some real := baseline then s.verifyDuality k x j real fc.data
  let col ← fc.imagPart
  return ⟨col.data.map (· / s.step)⟩

def jacobianColumn (s : ComplexStep) (k : DualKernel) (x : Array Float) (j : Nat) :
    Except Error (Vector Float) := do
  let baseline ← if s.checkDuality then some <$> (k.evaluateIn x).map (·.data) else pure none
  s.column k x j baseline

def ofColumns (m : Nat) (cols : List (Vector Float)) : Matrix Float :=
  Matrix.ofFn m cols.length .col fun i j => ((cols.getD j ⟨#[]⟩).data.getD i 0.0)

/-- The outputs of `k` at `x` and their Jacobian (column-major, outputs × inputs). The
matrix is allocated before the first column is computed. -/
def jacobian (s : ComplexStep) (k : DualKernel) (x : Array Float) :
    Except Error (Vector Float × Matrix Float) := do
  let value ← k.evaluateIn x
  let baseline := if s.checkDuality then some value.data else none
  let _ ← Matrix.zeros (α := Float) k.outputs x.size .col
  let cols ← (List.range x.size).mapM fun j => s.column k x j baseline
  return (value, ofColumns k.outputs cols)

/-- The results of `f` at `0, …, n - 1` gathered in index order, up to the first error. -/
def collectInOrder {α : Type} (f : Nat → Except Error α) (n : Nat) : Except Error (List α) :=
  (List.range n).mapM f

/-- `jacobian` with the columns evaluated concurrently: `collect` gathers the results of
the columns `0, …, n - 1` as the thread pool hands them over, and the matrix is allocated
only after every column is in. -/
def jacobianParWith
    (collect : (Nat → Except Error (Vector Float)) → Nat → Except Error (List (Vector Float)))
    (s : ComplexStep) (k : DualKernel) (x : Array Float) :
    Except Error (Vector Float × Matrix Float) := do
  let value ← k.evaluateIn x
  let baseline := if s.checkDuality then some value.data else none
  let cols ← collect (fun j => s.column k x j baseline) x.size
  let _ ← Matrix.zeros (α := Float) k.outputs x.size .col
  return (value, ofColumns k.outputs cols)

/-- `jacobianParWith` for a pool that hands the column results over in index order, as it
does whenever at most one column fails. -/
def jacobianPar (s : ComplexStep) (k : DualKernel) (x : Array Float) :
    Except Error (Vector Float × Matrix Float) :=
  jacobianParWith collectInOrder s k x

end ComplexStep

end DualArrays
