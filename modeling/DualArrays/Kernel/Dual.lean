import DualArrays.Kernel.Expr

namespace DualArrays

/-- A kernel with one body for real and complex scalars. -/
structure DualKernel where
  inputs : Nat
  outputs : Nat
  evalReal : Array Float → Except Error (Nat → Float)
  evalComplex : Array (Complex Float) → Except Error (Nat → Complex Float)

/-- A scalar kind a dual kernel is instantiated at. -/
class KernelSet (α : Type) where
  body : DualKernel → Array α → Except Error (Nat → α)

instance : KernelSet Float := ⟨DualKernel.evalReal⟩

instance : KernelSet (Complex Float) := ⟨DualKernel.evalComplex⟩

namespace DualKernel

variable {α : Type} [Element α] [KernelSet α]

/-- The outputs at `x`, which must hold one value per input; the output vector is
allocated before the body runs. -/
def evaluateIn (k : DualKernel) (x : Array α) : Except Error (Vector α) :=
  if x.size ≠ k.inputs then .error (.dimension "evaluate_in" [k.inputs] [x.size])
  else do
    let _ ← (Vector.zeros k.outputs : Except Error (Vector α))
    let out ← KernelSet.body k x
    return ⟨Array.ofFn fun i : Fin k.outputs => out i⟩

theorem evaluateIn_size {k : DualKernel} {x : Array α} {v : Vector α}
    (h : k.evaluateIn x = .ok v) : v.size = k.outputs := by
  unfold evaluateIn at h
  split at h
  · cases h
  · cases hz : (Vector.zeros k.outputs : Except Error (Vector α)) with
    | error e => simp [hz, bind, Except.bind] at h
    | ok z =>
      cases hb : (KernelSet.body k x : Except Error (Nat → α)) with
      | error e => simp [hz, hb, bind, Except.bind] at h
      | ok out =>
        simp [hz, hb, bind, Except.bind, pure, Except.pure] at h
        subst h
        simp [Vector.size]

end DualKernel

def Kernel.values {α ρ : Type} [RealFloat ρ] [Scalar α ρ] (k : Kernel) (x : Array α) :
    Array α :=
  (k.outputs.map (·.eval x)).toArray

def Kernel.toDual (k : Kernel) : DualKernel where
  inputs := k.inputs
  outputs := k.outputCount
  evalReal x :=
    let values := k.values x
    .ok fun i => values.getD i Element.dflt
  evalComplex x :=
    let values := k.values x
    .ok fun i => values.getD i Element.dflt

end DualArrays
