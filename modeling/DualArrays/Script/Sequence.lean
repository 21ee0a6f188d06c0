import DualArrays.Script.Vectors

namespace DualArrays

namespace Script

open Json

def errorWithState (e : Error) (state : Json) : Json :=
  match e.toJson with
  | .obj kvs => .obj (kvs ++ [("state", state)])
  | j => j

def runSteps {σ : Type} (encode : σ → Json) (step : σ → Json → Run (Json × σ)) :
    σ → List Json → Run (List Json)
  | _, [] => return []
  | s, j :: js =>
    match step s j with
    | .ok (r, s') => do
      return .obj [("result", r), ("state", encode s')] :: (← runSteps encode step s' js)
    | .error (.failed (.error e)) => do
      return errorWithState e (encode s) :: (← runSteps encode step s js)
    | .error f => .error f

def runSequence {σ : Type} (req : Json) (init : Run σ) (encode : σ → Json)
    (step : σ → Json → Run (Json × σ)) : Run Json := do
  let s ← init
  let steps ← asList (← req.req "steps")
  return .obj [("init", encode s), ("steps", .arr (← runSteps encode step s steps))]

def mutate {σ : Type} (s : σ) : Run (Json × σ) := return (.null, s)

def query {σ : Type} (s : σ) (r : Json) : Run (Json × σ) := return (r, s)

section

variable (α ρ : Type) [RealFloat ρ] [Scalar α ρ] [ScriptScalar α ρ]

def vectorStep (v : Vector α) (st : Json) : Run (Json × Vector α) := do
  let fn ← asString (← st.req "fn")
  let lift {β : Type} (r : Except Error β) : Run β := Run.lift r
  match fn with
  | "get" => query v (scalarOut α ρ (← lift (v.get (← asWord (← st.req "i")))))
  | "set" =>
    let i ← asWord (← st.req "i")
    mutate (← lift (v.set i (← scalarArg α ρ st "value")))
  | "resize" => mutate (← lift (v.resize (← asWord (← st.req "n"))))
  | "fill" => mutate (v.fill (← scalarArg α ρ st "value"))
  | "invert" => mutate v.invert
  | "scale" => mutate (v.scale (← scalarArg α ρ st "alpha"))
  | "add_to" => mutate (← lift (v.addTo (← vectorArg α ρ st "b").data))
  | "axpy" =>
    let x ← vectorArg α ρ st "x"
    mutate ⟨← lift (Reduce.axpy (← scalarArg α ρ st "alpha") x.data v.data)⟩
  | "sum" => query v (scalarOut α ρ v.sum)
  | "len" => query v (.nat v.size)
  | "norm" => query v (realOut α ρ (v.norm (← normArg st)))
  | _ => Run.bad ("unknown vector.seq fn " ++ fn)

def vectorSeq (req : Json) : Run Json :=
  runSequence req (do Json.asVector (← req.req "init")) (vectorOut α ρ) (vectorStep α ρ)

end

end Script

end DualArrays
