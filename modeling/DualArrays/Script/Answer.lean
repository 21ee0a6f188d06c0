import DualArrays.Script.Scalars
import DualArrays.Script.Settings
import DualArrays.Script.Kernels
import DualArrays.Script.Vectors
import DualArrays.Script.Matrices
import DualArrays.Script.Multiarrays
import DualArrays.Script.Sparse
import DualArrays.Script.Products
import DualArrays.Script.Nesting
import DualArrays.Script.Json.Read

namespace DualArrays

namespace Script

open Json

def fnArg (req : Json) : Run String := do asString (← req.req "fn")

def run (depth : Nat) (req : Json) : Run Json := do
  let op ← asString (← req.req "op")
  match op with
  | "scalar" =>
    let fn ← fnArg req
    (← req.dtype).run fun α ρ => scalarOp α ρ req fn
  | "branch" =>
    let fn ← fnArg req
    (← req.dtype).run fun α ρ => branchOp α ρ req fn
  | "math" =>
    let fn ← fnArg req
    (← req.dtype).run fun α ρ => mathOp α ρ req fn
  | "config.from_toml" => configOp req "from_toml"
  | "config.build" => configOp req "build"
  | "config.n_basis" => configOp req "n_basis"
  | "evaluate_in" => evaluateInOp req
  | "vector" => vectorRequest req
  | "vector.seq" => (← req.dtype).run fun α ρ => vectorSeq α ρ req
  | "matrix.seq" => (← req.dtype).run fun α ρ => matrixSeq α ρ req
  | "multiarray.seq" => (← req.dtype).run fun α ρ => multiarraySeq α ρ req
  | "csr.seq" => (← req.dtype).run fun α ρ => csrSeq α ρ req
  | "blas" =>
    let fn ← fnArg req
    (← req.dtype).run fun α ρ => blasOp α ρ req fn
  | "vector_array.seq" => (← req.intDtype).run fun α => vectorArraySeq α req
  | "nested.free" => nestedFree req
  | "level.seq" => levelSeq req
  | "transpose.from_char" =>
    return .str (String.singleton (← asTranspose (← req.req "c")).toChar)
  | "layout.from_char" =>
    let l ← asLayout (← req.req "c")
    return .obj [("as_char", .str (String.singleton l.toChar)), ("flipped", .str l.flip.text),
      ("layout", .str l.text)]
  | "or_fatal" =>
    let operation ← asString (← req.req "operation")
    let inner ← req.req "inner"
    match depth with
    | 0 => Run.bad "requests nested too deeply"
    | depth + 1 =>
      match run depth inner with
      | .error (.failed (.error e)) => .error (.failed (e.fatal operation))
      | r => r
  | _ =>
    match op.dropPrefix? "cs." with
    | some fn => complexStepOp req fn.toString
    | none => Run.bad ("unknown op " ++ op)

/-- The answer to a request: the computed value, or the fault that stopped it. A document
nests at most 128 values inside each other, so no request holds more requests than that. -/
def answer (req : Json) : Json :=
  match run 128 req with
  | .ok j => j
  | .error f => f.toJson

def answerLine (line : String) : String :=
  match Json.read line with
  | .ok req => (answer req).render
  | .error e => (Fault.badInput ("invalid JSON: " ++ e.describe line)).toJson.render

end Script

end DualArrays
