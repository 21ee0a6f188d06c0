import DualArrays.Script.Decode
import DualArrays.Config.Toml

namespace DualArrays

namespace Script

open Json

def setConfig (c : Config) : String × Json → Run Config
  | ("dim", v) => do return { c with dim := ← asWord v }
  | ("n_eq", v) => do return { c with nEq := ← asWord v }
  | ("n_var", v) => do return { c with nVar := ← asWord v }
  | ("p_max", v) => do return { c with pMax := ← asWord v }
  | ("layout", v) => do return { c with layout := ← asLayout v }
  | ("complex_step", v) => do return { c with complexStep := ← asFloat v }
  | ("check_duality", v) => do return { c with checkDuality := ← asBool v }
  | ("print_tol", v) => do return { c with printTol := ← asFloat v }
  | (k, _) => Run.bad ("unknown config key " ++ k)

def asConfig : Json → Run Config
  | .obj kvs => kvs.foldlM setConfig {}
  | _ => Run.bad "config must be an object"

def configArg (req : Json) : Run Config :=
  match req.opt "config" with
  | some j => asConfig j
  | none => .ok {}

def configJson (c : Config) : Json :=
  .obj [("check_duality", .bool c.checkDuality), ("complex_step", .float c.complexStep),
    ("dim", .nat c.dim), ("layout", .str c.layout.text), ("n_eq", .nat c.nEq),
    ("n_var", .nat c.nVar), ("p_max", .nat c.pMax), ("print_tol", .float c.printTol)]

def checkJson (r : Except Error Unit) : Json :=
  match r with
  | .ok () => .bool true
  | .error e => e.toJson

def serializedJson (c : Config) : Json :=
  match c.toToml with
  | .error e => e.toJson
  | .ok t =>
    match Config.ofToml t with
    | .ok c' => .obj [("round_trip_equal", .bool (c'.beq c)), ("toml", .str t)]
    | .error e => .obj [("reparse", e.toJson), ("toml", .str t)]

def configOp (req : Json) (fn : String) : Run Json := do
  match fn with
  | "from_toml" =>
    let c ← Run.lift (Config.ofToml (← asString (← req.req "toml")))
    return .obj [("config", configJson c), ("toml", .str (← Run.lift c.toToml))]
  | "build" =>
    let c ← configArg req
    return .obj [("config", configJson c), ("serialized", serializedJson c),
      ("validate", checkJson c.validate)]
  | "n_basis" =>
    let c ← configArg req
    let p ← asWord (← req.req "p")
    return .nat (← Run.liftF (c.nBasis p))
  | _ => Run.bad ("unknown op config." ++ fn)

end Script

end DualArrays
