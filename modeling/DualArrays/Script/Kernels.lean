import DualArrays.Script.Settings
import DualArrays.Kernel.ComplexStep

namespace DualArrays

namespace Script

open Json

def unaryOp? : String → Option UnaryOp
  | "neg" => some .neg
  | "sqrt" => some .sqrt
  | "exp" => some .exp
  | "ln" => some .ln
  | "sin" => some .sin
  | "cos" => some .cos
  | "recip" => some .recip
  | "conj" => some .conj
  | "abs" => some .abs
  | _ => none

def binaryOp? : String → Option BinaryOp
  | "add" => some .add
  | "sub" => some .sub
  | "mul" => some .mul
  | "div" => some .div
  | "max" => some .max
  | "min" => some .min
  | "max_abs_real" => some .maxAbsReal
  | "min_abs_real" => some .minAbsReal
  | _ => none

def asExpr (n : Nat) : Nat → Json → Run Expr
  | 0, _ => Run.bad "expression nested too deeply"
  | fuel + 1, j =>
    match j with
    | .arr [.str "x", i] => do
      let i ← asWord i
      if i < n then return .input i
      else Run.bad ("input x" ++ toString i ++ " out of range for " ++ toString n ++ " inputs")
    | .arr [.str "powi", e, k] => return .powi (← asExpr n fuel e) (← asSigned 32 k)
    | .arr [.str "powf", e, r] => return .powf (← asExpr n fuel e) (← asFloat r)
    | .arr [.str "scale", e, r] => return .scale (← asExpr n fuel e) (← asFloat r)
    | .arr [.str "unscale", e, r] => return .unscale (← asExpr n fuel e) (← asFloat r)
    | .arr [.str "select", c, a, b] =>
      return .select (← asExpr n fuel c) (← asExpr n fuel a) (← asExpr n fuel b)
    | .arr [.str "if_imag_nonzero", c, a, b] =>
      return .ifImagNonzero (← asExpr n fuel c) (← asExpr n fuel a) (← asExpr n fuel b)
    | .arr [.str "if_modulus_gt", c, r, a, b] =>
      return .ifModulusGt (← asExpr n fuel c) (← asFloat r) (← asExpr n fuel a)
        (← asExpr n fuel b)
    | .arr [.str op, e] =>
      match unaryOp? op with
      | some u => return .unary u (← asExpr n fuel e)
      | none => Run.bad ("unknown expression " ++ j.render)
    | .arr [.str op, a, b] =>
      match binaryOp? op with
      | some o => return .binary o (← asExpr n fuel a) (← asExpr n fuel b)
      | none => Run.bad ("unknown expression " ++ j.render)
    | .arr _ => Run.bad ("unknown expression " ++ j.render)
    | _ => return .const (← asFloat j)

def exprOf (n : Nat) (j : Json) : Run Expr := asExpr n j.render.length j

def asKernel (j : Json) : Run Kernel := do
  let n ← asWord (← j.req "n_inputs")
  let outputs ← asListOf (exprOf n) (← j.req "outputs")
  return ⟨n, outputs⟩

/-- The complex-step settings of a request: `step` when present, the defaults otherwise,
and `check_duality` over either. -/
def stepArg (req : Json) : Run ComplexStep := do
  let s ← match req.opt "step" with
    | some j => Run.lift (ComplexStep.new (← asFloat j))
    | none => pure {}
  match req.opt "check_duality" with
  | some j => return { s with checkDuality := ← asBool j }
  | none => return s

def stepJson (s : ComplexStep) : Json :=
  .obj [("check_duality", .bool s.checkDuality), ("step", .float s.step)]

def realsJson (v : Vector Float) : Json := .arr (v.data.toList.map .float)

def complexJson (v : Vector (Complex Float)) : Json :=
  .arr (v.data.toList.map ScriptScalar.encode)

def realsArg (req : Json) : Run (Array Float) := do
  return (← asListOf asFloat (← req.req "x")).toArray

def linearizationJson (r : Vector Float × Matrix Float) : Json :=
  .obj [("jacobian", r.2.jsonOf .float), ("value", realsJson r.1)]

def complexStepOp (req : Json) (fn : String) : Run Json := do
  match fn with
  | "new" => return stepJson (← stepArg req)
  | "from_config" => return stepJson (← Run.lift (ComplexStep.ofConfig (← configArg req)))
  | "derivative" =>
    let e ← exprOf 1 (← req.req "expr")
    let x ← asFloat (← req.req "x")
    let s ← stepArg req
    let (value, d) := s.derivative (fun z => e.eval #[z]) x
    return .obj [("derivative", .float d), ("value", .float value)]
  | "perturb" =>
    let x ← realsArg req
    let j ← asWord (← req.req "j")
    let s ← stepArg req
    return complexJson (← Run.lift (s.perturb x j))
  | "jacobian_column" =>
    let k ← asKernel (← req.req "kernel")
    let x ← realsArg req
    let j ← asWord (← req.req "j")
    let s ← stepArg req
    return realsJson (← Run.lift (s.jacobianColumn k.toDual x j))
  | "jacobian" =>
    let k ← asKernel (← req.req "kernel")
    let x ← realsArg req
    let s ← stepArg req
    return linearizationJson (← Run.lift (s.jacobian k.toDual x))
  | "jacobian_par" =>
    let k ← asKernel (← req.req "kernel")
    let x ← realsArg req
    let s ← stepArg req
    return linearizationJson (← Run.lift (s.jacobianPar k.toDual x))
  | _ => Run.bad ("unknown op cs." ++ fn)

def evaluateInOp (req : Json) : Run Json := do
  let set ← asString (← req.req "set")
  let k ← asKernel (← req.req "kernel")
  match set with
  | "real" => return realsJson (← Run.lift (k.toDual.evaluateIn (← realsArg req)))
  | "complex" =>
    let x ← asListOf (ScriptScalar.decode (α := Complex Float)) (← req.req "x")
    return complexJson (← Run.lift (k.toDual.evaluateIn x.toArray))
  | _ => Run.bad ("unknown set " ++ set)

end Script

end DualArrays
