import DualArrays.Script.Decode
import DualArrays.Branch

namespace DualArrays

namespace Script

open Json

section

variable (α ρ : Type) [RealFloat ρ] [Scalar α ρ] [ScriptScalar α ρ]

def scalarArg (req : Json) (key : String) : Run α := do ScriptScalar.decode (← req.req key)

def realArg (req : Json) (key : String) : Run ρ := do
  ScriptScalar.decodeReal (α := α) (← req.req key)

def scalarOut (x : α) : Json := ScriptScalar.encode x

def realOut (r : ρ) : Json := ScriptScalar.encodeReal (α := α) r

def scalarOp (req : Json) (fn : String) : Run Json := do
  let x := scalarArg α ρ req "x"
  let y := scalarArg α ρ req "y"
  let r := realArg α ρ req "r"
  let out := scalarOut α ρ
  let outR := realOut α ρ
  match fn with
  | "add" => return out ((← x) + (← y))
  | "sub" => return out ((← x) - (← y))
  | "mul" => return out ((← x) * (← y))
  | "div" => return out ((← x) / (← y))
  | "add_assign" => return out ((← x) + (← y))
  | "neg" => return out (-(← x))
  | "sqrt" => return out (Scalar.sqrt (← x))
  | "exp" => return out (Scalar.exp (← x))
  | "ln" => return out (Scalar.ln (← x))
  | "sin" => return out (Scalar.sin (← x))
  | "cos" => return out (Scalar.cos (← x))
  | "recip" => return out (Scalar.recip (← x))
  | "conj" => return out (Scalar.conj (← x))
  | "powi" => do
    let n ← asSigned 32 (← req.req "n")
    return out (Scalar.powi (← x) n)
  | "powf" => return out (Scalar.powf (← x) (← r))
  | "scale" => return out (Scalar.scale (← x) (← r))
  | "unscale" => return out (Scalar.unscale (← x) (← r))
  | "modulus" => return outR (Scalar.modulus (← x))
  | "real_part" | "real_part_fn" => return outR (Scalar.re (← x))
  | "imag_part" => return outR (Scalar.im (← x))
  | "is_finite" => return .bool (Scalar.isFinite (← x))
  | "from_parts" =>
    return out (Scalar.ofParts (← realArg α ρ req "re") (← realArg α ρ req "im"))
  | "from_real" => return out (Scalar.ofReal (← r))
  | "from_f64" => return out (Scalar.ofFloat (← asFloat (← req.req "v")))
  | "from_usize" => return out (Scalar.ofUInt64 (← asWord (← req.req "n")).toUInt64)
  | "zero" => return out Scalar.zero
  | "one" => return out Scalar.one
  | "kind" => return .obj [("is_complex", .bool (Scalar.isComplex α)),
      ("kind", .str (Scalar.kind (α := α)))]
  | "sum" => do
    let xs ← asListOf ScriptScalar.decode (← req.req "xs")
    return out (Scalar.sum (α := α) xs)
  | "epsilon" => return outR RealFloat.epsilon
  | "infinity" => return outR RealFloat.infinity
  | "to_f64" => return .float (RealFloat.toFloat (← r))
  | "real_max" => return outR (RealFloat.fmax (← r) (← realArg α ρ req "r2"))
  | "real_min" => return outR (RealFloat.fmin (← r) (← realArg α ρ req "r2"))
  | "real_abs" => return outR (RealFloat.abs (← r))
  | _ => Run.bad ("unknown scalar fn " ++ fn)

def branchOp (req : Json) (fn : String) : Run Json := do
  let a := scalarArg α ρ req "a"
  let b := scalarArg α ρ req "b"
  let out := scalarOut α ρ
  match fn with
  | "abs" => return out (Branch.abs (← a))
  | "max" => return out (Branch.max (← a) (← b))
  | "min" => return out (Branch.min (← a) (← b))
  | "max_abs_real" => return out (Branch.maxAbsReal (← a) (← b))
  | "min_abs_real" => return out (Branch.minAbsReal (← a) (← b))
  | "select_if_nonnegative" =>
    return out (Branch.selectIfNonnegative (← scalarArg α ρ req "cond") (← a) (← b))
  | _ => Run.bad ("unknown branch fn " ++ fn)

def entriesArg (req : Json) (key : String) : Run (Array α) := do
  return (← asListOf ScriptScalar.decode (← req.req key)).toArray

def realEntriesArg (req : Json) (key : String) : Run (Array ρ) := do
  return (← asListOf (ScriptScalar.decodeReal (α := α)) (← req.req key)).toArray

def normArg (req : Json) : Run NormKind :=
  match req.opt "norm" with
  | none => .ok .l2
  | some (.str "L2") => .ok .l2
  | some (.str "Inf") => .ok .inf
  | some j => Run.bad ("bad norm " ++ j.render)

def entriesOut (xs : Array α) : Json := .arr (xs.toList.map ScriptScalar.encode)

def mathOp (req : Json) (fn : String) : Run Json := do
  let a := entriesArg α ρ req "a"
  let b := entriesArg α ρ req "b"
  let outR := realOut α ρ
  match fn with
  | "norm" => return outR (Reduce.norm (← a) (← normArg req))
  | "norm_real_part" => return outR (Reduce.normRealPart (← a) (← normArg req))
  | "norm_diff" => return outR (← Run.lift (Reduce.normDiff (← a) (← b) (← normArg req)))
  | "norm_diff_inf_abs" => return outR (← Run.lift (Reduce.normDiffInfAbs (← a) (← b)))
  | "equal" =>
    return .bool (Reduce.equal (← scalarArg α ρ req "x0") (← scalarArg α ρ req "x1")
      (← realArg α ρ req "tol"))
  | "equal_rel" =>
    return .bool (Reduce.equalRel (← scalarArg α ρ req "x0") (← scalarArg α ρ req "x1")
      (← realArg α ρ req "tol") (← scalarArg α ρ req "den"))
  | "all_equal" => return .bool (Reduce.allEqual (← a) (← b) (← realArg α ρ req "tol"))
  | "average" => return scalarOut α ρ (← Run.lift (Reduce.average (← a)))
  | "minimum" => return ((Reduce.minimum (← a)).map (scalarOut α ρ)).getD .null
  | "maximum_real" => return ((Reduce.maximumReal (← a)).map outR).getD .null
  | "maximum_abs" => return outR (Reduce.maximumAbs (← a))
  | "dot" => return scalarOut α ρ (← Run.lift (Reduce.dot (← a) (← b)))
  | "dot_real" =>
    return outR (← Run.lift (Reduce.dotReal (← realEntriesArg α ρ req "a") (← b)))
  | "z_yxpz" =>
    return entriesOut α ρ (← Run.lift (Reduce.zYxpz (← entriesArg α ρ req "x")
      (← entriesArg α ρ req "y") (← entriesArg α ρ req "z")))
  | "z_yxpz_real" =>
    return entriesOut α ρ (← Run.lift (Reduce.zYxpzReal (← realEntriesArg α ρ req "x")
      (← entriesArg α ρ req "y") (← entriesArg α ρ req "z")))
  | "axpy" =>
    return entriesOut α ρ (← Run.lift (Reduce.axpy (← scalarArg α ρ req "alpha")
      (← entriesArg α ρ req "x") (← entriesArg α ρ req "y")))
  | "add_constant" =>
    return entriesOut α ρ (Reduce.addConstant (← a) (← scalarArg α ρ req "c"))
  | _ => Run.bad ("unknown math fn " ++ fn)

end

end Script

end DualArrays
