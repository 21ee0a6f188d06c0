import DualArrays.Script.Kernels
import DualArrays.Script.Scalars
import DualArrays.Display.Tolerance

namespace DualArrays

namespace Script

open Json

section

variable (α ρ : Type) [RealFloat ρ] [Scalar α ρ] [ScriptScalar α ρ]

def vectorArg (req : Json) (key : String) : Run (Vector α) := do Json.asVector (← req.req key)

def vectorOut (v : Vector α) : Json := Vector.toJson v

def configTol (req : Json) : Run ρ := do return Tolerance.ofConfig (← configArg req)

def vectorOp (req : Json) (fn : String) : Run Json := do
  let a := vectorArg α ρ req "a"
  let b := vectorArg α ρ req "b"
  let alpha := scalarArg α ρ req "alpha"
  let out := vectorOut α ρ
  let lift {β : Type} (r : Except Error β) : Run β := Run.lift r
  match fn with
  | "zeros" => return out (← lift (Vector.zeros (← asWord (← req.req "n"))))
  | "filled" =>
    let n ← asWord (← req.req "n")
    return out (← lift (Vector.filled n (← scalarArg α ρ req "value")))
  | "copy_from_slice" | "to_vector" => return out (← lift (Vector.copyOf (← a).data))
  | "len" =>
    let n := (← a).size
    return .obj [("is_empty", .bool (n == 0)), ("len", .nat n)]
  | "get" => return scalarOut α ρ (← lift ((← a).get (← asWord (← req.req "i"))))
  | "set" =>
    let a ← a
    let i ← asWord (← req.req "i")
    return out (← lift (a.set i (← scalarArg α ρ req "value")))
  | "fill" => return out ((← a).fill (← scalarArg α ρ req "value"))
  | "sum" => return scalarOut α ρ (← a).sum
  | "norm" => return realOut α ρ ((← a).norm (← normArg req))
  | "dot" => return scalarOut α ρ (← lift ((← a).dot (← b)))
  | "real_part" => return Vector.realJson (α := α) (← lift (← a).realPart)
  | "imag_part" => return Vector.realJson (α := α) (← lift (← a).imagPart)
  | "from_real" =>
    let r ← Json.asRealVector (α := α) (← req.req "a")
    return out (← lift (Vector.ofReal r))
  | "invert" => return out (← a).invert
  | "scale" => return out ((← a).scale (← alpha))
  | "add_to" => return out (← lift ((← a).addTo (← b).data))
  | "resize" => return out (← lift ((← a).resize (← asWord (← req.req "n"))))
  | "repeated" =>
    return out (← lift (Vector.repeated (← alpha) (← a) (← asWord (← req.req "n"))))
  | "dot_mult" =>
    let al ← alpha
    let a ← a
    let b ← b
    return out (← lift (Vector.dotMult al a b (← asWord (← req.req "n"))))
  | "dot_mult_inverse_2nd" =>
    let al ← alpha
    let a ← a
    let b ← b
    return out (← lift (Vector.dotMultInverse2nd al a b (← asWord (← req.req "n"))))
  | "sum_scaled" =>
    return out (← lift (Vector.sumScaled (← scalarArg α ρ req "alpha0") (← a)
      (← scalarArg α ρ req "alpha1") (← b)))
  | "display" | "display_view" => return .str (← a).text
  | "display_tol" => return .str ((← a).tolText (← realArg α ρ req "tol"))
  | "display_cfg" => return .str ((← a).tolText (← configTol ρ req))
  | "add" => return out (← Run.liftF (Vector.entrywise "add" (· + ·) (← a) (← b)))
  | "sub" => return out (← Run.liftF (Vector.entrywise "sub" (· - ·) (← a) (← b)))
  | "mul" => return out (← Run.liftF (Vector.entrywise "mul" (· * ·) (← a) (← b)))
  | "div" => return out (← Run.liftF (Vector.entrywise "div" (· / ·) (← a) (← b)))
  | "add_scalar" => return out (Vector.broadcast (· + ·) (← a) (← alpha))
  | "sub_scalar" => return out (Vector.broadcast (· - ·) (← a) (← alpha))
  | "mul_scalar" => return out (Vector.broadcast (· * ·) (← a) (← alpha))
  | "div_scalar" => return out (Vector.broadcast (· / ·) (← a) (← alpha))
  | "neg" => return out (← a).neg
  | "map" =>
    let e ← exprOf 1 (← req.req "expr")
    return out (← lift ((← a).map fun v => e.eval #[v]))
  | "zip_map" =>
    let e ← exprOf 2 (← req.req "expr")
    return out (← lift ((← a).zipMap (← b) fun u v => e.eval #[u, v]))
  | _ => Run.bad ("unknown vector fn " ++ fn)

end

def intVectorOp (α : Type) [Element α] [ScriptInt α] (req : Json) (fn : String) : Run Json := do
  let a : Run (Vector α) := do
    return ⟨(← asListOf ScriptInt.decode (← req.req "a")).toArray⟩
  let out (v : Vector α) : Json := .arr (v.data.toList.map ScriptInt.encode)
  match fn with
  | "sort" => return out ((← a).sortBy fun x y => !(ScriptInt.lt y x))
  | "display" => return .str (← a).text
  | "get" => return ScriptInt.encode (← Run.lift ((← a).get (← asWord (← req.req "i"))))
  | "set" =>
    let x ← ScriptInt.decode (← req.req "value")
    return out (← Run.lift ((← a).set (← asWord (← req.req "i")) x))
  | "resize" => return out (← Run.lift ((← a).resize (← asWord (← req.req "n"))))
  | "zeros" => return out (← Run.lift (Vector.zeros (α := α) (← asWord (← req.req "n"))))
  | _ => Run.bad ("unknown vector fn " ++ fn)

def intRequest (req : Json) : Bool :=
  match req.opt "dtype" with
  | some (.str "i32") | some (.str "i64") | some (.str "usize") => true
  | _ => false

def vectorRequest (req : Json) : Run Json := do
  let fn ← asString (← req.req "fn")
  if intRequest req then (← req.intDtype).run fun α => intVectorOp α req fn
  else (← req.dtype).run fun α ρ => vectorOp α ρ req fn

end Script

end DualArrays
