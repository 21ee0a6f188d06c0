import DualArrays.Script.Matrices
import DualArrays.Display.Multiarray

namespace DualArrays

namespace Script

open Json

section

variable (α ρ : Type) [RealFloat ρ] [Scalar α ρ] [ScriptScalar α ρ]

def multiarrayInit (j : Json) : Run (Multiarray α) := do
  let lift {β : Type} (r : Except Error β) : Run β := Run.lift r
  let nodes (k : Json) : Run (Config × Nat) := do
    return (← configArg k, ← asWord (← k.req "n_nodes"))
  match j with
  | .obj [("zeros", z)] =>
    lift (Multiarray.zeros (← asWords (← z.req "extents")) (← asLayout (← z.req "layout")))
  | .obj [("filled", f)] =>
    lift (Multiarray.filled (← asWords (← f.req "extents")) (← asLayout (← f.req "layout"))
      (← scalarArg α ρ f "value"))
  | .obj [("from_matrix", m)] => return Multiarray.ofMatrix (← Json.asMatrix m)
  | .obj [("from_real", r)] =>
    lift (Multiarray.ofReal (← asMultiarrayOf (ScriptScalar.decodeReal (α := α)) r))
  | .obj [("zeros_with", z)] =>
    lift (Multiarray.zerosWith (← configArg z) (← asWords (← z.req "extents")))
  | .obj [("solution", k)] => let (c, n) ← nodes k; lift (Multiarray.solution c n)
  | .obj [("flux", k)] => let (c, n) ← nodes k; lift (Multiarray.flux c n)
  | .obj [("flux_jacobian", k)] => let (c, n) ← nodes k; lift (Multiarray.fluxJacobian c n)
  | .obj [("coefficients", k)] =>
    Run.liftF (Multiarray.coefficients (← configArg k) (← asWord (← k.req "p")))
  | _ => asMultiarrayOf ScriptScalar.decode j

def multiarrayStep (m : Multiarray α) (st : Json) : Run (Json × Multiarray α) := do
  let fn ← asString (← st.req "fn")
  let lift {β : Type} (r : Except Error β) : Run β := Run.lift r
  let index : Run (List Nat) := do asWords (← st.req "index")
  let out := multiarrayOut α ρ
  let realOutM (r : Multiarray ρ) : Json :=
    multiarrayJsonOf (ScriptScalar.encodeReal (α := α)) r
  match fn with
  | "get" => query m (scalarOut α ρ (← lift (m.get (← index))))
  | "set" => mutate (← lift (m.set (← index) (← scalarArg α ρ st "value")))
  | "col" =>
    query m (vectorOut α ρ (← Run.liftF (Multiarray.colAt "Multiarray::col" m
      (← asWord (← st.req "j")))))
  | "col_mut" =>
    query m (vectorOut α ρ (← Run.liftF (Multiarray.colAt "Multiarray::col_mut" m
      (← asWord (← st.req "j")))))
  | "sub_matrix" =>
    query m (matrixOut α ρ (← Run.liftF (m.subMatrix (← asWords (← st.req "tail")))))
  | "as_matrix" => query m (matrixOut α ρ (← lift (m.toMatrix "Multiarray::as_matrix")))
  | "into_matrix" => query m (matrixOut α ρ (← lift (m.toMatrix "Multiarray::into_matrix")))
  | "as_vector" => query m (vectorOut α ρ (← lift m.toVector))
  | "offset" => query m (.nat (← Run.liftF (m.offsetChecked (← index))))
  | "fill" => mutate (m.fill (← scalarArg α ρ st "value"))
  | "scale" => mutate (m.scale (← scalarArg α ρ st "alpha"))
  | "real_part" => query m (realOutM (← lift m.realPart))
  | "imag_part" => query m (realOutM (← lift m.imagPart))
  | "display" => query m (.str m.text)
  | "display_tol" => query m (.str (m.tolText (← realArg α ρ st "tol")))
  | "display_cfg" => query m (.str (m.tolText (← configTol ρ st)))
  | "mm_multiarray" =>
    let a ← matrixArg α ρ st "a"
    query m (out (← Run.liftF (Blas.mmMultiarray (← scalarArg α ρ st "alpha") a m)))
  | "to_multiarray" => query m (out (← lift m.copy))
  | "debug" => query m (.str m.debugText)
  | "len" =>
    query m (.obj [("is_empty", .bool (m.size == 0)), ("len", .nat m.size),
      ("order", .nat m.order)])
  | _ => Run.bad ("unknown multiarray.seq fn " ++ fn)

def multiarraySeq (req : Json) : Run Json :=
  runSequence req (do multiarrayInit α ρ (← req.req "init")) (multiarrayOut α ρ)
    (multiarrayStep α ρ)

end

end Script

end DualArrays
