import DualArrays.Script.Matrices

namespace DualArrays

namespace Script

open Json

def asTranspose (j : Json) : Run Transpose := do
  let c ← asChar j
  match Transpose.ofChar? c with
  | some t => return t
  | none => .error (.failed (.error (.invalidArgument "transpose flag must be 'N' or 'T'")))

def asSide (j : Json) : Run Side := do
  match ← asString j with
  | "left" => return .left
  | "right" => return .right
  | s => Run.bad ("bad side " ++ s)

section

variable (α ρ : Type) [RealFloat ρ] [Scalar α ρ] [ScriptScalar α ρ]

def blasOp (req : Json) (fn : String) : Run Json := do
  let lift {β : Type} (r : Except Error β) : Run β := Run.lift r
  let x := do return (← vectorArg α ρ req "x").data
  let y := do return (← vectorArg α ρ req "y").data
  let alpha := scalarArg α ρ req "alpha"
  let beta := scalarArg α ρ req "beta"
  let entries (xs : Array α) : Json := vectorOut α ρ ⟨xs⟩
  let trans := do asTranspose (← req.req "trans")
  let transA := do asTranspose (← req.req "trans_a")
  let transB := do asTranspose (← req.req "trans_b")
  match fn with
  | "dot" => return scalarOut α ρ (← lift (Reduce.dot (← x) (← y)))
  | "axpy" => return entries (← lift (Reduce.axpy (← alpha) (← x) (← y)))
  | "nrm2" => return realOut α ρ (Reduce.norm (← x) .l2)
  | "asum" => return realOut α ρ (Blas.asum (← x))
  | "scal" => return entries (Vector.scale ⟨← x⟩ (← alpha)).data
  | "iamax" => return ((Blas.iamax (← x)).map Json.nat).getD .null
  | "mv" =>
    let t ← trans
    let al ← alpha
    let a ← matrixArg α ρ req "a"
    return entries (← lift (Blas.mv t al a (← x) (← beta) (← y)))
  | "mv_real" =>
    let t ← trans
    let a ← Json.asRealMatrix (α := α) (← req.req "a")
    return entries (← lift (Blas.mvReal t (← alpha) a (← x) (← beta) (← y)))
  | "mv_new" =>
    let t ← trans
    let al ← alpha
    let a ← matrixArg α ρ req "a"
    return vectorOut α ρ (← lift (Blas.mvNew t al a (← x)))
  | "mm" =>
    let ta ← transA
    let tb ← transB
    return matrixOut α ρ (← lift (Blas.mm ta tb (← alpha) (← matrixArg α ρ req "a")
      (← matrixArg α ρ req "b") (← beta) (← matrixArg α ρ req "c")))
  | "mm_real" =>
    let ta ← transA
    let tb ← transB
    let a ← Json.asRealMatrix (α := α) (← req.req "a")
    return matrixOut α ρ (← lift (Blas.mmReal ta tb (← alpha) a (← matrixArg α ρ req "b")
      (← beta) (← matrixArg α ρ req "c")))
  | "mm_new" =>
    let ta ← transA
    let tb ← transB
    return matrixOut α ρ (← lift (Blas.mmNew ta tb (← alpha) (← matrixArg α ρ req "a")
      (← matrixArg α ρ req "b") (← asLayout (← req.req "layout"))))
  | "mm_multiarray" =>
    let a ← matrixArg α ρ req "a"
    let b ← asMultiarrayOf ScriptScalar.decode (← req.req "b")
    return multiarrayOut α ρ (← Run.liftF (Blas.mmMultiarray (← alpha) a b))
  | "scale_by_diagonal" =>
    let side ← asSide (← req.req "side")
    let a ← matrixArg α ρ req "a"
    let d ← vectorArg α ρ req "d"
    let invert ← asBool (← req.req "invert")
    return matrixOut α ρ (← lift (Blas.scaleByDiagonal side (← alpha) a d.data invert))
  | _ => Run.bad ("unknown blas fn " ++ fn)

end

end Script

end DualArrays
