import DualArrays.Script.Sequence
import DualArrays.Script.Containers
import DualArrays.Linalg.Blas

namespace DualArrays

namespace Script

open Json

section

variable (α ρ : Type) [RealFloat ρ] [Scalar α ρ] [ScriptScalar α ρ]

def matrixOut (m : Matrix α) : Json := Matrix.toJson m

def realMatrixOut (m : Matrix ρ) : Json := Matrix.realJson (α := α) m

def multiarrayOut (m : Multiarray α) : Json := multiarrayJsonOf ScriptScalar.encode m

def csrOut (a : Csr α) : Json := csrJsonOf ScriptScalar.encode a

def matrixArg (req : Json) (key : String) : Run (Matrix α) := do Json.asMatrix (← req.req key)

def csrArg (req : Json) (key : String) : Run (Csr α) := do
  asCsrOf ScriptScalar.decode (← req.req key)

def matrixInit (j : Json) : Run (Matrix α) := do
  let lift {β : Type} (r : Except Error β) : Run β := Run.lift r
  match j.field? "zeros", j.field? "filled", j.field? "identity", j.field? "from_real",
      j.field? "from_csr" with
  | some z, _, _, _, _ =>
    lift (Matrix.zeros (← asWord (← z.req "rows")) (← asWord (← z.req "cols"))
      (← asLayout (← z.req "layout")))
  | _, some f, _, _, _ =>
    lift (Matrix.filled (← asWord (← f.req "rows")) (← asWord (← f.req "cols"))
      (← asLayout (← f.req "layout")) (← scalarArg α ρ f "value"))
  | _, _, some i, _, _ =>
    lift (Matrix.identity (← asWord (← i.req "n")) (← asLayout (← i.req "layout")))
  | _, _, _, some r, _ => lift (Matrix.ofReal (← Json.asRealMatrix (α := α) r))
  | _, _, _, _, some c =>
    let a ← asCsrOf ScriptScalar.decode c
    lift (a.toDense (← asLayout (← c.req "dense_layout")))
  | none, none, none, none, none => Json.asMatrix j

def matrixStep (m : Matrix α) (st : Json) : Run (Json × Matrix α) := do
  let fn ← asString (← st.req "fn")
  let lift {β : Type} (r : Except Error β) : Run β := Run.lift r
  let word (key : String) : Run Nat := do asWord (← st.req key)
  let value := scalarArg α ρ st "value"
  let out := matrixOut α ρ
  let vec := vectorOut α ρ
  match fn with
  | "get" => query m (scalarOut α ρ (← lift (m.get (← word "i") (← word "j"))))
  | "set" => mutate (← lift (m.set (← word "i") (← word "j") (← value)))
  | "row" => query m (vec (← lift (Matrix.rowAt "Matrix::row" m (← word "i"))))
  | "col" => query m (vec (← lift (Matrix.colAt "Matrix::col" m (← word "j"))))
  | "row_mut" => query m (vec (← lift (Matrix.rowAt "Matrix::row_mut" m (← word "i"))))
  | "col_mut" => query m (vec (← lift (Matrix.colAt "Matrix::col_mut" m (← word "j"))))
  | "set_row" => mutate (← lift (m.setRow (← word "i") (← vectorArg α ρ st "src").data))
  | "set_col" => mutate (← lift (m.setCol (← word "j") (← vectorArg α ρ st "src").data))
  | "set_col_to_val" => mutate (← lift (m.setColToVal (← word "j") (← value)))
  | "set_block" =>
    let r ← word "row0"
    let c ← word "col0"
    mutate (← lift (m.setBlock r c (← matrixArg α ρ st "block")))
  | "add_block" =>
    let r ← word "row0"
    let c ← word "col0"
    mutate (← lift (m.addBlock r c (← matrixArg α ρ st "block")))
  | "fill" => mutate (m.fill (← value))
  | "transpose" => mutate m.transpose
  | "set_layout" => mutate (← lift (m.setLayout (← asLayout (← st.req "layout"))))
  | "to_layout" => query m (out (← lift (m.toLayout (← asLayout (← st.req "layout")))))
  | "scale" => mutate (m.scale (← scalarArg α ρ st "alpha"))
  | "slice_rows" => query m (out (← lift (m.sliceRows (← word "start") (← word "n"))))
  | "slice_cols" => query m (out (← lift (m.sliceCols (← word "start") (← word "n"))))
  | "sum_axis" => query m (vec (← lift (m.sumAxis (← word "axis"))))
  | "real_part" => query m (realMatrixOut α ρ (← lift m.realPart))
  | "imag_part" => query m (realMatrixOut α ρ (← lift m.imagPart))
  | "display" | "display_view" => query m (.str m.text)
  | "display_tol" => query m (.str (m.tolText (← realArg α ρ st "tol")))
  | "display_cfg" => query m (.str (m.tolText (← configTol ρ st)))
  | "max_abs" => query m (realOut α ρ m.maxAbs)
  | "norm_diff" => query m (realOut α ρ (← lift (m.normDiff (← matrixArg α ρ st "other"))))
  | "map" =>
    let e ← exprOf 1 (← st.req "expr")
    query m (out (← lift (m.map fun v => e.eval #[v])))
  | "matvec" => query m (vec (← lift (m.matvec (← vectorArg α ρ st "x").data)))
  | "matmul" => query m (out (← lift (m.matmul (← matrixArg α ρ st "other"))))
  | "offset" =>
    let i ← word "i"
    let j ← word "j"
    let k ← Run.liftF (match m.layout with
      | .row => do Word.add (← Word.mul i m.cols) j
      | .col => do Word.add (← Word.mul j m.rows) i)
    query m (.nat k)
  | "into_vector" => query m (vec m.toVector)
  | "from_dense" => query m (csrOut α ρ (← Run.liftF (Csr.ofDense m (← realArg α ρ st "tol"))))
  | "to_multiarray" => query m (multiarrayOut α ρ (Multiarray.ofMatrix m))
  | "len" =>
    query m (.obj [("extents", .arr [.nat m.rows, .nat m.cols]), ("is_empty", .bool (m.size == 0)),
      ("len", .nat m.size)])
  | _ => Run.bad ("unknown matrix.seq fn " ++ fn)

def matrixSeq (req : Json) : Run Json :=
  runSequence req (do matrixInit α ρ (← req.req "init")) (matrixOut α ρ) (matrixStep α ρ)

end

end Script

end DualArrays
