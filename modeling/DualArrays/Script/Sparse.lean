import DualArrays.Script.Matrices

namespace DualArrays

namespace Script

open Json

section

variable (α ρ : Type) [RealFloat ρ] [Scalar α ρ] [ScriptScalar α ρ]

def csrInit (j : Json) : Run (Csr α) := do
  match j with
  | .obj [("from_dense", d)] =>
    let m ← matrixArg α ρ d "matrix"
    Run.liftF (Csr.ofDense m (← realArg α ρ d "tol"))
  | _ => asCsrOf ScriptScalar.decode j

def displayed (text : Option String) : Run Json :=
  match text with
  | some t => .ok (.str t)
  | none => Run.liftF (.error (.abort "a Display implementation returned an error unexpectedly"))

def csrStep (a : Csr α) (st : Json) : Run (Json × Csr α) := do
  let fn ← asString (← st.req "fn")
  let lift {β : Type} (r : Except Error β) : Run β := Run.lift r
  let word (key : String) : Run Nat := do asWord (← st.req key)
  let words (xs : Array Nat) : Json := .arr (xs.toList.map .nat)
  let entries (xs : Array α) : Json := .arr (xs.toList.map ScriptScalar.encode)
  match fn with
  | "get" | "get_view" => query a (scalarOut α ρ (← lift (a.get (← word "r") (← word "c"))))
  | "row" =>
    let (cs, vs) ← lift (a.row (← word "r"))
    query a (.obj [("columns", words cs), ("values", entries vs)])
  | "to_dense" =>
    query a (matrixOut α ρ (← lift (a.toDense (← asLayout (← st.req "layout")))))
  | "display" | "as_const_display" => query a (.str a.text)
  | "display_tol" => query a (← displayed (a.tolText (← realArg α ρ st "tol")))
  | "display_cfg" => query a (← displayed (a.tolText (← configTol ρ st)))
  | "set_value" =>
    let k ← word "k"
    let x ← scalarArg α ρ st "value"
    if k < a.nnz then mutate { a with values := a.values.setIfInBounds k x }
    else Run.bad ("value index " ++ toString k ++ " out of range for " ++ toString a.nnz)
  | "to_operator" => query a (csrOut α ρ (← lift a.copy))
  | "into_parts" =>
    query a (.obj [("columns", words a.columns), ("row_index", words a.rowIndex),
      ("values", entries a.values)])
  | "destroy_optional" =>
    let _ ← asBool (← st.req "some")
    query a .null
  | "eq" => query a (.bool (Csr.beq Element.eq a (← csrArg α ρ st "other")))
  | "shape" => query a (.obj [("nnz", .nat a.nnz), ("shape", .arr [.nat a.rows, .nat a.cols])])
  | "debug" => query a (.str a.debugText)
  | _ => Run.bad ("unknown csr.seq fn " ++ fn)

def csrSeq (req : Json) : Run Json :=
  runSequence req (do csrInit α ρ (← req.req "init")) (csrOut α ρ) (csrStep α ρ)

end

end Script

end DualArrays
