import DualArrays.Script.Decode
import DualArrays.Multiarray.Basic
import DualArrays.Sparse.Csr

namespace DualArrays

namespace Script

open Json

section

variable {β : Type} [Element β]

/-- A multiarray `{extents, layout, data, view?}` with entries read by `f`, the members in
that order, so a bad layout is reported before any fault of the data. -/
def asMultiarrayOf (f : Json → Run β) (j : Json) : Run (Multiarray β) := do
  let extents ← asWords (← j.req "extents")
  let layout ← asLayout (← j.req "layout")
  let data ← asListOf f (← j.req "data")
  let view ← match j.opt "view" with
    | some v => asBool v
    | none => pure false
  Run.lift (Multiarray.ofData (if view then "MultiarrayView" else "Multiarray") extents layout
    data.toArray)

def multiarrayJsonOf (f : β → Json) (m : Multiarray β) : Json :=
  .obj [("data", .arr (m.data.toList.map f)), ("extents", .arr (m.extents.map .nat)),
    ("layout", .str m.layout.text)]

/-- A sparse operator with values read by `f`: with `cols` the column count is given, else
it is one past the largest column. -/
def asCsrOf (f : Json → Run β) (j : Json) : Run (Csr β) := do
  let rowIndex := (← asWords (← j.req "row_index")).toArray
  let columns := (← asWords (← j.req "columns")).toArray
  let values := (← asListOf f (← j.req "values")).toArray
  let view ← match j.opt "view" with
    | some v => asBool v
    | none => pure false
  let a ← match j.opt "cols" with
    | some c => Run.lift (Csr.withCols (← asWord c) rowIndex columns values)
    | none => Run.liftF (Csr.ofParts rowIndex columns values)
  if view then Run.lift a.copy else return a

def csrJsonOf (f : β → Json) (a : Csr β) : Json :=
  .obj [("cols", .nat a.cols), ("columns", .arr (a.columns.toList.map .nat)),
    ("nnz", .nat a.nnz), ("row_index", .arr (a.rowIndex.toList.map .nat)),
    ("rows", .nat a.rows), ("values", .arr (a.values.toList.map f))]

end

end Script

end DualArrays
