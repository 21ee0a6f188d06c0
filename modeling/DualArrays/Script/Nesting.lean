import DualArrays.Script.Sequence
import DualArrays.Script.Containers
import DualArrays.Nested

namespace DualArrays

namespace Script

open Json

section

variable (α : Type) [Element α] [ScriptInt α]

def intsJson (v : Vector α) : Json := .arr (v.data.toList.map ScriptInt.encode)

def asInts (j : Json) : Run (Vector α) := do
  return ⟨(← asListOf ScriptInt.decode j).toArray⟩

def vectorArrayJson (a : VectorArray α) : Json :=
  .obj [("entries", .arr (a.entries.toList.map (intsJson α))),
    ("extents", .arr (a.extents.map .nat))]

def asFlatVectorArray (j : Json) : Run (VectorArray α) := do
  let extents ← asWords (← j.req "extents")
  let values ← asInts α (← j.req "values")
  let lens ← asWords (← j.req "lens")
  Run.liftF (VectorArray.ofFlat extents values.data lens)

def vectorArrayInit (j : Json) : Run (VectorArray α) := do
  match j with
  | .obj [("new", e)] => Run.lift (VectorArray.new (← asWords e))
  | .obj [("from_flat", f)] => asFlatVectorArray α f
  | _ => Run.bad "init must be new or from_flat"

def vectorArrayStep (a : VectorArray α) (st : Json) : Run (Json × VectorArray α) := do
  let fn ← asString (← st.req "fn")
  let index : Run (List Nat) := do asWords (← st.req "index")
  let lt : α → α → Bool := ScriptInt.lt
  match fn with
  | "get" => query a (intsJson α (← Run.lift (a.get (← index))))
  | "set" => mutate (← Run.lift (a.set (← index) (← asInts α (← st.req "values"))))
  | "total_len" => query a (.nat a.totalLen)
  | "collapse" => query a (intsJson α (← Run.lift a.collapse))
  | "sort" => mutate (a.sort lt)
  | "sort_indexed" =>
    let (ordering, s) ← Run.lift (a.sortIndexed lt)
    return (.arr (ordering.map .nat), s)
  | "display" => query a (.str a.text)
  | "len" =>
    query a (.obj [("is_empty", .bool (a.size == 0)), ("len", .nat a.size),
      ("order", .nat a.order)])
  | _ => Run.bad ("unknown vector_array.seq fn " ++ fn)

def vectorArraySeq (req : Json) : Run Json :=
  runSequence req (do vectorArrayInit α (← req.req "init")) (vectorArrayJson α)
    (vectorArrayStep α)

end

def asNested {β : Type} (leaf : Json → Run β) : (d : Nat) → Json → Run (Nested β d)
  | 0, j => leaf j
  | d + 1, j => do
    let items ← asList j
    let _ ← Run.lift (Level.new (ν := Nested β d) items.length)
    let slots ← items.mapM fun item =>
      match item with
      | .null => pure none
      | item => some <$> asNested leaf d item
    let l : Level (Nested β d) := ⟨slots.toArray⟩
    return l

def statsJson (s : ReleaseStats) : Json :=
  .obj [("bytes", .nat s.bytes), ("leaves", .nat s.leaves), ("levels", .nat s.levels),
    ("skipped", .nat s.skipped)]

def freeTree {β : Type} [Releasable β] (leaf : Json → Run β) (d : Nat) (req : Json) :
    Run Json := do
  let extents ← asWords (← req.req "extents")
  let root ← asNested leaf d (← req.req "tree")
  return statsJson (← Run.lift (freeNested d extents root))

def nestedFree (req : Json) : Run Json := do
  let d ← asWord (← req.req "depth")
  if d = 0 ∨ d > maxDepth + 1 then Run.bad ("bad depth " ++ toString d)
  match ← asString (← req.req "leaf") with
  | "vector" =>
    freeTree (fun j => do Run.lift (Vector.copyOf (← asListOf asFloat j).toArray)) d req
  | "matrix" => freeTree (Json.asMatrix (α := Float)) d req
  | "multiarray" => freeTree (asMultiarrayOf asFloat) d req
  | "csr" => freeTree (asCsrOf asFloat) d req
  | "vector_array" => freeTree (asFlatVectorArray Int32) d req
  | "vec" =>
    freeTree (fun j => do return (← asListOf (ScriptInt.decode (α := Int32)) j).toArray) d req
  | l => Run.bad ("unknown leaf " ++ l)

def optionVectorJson (v : Option (Vector Float)) : Json :=
  (v.map fun v => Json.arr (v.data.toList.map .float)).getD .null

def levelJson (l : Level (Vector Float)) : Json := .arr (l.slots.toList.map optionVectorJson)

def levelStep (l : Level (Vector Float)) (st : Json) : Run (Json × Level (Vector Float)) := do
  let fn ← asString (← st.req "fn")
  let i : Run Nat := do asWord (← st.req "i")
  match fn with
  | "set" =>
    let v : Vector Float := ⟨(← asListOf asFloat (← st.req "value")).toArray⟩
    let (old, l') ← Run.lift (l.set (← i) v)
    return (optionVectorJson old, l')
  | "get" => query l (optionVectorJson (l.get (← i)))
  | "take" =>
    let (old, l') := l.take (← i)
    return (optionVectorJson old, l')
  | "is_constructed" => query l (.bool (l.isConstructed (← i)))
  | "get_mut_set" =>
    let i ← i
    let k ← asWord (← st.req "k")
    let x ← asFloat (← st.req "value")
    match l.get i with
    | some v =>
      let v' ← Run.lift (v.set k x)
      return (.bool true, ⟨l.slots.setIfInBounds i (some v')⟩)
    | none => query l (.bool false)
  | "len" => query l (.obj [("is_empty", .bool (l.size == 0)), ("len", .nat l.size)])
  | "free" =>
    let extents ← asWords (← st.req "extents")
    query l (statsJson (← Run.lift (freeNested (β := Vector Float) 1 extents l)))
  | _ => Run.bad ("unknown level.seq fn " ++ fn)

def levelSeq (req : Json) : Run Json :=
  runSequence req (do Run.lift (Level.new (← asWord (← req.req "len")))) levelJson levelStep

end Script

end DualArrays
