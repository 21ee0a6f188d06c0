import DualArrays.Multiarray.Basic

namespace DualArrays

/-- An array of vectors over a multiarray's index space. -/
structure VectorArray (α : Type) where
  extents : List Nat
  entries : Array (Vector α)

namespace VectorArray

/-- Bytes that one entry occupies in the entry buffer, its buffer aside. -/
def entryBytes : Nat := 24

section Plain

variable {α : Type}

def size (a : VectorArray α) : Nat := a.entries.size

def order (a : VectorArray α) : Nat := a.extents.length

def flatIndex (a : VectorArray α) (index : List Nat) : Except Error Nat :=
  if index.length ≠ a.extents.length ∨ (index.zip a.extents).any (fun p => p.1 ≥ p.2) then
    .error (.index "VectorArray" index a.extents)
  else .ok (Layout.col.linear a.extents index)

def get (a : VectorArray α) (index : List Nat) : Except Error (Vector α) := do
  return a.entries.getD (← a.flatIndex index) ⟨#[]⟩

def setIn (index : List Nat) (v : Vector α) : InPlace (VectorArray α) Unit := do
  let a ← MonadState.get
  let k ← InPlace.lift (a.flatIndex index)
  modify fun a => { a with entries := a.entries.setIfInBounds k v }

def set (a : VectorArray α) (index : List Nat) (v : Vector α) : Except Error (VectorArray α) :=
  (setIn index v).apply a

def totalLen (a : VectorArray α) : Nat := a.entries.foldl (fun n v => n + v.size) 0

def lexLt (lt : α → α → Bool) : List α → List α → Bool
  | [], [] => false
  | [], _ :: _ => true
  | _ :: _, [] => false
  | x :: xs, y :: ys => lt x y || (!lt y x && lexLt lt xs ys)

/-- Entry `v` comes no later than `w`: shorter first, then lexicographically by `lt`. -/
def entryLe (lt : α → α → Bool) (v w : Vector α) : Bool :=
  v.size < w.size || (v.size == w.size && !lexLt lt w.data.toList v.data.toList)

def sortEntries (a : VectorArray α) (lt : α → α → Bool) : VectorArray α :=
  { a with entries := a.entries.map fun v => v.sortBy fun x y => !lt y x }

/-- The entries sorted, then ordered by length and value, equal entries keeping their
order. -/
def sort (a : VectorArray α) (lt : α → α → Bool) : VectorArray α :=
  let s := a.sortEntries lt
  { s with entries := (s.entries.toList.mergeSort (entryLe lt)).toArray }

/-- The order `sort` puts the entries of `a` in: the positions of its entries, sorted by the
entries at them. -/
def ordering (a : VectorArray α) (lt : α → α → Bool) : List Nat :=
  (List.range a.entries.size).mergeSort fun i j =>
    entryLe lt (a.entries.getD i ⟨#[]⟩) (a.entries.getD j ⟨#[]⟩)

/-- Moves the entry at position `k` of `old` to the end of the array: the slot it leaves
is emptied, and a slot found empty is an entry moved twice. -/
def moveEntry (old : Array (Option (Vector α))) (k : Nat) :
    InPlace (VectorArray α) (Array (Option (Vector α))) :=
  match old.getD k none with
  | some v => do
    modify fun a => { a with entries := a.entries.push v }
    return old.setIfInBounds k none
  | none => throw (.invariant "VectorArray" ("entry " ++ toString k ++ " reordered twice"))

/-- Sorts in place as `sort` does and answers the ordering: every entry is sorted, the
positions are ordered by the entries at them, the entries are drained into slots, and the
array is refilled by moving them out in that order. -/
def sortIndexedIn (lt : α → α → Bool) : InPlace (VectorArray α) (List Nat) := do
  modify (·.sortEntries lt)
  let a ← MonadState.get
  let ordering := a.ordering lt
  let old := a.entries.map some
  modify fun a => { a with entries := #[] }
  let _ ← ordering.foldlM moveEntry old
  return ordering

/-- The positions of the sorted entries in the order `sort` puts them, and the array
reordered so. -/
def sortIndexed (a : VectorArray α) (lt : α → α → Bool) :
    Except Error (List Nat × VectorArray α) :=
  (sortIndexedIn lt).eval a

end Plain

section Element

variable {α : Type} [Element α]

def new (extents : List Nat) : Except Error (VectorArray α) := do
  checkOrder extents
  let len ← Storage.checkedLen "VectorArray" extents
  Storage.reserve "VectorArray" extents len entryBytes
  return ⟨extents, Array.replicate len ⟨#[]⟩⟩

/-- Cuts `values` into consecutive entries of the lengths `lens`, one length per entry. -/
def ofFlat (extents : List Nat) (values : Array α) (lens : List Nat) :
    Except Failure (VectorArray α) := do
  let out ← Except.toFailure (new (α := α) extents)
  if lens.length ≠ out.size then
    throw (.error (.dimension "VectorArray::from_flat" [out.size] [lens.length]))
  let total ← Word.sum lens
  if total ≠ values.size then
    throw (.error (.dimension "VectorArray::from_flat" [total] [values.size]))
  let starts := lens.foldl (fun acc n => acc ++ [acc.getLastD 0 + n]) [0]
  let entries ← Except.toFailure ((starts.zip lens).mapM fun (s, n) =>
    Vector.copyOf (values.extract s (s + n)))
  return ⟨extents, entries.toArray⟩

def collapse (a : VectorArray α) : Except Error (Vector α) := do
  let total := a.totalLen
  Storage.reserve "VectorArray" [total] total (Element.size α)
  return ⟨(a.entries.toList.map (·.data.toList)).flatten.toArray⟩

def text (a : VectorArray α) : String :=
  "vector_array(extents=" ++ listText a.extents ++ ", entries=[\n" ++
    String.join (a.entries.toList.map fun v =>
      "  [" ++ ", ".intercalate (v.data.toList.map Element.text) ++ "]\n") ++ "])"

end Element

end VectorArray

end DualArrays
