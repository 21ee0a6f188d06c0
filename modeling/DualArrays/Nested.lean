import DualArrays.VectorArray
import DualArrays.Sparse.Csr

namespace DualArrays

def maxDepth : Nat := 5

/-- A level of a nested array: a buffer of slots, `none` for a slot never filled. -/
structure Level (ν : Type) where
  slots : Array (Option ν)

/-- A nested array of `d` levels over leaves of type `β`. -/
def Nested (β : Type) : Nat → Type
  | 0 => β
  | d + 1 => Level (Nested β d)

def Level.handleBytes : Nat := 24

namespace Level

variable {ν : Type}

def new (len : Nat) : Except Error (Level ν) := do
  Storage.reserve "Level" [len] len handleBytes
  return ⟨Array.replicate len none⟩

def size (l : Level ν) : Nat := l.slots.size

def indexError (l : Level ν) (i : Nat) : Error := .index "Level" [i] [l.size]

def setIn (i : Nat) (x : ν) : InPlace (Level ν) (Option ν) := do
  let l ← MonadState.get
  if i < l.size then
    modify fun l => ⟨l.slots.setIfInBounds i (some x)⟩
    return l.slots.getD i none
  else throw (l.indexError i)

def set (l : Level ν) (i : Nat) (x : ν) : Except Error (Option ν × Level ν) :=
  (setIn i x).eval l

def get (l : Level ν) (i : Nat) : Option ν := l.slots.getD i none

def take (l : Level ν) (i : Nat) : Option ν × Level ν :=
  (l.get i, ⟨l.slots.setIfInBounds i none⟩)

def isConstructed (l : Level ν) (i : Nat) : Bool := (l.get i).isSome

end Level

structure ReleaseStats where
  leaves : Nat := 0
  skipped : Nat := 0
  levels : Nat := 0
  bytes : Nat := 0
  deriving DecidableEq, Repr

/-- The state of a release sweep: the counts so far and the first error met. -/
structure Sweep where
  stats : ReleaseStats := {}
  error : Option Error := none

/-- Keeps the first error of a sweep. -/
def Sweep.record (s : Sweep) (e : Error) : Sweep :=
  if s.error.isNone then { s with error := some e } else s

def Sweep.leaf (s : Sweep) (bytes : Nat) : Sweep :=
  { s with stats := { s.stats with leaves := s.stats.leaves + 1, bytes := s.stats.bytes + bytes } }

def Sweep.skip (s : Sweep) : Sweep :=
  { s with stats := { s.stats with skipped := s.stats.skipped + 1 } }

def Sweep.level (s : Sweep) (bytes : Nat) : Sweep :=
  { s with stats := { s.stats with levels := s.stats.levels + 1, bytes := s.stats.bytes + bytes } }

/-- A leaf container: the bytes of its buffers and of its handle in a slot. -/
class Releasable (β : Type) where
  heapBytes : β → Nat
  handleBytes : Nat

def slotBytes (β : Type) [Releasable β] : Nat → Nat
  | 0 => Releasable.handleBytes β
  | _ + 1 => Level.handleBytes

def optionText : Option Nat → String
  | some n => "Some(" ++ toString n ++ ")"
  | none => "None"

/-- The error of a level of `len` slots whose extent is `here` (none once the extents have
run out). -/
def Level.extentError (len : Nat) (here : Option Nat) : Error :=
  .invariant "Level" ("level holds " ++ toString len ++ " slots, extents say " ++
    optionText here)

def depthError (count d : Nat) : Error :=
  .invariant "free_nested" (toString count ++ " extents for a nested array of depth " ++
    toString d ++ " (at most " ++ toString maxDepth ++ ")")

/-- Releases a nested array of `d` levels against its extents, adding to the sweep. -/
def release {β : Type} [Releasable β] : (d : Nat) → Nested β d → List Nat → Sweep → Sweep
  | 0, x, _, s => s.leaf (Releasable.heapBytes (β := β) x)
  | d + 1, l, extents, s =>
    let l : Level (Nested β d) := l
    let here := extents.head?
    let below := extents.tail
    let s := if here ≠ some l.size then s.record (Level.extentError l.size here) else s
    let s := l.slots.foldl (fun s slot =>
      match slot with
      | some child => release d child below s
      | none => s.skip) s
    s.level (l.size * slotBytes β d)

/-- Releases a nested array of `d` levels: the counts, or the first rule of the extents
that it breaks. -/
def freeNested {β : Type} [Releasable β] (d : Nat) (extents : List Nat) (root : Nested β d) :
    Except Error ReleaseStats :=
  let s : Sweep := {}
  let s := if extents.length ≠ d ∨ d > maxDepth then s.record (depthError extents.length d)
    else s
  let s := release d root extents s
  match s.error with
  | some e => .error e
  | none => .ok s.stats

instance {α : Type} [Element α] : Releasable (Vector α) where
  heapBytes v := v.size * Element.size α
  handleBytes := 24

instance {α : Type} [Element α] : Releasable (Matrix α) where
  heapBytes m := m.size * Element.size α
  handleBytes := 48

instance {α : Type} [Element α] : Releasable (Multiarray α) where
  heapBytes m := m.size * Element.size α
  handleBytes := 88

instance {α : Type} [Element α] : Releasable (Csr α) where
  heapBytes a := (a.rowIndex.size + a.columns.size) * 8 + a.nnz * Element.size α
  handleBytes := 80

instance {α : Type} [Element α] : Releasable (VectorArray α) where
  heapBytes a := a.size * VectorArray.entryBytes +
    a.entries.foldl (fun n v => n + v.size * Element.size α) 0
  handleBytes := 80

instance {α : Type} [Element α] : Releasable (Array α) where
  heapBytes xs := xs.size * Element.size α
  handleBytes := 24

end DualArrays
