import Mathlib
import DualArrays.Nested

namespace DualArrays

def ReleaseStats.add (a b : ReleaseStats) : ReleaseStats :=
  ⟨a.leaves + b.leaves, a.skipped + b.skipped, a.levels + b.levels, a.bytes + b.bytes⟩

theorem ReleaseStats.add_assoc (a b c : ReleaseStats) : (a.add b).add c = a.add (b.add c) := by
  simp only [ReleaseStats.add, Nat.add_assoc]

@[simp] theorem ReleaseStats.add_zero (a : ReleaseStats) : a.add {} = a := rfl

@[simp] theorem ReleaseStats.zero_add (a : ReleaseStats) : ReleaseStats.add {} a = a := by
  simp [ReleaseStats.add]

namespace Sweep

def add (s : Sweep) (t : ReleaseStats) (e : Option Error) : Sweep :=
  ⟨s.stats.add t, s.error.or e⟩

theorem add_add (s : Sweep) (t t' : ReleaseStats) (e e' : Option Error) :
    (s.add t e).add t' e' = s.add (t.add t') (e.or e') := by
  simp only [add, ReleaseStats.add_assoc, Option.or_assoc]

@[simp] theorem add_zero (s : Sweep) : s.add {} none = s := by
  simp [add]

theorem record_eq (s : Sweep) (e : Error) : s.record e = s.add {} (some e) := by
  cases s with
  | mk stats error => cases error <;> rfl

theorem leaf_eq (s : Sweep) (bytes : Nat) : s.leaf bytes = s.add ⟨1, 0, 0, bytes⟩ none := by
  simp [leaf, add, ReleaseStats.add]

theorem skip_eq (s : Sweep) : s.skip = s.add ⟨0, 1, 0, 0⟩ none := by
  simp [skip, add, ReleaseStats.add]

theorem level_eq (s : Sweep) (bytes : Nat) : s.level bytes = s.add ⟨0, 0, 1, bytes⟩ none := by
  simp [level, add, ReleaseStats.add]

end Sweep

end DualArrays

namespace DualArrays.Proofs.NestedRelease

open DualArrays

section Counts

variable {β : Type} [Releasable β]

/-- The levels of a nested array in pre-order: the depth of each below the root and its
number of slots. -/
def shapes : (d : Nat) → Nested β d → List (Nat × Nat)
  | 0, _ => []
  | d + 1, l =>
    let l : Level (Nested β d) := l
    (0, l.size) :: l.slots.toList.flatMap fun slot =>
      (slot.elim [] (shapes d)).map fun p => (p.1 + 1, p.2)

def leafCount : (d : Nat) → Nested β d → Nat
  | 0, _ => 1
  | d + 1, l =>
    let l : Level (Nested β d) := l
    (l.slots.toList.map fun slot => slot.elim 0 (leafCount d)).sum

def emptyCount : (d : Nat) → Nested β d → Nat
  | 0, _ => 0
  | d + 1, l =>
    let l : Level (Nested β d) := l
    (l.slots.toList.map fun slot => slot.elim 1 (emptyCount d)).sum

def byteCount : (d : Nat) → Nested β d → Nat
  | 0, x => Releasable.heapBytes (β := β) x
  | d + 1, l =>
    let l : Level (Nested β d) := l
    l.size * slotBytes β d + (l.slots.toList.map fun slot => slot.elim 0 (byteCount d)).sum

def tally (d : Nat) (x : Nested β d) : ReleaseStats where
  leaves := leafCount d x
  skipped := emptyCount d x
  levels := (shapes d x).length
  bytes := byteCount d x

/-- The first level of a nested array whose slot count is not its extent, as the error it
records: a level at depth `k` is measured against `extents[k]`, and a missing extent never
matches. -/
def firstMismatch (d : Nat) (extents : List Nat) (x : Nested β d) : Option Error :=
  ((shapes d x).find? fun p => extents[p.1]? ≠ some p.2).map fun p =>
    Level.extentError p.2 extents[p.1]?

end Counts

section Release

variable {β : Type} [Releasable β] {d : Nat}

def slotTally (slot : Option (Nested β d)) : ReleaseStats :=
  slot.elim ⟨0, 1, 0, 0⟩ (tally d)

def slotMismatch (extents : List Nat) (slot : Option (Nested β d)) : Option Error :=
  slot.bind (firstMismatch d extents)

def slotsTally (slots : List (Option (Nested β d))) : ReleaseStats where
  leaves := (slots.map fun slot => slot.elim 0 (leafCount d)).sum
  skipped := (slots.map fun slot => slot.elim 1 (emptyCount d)).sum
  levels := (slots.flatMap fun slot => slot.elim [] (shapes d)).length
  bytes := (slots.map fun slot => slot.elim 0 (byteCount d)).sum

theorem slotsTally_cons (slot : Option (Nested β d)) (rest : List (Option (Nested β d))) :
    slotsTally (slot :: rest) = ReleaseStats.add (slotTally slot) (slotsTally rest) := by
  cases slot <;> simp [slotsTally, slotTally, tally, ReleaseStats.add]

theorem foldl_slots (extents : List Nat) (step : Sweep → Option (Nested β d) → Sweep)
    (hstep : ∀ s slot, step s slot = s.add (slotTally slot) (slotMismatch extents slot))
    (slots : List (Option (Nested β d))) (s : Sweep) :
    slots.foldl step s = s.add (slotsTally slots) (slots.findSome? (slotMismatch extents)) := by
  induction slots generalizing s with
  | nil => simp [slotsTally]
  | cons slot rest ihs =>
    rw [List.foldl_cons, hstep, ihs, Sweep.add_add, slotsTally_cons]
    congr 1
    cases h : slotMismatch extents slot <;> simp [h]

theorem tally_succ (l : Level (Nested β d)) :
    tally (d + 1) l =
      ReleaseStats.add ⟨0, 0, 1, l.size * slotBytes β d⟩ (slotsTally l.slots.toList) := by
  simp only [tally, shapes, leafCount, emptyCount, byteCount, ReleaseStats.add, slotsTally,
    List.length_cons, List.length_flatMap, List.length_map]
  simp [Nat.add_comm]

omit [Releasable β] in
theorem firstMismatch_succ (extents : List Nat) (l : Level (Nested β d)) :
    firstMismatch (d + 1) extents l =
      (if extents.head? ≠ some l.size then some (Level.extentError l.size extents.head?)
        else none).or (l.slots.toList.findSome? (slotMismatch extents.tail)) := by
  -- a child's levels sit one level deeper, so they are measured against the extents below
  have hslot : ∀ slot : Option (Nested β d),
      ((((slot.elim [] (shapes d)).map fun p => (p.1 + 1, p.2)).find? fun p =>
        extents[p.1]? ≠ some p.2).map fun p => Level.extentError p.2 extents[p.1]?) =
        slotMismatch extents.tail slot := by
    rintro (_ | c)
    · rfl
    · simp [slotMismatch, firstMismatch, List.find?_map, Function.comp_def]
  have hchildren : ((l.slots.toList.findSome? fun slot =>
      ((slot.elim [] (shapes d)).map fun p => (p.1 + 1, p.2)).find? fun p =>
        extents[p.1]? ≠ some p.2).map fun p => Level.extentError p.2 extents[p.1]?) =
      l.slots.toList.findSome? (slotMismatch extents.tail) := by
    rw [List.map_findSome?]
    exact congrArg (List.findSome? · _) (funext hslot)
  rw [List.head?_eq_getElem?]
  simp only [firstMismatch, shapes, List.find?_cons, List.find?_flatMap]
  by_cases h : extents[0]? = some l.size
  · simp only [h, ne_eq, not_true_eq_false, decide_false, if_false, Option.none_or]
    exact hchildren
  · simp [h]

theorem release_level (extents : List Nat)
    (ih : ∀ (c : Nested β d) (s : Sweep),
      release d c extents.tail s = s.add (tally d c) (firstMismatch d extents.tail c))
    (l : Level (Nested β d)) (s : Sweep) :
    release (d + 1) l extents s = s.add (tally (d + 1) l) (firstMismatch (d + 1) extents l) := by
  have hhere : (if extents.head? ≠ some l.size then
        s.record (Level.extentError l.size extents.head?) else s) =
      s.add {} (if extents.head? ≠ some l.size then
        some (Level.extentError l.size extents.head?) else none) := by
    split <;> simp [Sweep.record_eq]
  simp only [release]
  rw [hhere, ← Array.foldl_toList, foldl_slots extents.tail _ ?step, Sweep.level_eq,
    Sweep.add_add, Sweep.add_add, tally_succ, firstMismatch_succ, Option.or_none]
  case step =>
    rintro s (_ | c)
    · simp [Sweep.skip_eq, slotTally, slotMismatch]
    · simp [ih, slotTally, slotMismatch]
  congr 1
  simp [ReleaseStats.add, Nat.add_comm]

theorem release_eq : ∀ (d : Nat) (x : Nested β d) (extents : List Nat) (s : Sweep),
    release d x extents s = s.add (tally d x) (firstMismatch d extents x)
  | 0, x, extents, s => by
    simp [release, Sweep.leaf_eq, tally, shapes, leafCount, emptyCount, byteCount,
      firstMismatch]
  | d + 1, l, extents, s =>
    release_level extents (fun c s => release_eq d c extents.tail s) l s

end Release

section Free

variable {β : Type} [Releasable β]

def depthMismatch (d : Nat) (extents : List Nat) : Option Error :=
  if extents.length ≠ d ∨ maxDepth < d then some (depthError extents.length d) else none

theorem freeNested_eq (d : Nat) (extents : List Nat) (root : Nested β d) :
    freeNested d extents root =
      ((depthMismatch d extents).or (firstMismatch d extents root)).elim (.ok (tally d root))
        .error := by
  have hdepth : (if extents.length ≠ d ∨ d > maxDepth then
        ({} : Sweep).record (depthError extents.length d) else {}) =
      ({} : Sweep).add {} (depthMismatch d extents) := by
    unfold depthMismatch
    split <;> simp_all [Sweep.record_eq]
  simp only [freeNested]
  rw [hdepth, release_eq, Sweep.add_add]
  simp only [Sweep.add, ReleaseStats.zero_add, Option.none_or]
  cases (depthMismatch d extents).or (firstMismatch d extents root) <;> rfl

theorem depthMismatch_isSome_iff (d : Nat) (extents : List Nat) :
    (depthMismatch d extents).isSome ↔ extents.length ≠ d ∨ maxDepth < d := by
  unfold depthMismatch
  split <;> simp_all

omit [Releasable β] in
theorem firstMismatch_isSome_iff (d : Nat) (extents : List Nat) (root : Nested β d) :
    (firstMismatch d extents root).isSome ↔ ∃ p ∈ shapes d root, extents[p.1]? ≠ some p.2 := by
  simp [firstMismatch, List.find?_isSome]

theorem freeNested_isError_iff (d : Nat) (extents : List Nat) (root : Nested β d) :
    (∃ e, freeNested d extents root = .error e) ↔
      extents.length ≠ d ∨ maxDepth < d ∨ ∃ p ∈ shapes d root, extents[p.1]? ≠ some p.2 := by
  have helim : ∀ o : Option Error,
      (∃ e, o.elim (Except.ok (tally d root)) Except.error = Except.error e) ↔ o.isSome := by
    rintro (_ | e) <;> simp
  rw [freeNested_eq, helim, Option.isSome_or, Bool.or_eq_true, depthMismatch_isSome_iff,
    firstMismatch_isSome_iff, or_assoc]

/-- Releasing a nested array counts every constructed leaf, every empty slot and every level
reached, and fails exactly when the extents do not fit the depth or some level reached has
a slot count other than its extent; the error is the depth rule's, else that of the first
such level in pre-order. -/
theorem freeNested_accounting (d : Nat) (extents : List Nat) (root : Nested β d) :
    ((∃ e, freeNested d extents root = .error e) ↔
      extents.length ≠ d ∨ maxDepth < d ∨ ∃ p ∈ shapes d root, extents[p.1]? ≠ some p.2) ∧
    freeNested d extents root =
      if extents.length ≠ d ∨ maxDepth < d then .error (depthError extents.length d)
      else ((shapes d root).find? fun p => extents[p.1]? ≠ some p.2).elim
        (.ok ⟨leafCount d root, emptyCount d root, (shapes d root).length, byteCount d root⟩)
        fun p => .error (Level.extentError p.2 extents[p.1]?) := by
  refine ⟨freeNested_isError_iff d extents root, ?_⟩
  rw [freeNested_eq]
  unfold depthMismatch firstMismatch
  split
  · rfl
  · cases (shapes d root).find? fun p => extents[p.1]? ≠ some p.2 <;> rfl

example : freeNested 2 [3, 1]
    (⟨#[none, some ⟨#[some #[(1 : Int32), 2]]⟩, none]⟩ : Nested (Array Int32) 2) =
      .ok ⟨1, 2, 2, 104⟩ := by
  rfl

end Free

end DualArrays.Proofs.NestedRelease
