import DualArrays.Proofs.InPlaceWrites

namespace DualArrays.Proofs.IndexedSort

open DualArrays DualArrays.Proofs.InPlaceWrites

variable {α : Type} (lt : α → α → Bool)

section Orders

variable [IsStrictTotalOrder α fun x y => lt x y = true]

theorem lt_irrefl_bool (x : α) : lt x x = false := by
  simpa using Std.Irrefl.irrefl (r := fun x y => lt x y = true) x

theorem lt_trans_bool {x y z : α} (hxy : lt x y = true) (hyz : lt y z = true) : lt x z = true :=
  IsTrans.trans (r := fun x y => lt x y = true) x y z hxy hyz

theorem lt_asymm_bool {x y : α} (hxy : lt x y = true) : lt y x = false := by
  cases hyx : lt y x with
  | false => rfl
  | true =>
    have hxx := lt_trans_bool lt hxy hyx
    rw [lt_irrefl_bool lt] at hxx
    cases hxx

theorem eq_of_not_lt {x y : α} (hxy : lt x y = false) (hyx : lt y x = false) : x = y :=
  Std.Trichotomous.trichotomous (r := fun x y => lt x y = true) x y (by simp [hxy])
    (by simp [hyx])

theorem notAfter_trans {x y z : α} (hxy : (!lt y x) = true) (hyz : (!lt z y) = true) :
    (!lt z x) = true := by
  simp only [Bool.not_eq_eq_eq_not, Bool.not_true] at hxy hyz ⊢
  cases hzx : lt z x with
  | false => rfl
  | true =>
    cases hxy' : lt x y with
    | false => rw [eq_of_not_lt lt hxy' hxy, hyz] at hzx; cases hzx
    | true => rw [lt_trans_bool lt hzx hxy'] at hyz; cases hyz

theorem notAfter_total (x y : α) : ((!lt y x) || (!lt x y)) = true := by
  cases hxy : lt x y with
  | false => simp
  | true => simp [lt_asymm_bool lt hxy]

theorem lexLt_iff_lex (xs ys : List α) :
    VectorArray.lexLt lt xs ys = true ↔ List.Lex (fun x y => lt x y = true) xs ys := by
  induction xs generalizing ys with
  | nil => cases ys <;> simp [VectorArray.lexLt]
  | cons x xs ih =>
    cases ys with
    | nil => simp [VectorArray.lexLt]
    | cons y ys =>
      rw [VectorArray.lexLt, List.cons_lex_cons_iff, ← ih]
      cases hxy : lt x y with
      | true => simp
      | false =>
        cases hyx : lt y x with
        | false => simp [eq_of_not_lt lt hxy hyx]
        | true =>
          have hne : x ≠ y := by
            rintro rfl
            rw [lt_irrefl_bool lt] at hyx
            cases hyx
          simp [hne]

theorem not_lex_iff (xs ys : List α) :
    ¬List.Lex (fun x y => lt x y = true) ys xs ↔
      List.Lex (fun x y => lt x y = true) xs ys ∨ xs = ys := by
  constructor
  · intro hyx
    by_cases hxy : List.Lex (fun x y => lt x y = true) xs ys
    · exact .inl hxy
    · exact .inr (Std.Trichotomous.trichotomous xs ys hxy hyx)
  · rintro (hxy | rfl)
    · exact List.lex_asymm (fun h h' => by rw [lt_asymm_bool lt h] at h'; cases h') hxy
    · exact List.lex_irrefl (fun x h => by rw [lt_irrefl_bool lt] at h; cases h) xs

end Orders

section Entries

/-- The order entries are sorted by: shorter entries first, entries of one length
lexicographically by their values. -/
def ShortlexLt (v w : Vector α) : Prop :=
  v.size < w.size ∨
    v.size = w.size ∧ List.Lex (fun x y => lt x y = true) v.data.toList w.data.toList

theorem vector_eq_iff (v w : Vector α) : v = w ↔ v.data.toList = w.data.toList := by
  cases v
  cases w
  simp [Array.toList_inj]

variable [IsStrictTotalOrder α fun x y => lt x y = true]

theorem entryLe_iff (v w : Vector α) :
    VectorArray.entryLe lt v w = true ↔ ShortlexLt lt v w ∨ v = w := by
  rcases Nat.lt_trichotomy v.size w.size with hlt | heq | hgt
  · simp [VectorArray.entryLe, ShortlexLt, hlt]
  · simp only [VectorArray.entryLe, ShortlexLt, heq, Nat.lt_irrefl, decide_false, beq_self_eq_true,
      Bool.true_and, Bool.false_or, Bool.not_eq_eq_eq_not, Bool.not_true, false_or, true_and,
      vector_eq_iff]
    rw [← not_lex_iff, ← lexLt_iff_lex]
    simp
  · have hne : v ≠ w := by
      rintro rfl
      exact Nat.lt_irrefl _ hgt
    have hnot : ¬v.size < w.size := Nat.not_lt.mpr hgt.le
    have hsize : v.size ≠ w.size := Nat.ne_of_gt hgt
    simp [VectorArray.entryLe, ShortlexLt, hnot, hsize, hne]

theorem shortlexLt_trans {u v w : Vector α} (huv : ShortlexLt lt u v) (hvw : ShortlexLt lt v w) :
    ShortlexLt lt u w := by
  rcases huv with huv | ⟨huv, huv'⟩ <;> rcases hvw with hvw | ⟨hvw, hvw'⟩
  · exact .inl (Nat.lt_trans huv hvw)
  · exact .inl (hvw ▸ huv)
  · exact .inl (huv ▸ hvw)
  · exact .inr ⟨huv.trans hvw, List.lex_trans (lt_trans_bool lt) huv' hvw'⟩

theorem entryLe_trans {u v w : Vector α} (huv : VectorArray.entryLe lt u v = true)
    (hvw : VectorArray.entryLe lt v w = true) : VectorArray.entryLe lt u w = true := by
  rw [entryLe_iff] at huv hvw ⊢
  rcases huv with huv | rfl
  · rcases hvw with hvw | rfl
    · exact .inl (shortlexLt_trans lt huv hvw)
    · exact .inl huv
  · exact hvw

theorem entryLe_refl (v : Vector α) : VectorArray.entryLe lt v v = true :=
  (entryLe_iff lt v v).mpr (.inr rfl)

theorem entryLe_total (v w : Vector α) :
    (VectorArray.entryLe lt v w || VectorArray.entryLe lt w v) = true := by
  rw [Bool.or_eq_true, entryLe_iff, entryLe_iff]
  rcases Nat.lt_trichotomy v.size w.size with hlt | heq | hgt
  · exact .inl (.inl (.inl hlt))
  · by_cases hwv : List.Lex (fun x y => lt x y = true) w.data.toList v.data.toList
    · exact .inr (.inl (.inr ⟨heq.symm, hwv⟩))
    · rcases (not_lex_iff lt _ _).mp hwv with hvw | hvw
      · exact .inl (.inl (.inr ⟨heq, hvw⟩))
      · exact .inl (.inr ((vector_eq_iff v w).mpr hvw))
  · exact .inr (.inl (.inl hgt))

end Entries

section Positions

theorem pair_sublist_range {q p n : Nat} (hqp : q < p) (hp : p < n) :
    [q, p].Sublist (List.range n) := by
  have h := @List.map_getElem_sublist _ (List.range n) [⟨q, by simp; omega⟩, ⟨p, by simpa using hp⟩]
    (by simpa using hqp)
  simpa using h

theorem not_pair_sublist_swap {β : Type} {l : List β} (hl : l.Nodup) {x y : β}
    (hxy : [x, y].Sublist l) : ¬[y, x].Sublist l := by
  induction l with
  | nil => cases hxy
  | cons z l ih =>
    obtain ⟨hz, hl⟩ := List.nodup_cons.mp hl
    intro hyx
    -- the head `z` can open at most one of the two pairs, as it occurs nowhere after
    cases hxy with
    | cons _ hxy =>
      cases hyx with
      | cons _ hyx => exact ih hl hxy hyx
      | cons_cons _ hx => exact hz (hxy.subset (by simp))
    | cons_cons _ hy =>
      cases hyx with
      | cons _ hyx => exact hz (hyx.subset (by simp))
      | cons_cons _ _ => exact hz (hy.subset (by simp))

end Positions

section Sorting

variable [IsStrictTotalOrder α fun x y => lt x y = true]

theorem sortBy_sorted (v : Vector α) :
    (v.sortBy fun x y => !lt y x).data.toList.Perm v.data.toList ∧
      (v.sortBy fun x y => !lt y x).data.toList.Pairwise fun x y => lt y x = false := by
  refine ⟨by simpa [Vector.sortBy] using List.mergeSort_perm v.data.toList _, ?_⟩
  have h : (v.data.toList.mergeSort fun x y => !lt y x).Pairwise fun x y => (!lt y x) = true := by
    refine List.pairwise_mergeSort ?_ (notAfter_total lt) _
    intro x y z hxy hyz
    exact notAfter_trans lt hxy hyz
  simpa [Vector.sortBy] using h

omit [IsStrictTotalOrder α fun x y => lt x y = true] in
theorem getD_sortEntries (a : VectorArray α) (k : Nat) :
    (a.sortEntries lt).entries.getD k ⟨#[]⟩ =
      (a.entries.getD k ⟨#[]⟩).sortBy fun x y => !lt y x := by
  by_cases hk : k < a.entries.size
  · simp [VectorArray.sortEntries, hk]
  · simp [VectorArray.sortEntries, hk, Vector.sortBy]

theorem ordering_pairwise (s : VectorArray α) :
    (s.ordering lt).Pairwise fun p q =>
      VectorArray.entryLe lt (s.entries.getD p ⟨#[]⟩) (s.entries.getD q ⟨#[]⟩) = true := by
  rw [VectorArray.ordering]
  refine List.pairwise_mergeSort ?_ ?_ _
  · intro p q r hpq hqr
    exact entryLe_trans lt hpq hqr
  · intro p q
    exact entryLe_total lt _ _

theorem ordering_stable (s : VectorArray α) :
    (s.ordering lt).Pairwise fun p q =>
      s.entries.getD p ⟨#[]⟩ = s.entries.getD q ⟨#[]⟩ → p < q := by
  have hperm := ordering_perm s lt
  have hnd : (s.ordering lt).Nodup := hperm.nodup_iff.mpr List.nodup_range
  refine List.pairwise_of_forall_sublist fun {p q} hpq heq => ?_
  have hne : p ≠ q := by simpa using hnd.sublist hpq
  refine Nat.lt_of_le_of_ne (Nat.le_of_not_lt fun hqp => ?_) hne
  have hp : p < s.entries.size := List.mem_range.mp (hperm.subset (hpq.subset (by simp)))
  have hle : VectorArray.entryLe lt (s.entries.getD q ⟨#[]⟩) (s.entries.getD p ⟨#[]⟩) = true :=
    heq ▸ entryLe_refl lt _
  refine not_pair_sublist_swap hnd hpq (List.pair_sublist_mergeSort ?_ ?_ hle
    (pair_sublist_range hqp hp))
  · intro p q r hpq hqr
    exact entryLe_trans lt hpq hqr
  · intro p q
    exact entryLe_total lt _ _

omit [IsStrictTotalOrder α fun x y => lt x y = true] in
theorem map_ordering (s : VectorArray α) :
    (s.ordering lt).map (fun k => s.entries.getD k ⟨#[]⟩) =
      s.entries.toList.mergeSort (VectorArray.entryLe lt) := by
  have hrange : (List.range s.entries.size).map (fun k => s.entries.getD k ⟨#[]⟩) =
      s.entries.toList := by
    refine List.ext_getElem (by simp) fun i hi _ => ?_
    simp at hi
    simp [hi]
  rw [VectorArray.ordering, List.map_mergeSort (s := VectorArray.entryLe lt) fun _ _ _ _ => rfl,
    hrange]

end Sorting

section Main

/-- What sorting with an ordering leaves: the ordering is a permutation of the positions; entry
`i` is the former entry at position `ordering[i]` with its values sorted; the entries are in
shortlex order, equal entries in the order of their former positions; and the array is the one
`sort` gives, over the same extents. -/
structure SortedWithOrdering (a : VectorArray α) (ord : List Nat) (b : VectorArray α) : Prop where
  extents_eq : b.extents = a.extents
  ordering_perm : ord.Perm (List.range a.entries.size)
  size_eq : b.entries.size = a.entries.size
  entry_sorted : ∀ i, i < b.entries.size →
    (b.entries.getD i ⟨#[]⟩).data.toList.Perm (a.entries.getD (ord.getD i 0) ⟨#[]⟩).data.toList ∧
      (b.entries.getD i ⟨#[]⟩).data.toList.Pairwise fun x y => lt y x = false
  entries_sorted : b.entries.toList.Pairwise fun v w => ShortlexLt lt v w ∨ v = w
  stable : ∀ i j, i < j → j < b.entries.size →
    b.entries.getD i ⟨#[]⟩ = b.entries.getD j ⟨#[]⟩ → ord.getD i 0 < ord.getD j 0
  eq_sort : b = a.sort lt

variable [IsStrictTotalOrder α fun x y => lt x y = true]

theorem sortIndexed_sorts_stably (a : VectorArray α) :
    ∃ ord b, a.sortIndexed lt = .ok (ord, b) ∧ SortedWithOrdering lt a ord b := by
  set s := a.sortEntries lt with hs
  set ord := s.ordering lt
  have hperm : ord.Perm (List.range s.entries.size) := ordering_perm s lt
  have hsize : s.entries.size = a.entries.size := Array.size_map ..
  have hlen : ord.length = a.entries.size := by rw [hperm.length_eq, List.length_range, hsize]
  have hget : ∀ i, i < a.entries.size →
      (ord.map fun k => s.entries.getD k ⟨#[]⟩).toArray.getD i ⟨#[]⟩ =
        s.entries.getD (ord.getD i 0) ⟨#[]⟩ := by
    intro i hi
    have hi' : i < ord.length := hlen ▸ hi
    simp [Array.getD_eq_getD_getElem?, hi', List.getD_eq_getElem?_getD]
  refine ⟨ord, { s with entries := (ord.map fun k => s.entries.getD k ⟨#[]⟩).toArray }, ?_, ?_⟩
  · simp [VectorArray.sortIndexed, InPlace.eval, sortIndexedIn_run, ← hs, ord]
  refine ⟨rfl, hsize ▸ hperm, by simp [hlen], fun i hi => ?_, ?_, fun i j hij hj heq => ?_, ?_⟩
  · simp only [List.size_toArray, List.length_map, hlen] at hi
    rw [hget i hi, getD_sortEntries]
    exact sortBy_sorted lt _
  · rw [List.toList_toArray, List.pairwise_map]
    exact (ordering_pairwise lt s).imp fun h => (entryLe_iff lt _ _).mp h
  · simp only [List.size_toArray, List.length_map, hlen] at hj
    rw [hget i (by omega), hget j hj] at heq
    have hlen' : (s.ordering lt).length = a.entries.size := hlen
    have h := List.pairwise_iff_getElem.mp (ordering_stable lt s) i j (by omega) (by omega) hij
    rw [List.getD_eq_getElem _ _ (by omega), List.getD_eq_getElem _ _ (by omega)] at heq ⊢
    exact h heq
  · simp only [VectorArray.sort, ← hs]
    rw [map_ordering]

theorem int32_lt_strictTotalOrder : IsStrictTotalOrder Int32 fun x y => decide (x < y) = true where
  trichotomous x y hxy hyx := by
    simp only [decide_eq_true_eq, Int32.lt_iff_toInt_lt] at hxy hyx
    exact Int32.toInt_inj.mp (by omega)
  irrefl x := by simp
  trans x y z hxy hyz := by
    simp only [decide_eq_true_eq] at hxy hyz ⊢
    exact Int32.lt_trans hxy hyz

def faces : VectorArray Int32 := ⟨[4], #[⟨#[7, 3, 9]⟩, ⟨#[2, 1]⟩, ⟨#[5, 4]⟩, ⟨#[1, 0, 8]⟩]⟩

theorem faces_sortIndexed_sorts_stably :
    IsStrictTotalOrder Int32 (fun x y => decide (x < y) = true) ∧
      ∃ ord b, faces.sortIndexed (fun x y => decide (x < y)) = .ok (ord, b) ∧
        SortedWithOrdering (fun x y : Int32 => decide (x < y)) faces ord b :=
  ⟨int32_lt_strictTotalOrder, @sortIndexed_sorts_stably Int32 _ int32_lt_strictTotalOrder faces⟩

end Main

end DualArrays.Proofs.IndexedSort
