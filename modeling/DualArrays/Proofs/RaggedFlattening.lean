import DualArrays.Proofs.ProtocolInvariants

namespace DualArrays.Proofs.RaggedFlattening

open DualArrays
open DualArrays.Proofs.Outcomes DualArrays.Proofs.CsrRows DualArrays.Proofs.CsrDense
open DualArrays.Proofs.CsrReaders DualArrays.Proofs.ProtocolInvariants

section Words

theorem foldlM_add_eq (xs : List Nat) {a : Nat} (ha : a ≤ Word.max) :
    xs.foldlM Word.add a =
      if a + xs.sum ≤ Word.max then .ok (a + xs.sum)
      else .error (.abort "attempt to add with overflow") := by
  induction xs generalizing a with
  | nil =>
    rw [if_pos (by simpa using ha)]
    rfl
  | cons x xs ih =>
    rw [List.foldlM_cons, List.sum_cons, ← Nat.add_assoc]
    by_cases hx : a + x ≤ Word.max
    · rw [word_add_of_le hx]
      exact ih hx
    · rw [word_add_of_lt (by omega), if_neg (by omega)]
      rfl

theorem word_sum_eq (xs : List Nat) :
    Word.sum xs =
      if xs.sum ≤ Word.max then .ok xs.sum
      else .error (.abort "attempt to add with overflow") := by
  have h := foldlM_add_eq xs (Nat.zero_le Word.max)
  simp only [Nat.zero_add] at h
  exact h

end Words

section Lists

variable {ε β γ : Type}

theorem mapM_eq_error {f : β → Except ε γ} {l : List β} {e : ε} (h : l.mapM f = .error e) :
    ∃ x ∈ l, f x = .error e := by
  induction l with
  | nil => cases h
  | cons x xs ih =>
    rw [List.mapM_cons] at h
    rcases bind_eq_error.mp h with hx | ⟨y, -, h⟩
    · exact ⟨x, List.mem_cons_self, hx⟩
    rcases bind_eq_error.mp h with hxs | ⟨ys, -, h⟩
    · obtain ⟨z, hz, hfz⟩ := ih hxs
      exact ⟨z, List.mem_cons_of_mem x hz, hfz⟩
    · cases h

theorem mapM_eq_ok_of_mem {f : β → Except ε γ} {l : List β} {ys : List γ}
    (h : l.mapM f = .ok ys) {x : β} (hx : x ∈ l) : ∃ y, f x = .ok y := by
  induction l generalizing ys with
  | nil => cases hx
  | cons z zs ih =>
    rw [List.mapM_cons] at h
    obtain ⟨y, hy, h⟩ := bind_eq_ok.mp h
    obtain ⟨ys', hys', -⟩ := bind_eq_ok.mp h
    rcases List.mem_cons.mp hx with rfl | hzs
    · exact ⟨y, hy⟩
    · exact ih hys' hzs

theorem sum_take_le (lens : List Nat) (k : Nat) : (lens.take k).sum ≤ lens.sum := by
  have h := List.sum_take_add_sum_drop lens k
  omega

end Lists

section Pieces

variable {α : Type}

/-- The entries of the lengths `lens` cut from `values`: entry `k` runs from the `k`-th to the
`k + 1`-th prefix sum of the lengths. -/
def pieces (values : Array α) (lens : List Nat) : List (Vector α) :=
  (List.range lens.length).map fun k =>
    ⟨values.extract (lens.take k).sum (lens.take (k + 1)).sum⟩

theorem flatten_pieces_take (values : Array α) {lens : List Nat} {m : Nat}
    (hm : m ≤ lens.length) :
    ((List.range m).map fun k =>
        (values.extract (lens.take k).sum (lens.take (k + 1)).sum).toList).flatten =
      (values.extract 0 (lens.take m).sum).toList := by
  induction m with
  | zero => simp
  | succ m ih =>
    have hstep : (lens.take m).sum ≤ (lens.take (m + 1)).sum := by
      rw [List.sum_take_succ lens m (by omega)]
      exact Nat.le_add_right _ _
    rw [List.range_succ, List.map_append, List.flatten_append, ih (by omega), List.map_singleton,
      List.flatten_singleton, ← Array.toList_append, Array.extract_append_extract, Nat.zero_min,
      Nat.max_eq_right hstep]

theorem flatten_pieces {values : Array α} {lens : List Nat} (hsum : lens.sum = values.size) :
    ((pieces values lens).map (·.data.toList)).flatten = values.toList := by
  unfold pieces
  rw [List.map_map]
  have h := flatten_pieces_take values (le_refl lens.length)
  rw [List.take_length, hsum, Array.extract_size] at h
  exact h

theorem totalLen_eq_length (a : VectorArray α) :
    a.totalLen = ((a.entries.toList.map (·.data.toList)).flatten).length := by
  have hacc : ∀ (l : List (Vector α)) (n : Nat),
      l.foldl (fun n v => n + v.size) n = n + ((l.map (·.data.toList)).flatten).length := by
    intro l
    induction l with
    | nil => simp
    | cons v l ih =>
      intro n
      rw [List.foldl_cons, ih]
      simp [Vector.size, Nat.add_assoc]
  rw [VectorArray.totalLen, ← Array.foldl_toList, hacc, Nat.zero_add]

end Pieces

section Copies

variable {α : Type} [Element α]

def cut (values : Array α) (lens : List Nat) : Except Error (List (Vector α)) :=
  ((offsetsOf lens).zip lens).mapM fun p => Vector.copyOf (values.extract p.1 (p.1 + p.2))

theorem zip_offsetsOf (lens : List Nat) :
    (offsetsOf lens).zip lens =
      (List.range lens.length).map fun k => ((lens.take k).sum, lens.getD k 0) := by
  apply List.ext_getElem
  · simp [offsetsOf_length]
  · intro k h₁ h₂
    have hk : k < lens.length := by simpa using h₂
    simp [offsetsOf_eq, List.getElem_zip, List.getElem?_eq_getElem hk]

theorem copyOf_eq (src : Array α) :
    Vector.copyOf src =
      (Storage.reserve "Vector" [src.size] src.size (Element.size α)).map fun _ => ⟨src⟩ := by
  unfold Vector.copyOf Storage.copy
  cases Storage.reserve "Vector" [src.size] src.size (Element.size α) <;> rfl

theorem copyOf_piece {values : Array α} {lens : List Nat} (hsum : lens.sum = values.size)
    {k : Nat} (hk : k < lens.length) :
    Vector.copyOf (values.extract (lens.take k).sum ((lens.take k).sum + lens.getD k 0)) =
      (Storage.reserve "Vector" [lens.getD k 0] (lens.getD k 0) (Element.size α)).map
        fun _ => ⟨values.extract (lens.take k).sum (lens.take (k + 1)).sum⟩ := by
  have hnext : (lens.take k).sum + lens.getD k 0 = (lens.take (k + 1)).sum := by
    rw [List.sum_take_succ lens k hk, List.getD_eq_getElem _ _ hk]
  have hend : (lens.take (k + 1)).sum ≤ values.size := hsum ▸ sum_take_le lens (k + 1)
  have hsize : (values.extract (lens.take k).sum (lens.take (k + 1)).sum).size = lens.getD k 0 := by
    rw [Array.size_extract]
    omega
  rw [hnext, copyOf_eq, hsize]

theorem cut_eq_ok {values : Array α} {lens : List Nat} (hsum : lens.sum = values.size)
    (hres : ∀ n ∈ lens, Storage.reserve "Vector" [n] n (Element.size α) = .ok ()) :
    cut values lens = .ok (pieces values lens) := by
  unfold cut pieces
  rw [zip_offsetsOf, List.mapM_map]
  refine mapM_eq_pure_map _ fun k hk => ?_
  have hk' := List.mem_range.mp hk
  have hmem : lens.getD k 0 ∈ lens := by
    rw [List.getD_eq_getElem _ _ hk']
    exact List.getElem_mem hk'
  simp only [Function.comp_apply]
  rw [copyOf_piece hsum hk', hres _ hmem]
  rfl

theorem cut_eq_error {values : Array α} {lens : List Nat} {e : Error}
    (h : cut values lens = .error e) : ∃ c es r, e = .allocation c es r := by
  obtain ⟨p, -, hp⟩ := mapM_eq_error h
  rw [copyOf_eq] at hp
  obtain ⟨reason, rfl⟩ := reserve_eq_error (map_eq_error.mp hp)
  exact ⟨_, _, _, rfl⟩

theorem reserve_of_cut_eq_ok {values : Array α} {lens : List Nat} (hsum : lens.sum = values.size)
    {ys : List (Vector α)} (h : cut values lens = .ok ys) :
    ∀ n ∈ lens, Storage.reserve "Vector" [n] n (Element.size α) = .ok () := by
  intro n hn
  obtain ⟨k, hk, rfl⟩ := List.getElem_of_mem hn
  have hmem : ((lens.take k).sum, lens.getD k 0) ∈ (offsetsOf lens).zip lens := by
    rw [zip_offsetsOf]
    exact List.mem_map.mpr ⟨k, List.mem_range.mpr hk, rfl⟩
  obtain ⟨y, hy⟩ := mapM_eq_ok_of_mem h hmem
  rw [copyOf_piece hsum hk] at hy
  obtain ⟨u, hu, -⟩ := map_eq_ok.mp hy
  rw [← List.getD_eq_getElem _ 0 hk]
  exact hu

theorem collapse_eq (a : VectorArray α) :
    a.collapse = (Storage.reserve "VectorArray" [a.totalLen] a.totalLen (Element.size α)).map
      fun _ => ⟨((a.entries.toList.map (·.data.toList)).flatten).toArray⟩ := by
  unfold VectorArray.collapse
  dsimp only
  cases Storage.reserve "VectorArray" [a.totalLen] a.totalLen (Element.size α) <;> rfl

end Copies

section Filling

variable {α : Type} [Element α]

theorem ofFlat_eq {extents : List Nat} {values : Array α} {lens : List Nat} {out : VectorArray α}
    (hnew : VectorArray.new extents = .ok out) :
    VectorArray.ofFlat extents values lens =
      if lens.length ≠ extents.prod then
        .error (.error (.dimension "VectorArray::from_flat" [extents.prod] [lens.length]))
      else if Word.max < lens.sum then .error (.abort "attempt to add with overflow")
      else if lens.sum ≠ values.size then
        .error (.error (.dimension "VectorArray::from_flat" [lens.sum] [values.size]))
      else (cut values lens).toFailure.map fun entries => ⟨extents, entries.toArray⟩ := by
  obtain ⟨-, rfl⟩ := new_eq hnew
  unfold VectorArray.ofFlat
  rw [hnew]
  simp only [Except.toFailure, Except.mapError, bind, Except.bind, VectorArray.size,
    Array.size_replicate]
  have hcut : List.mapM (fun p => Vector.copyOf (values.extract p.1 (p.1 + p.2)))
      ((List.foldl (fun acc n => acc ++ [acc.getLastD 0 + n]) [0] lens).zip lens) =
      cut values lens := rfl
  rw [hcut, word_sum_eq]
  by_cases hlen : lens.length ≠ extents.prod
  · rw [if_pos hlen, if_pos hlen]
    rfl
  rw [if_neg hlen, if_neg hlen]
  by_cases hfit : lens.sum ≤ Word.max
  · rw [if_pos hfit, if_neg (Nat.not_lt.mpr hfit)]
    dsimp only
    by_cases hsize : lens.sum ≠ values.size
    · rw [if_pos hsize, if_pos hsize]
      rfl
    · rw [if_neg hsize, if_neg hsize]
      cases cut values lens <;> rfl
  · rw [if_neg hfit, if_pos (Nat.lt_of_not_le hfit)]

theorem ofFlat_of_checks {extents : List Nat} {values : Array α} {lens : List Nat}
    {out : VectorArray α} (hnew : VectorArray.new extents = .ok out)
    (hlen : lens.length = extents.prod) (hfit : lens.sum ≤ Word.max)
    (hsum : lens.sum = values.size) :
    VectorArray.ofFlat extents values lens =
      (cut values lens).toFailure.map fun entries => ⟨extents, entries.toArray⟩ := by
  rw [ofFlat_eq hnew, if_neg (not_not.mpr hlen), if_neg (Nat.not_lt.mpr hfit),
    if_neg (not_not.mpr hsum)]

structure FlatCut (extents : List Nat) (values : Array α) (lens : List Nat) (a : VectorArray α) :
    Prop where
  extents_eq : a.extents = extents
  entries_eq : a.entries = (pieces values lens).toArray
  totalLen_eq : a.totalLen = values.size
  collapse_eq : a.collapse =
    (Storage.reserve "VectorArray" [values.size] values.size (Element.size α)).map
      fun _ => ⟨values⟩

theorem flatCut_pieces (extents : List Nat) {values : Array α} {lens : List Nat}
    (hsum : lens.sum = values.size) :
    FlatCut extents values lens ⟨extents, (pieces values lens).toArray⟩ := by
  have hflat := flatten_pieces hsum
  have htotal :
      (⟨extents, (pieces values lens).toArray⟩ : VectorArray α).totalLen = values.size := by
    rw [totalLen_eq_length, List.toList_toArray, hflat, Array.length_toList]
  refine ⟨rfl, rfl, htotal, ?_⟩
  rw [collapse_eq, htotal, List.toList_toArray, hflat, Array.toArray_toList]

theorem ofFlat_eq_ok {extents : List Nat} {values : Array α} {lens : List Nat} {a : VectorArray α}
    (h : VectorArray.ofFlat extents values lens = .ok a) : FlatCut extents values lens a := by
  have hnew : ∃ out : VectorArray α, VectorArray.new extents = .ok out := by
    unfold VectorArray.ofFlat at h
    obtain ⟨out, hout, -⟩ := bind_eq_ok.mp h
    exact ⟨out, toFailure_eq_ok hout⟩
  obtain ⟨out, hnew⟩ := hnew
  rw [ofFlat_eq hnew] at h
  split_ifs at h with hlen hfit hsize
  obtain ⟨entries, hentries, rfl⟩ := map_eq_ok.mp h
  have hsum : lens.sum = values.size := not_not.mp hsize
  have hcut := toFailure_eq_ok hentries
  rw [cut_eq_ok hsum (reserve_of_cut_eq_ok hsum hcut)] at hcut
  cases hcut
  exact flatCut_pieces extents hsum

theorem ofFlat_of_new_error {extents : List Nat} {values : Array α} {lens : List Nat} {e : Error}
    (h : (VectorArray.new extents : Except Error (VectorArray α)) = .error e) :
    VectorArray.ofFlat extents values lens = .error (.error e) := by
  unfold VectorArray.ofFlat
  rw [h]
  rfl

/-- What filling a vector array from a flat buffer does. The empty array is built first, and
its error is returned as it is. Past it, a count of lengths other than the number of entries
is refused; the lengths are then summed in a machine word, which aborts when the sum does not
fit; a sum other than the number of values is refused. Otherwise the only error is the
allocation of an entry's copy, which comes exactly when some entry cannot be had, and an array
that is returned is the values cut by the lengths. -/
structure FlatFill (extents : List Nat) (values : Array α) (lens : List Nat) : Prop where
  new_error : ∀ e, (VectorArray.new extents : Except Error (VectorArray α)) = .error e →
    VectorArray.ofFlat extents values lens = .error (.error e)
  count_mismatch : (∃ out : VectorArray α, VectorArray.new extents = .ok out) →
    lens.length ≠ extents.prod →
    VectorArray.ofFlat extents values lens =
      .error (.error (.dimension "VectorArray::from_flat" [extents.prod] [lens.length]))
  sum_overflow : (∃ out : VectorArray α, VectorArray.new extents = .ok out) →
    lens.length = extents.prod → Word.max < lens.sum →
    VectorArray.ofFlat extents values lens = .error (.abort "attempt to add with overflow")
  sum_mismatch : (∃ out : VectorArray α, VectorArray.new extents = .ok out) →
    lens.length = extents.prod → lens.sum ≤ Word.max → lens.sum ≠ values.size →
    VectorArray.ofFlat extents values lens =
      .error (.error (.dimension "VectorArray::from_flat" [lens.sum] [values.size]))
  cut_ok_iff : (∃ out : VectorArray α, VectorArray.new extents = .ok out) →
    lens.length = extents.prod → lens.sum ≤ Word.max → lens.sum = values.size →
    ((∃ a, VectorArray.ofFlat extents values lens = .ok a) ↔
      ∀ n ∈ lens, Storage.reserve "Vector" [n] n (Element.size α) = .ok ())
  cut_error : (∃ out : VectorArray α, VectorArray.new extents = .ok out) →
    lens.length = extents.prod → lens.sum ≤ Word.max → lens.sum = values.size →
    ∀ f, VectorArray.ofFlat extents values lens = .error f →
      ∃ c es r, f = .error (.allocation c es r)
  filled : ∀ a, VectorArray.ofFlat extents values lens = .ok a → FlatCut extents values lens a

/-- Filling from a flat buffer, for every extents, values and lengths, does what `FlatFill`
says. -/
theorem ofFlat_cuts_values_by_lengths (extents : List Nat) (values : Array α) (lens : List Nat) :
    FlatFill extents values lens where
  new_error _ := ofFlat_of_new_error
  count_mismatch := by
    rintro ⟨out, hnew⟩ hlen
    rw [ofFlat_eq hnew, if_pos hlen]
  sum_overflow := by
    rintro ⟨out, hnew⟩ hlen hover
    rw [ofFlat_eq hnew, if_neg (not_not.mpr hlen), if_pos hover]
  sum_mismatch := by
    rintro ⟨out, hnew⟩ hlen hfit hsize
    rw [ofFlat_eq hnew, if_neg (not_not.mpr hlen), if_neg (Nat.not_lt.mpr hfit), if_pos hsize]
  cut_ok_iff := by
    rintro ⟨out, hnew⟩ hlen hfit hsum
    rw [ofFlat_of_checks hnew hlen hfit hsum]
    constructor
    · rintro ⟨a, h⟩
      obtain ⟨entries, hentries, -⟩ := map_eq_ok.mp h
      exact reserve_of_cut_eq_ok hsum (toFailure_eq_ok hentries)
    · intro hres
      rw [cut_eq_ok hsum hres]
      exact ⟨_, rfl⟩
  cut_error := by
    rintro ⟨out, hnew⟩ hlen hfit hsum f h
    rw [ofFlat_of_checks hnew hlen hfit hsum] at h
    -- the only step left that can fail is the cut, whose errors are allocations
    cases hcut : cut values lens with
    | ok ys =>
      rw [hcut] at h
      cases h
    | error e =>
      rw [hcut] at h
      cases h
      obtain ⟨c, es, r, rfl⟩ := cut_eq_error hcut
      exact ⟨c, es, r, rfl⟩
  filled _ := ofFlat_eq_ok

end Filling

/-- Two entries of lengths `2⁶⁴ - 1` and `3` over two values: the running sum of the lengths
leaves a word, and the fill aborts where the sum would have been refused. -/
theorem ofFlat_length_sum_overflows :
    VectorArray.ofFlat [2] (#[1, 2] : Array Int32) [Word.max, 3] =
      .error (.abort "attempt to add with overflow") :=
  (ofFlat_cuts_values_by_lengths [2] (#[1, 2] : Array Int32) [Word.max, 3]).sum_overflow
    ⟨_, rfl⟩ (by decide) (by decide)

end DualArrays.Proofs.RaggedFlattening
