import DualArrays.Reduce
import DualArrays.Proofs.FloatOrder

namespace DualArrays.Proofs.FloatMaximum

open DualArrays.Proofs.FloatOrder
open RealFloat

variable {ρ : Type} [RealFloat ρ]

def IsTop (r : ρ) (xs : List ρ) : Prop :=
  r ∈ xs ∧ isNaN r = false ∧ ∀ x ∈ xs, lt r x = false

theorem fmax_of_not_nan {x y : ρ} (hx : isNaN x = false) (hy : isNaN y = false) :
    fmax x y = if lt y x then x else y := by
  simp [fmax, hx, hy]

variable [IeeeOrder ρ]

theorem lt_asymm {x y : ρ} (h : lt x y = true) : lt y x = false := by
  cases h' : lt y x
  · rfl
  · have := IeeeOrder.lt_trans h h'
    rw [IeeeOrder.lt_irrefl] at this
    exact absurd this (by decide)

theorem not_lt_trans {r m x : ρ} (hm : isNaN m = false) (hrm : lt r m = false)
    (hmx : lt m x = false) : lt r x = false := by
  cases h : lt r x
  · rfl
  · rcases IeeeOrder.lt_cotrans hm h with h' | h'
    · rw [hrm] at h'
      exact absurd h' (by decide)
    · rw [hmx] at h'
      exact absurd h' (by decide)

theorem lt_of_zero_between_of_lt {a b c : ρ} (hb : isNaN b = false) (ha0 : lt a zero = false)
    (h0b : lt zero b = false) (hac : lt a c = true) : lt b c = true := by
  rcases IeeeOrder.lt_cotrans hb hac with hab | hbc
  · rw [not_lt_trans IeeeOrder.zero_not_nan ha0 h0b] at hab
    exact absurd hab (by decide)
  · exact hbc

theorem lt_of_lt_of_zero_between {a b c : ρ} (ha : isNaN a = false) (ha0 : lt a zero = false)
    (h0b : lt zero b = false) (hcb : lt c b = true) : lt c a = true := by
  rcases IeeeOrder.lt_cotrans ha hcb with hca | hab
  · exact hca
  · rw [not_lt_trans IeeeOrder.zero_not_nan ha0 h0b] at hab
    exact absurd hab (by decide)

theorem zero_congr_lt {a b : ρ} (ha : eq a zero = true) (hb : eq b zero = true) (c : ρ) :
    lt a c = lt b c := by
  obtain ⟨haN, -, ha0, h0a⟩ := IeeeOrder.eq_iff.mp ha
  obtain ⟨hbN, -, hb0, h0b⟩ := IeeeOrder.eq_iff.mp hb
  cases hac : lt a c <;> cases hbc : lt b c
  · rfl
  · rw [lt_of_zero_between_of_lt haN hb0 h0a hbc] at hac
    exact absurd hac (by decide)
  · rw [lt_of_zero_between_of_lt hbN ha0 h0b hac] at hbc
    exact absurd hbc (by decide)
  · rfl

theorem zero_congr_lt_right {a b : ρ} (ha : eq a zero = true) (hb : eq b zero = true) (c : ρ) :
    lt c a = lt c b := by
  obtain ⟨haN, -, ha0, h0a⟩ := IeeeOrder.eq_iff.mp ha
  obtain ⟨hbN, -, hb0, h0b⟩ := IeeeOrder.eq_iff.mp hb
  cases hca : lt c a <;> cases hcb : lt c b
  · rfl
  · rw [lt_of_lt_of_zero_between haN ha0 h0b hcb] at hca
    exact absurd hca (by decide)
  · rw [lt_of_lt_of_zero_between hbN hb0 h0a hca] at hcb
    exact absurd hcb (by decide)
  · rfl

theorem isTop_foldl_fmax (ys : List ρ) {acc : ρ} (hacc : isNaN acc = false) :
    IsTop (ys.foldl fmax acc) (acc :: ys) := by
  induction ys generalizing acc with
  | nil => exact ⟨List.mem_singleton_self acc, hacc, by simp [IeeeOrder.lt_irrefl]⟩
  | cons y ys ih =>
      have hstep : (fmax acc y = acc ∨ fmax acc y = y) ∧ isNaN (fmax acc y) = false ∧
          lt (fmax acc y) acc = false ∧ lt (fmax acc y) y = false := by
        cases hy : isNaN y
        · rw [fmax_of_not_nan hacc hy]
          cases hya : lt y acc
          · exact ⟨.inr rfl, hy, hya, IeeeOrder.lt_irrefl y⟩
          · exact ⟨.inl rfl, hacc, IeeeOrder.lt_irrefl acc, lt_asymm hya⟩
        · have hm : fmax acc y = acc := by simp [fmax, hacc, hy]
          rw [hm]
          exact ⟨.inl rfl, hacc, IeeeOrder.lt_irrefl acc, IeeeOrder.lt_nan_right hy⟩
      obtain ⟨hmem, hnan, hacc', hy'⟩ := hstep
      obtain ⟨hrmem, hrnan, hrtop⟩ := ih hnan
      simp only [List.foldl_cons]
      refine ⟨?_, hrnan, ?_⟩
      · rcases List.mem_cons.mp hrmem with hr | hr
        · rcases hmem with h | h
          · rw [hr, h]
            exact List.mem_cons_self
          · rw [hr, h]
            exact List.mem_cons_of_mem _ List.mem_cons_self
        · exact List.mem_cons_of_mem _ (List.mem_cons_of_mem _ hr)
      · intro x hx
        have hrm := hrtop _ List.mem_cons_self
        rcases List.mem_cons.mp hx with rfl | hx
        · exact not_lt_trans hnan hrm hacc'
        · rcases List.mem_cons.mp hx with rfl | hx
          · exact not_lt_trans hnan hrm hy'
          · exact hrtop x (List.mem_cons_of_mem _ hx)

def SameUpToZero (x y : ρ) : Prop :=
  x = y ∨ (eq x zero = true ∧ eq y zero = true)

theorem isNaN_congr {x y : ρ} (h : SameUpToZero x y) : isNaN x = isNaN y := by
  rcases h with rfl | ⟨hx, hy⟩
  · rfl
  · rw [(IeeeOrder.eq_iff.mp hx).1, (IeeeOrder.eq_iff.mp hy).1]

theorem lt_congr {a a' b b' : ρ} (ha : SameUpToZero a a') (hb : SameUpToZero b b') :
    lt a b = lt a' b' := by
  have hleft : lt a b = lt a' b := by
    rcases ha with rfl | ⟨ha, ha'⟩
    · rfl
    · exact zero_congr_lt ha ha' b
  rw [hleft]
  rcases hb with rfl | ⟨hb, hb'⟩
  · rfl
  · exact zero_congr_lt_right hb hb' a'

theorem fmax_congr {a a' b b' : ρ} (ha : SameUpToZero a a') (hb : SameUpToZero b b') :
    SameUpToZero (fmax a b) (fmax a' b') := by
  simp only [fmax, isNaN_congr ha, isNaN_congr hb, lt_congr hb ha]
  split_ifs
  · exact hb
  · exact ha
  · exact ha
  · exact hb

theorem isTop_unique {r r' : ρ} {xs xs' : List ρ} (h : IsTop r xs) (h' : IsTop r' xs')
    (hmem : ∀ x, x ∈ xs ↔ x ∈ xs') : SameUpToZero r r' := by
  obtain ⟨hr, hrN, hrtop⟩ := h
  obtain ⟨hr', hr'N, hr'top⟩ := h'
  have heq : eq r r' = true := IeeeOrder.eq_iff.mpr
    ⟨hrN, hr'N, hrtop r' ((hmem r').mpr hr'), hr'top r ((hmem r).mp hr)⟩
  exact IeeeOrder.eq_or_zero heq

theorem relative_congr {den den' : ρ} (h : SameUpToZero den den') (d : ρ) :
    (if lt epsilon den then d / den else d) = (if lt epsilon den' then d / den' else d) := by
  rw [← lt_congr (.inl rfl) h]
  split_ifs with hlt
  · rcases h with rfl | ⟨hz, -⟩
    · rfl
    · rw [zero_congr_lt_right hz (IeeeOrder.eq_iff.mpr ⟨IeeeOrder.zero_not_nan,
        IeeeOrder.zero_not_nan, IeeeOrder.lt_irrefl _, IeeeOrder.lt_irrefl _⟩),
        lt_asymm IeeeOrder.zero_lt_epsilon] at hlt
      exact absurd hlt (by decide)
  · rfl

section Moduli

variable {α : Type} [Scalar α ρ]

omit [IeeeOrder ρ] in
theorem maximumAbs_eq_foldl (xs : Array α) :
    Reduce.maximumAbs xs = (xs.toList.map Scalar.modulus).foldl fmax zero := by
  rw [List.foldl_map, Array.foldl_toList]
  rfl

theorem maximumAbs_congr {xs ys : Array α} (hmem : ∀ x, x ∈ xs ↔ x ∈ ys) :
    SameUpToZero (Reduce.maximumAbs xs : ρ) (Reduce.maximumAbs ys) := by
  rw [maximumAbs_eq_foldl, maximumAbs_eq_foldl]
  refine isTop_unique (isTop_foldl_fmax _ IeeeOrder.zero_not_nan)
    (isTop_foldl_fmax _ IeeeOrder.zero_not_nan) ?_
  intro x
  simp only [List.mem_cons, List.mem_map, Array.mem_toList_iff, hmem]

end Moduli

end DualArrays.Proofs.FloatMaximum
