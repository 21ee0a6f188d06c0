import DualArrays.Proofs.Views

namespace DualArrays.Proofs.TrailingProducts

open DualArrays DualArrays.Blas
open DualArrays.Proofs.Outcomes DualArrays.Proofs.ProtocolInvariants
open DualArrays.Proofs.MultiarrayProducts DualArrays.Proofs.Views

section Words

def PartialProductsFit (xs : List Nat) : Prop := ∀ k, (xs.take k).prod ≤ Word.max

theorem foldlM_mul?_isSome_iff {xs : List Nat} {a : Nat} (ha : a ≤ Word.max) :
    (∃ n, xs.foldlM Word.mul? a = some n) ↔ ∀ k, a * (xs.take k).prod ≤ Word.max := by
  induction xs generalizing a with
  | nil => simpa using ha
  | cons x xs ih =>
    simp only [foldlM_mul?_cons]
    constructor
    · rintro ⟨n, hx, hn⟩ k
      cases k with
      | zero => simpa using ha
      | succ k =>
        rw [List.take_succ_cons, List.prod_cons, ← Nat.mul_assoc]
        exact (ih hx).mp ⟨n, hn⟩ k
    · intro h
      have hx : a * x ≤ Word.max := by simpa using h 1
      obtain ⟨n, hn⟩ := (ih hx).mpr fun k => by
        simpa [Nat.mul_assoc] using h (k + 1)
      exact ⟨n, hx, hn⟩

theorem prod?_eq_none_iff {xs : List Nat} :
    Word.prod? xs = none ↔ ¬PartialProductsFit xs := by
  have h : (∃ n, xs.foldlM Word.mul? 1 = some n) ↔ ∀ k, 1 * (xs.take k).prod ≤ Word.max :=
    foldlM_mul?_isSome_iff (by decide)
  simp only [Nat.one_mul] at h
  rw [PartialProductsFit, ← h, Word.prod?, Option.eq_none_iff_forall_ne_some, not_exists]

end Words

section Offsets

theorem linearChecked_col_ok_iff {t es : List Nat} (ht : List.Forall₂ (· < ·) t es) :
    (∃ v, Layout.col.linearChecked es t = .ok v) ↔ Layout.col.linear es t ≤ Word.max := by
  induction ht with
  | nil => exact ⟨fun _ => Nat.zero_le _, fun _ => ⟨0, rfl⟩⟩
  | @cons i e t es hie _ ih =>
    rw [linearChecked_col_cons, linear_col_cons]
    constructor
    · rintro ⟨v, hv⟩
      obtain ⟨off, hoff, hv⟩ := bind_eq_ok.mp hv
      obtain ⟨p, hp, hv⟩ := bind_eq_ok.mp hv
      rw [← linearChecked_col_eq_ok hoff, ← (word_mul_eq_ok_iff.mp hp).2]
      exact (word_add_eq_ok_iff.mp hv).1
    · intro hle
      have hoff : Layout.col.linear es t ≤ Word.max :=
        le_trans (Nat.le_mul_of_pos_right _ (by omega)) (le_trans (Nat.le_add_right _ i) hle)
      obtain ⟨off, hoff'⟩ := ih.mpr hoff
      obtain rfl := linearChecked_col_eq_ok hoff'
      refine ⟨Layout.col.linear es t * e + i, ?_⟩
      rw [hoff']
      show (Word.mul _ e >>= fun p => Word.add p i) = _
      rw [word_mul_eq_ok_iff.mpr ⟨by omega, rfl⟩]
      exact word_add_eq_ok_iff.mpr ⟨hle, rfl⟩

end Offsets

section Aborts

variable {α : Type}

def Aborts {β : Type} (r : Except Failure β) : Prop := ∃ msg, r = .error (.abort msg)

theorem not_aborts_error {β : Type} (e : Error) :
    ¬Aborts (.error (.error e) : Except Failure β) := by
  rintro ⟨msg, h⟩
  cases h

theorem aborts_iff_of_abortsOnly {β : Type} {r : Except Failure β} (hr : AbortsOnly r) :
    Aborts r ↔ ¬∃ v, r = .ok v := by
  constructor
  · rintro ⟨msg, rfl⟩ ⟨v, hv⟩
    cases hv
  · intro hnone
    cases r with
    | ok v => exact absurd ⟨v, rfl⟩ hnone
    | error f =>
      obtain ⟨msg, rfl⟩ := hr.eq_abort rfl
      exact ⟨msg, rfl⟩

theorem extents_of_two_le_order {m : Multiarray α} (h : 2 ≤ m.order) :
    ∃ e₀ e₁ rest, m.extents = e₀ :: e₁ :: rest := by
  rcases hext : m.extents with _ | ⟨e₀, _ | ⟨e₁, rest⟩⟩ <;>
    simp [Multiarray.order, hext] at h ⊢

theorem colAt_aborts_iff (op : String) (m : Multiarray α) (j : Nat) :
    Aborts (Multiarray.colAt op m j) ↔
      m.layout = .col ∧ ¬PartialProductsFit (m.extents.drop 1) := by
  rw [multiarray_colAt_eq, ← prod?_eq_none_iff]
  by_cases hcol : m.layout = .col
  · rw [if_pos hcol]
    cases hp : Word.prod? (m.extents.drop 1) with
    | none => exact ⟨fun _ => ⟨hcol, rfl⟩, fun _ => ⟨_, rfl⟩⟩
    | some t =>
      simp only [reduceCtorEq, and_false, iff_false]
      split
      · rintro ⟨msg, h⟩
        cases h
      · exact not_aborts_error _
  · simp only [hcol, false_and, iff_false]
    exact not_aborts_error _

theorem headD_eq_zero_of_trailing_overflow {m : Multiarray α} (hm : Shaped m)
    (h : ¬PartialProductsFit (m.extents.drop 1)) : m.extents.headD 0 = 0 := by
  refine Nat.eq_zero_of_not_pos fun hpos => ?_
  have hprod := hm.prod_eq
  rw [hm.extents_cons] at hprod
  obtain ⟨n, hn⟩ := prod?_tail_of_cons hprod hpos
  rw [prod?_eq_none_iff.mpr h] at hn
  cases hn

theorem subMatrix_ok_iff [Element α] {m : Multiarray α} {e₀ e₁ : Nat} {rest t : List Nat}
    (hm : Shaped m) (hext : m.extents = e₀ :: e₁ :: rest) (hcol : m.layout = .col)
    (ht : List.Forall₂ (· < ·) t rest) :
    (∃ M, m.subMatrix t = .ok M) ↔
      Layout.col.linear rest t ≤ Word.max ∧ Layout.col.linear rest t * e₀ ≤ Word.max := by
  constructor
  · rintro ⟨M, h⟩
    rw [subMatrix_eq hext hcol ht] at h
    obtain ⟨block, hblock, h⟩ := bind_eq_ok.mp h
    obtain ⟨p, hp, -⟩ := bind_eq_ok.mp h
    obtain rfl := linearChecked_col_eq_ok hblock
    exact ⟨(linearChecked_col_ok_iff ht).mp ⟨_, hblock⟩, (word_mul_eq_ok_iff.mp hp).1⟩
  · rintro ⟨hb, hbe⟩
    obtain ⟨block, hblock⟩ := (linearChecked_col_ok_iff ht).mpr hb
    obtain rfl := linearChecked_col_eq_ok hblock
    have hprod := hm.prod_eq
    rw [hext] at hprod
    obtain ⟨-, hN, hmax⟩ := prod?_cons_cons hprod
    exact ⟨_, subMatrix_of_offset hext hcol ht hblock hbe (hN ▸ hmax)⟩

theorem subMatrix_aborts_iff [Element α] {m : Multiarray α} (hm : Shaped m) (t : List Nat) :
    Aborts (m.subMatrix t) ↔ m.layout = .col ∧ 2 ≤ m.order ∧
      List.Forall₂ (· < ·) t (m.extents.drop 2) ∧
      (Word.max < Layout.col.linear (m.extents.drop 2) t ∨
        Word.max < Layout.col.linear (m.extents.drop 2) t * m.extents.headD 0) := by
  by_cases hcol : m.layout = .col
  swap
  · rw [subMatrix_wrong_layout m t hcol]
    exact iff_of_false (not_aborts_error _) fun h => hcol h.1
  by_cases horder : 2 ≤ m.order ∧ t.length = m.order - 2
  swap
  · rw [subMatrix_wrong_order m t hcol horder]
    refine iff_of_false (not_aborts_error _) ?_
    rintro ⟨-, htwo, ht, -⟩
    exact horder ⟨htwo, by rw [ht.length_eq, List.length_drop]; rfl⟩
  obtain ⟨e₀, e₁, rest, hext⟩ := extents_of_two_le_order horder.1
  have hlen : t.length = rest.length := by simpa [Multiarray.order, hext] using horder.2
  simp only [hext, List.drop_succ_cons, List.drop_zero, List.headD_cons, hcol, horder.1,
    true_and]
  by_cases ht : List.Forall₂ (· < ·) t rest
  · rw [aborts_iff_of_abortsOnly (subMatrix_abortsOnly hext hcol ht),
      subMatrix_ok_iff hm hext hcol ht, not_and_or, Nat.not_le, Nat.not_le]
    simp only [ht, true_and]
  · rw [subMatrix_out_of_range hext hcol hlen ht]
    exact iff_of_false (not_aborts_error _) fun h => ht h.1

end Aborts

section Product

variable {α ρ : Type} [Scalar α ρ]

theorem mmMultiarray_aborts_iff {m : Multiarray α} (hm : Shaped m) (alpha : α) (a : Matrix α) :
    Aborts (mmMultiarray alpha a m) ↔ m.layout = .col ∧ a.cols = m.extents.headD 0 ∧
      a.rows = 0 ∧ ¬PartialProductsFit (m.extents.drop 1) := by
  by_cases hcol : m.layout = .col
  swap
  · rw [mmMultiarray_of_row alpha a hcol]
    exact iff_of_false (not_aborts_error _) fun h => hcol h.1
  by_cases hdim : a.cols = m.extents.headD 0
  swap
  · rw [mmMultiarray_of_dimension alpha a hcol hdim]
    exact iff_of_false (not_aborts_error _) fun h => hdim h.2.1
  simp only [hcol, hdim, true_and, ← prod?_eq_none_iff]
  have hinv : MultiarrayInv m := ⟨hm.order_pos, hm.order_le, hm.size_eq⟩
  cases hz : (Multiarray.zeros (a.rows :: m.extents.drop 1) .col :
      Except Error (Multiarray α)) with
  | error e =>
    -- a result without rows is always allocated, so a refused one has rows
    rw [mmMultiarray_of_alloc alpha a hcol hdim hz]
    refine iff_of_false (not_aborts_error _) ?_
    rintro ⟨hr, -⟩
    obtain ⟨z, hz'⟩ :=
      multiarray_zeros_of_zero (α := α) .col (checkOrder_replace_first hinv 0)
    rw [← hr, hz] at hz'
    cases hz'
  | ok z =>
    cases hp : Word.prod? (m.extents.drop 1) with
    | none =>
      have hr : a.rows = 0 := by
        refine Nat.eq_zero_of_not_pos fun hpos => ?_
        obtain ⟨N, hN, -⟩ := multiarray_zeros_ok hz
        obtain ⟨n, hn⟩ := prod?_tail_of_cons hN hpos
        rw [hp] at hn
        cases hn
      rw [mmMultiarray_of_overflow alpha a hcol hdim hz hp]
      exact iff_of_true ⟨_, rfl⟩ ⟨hr, rfl⟩
    | some n =>
      obtain ⟨data, hout, -⟩ := mmMultiarray_of_ok alpha a hcol hdim hz hp
      rw [hout]
      refine iff_of_false ?_ fun h => by cases h.2
      rintro ⟨msg, h⟩
      cases h

end Product

section Main

variable {α ρ : Type} [Scalar α ρ]

/-- Where the views and the product of a multiarray along its first extent abort. A column,
for reading or writing, aborts exactly when the multiarray is column-major and a running
product of its trailing extents leaves a word; the product does so exactly when it also gets
past its checks with a result without rows; a block aborts exactly when its offset, or that
offset times the rows, leaves a word. The trailing products leave a word only when the first
extent is zero, and a block aborts only on a multiarray without entries. -/
structure TrailingProductAborts (m : Multiarray α) : Prop where
  col : ∀ op j, Aborts (Multiarray.colAt op m j) ↔
    m.layout = .col ∧ ¬PartialProductsFit (m.extents.drop 1)
  sub_matrix : ∀ t, Aborts (m.subMatrix t) ↔ m.layout = .col ∧ 2 ≤ m.order ∧
    List.Forall₂ (· < ·) t (m.extents.drop 2) ∧
    (Word.max < Layout.col.linear (m.extents.drop 2) t ∨
      Word.max < Layout.col.linear (m.extents.drop 2) t * m.extents.headD 0)
  product : ∀ (alpha : α) (a : Matrix α), Aborts (mmMultiarray alpha a m) ↔
    m.layout = .col ∧ a.cols = m.extents.headD 0 ∧ a.rows = 0 ∧
      ¬PartialProductsFit (m.extents.drop 1)
  trailing_overflow : ¬PartialProductsFit (m.extents.drop 1) → m.extents.headD 0 = 0
  sub_matrix_empty : ∀ t, Aborts (m.subMatrix t) → m.data.size = 0

/-- Every multiarray its constructors accept aborts in its column and block views and in the
product along its first extent exactly where `TrailingProductAborts` says. -/
theorem trailingProductAborts_of_shaped (m : Multiarray α) (hm : Shaped m) :
    TrailingProductAborts (ρ := ρ) m where
  col op j := colAt_aborts_iff op m j
  sub_matrix := subMatrix_aborts_iff hm
  product := mmMultiarray_aborts_iff hm
  trailing_overflow := headD_eq_zero_of_trailing_overflow hm
  sub_matrix_empty t h := by
    obtain ⟨hcol, htwo, ht, -⟩ := (subMatrix_aborts_iff hm t).mp h
    obtain ⟨e₀, e₁, rest, hext⟩ := extents_of_two_le_order htwo
    obtain ⟨msg, hmsg⟩ := h
    rw [hext, List.drop_succ_cons, List.drop_succ_cons, List.drop_zero] at ht
    exact (subMatrix_abort_of_error hm hext hcol ht hmsg).1

end Main

def tallEmpty : Multiarray Float := ⟨[8, 0, 2 ^ 62], .col, #[]⟩

/-- The last block of `tallEmpty` aborts: its offset `2⁶² - 1` times the eight rows leaves a
word, though the block holds no entries. -/
theorem subMatrix_block_start_overflows :
    Shaped tallEmpty ∧ Aborts (tallEmpty.subMatrix [2 ^ 62 - 1]) := by
  have hm : Shaped tallEmpty := ⟨by decide, by decide, by decide⟩
  refine ⟨hm, ((trailingProductAborts_of_shaped (ρ := Float) tallEmpty hm).sub_matrix _).mpr
    ⟨rfl, by decide, .cons (by decide) .nil, Or.inr (by decide)⟩⟩

end DualArrays.Proofs.TrailingProducts
