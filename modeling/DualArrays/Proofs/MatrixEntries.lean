import Mathlib
import DualArrays.Matrix.Basic

namespace DualArrays.Proofs.MatrixEntries

open DualArrays

deriving instance DecidableEq for Complex, Vector, Matrix

theorem position_lt (l : Layout) {rows cols k : Nat} (hk : k < rows * cols) :
    (l.position rows cols k).1 < rows ∧ (l.position rows cols k).2 < cols := by
  cases l with
  | row =>
      have hc : 0 < cols := Nat.pos_of_ne_zero (by rintro rfl; simp at hk)
      exact ⟨Nat.div_lt_of_lt_mul (by rwa [Nat.mul_comm]), Nat.mod_lt _ hc⟩
  | col =>
      have hr : 0 < rows := Nat.pos_of_ne_zero (by rintro rfl; simp at hk)
      exact ⟨Nat.mod_lt _ hr, Nat.div_lt_of_lt_mul hk⟩

theorem offset_position (l : Layout) (rows cols k : Nat) :
    l.offset rows cols (l.position rows cols k).1 (l.position rows cols k).2 = k := by
  cases l with
  | row => exact Nat.div_add_mod' k cols
  | col => exact Nat.div_add_mod' k rows

section Plain

variable {α : Type}

theorem offset_lt_size (m : Matrix α) {i j : Nat} (hi : i < m.rows) (hj : j < m.cols) :
    m.offset i j < m.data.size := by
  rw [m.size_eq]
  exact m.layout.offset_lt hi hj

theorem read_default (m : Matrix α) (d d' : α) {i j : Nat} (hi : i < m.rows)
    (hj : j < m.cols) : m.read d i j = m.read d' i j := by
  have hk := offset_lt_size m hi hj
  simp [Matrix.read, hk]

theorem read_mem (m : Matrix α) (d : α) {i j : Nat} (hi : i < m.rows) (hj : j < m.cols) :
    m.read d i j ∈ m.data := by
  have hk := offset_lt_size m hi hj
  simp [Matrix.read, hk]

theorem mem_data_iff (m : Matrix α) (d : α) {x : α} :
    x ∈ m.data ↔ ∃ i j, i < m.rows ∧ j < m.cols ∧ m.read d i j = x := by
  constructor
  · intro hx
    obtain ⟨k, hk, rfl⟩ := Array.getElem_of_mem hx
    have hk' : k < m.rows * m.cols := m.size_eq ▸ hk
    obtain ⟨hi, hj⟩ := position_lt m.layout hk'
    refine ⟨_, _, hi, hj, ?_⟩
    simp [Matrix.read, Matrix.offset, offset_position, hk]
  · rintro ⟨i, j, hi, hj, rfl⟩
    exact read_mem m d hi hj

/-- Agreement on everything a reader by logical index observes: the extents and every
entry. The layouts, and with them the buffers, may differ. -/
structure SameEntries (a b : Matrix α) : Prop where
  rows_eq : a.rows = b.rows
  cols_eq : a.cols = b.cols
  read_eq : ∀ d i j, i < a.rows → j < a.cols → a.read d i j = b.read d i j

namespace SameEntries

theorem refl (a : Matrix α) : SameEntries a a :=
  ⟨rfl, rfl, fun _ _ _ _ _ => rfl⟩

theorem symm {a b : Matrix α} (h : SameEntries a b) : SameEntries b a := by
  refine ⟨h.rows_eq.symm, h.cols_eq.symm, ?_⟩
  intro d i j hi hj
  exact (h.read_eq d i j (h.rows_eq ▸ hi) (h.cols_eq ▸ hj)).symm

theorem trans {a b c : Matrix α} (hab : SameEntries a b) (hbc : SameEntries b c) :
    SameEntries a c := by
  refine ⟨hab.rows_eq.trans hbc.rows_eq, hab.cols_eq.trans hbc.cols_eq, ?_⟩
  intro d i j hi hj
  rw [hab.read_eq d i j hi hj]
  exact hbc.read_eq d i j (hab.rows_eq ▸ hi) (hab.cols_eq ▸ hj)

theorem transpose {a b : Matrix α} (h : SameEntries a b) :
    SameEntries a.transpose b.transpose := by
  refine ⟨h.cols_eq, h.rows_eq, ?_⟩
  intro d i j hi hj
  rw [Matrix.read_transpose, Matrix.read_transpose]
  exact h.read_eq d j i hj hi

theorem mem_data_of {a b : Matrix α} (h : SameEntries a b) {x : α} (hx : x ∈ a.data) :
    x ∈ b.data := by
  obtain ⟨i, j, hi, hj, hread⟩ := (mem_data_iff a x).mp hx
  rw [← hread, h.read_eq x i j hi hj]
  exact read_mem b x (h.rows_eq ▸ hi) (h.cols_eq ▸ hj)

theorem mem_data {a b : Matrix α} (h : SameEntries a b) (x : α) :
    x ∈ a.data ↔ x ∈ b.data :=
  ⟨h.mem_data_of, h.symm.mem_data_of⟩

end SameEntries

theorem sameEntries_ofFn {r r' c c' : Nat} (l l' : Layout) {f g : Nat → Nat → α}
    (hr : r = r') (hc : c = c') (h : ∀ i j, i < r → j < c → f i j = g i j) :
    SameEntries (Matrix.ofFn r c l f) (Matrix.ofFn r' c' l' g) := by
  subst hr hc
  refine ⟨rfl, rfl, ?_⟩
  intro d i j (hi : i < r) (hj : j < c)
  rw [Matrix.read_ofFn _ _ _ _ _ hi hj, Matrix.read_ofFn _ _ _ _ _ hi hj]
  exact h i j hi hj

end Plain

section Writes

variable {α β : Type}

@[simp] theorem setAt_rows (m : Matrix α) (k : Nat) (x : α) : (m.setAt k x).rows = m.rows := rfl

@[simp] theorem setAt_cols (m : Matrix α) (k : Nat) (x : α) : (m.setAt k x).cols = m.cols := rfl

@[simp] theorem setAt_layout (m : Matrix α) (k : Nat) (x : α) :
    (m.setAt k x).layout = m.layout := rfl

theorem read_setAt_offset (m : Matrix α) (d x : α) {p q : Nat × Nat} (hp : p.1 < m.rows)
    (hp' : p.2 < m.cols) (hq : q.1 < m.rows) (hq' : q.2 < m.cols) :
    (m.setAt (m.offset p.1 p.2) x).read d q.1 q.2 = if p = q then x else m.read d q.1 q.2 := by
  have hk := offset_lt_size m hq hq'
  simp only [Matrix.read, Matrix.setAt, Matrix.offset]
  rw [Array.getD_eq_getD_getElem?, Array.getElem?_setIfInBounds]
  by_cases h : p = q
  · subst h
    simp only [Matrix.offset] at hk
    simp [hk]
  · have hne : m.layout.offset m.rows m.cols p.1 p.2 ≠ m.layout.offset m.rows m.cols q.1 q.2 :=
      fun heq => h (Prod.ext_iff.mpr (m.layout.offset_injective hp hp' hq hq' heq))
    rw [if_neg hne, if_neg h, Array.getD_eq_getD_getElem?]

variable [Element α]

def writeStep (pos : β → Nat × Nat) (val : β → α → α) (acc : Matrix α) (x : β) : Matrix α :=
  acc.setAt (acc.offset (pos x).1 (pos x).2) (val x (acc.read Element.dflt (pos x).1 (pos x).2))

variable (pos : β → Nat × Nat) (val : β → α → α)

theorem foldl_writeStep_shape (xs : List β) (m : Matrix α) :
    (xs.foldl (writeStep pos val) m).rows = m.rows ∧ (xs.foldl (writeStep pos val) m).cols = m.cols ∧
      (xs.foldl (writeStep pos val) m).layout = m.layout := by
  induction xs generalizing m with
  | nil => exact ⟨rfl, rfl, rfl⟩
  | cons x xs ih => exact ih (writeStep pos val m x)

theorem read_foldl_writeStep_of_forall_ne {m : Matrix α} {xs : List β}
    (hin : ∀ x ∈ xs, (pos x).1 < m.rows ∧ (pos x).2 < m.cols) {q : Nat × Nat} (hq : q.1 < m.rows)
    (hq' : q.2 < m.cols) (hne : ∀ x ∈ xs, pos x ≠ q) (d : α) :
    (xs.foldl (writeStep pos val) m).read d q.1 q.2 = m.read d q.1 q.2 := by
  induction xs generalizing m with
  | nil => rfl
  | cons x xs ih =>
    obtain ⟨hx, hx'⟩ := hin x List.mem_cons_self
    rw [List.foldl_cons, ih (m := writeStep pos val m x)
      (fun y hy => hin y (List.mem_cons_of_mem x hy)) hq hq'
      (fun y hy => hne y (List.mem_cons_of_mem x hy)), writeStep,
      read_setAt_offset m d _ hx hx' hq hq', if_neg (hne x List.mem_cons_self)]

theorem read_foldl_writeStep_of_mem {m : Matrix α} {xs : List β} (hnd : (xs.map pos).Nodup)
    (hin : ∀ x ∈ xs, (pos x).1 < m.rows ∧ (pos x).2 < m.cols) {x : β} (hx : x ∈ xs) (d : α) :
    (xs.foldl (writeStep pos val) m).read d (pos x).1 (pos x).2 =
      val x (m.read Element.dflt (pos x).1 (pos x).2) := by
  induction xs generalizing m with
  | nil => cases hx
  | cons y ys ih =>
    obtain ⟨hfresh, hnd⟩ := List.nodup_cons.mp hnd
    have hin' : ∀ z ∈ ys, (pos z).1 < m.rows ∧ (pos z).2 < m.cols :=
      fun z hz => hin z (List.mem_cons_of_mem y hz)
    obtain ⟨hy, hy'⟩ := hin y List.mem_cons_self
    rw [List.foldl_cons]
    rcases List.mem_cons.mp hx with rfl | hx
    · have hne : ∀ z ∈ ys, pos z ≠ pos x := fun z hz h => hfresh (h ▸ List.mem_map_of_mem hz)
      rw [read_foldl_writeStep_of_forall_ne pos val (m := writeStep pos val m x) hin' hy hy' hne,
        writeStep,
        read_setAt_offset m d _ hy hy' hy hy', if_pos rfl]
    · have hne : pos y ≠ pos x := fun h => hfresh (h ▸ List.mem_map_of_mem hx)
      obtain ⟨hx₁, hx₂⟩ := hin' x hx
      rw [ih (m := writeStep pos val m y) hnd hin' hx, writeStep,
        read_setAt_offset m _ _ hy hy' hx₁ hx₂, if_neg hne]

theorem get_of_lt (m : Matrix α) {i j : Nat} (hi : i < m.rows) (hj : j < m.cols) :
    m.get i j = .ok (m.read Element.dflt i j) := by
  simp [Matrix.get, hi, hj]

theorem get_congr {m m' : Matrix α} (hr : m'.rows = m.rows) (hc : m'.cols = m.cols) {i j : Nat}
    (h : i < m.rows → j < m.cols → m'.read Element.dflt i j = m.read Element.dflt i j) :
    m'.get i j = m.get i j := by
  unfold Matrix.get Matrix.indexError
  rw [hr, hc]
  split_ifs with hij
  · rw [h hij.1 hij.2]
  · rfl

end Writes

section Allocation

variable {α : Type} [Element α]

theorem checkedLen_ok {c : String} {xs : List Nat} {n : Nat}
    (h : Storage.checkedLen c xs = .ok n) : Word.prod? xs = some n := by
  unfold Storage.checkedLen at h
  split at h
  · cases h
    assumption
  · cases h

theorem vector_zeros_ok {n : Nat} {y : Vector α}
    (h : (Vector.zeros n : Except Error (Vector α)) = .ok y) : y.data.size = n := by
  unfold Vector.zeros Vector.filled at h
  cases hlen : Storage.checkedLen "Vector" [n] with
  | error e => simp [hlen, bind, Except.bind] at h
  | ok len =>
      cases hf : (Storage.filled "Vector" [n] len Element.dflt : Except Error (Array α)) with
      | error e => simp [hlen, hf, bind, Except.bind] at h
      | ok data =>
          simp [hlen, hf, bind, Except.bind, pure, Except.pure] at h
          subst h
          have hp := checkedLen_ok hlen
          simp [Word.prod?, Word.mul?] at hp
          rw [Storage.filled_size hf]
          omega

theorem matrix_zeros_ok {r c : Nat} {l : Layout} {z : Matrix α}
    (h : (Matrix.zeros r c l : Except Error (Matrix α)) = .ok z) :
    z.rows = r ∧ z.cols = c ∧ z.layout = l ∧
      ∀ d i j, i < r → j < c → z.read d i j = Element.dflt := by
  unfold Matrix.zeros Matrix.filled at h
  cases hlen : Storage.checkedLen "Matrix" [r, c] with
  | error e => simp [hlen, bind, Except.bind] at h
  | ok len =>
      cases hres : Storage.reserve "Matrix" [r, c] len (Element.size α) with
      | error e => simp [hlen, hres, bind, Except.bind] at h
      | ok u =>
          simp [hlen, hres, bind, Except.bind, pure, Except.pure] at h
          subst h
          refine ⟨rfl, rfl, rfl, ?_⟩
          intro d i j hi hj
          have hk := Layout.offset_lt l hi hj
          simp [Matrix.read, Matrix.offset, hk]

theorem matrix_zeros_error_iff {r c : Nat} (l l' : Layout) {e : Error} :
    (Matrix.zeros r c l : Except Error (Matrix α)) = .error e ↔
      (Matrix.zeros r c l' : Except Error (Matrix α)) = .error e := by
  unfold Matrix.zeros Matrix.filled
  cases hlen : Storage.checkedLen "Matrix" [r, c] with
  | error e => simp [bind, Except.bind]
  | ok len =>
      cases hres : Storage.reserve "Matrix" [r, c] len (Element.size α) with
      | error e => simp [hres, bind, Except.bind]
      | ok u => simp [hres, bind, Except.bind, pure, Except.pure]

theorem matrix_zeros_sameEntries {r c : Nat} {l l' : Layout} {z z' : Matrix α}
    (h : (Matrix.zeros r c l : Except Error (Matrix α)) = .ok z)
    (h' : (Matrix.zeros r c l' : Except Error (Matrix α)) = .ok z') : SameEntries z z' := by
  obtain ⟨hr, hc, -, hread⟩ := matrix_zeros_ok h
  obtain ⟨hr', hc', -, hread'⟩ := matrix_zeros_ok h'
  refine ⟨hr.trans hr'.symm, hc.trans hc'.symm, ?_⟩
  intro d i j hi hj
  rw [hread d i j (hr ▸ hi) (hc ▸ hj), hread' d i j (hr ▸ hi) (hc ▸ hj)]

end Allocation

end DualArrays.Proofs.MatrixEntries
