import DualArrays.Proofs.InPlaceWrites
import DualArrays.Proofs.MatrixEntries

namespace DualArrays.Proofs.LayoutConversion

open DualArrays DualArrays.Proofs.MatrixEntries DualArrays.Proofs.InPlaceWrites

variable {α : Type} [Element α]

structure Relaid (m m' : Matrix α) (l : Layout) : Prop where
  layout_eq : m'.layout = l
  rows_eq : m'.rows = m.rows
  cols_eq : m'.cols = m.cols
  get_eq : ∀ i j, m'.get i j = m.get i j

theorem relaid_ofFn (m : Matrix α) (l : Layout) :
    Relaid m (Matrix.ofFn m.rows m.cols l (m.read Element.dflt)) l := by
  refine ⟨rfl, rfl, rfl, fun i j => ?_⟩
  refine get_congr ?_ ?_ fun hi hj => Matrix.read_ofFn _ _ _ _ _ hi hj <;> rfl

theorem toLayout_eq (m : Matrix α) (l : Layout) :
    m.toLayout l = match (Matrix.zeros m.rows m.cols l : Except Error (Matrix α)) with
      | .ok _ => .ok (Matrix.ofFn m.rows m.cols l (m.read Element.dflt))
      | .error e => .error e := by
  unfold Matrix.toLayout
  cases (Matrix.zeros m.rows m.cols l : Except Error (Matrix α)) <;> rfl

theorem toLayout_eq_error_iff (m : Matrix α) (l : Layout) (e : Error) :
    m.toLayout l = .error e ↔ (Matrix.zeros m.rows m.cols l : Except Error (Matrix α)) = .error e := by
  rw [toLayout_eq]
  cases (Matrix.zeros m.rows m.cols l : Except Error (Matrix α)) <;> simp

theorem toLayout_relaid {m m' : Matrix α} {l : Layout} (h : m.toLayout l = .ok m') :
    Relaid m m' l := by
  rw [toLayout_eq] at h
  split at h
  · cases h
    exact relaid_ofFn m l
  · cases h

example : (⟨2, 3, .row, #[1, 2, 3, 4, 5, 6], rfl⟩ : Matrix Int32).toLayout .col =
    .ok ⟨2, 3, .col, #[1, 4, 2, 5, 3, 6], rfl⟩ := by
  decide

theorem setLayout_eq (m : Matrix α) (l : Layout) :
    m.setLayout l = if m.layout = l then .ok m else m.toLayout l := by
  unfold Matrix.setLayout InPlace.apply
  by_cases h : m.layout = l
  · simp [Matrix.setLayoutIn, h]
  · cases hl : m.toLayout l <;> simp [Matrix.setLayoutIn, h, hl]

theorem get_transpose (m : Matrix α) {i j : Nat} (hi : i < m.rows) (hj : j < m.cols) :
    m.transpose.get j i = m.get i j := by
  rw [get_of_lt m hi hj, get_of_lt m.transpose hj hi, Matrix.read_transpose]

example : (⟨2, 3, .row, #[1, 2, 3, 4, 5, 6], rfl⟩ : Matrix Int32).transpose =
    ⟨3, 2, .col, #[1, 2, 3, 4, 5, 6], rfl⟩ := by
  decide

omit [Element α] in
theorem toMatrix_ofMatrix (m : Matrix α) (op : String) (hrows : m.rows ≤ Word.max)
    (hsize : m.size ≤ Word.max) : (Multiarray.ofMatrix m).toMatrix op = .ok m := by
  have hlen : m.rows * m.cols = m.data.size := m.size_eq.symm
  have hprod : Word.prod? [m.rows, m.cols] = some (m.rows * m.cols) := by
    have hfit : m.rows * m.cols ≤ Word.max := hlen ▸ hsize
    simp [Word.prod?, Word.mul?, hrows, hfit]
  show Matrix.ofData "Multiarray" m.rows m.cols m.layout m.data = .ok m
  unfold Matrix.ofData
  rw [hprod]
  exact dif_pos m.size_eq

section Main

variable (α)

/-- What changing the layout promises: relaying yields the same logical matrix in the new
layout, unless the buffer of the new layout cannot be had; relaying in place does nothing when
the layout already is the asked one; transposing keeps the buffer, swaps the extents, flips the
layout and reads each entry at the swapped index, and twice gives the matrix back; a matrix
moved into a multiarray keeps its extents, layout and buffer and comes back unchanged. -/
structure LayoutConversionLaws : Prop where
  to_layout_error : ∀ (m : Matrix α) (l : Layout) (e : Error),
    m.toLayout l = .error e ↔ (Matrix.zeros m.rows m.cols l : Except Error (Matrix α)) = .error e
  to_layout : ∀ (m m' : Matrix α) (l : Layout), m.toLayout l = .ok m' → Relaid m m' l
  set_layout_error : ∀ (m : Matrix α) (l : Layout) (e : Error),
    m.setLayout l = .error e ↔
      m.layout ≠ l ∧ (Matrix.zeros m.rows m.cols l : Except Error (Matrix α)) = .error e
  set_layout : ∀ (m m' : Matrix α) (l : Layout), m.setLayout l = .ok m' → Relaid m m' l
  set_layout_same : ∀ m : Matrix α, m.setLayout m.layout = .ok m
  transpose : ∀ m : Matrix α, m.transpose.data = m.data ∧ m.transpose.rows = m.cols ∧
    m.transpose.cols = m.rows ∧ m.transpose.layout = m.layout.flip ∧
    ∀ i j, i < m.rows → j < m.cols → m.transpose.get j i = m.get i j
  transpose_transpose : ∀ m : Matrix α, m.transpose.transpose = m
  from_matrix : ∀ m : Matrix α, (Multiarray.ofMatrix m).extents = [m.rows, m.cols] ∧
    (Multiarray.ofMatrix m).layout = m.layout ∧ (Multiarray.ofMatrix m).data = m.data
  into_matrix : ∀ m : Matrix α, m.rows ≤ Word.max → m.size ≤ Word.max →
    (Multiarray.ofMatrix m).toMatrix "Multiarray::into_matrix" = .ok m

theorem layout_conversion_keeps_content : LayoutConversionLaws α where
  to_layout := fun _ _ _ => toLayout_relaid
  to_layout_error := toLayout_eq_error_iff
  set_layout_error m l e := by
    rw [setLayout_eq]
    split_ifs with h
    · simp [h]
    · simp [h, toLayout_eq_error_iff]
  set_layout m m' l h := by
    rw [setLayout_eq] at h
    split_ifs at h with hl
    · cases h
      exact ⟨hl, rfl, rfl, fun _ _ => rfl⟩
    · exact toLayout_relaid h
  set_layout_same m := by rw [setLayout_eq, if_pos rfl]
  transpose m := ⟨rfl, rfl, rfl, rfl, fun _ _ hi hj => get_transpose m hi hj⟩
  transpose_transpose := Matrix.transpose_transpose
  from_matrix _ := ⟨rfl, rfl, rfl⟩
  into_matrix m := toMatrix_ofMatrix m _

end Main

end DualArrays.Proofs.LayoutConversion
