import DualArrays.Proofs.ToleranceDisplay

/-!
# Offsets are bijections

The buffer offset of an index folds `off * e + i` over its (index, extent) pairs: from the last
pair for column-major storage, so that `(i₀, i₁, i₂)` lies at `i₀ + e₀ (i₁ + e₁ i₂)`, and from the
first pair for row-major storage, which is column-major storage of the reversed index
(`linear_row_eq`): the last index varies fastest.

For either layout the offset maps the indices below the extents one to one onto the positions
below the product of the extents (`linear_bijOn`); its inverse reads the digits of a position
(`indexAt`). When the product is a machine word, no partial offset of an index below the
extents leaves a word, so the checked offset never aborts. A matrix offset is the offset of the
index `[i, j]` over the extents `[rows, cols]`, and the entries of a vector array are laid out
column-major. So a write at one index of a multiarray or a vector array replaces exactly one
entry of its buffer, and a read at that index afterwards gives the written value while reads at
every other index are unchanged.
-/

namespace DualArrays.Proofs.OffsetBijection

open DualArrays DualArrays.Proofs.Outcomes DualArrays.Proofs.MatrixEntries
open DualArrays.Proofs.MultiarrayProducts DualArrays.Proofs.Views
open DualArrays.Proofs.ToleranceDisplay DualArrays.Proofs.InPlaceWrites

section Reversal

theorem zip_reverse {t es : List Nat} (h : t.length = es.length) :
    t.reverse.zip es.reverse = (t.zip es).reverse := by
  rw [List.zip_eq_zipWith, List.zip_eq_zipWith, List.reverse_zipWith h]

theorem linear_row_eq {es t : List Nat} (h : t.length = es.length) :
    Layout.row.linear es t = Layout.col.linear es.reverse t.reverse := by
  simp only [Layout.linear, Layout.foldOrder, zip_reverse h, List.reverse_reverse]

theorem linearChecked_row_eq {es t : List Nat} (h : t.length = es.length) :
    Layout.row.linearChecked es t = Layout.col.linearChecked es.reverse t.reverse := by
  simp only [Layout.linearChecked, Layout.foldOrder, zip_reverse h, List.reverse_reverse]

theorem linear_col_horner (e i : Nat) (es t : List Nat) :
    Layout.col.linear (e :: es) (i :: t) = i + e * Layout.col.linear es t := by
  rw [linear_col_cons, Nat.add_comm, Nat.mul_comm]

theorem linear_row_horner (e i : Nat) {es t : List Nat} (h : t.length = es.length) :
    Layout.row.linear (es ++ [e]) (t ++ [i]) = i + e * Layout.row.linear es t := by
  simp only [Layout.linear, Layout.foldOrder, List.zip_append h, List.zip_cons_cons,
    List.zip_nil_left, List.foldl_append, List.foldl_cons, List.foldl_nil]
  rw [Nat.add_comm, Nat.mul_comm]

end Reversal

section Digits

/-- The index at buffer position `j`: the column-major digits of `j` over the extents, read
from the last extent on for row-major storage. -/
def indexAt : Layout → List Nat → Nat → List Nat
  | .col, es, j => colIndex es j
  | .row, es, j => (colIndex es.reverse j).reverse

theorem linear_lt (l : Layout) {es t : List Nat} (ht : List.Forall₂ (· < ·) t es) :
    l.linear es t < es.prod := by
  cases l with
  | row =>
    rw [linear_row_eq ht.length_eq, ← List.prod_reverse]
    exact linear_col_lt (List.forall₂_reverse_iff.mpr ht)
  | col => exact linear_col_lt ht

theorem indexAt_spec (l : Layout) {es : List Nat} {j : Nat} (hj : j < es.prod) :
    List.Forall₂ (· < ·) (indexAt l es j) es ∧ l.linear es (indexAt l es j) = j := by
  cases l with
  | row =>
    obtain ⟨hlt, hlin⟩ := colIndex_spec (show j < es.reverse.prod by rwa [List.prod_reverse])
    have hrev : List.Forall₂ (· < ·) (colIndex es.reverse j).reverse es := by
      simpa using List.forall₂_reverse_iff.mpr hlt
    refine ⟨hrev, ?_⟩
    rw [indexAt, linear_row_eq hrev.length_eq, List.reverse_reverse, hlin]
  | col => exact colIndex_spec hj

theorem indexAt_linear (l : Layout) {es t : List Nat} (ht : List.Forall₂ (· < ·) t es) :
    indexAt l es (l.linear es t) = t := by
  cases l with
  | row =>
    rw [linear_row_eq ht.length_eq, indexAt,
      colIndex_linear (List.forall₂_reverse_iff.mpr ht), List.reverse_reverse]
  | col => exact colIndex_linear ht

theorem linear_bijOn (l : Layout) (es : List Nat) :
    Set.BijOn (l.linear es) {t | List.Forall₂ (· < ·) t es} (Set.Iio es.prod) := by
  have hinv : Set.InvOn (indexAt l es) (l.linear es) {t | List.Forall₂ (· < ·) t es}
      (Set.Iio es.prod) :=
    ⟨fun _ ht => indexAt_linear l ht, fun _ hj => (indexAt_spec l hj).2⟩
  exact hinv.bijOn (fun _ ht => linear_lt l ht) (fun _ hj => (indexAt_spec l hj).1)

theorem linear_ne (l : Layout) {es t t' : List Nat} (ht' : List.Forall₂ (· < ·) t' es)
    (ht : List.Forall₂ (· < ·) t es) (hne : t' ≠ t) : l.linear es t' ≠ l.linear es t :=
  fun h => hne ((linear_bijOn l es).injOn ht' ht h)

theorem linearChecked_of_lt (l : Layout) {es t : List Nat} (ht : List.Forall₂ (· < ·) t es)
    (hfit : es.prod ≤ Word.max) : l.linearChecked es t = .ok (l.linear es t) := by
  cases l with
  | row =>
    rw [linearChecked_row_eq ht.length_eq, linear_row_eq ht.length_eq]
    exact linearChecked_col_of_lt (List.forall₂_reverse_iff.mpr ht) (by rwa [List.prod_reverse])
  | col => exact linearChecked_col_of_lt ht hfit

end Digits

section Matrices

theorem offset_bijOn (l : Layout) (rows cols : Nat) :
    Set.BijOn (fun p : Nat × Nat => l.offset rows cols p.1 p.2)
      {p | p.1 < rows ∧ p.2 < cols} (Set.Iio (rows * cols)) := by
  have hinv : Set.InvOn (l.position rows cols) (fun p : Nat × Nat => l.offset rows cols p.1 p.2)
      {p | p.1 < rows ∧ p.2 < cols} (Set.Iio (rows * cols)) :=
    ⟨fun _ hp => l.position_offset hp.1 hp.2, fun k _ => offset_position l rows cols k⟩
  exact hinv.bijOn (fun _ hp => l.offset_lt hp.1 hp.2) (fun _ hk => position_lt l hk)

theorem offset_checked (l : Layout) {rows cols i j : Nat} (hi : i < rows) (hj : j < cols)
    (hfit : rows * cols ≤ Word.max) :
    l.linearChecked [rows, cols] [i, j] = .ok (l.offset rows cols i j) := by
  rw [← linear_pair]
  exact linearChecked_of_lt l (.cons hi (.cons hj .nil)) (by simpa using hfit)

end Matrices

section Writes

variable {β : Type}

structure WritesOne (buf buf' : Array β) (k : Nat) (x : β) : Prop where
  size_eq : buf'.size = buf.size
  written : buf'[k]? = some x
  others : ∀ j, j ≠ k → buf'[j]? = buf[j]?

theorem writesOne_setIfInBounds {buf : Array β} {k : Nat} (hk : k < buf.size) (x : β) :
    WritesOne buf (buf.setIfInBounds k x) k x where
  size_eq := Array.size_setIfInBounds
  written := Array.getElem?_setIfInBounds_self_of_lt hk
  others _ hj := Array.getElem?_setIfInBounds_ne (Ne.symm hj)

theorem WritesOne.getD_eq {buf buf' : Array β} {k : Nat} {x : β} (h : WritesOne buf buf' k x)
    (j : Nat) (d : β) : buf'.getD j d = if j = k then x else buf.getD j d := by
  rw [Array.getD_eq_getD_getElem?, Array.getD_eq_getD_getElem?]
  split_ifs with hj
  · rw [hj, h.written]
    rfl
  · rw [h.others j hj]

end Writes

section Multiarrays

variable {α : Type} [Element α]

theorem multiarray_set_eq (m : Multiarray α) {index : List Nat} (x : α)
    (hin : List.Forall₂ (· < ·) index m.extents) :
    m.set index x = .ok { m with data := m.data.setIfInBounds (m.offset index) x } := by
  unfold Multiarray.set InPlace.apply
  rw [multiarray_setIn_run, if_pos ((contains_iff m index).mpr hin)]

theorem multiarray_get_eq (m : Multiarray α) (index : List Nat) :
    m.get index =
      if List.Forall₂ (· < ·) index m.extents then .ok (m.data.getD (m.offset index) Element.dflt)
      else .error (m.indexError index) := by
  simp only [Multiarray.get, ← contains_iff]

theorem multiarray_set_get (m : Multiarray α) {index : List Nat} (x : α)
    (hsize : m.data.size = m.extents.prod) (hin : List.Forall₂ (· < ·) index m.extents) :
    ∃ m', m.set index x = .ok m' ∧ m'.extents = m.extents ∧ m'.layout = m.layout ∧
      WritesOne m.data m'.data (m.offset index) x ∧ m'.get index = .ok x ∧
      ∀ index', index' ≠ index → m'.get index' = m.get index' := by
  have hw := writesOne_setIfInBounds (hsize ▸ linear_lt m.layout hin : m.offset index < _) x
  have hoffset : ∀ index',
      ({ m with data := m.data.setIfInBounds (m.offset index) x } : Multiarray α).offset index' =
        m.offset index' := fun _ => rfl
  refine ⟨_, multiarray_set_eq m x hin, rfl, rfl, hw, ?_, ?_⟩
  · rw [multiarray_get_eq, if_pos hin, hoffset]
    dsimp only
    rw [hw.getD_eq, if_pos rfl]
  · intro index' hne
    rw [multiarray_get_eq, multiarray_get_eq, hoffset]
    split_ifs with hin'
    · have hoff : m.offset index' ≠ m.offset index := linear_ne m.layout hin' hin hne
      dsimp only
      rw [hw.getD_eq, if_neg hoff]
    · rfl

end Multiarrays

section VectorArrays

variable {α : Type}

theorem flatIndex_eq (a : VectorArray α) (index : List Nat) :
    a.flatIndex index =
      if List.Forall₂ (· < ·) index a.extents then .ok (Layout.col.linear a.extents index)
      else .error (.index "VectorArray" index a.extents) := by
  have hcond : (index.length ≠ a.extents.length ∨
      (index.zip a.extents).any (fun p => decide (p.1 ≥ p.2)) = true) ↔
      ¬List.Forall₂ (· < ·) index a.extents := by
    rw [List.forall₂_iff_zip]
    simp only [ne_eq, List.any_eq_true, decide_eq_true_eq, not_and, not_forall, not_lt]
    constructor
    · rintro (hlen | ⟨p, hp, hge⟩) hlen'
      · exact absurd hlen' hlen
      · exact ⟨p.1, p.2, hp, hge⟩
    · intro h
      by_cases hlen : index.length = a.extents.length
      · obtain ⟨i, e, hp, hge⟩ := h hlen
        exact .inr ⟨(i, e), hp, hge⟩
      · exact .inl hlen
  unfold VectorArray.flatIndex
  by_cases hin : List.Forall₂ (· < ·) index a.extents
  · rw [if_neg (fun h => hcond.mp h hin), if_pos hin]
  · rw [if_pos (hcond.mpr hin), if_neg hin]

theorem vectorArray_set_eq (a : VectorArray α) {index : List Nat} (v : Vector α)
    (hin : List.Forall₂ (· < ·) index a.extents) :
    a.set index v =
      .ok { a with entries := a.entries.setIfInBounds (Layout.col.linear a.extents index) v } := by
  unfold VectorArray.set InPlace.apply
  rw [vectorArray_setIn_run, flatIndex_eq, if_pos hin]

theorem vectorArray_get_eq (a : VectorArray α) (index : List Nat) :
    a.get index =
      if List.Forall₂ (· < ·) index a.extents then
        .ok (a.entries.getD (Layout.col.linear a.extents index) ⟨#[]⟩)
      else .error (.index "VectorArray" index a.extents) := by
  unfold VectorArray.get
  rw [flatIndex_eq]
  split_ifs <;> rfl

theorem vectorArray_set_get (a : VectorArray α) {index : List Nat} (v : Vector α)
    (hsize : a.entries.size = a.extents.prod) (hin : List.Forall₂ (· < ·) index a.extents) :
    ∃ a', a.set index v = .ok a' ∧ a'.extents = a.extents ∧
      WritesOne a.entries a'.entries (Layout.col.linear a.extents index) v ∧
      a'.get index = .ok v ∧ ∀ index', index' ≠ index → a'.get index' = a.get index' := by
  have hw := writesOne_setIfInBounds (hsize ▸ linear_lt .col hin :
    Layout.col.linear a.extents index < _) v
  refine ⟨_, vectorArray_set_eq a v hin, rfl, hw, ?_, ?_⟩
  · rw [vectorArray_get_eq, if_pos hin]
    dsimp only
    rw [hw.getD_eq, if_pos rfl]
  · intro index' hne
    rw [vectorArray_get_eq, vectorArray_get_eq]
    split_ifs with hin'
    · dsimp only
      rw [hw.getD_eq, if_neg (linear_ne .col hin' hin hne)]
    · rfl

end VectorArrays

/-- What the offsets of the containers promise. For every extents and both layouts the offset is
a bijection from the indices below the extents onto the positions below their product, column
major with the first index fastest and row major with the last index fastest, and it never
aborts when the product is a machine word. The same holds of the matrix offset, which is the
offset over `[rows, cols]`, and a vector array lays its entries out column major. A write at an
index in range replaces exactly one buffer entry of a multiarray or a vector array whose buffer
holds the product of the extents: the read there gives the written value, every other read is
unchanged. -/
structure OffsetsAreBijective (α : Type) [Element α] : Prop where
  bijective : ∀ (l : Layout) (es : List Nat),
    Set.BijOn (l.linear es) {t | List.Forall₂ (· < ·) t es} (Set.Iio es.prod)
  col_horner : ∀ (e i : Nat) (es t : List Nat),
    Layout.col.linear (e :: es) (i :: t) = i + e * Layout.col.linear es t
  row_horner : ∀ (e i : Nat) (es t : List Nat), t.length = es.length →
    Layout.row.linear (es ++ [e]) (t ++ [i]) = i + e * Layout.row.linear es t
  no_overflow : ∀ (l : Layout) (es t : List Nat), List.Forall₂ (· < ·) t es →
    es.prod ≤ Word.max → l.linearChecked es t = .ok (l.linear es t)
  matrix_bijective : ∀ (l : Layout) (rows cols : Nat),
    Set.BijOn (fun p : Nat × Nat => l.offset rows cols p.1 p.2)
      {p | p.1 < rows ∧ p.2 < cols} (Set.Iio (rows * cols))
  matrix_no_overflow : ∀ (l : Layout) (rows cols i j : Nat), i < rows → j < cols →
    rows * cols ≤ Word.max → l.linearChecked [rows, cols] [i, j] = .ok (l.offset rows cols i j)
  flat_index : ∀ (a : VectorArray α) (index : List Nat),
    a.flatIndex index =
      if List.Forall₂ (· < ·) index a.extents then .ok (Layout.col.linear a.extents index)
      else .error (.index "VectorArray" index a.extents)
  multiarray_write : ∀ (m : Multiarray α) (index : List Nat) (x : α),
    m.data.size = m.extents.prod → List.Forall₂ (· < ·) index m.extents →
    ∃ m', m.set index x = .ok m' ∧ m'.extents = m.extents ∧ m'.layout = m.layout ∧
      WritesOne m.data m'.data (m.offset index) x ∧ m'.get index = .ok x ∧
      ∀ index', index' ≠ index → m'.get index' = m.get index'
  vector_array_write : ∀ (a : VectorArray α) (index : List Nat) (v : Vector α),
    a.entries.size = a.extents.prod → List.Forall₂ (· < ·) index a.extents →
    ∃ a', a.set index v = .ok a' ∧ a'.extents = a.extents ∧
      WritesOne a.entries a'.entries (Layout.col.linear a.extents index) v ∧
      a'.get index = .ok v ∧ ∀ index', index' ≠ index → a'.get index' = a.get index'

theorem offsets_are_bijective (α : Type) [Element α] : OffsetsAreBijective α where
  bijective := linear_bijOn
  col_horner := linear_col_horner
  row_horner e i _ _ h := linear_row_horner e i h
  no_overflow l _ _ ht hfit := linearChecked_of_lt l ht hfit
  matrix_bijective := offset_bijOn
  matrix_no_overflow l _ _ _ _ hi hj hfit := offset_checked l hi hj hfit
  flat_index := flatIndex_eq
  multiarray_write m _ x hsize hin := multiarray_set_get m x hsize hin
  vector_array_write a _ v hsize hin := vectorArray_set_get a v hsize hin

/-- Writing `7` at `(1, 2)` of a column-major `2 × 3` multiarray replaces its last entry, and the
read there gives `7` back. -/
theorem write_last_of_two_by_three :
    ∃ m', (⟨[2, 3], .col, #[0, 1, 2, 3, 4, 5]⟩ : Multiarray Int32).set [1, 2] 7 = .ok m' ∧
      m'.get [1, 2] = .ok 7 := by
  obtain ⟨m', hset, -, -, -, hget, -⟩ :=
    (offsets_are_bijective Int32).multiarray_write ⟨[2, 3], .col, #[0, 1, 2, 3, 4, 5]⟩ [1, 2] 7
      (by decide) (.cons (by decide) (.cons (by decide) .nil))
  exact ⟨m', hset, hget⟩

end DualArrays.Proofs.OffsetBijection
