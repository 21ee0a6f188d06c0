import DualArrays.Proofs.CsrDense

namespace DualArrays.Proofs.CsrReaders

open DualArrays
open DualArrays.Proofs.Outcomes DualArrays.Proofs.CsrRows DualArrays.Proofs.CsrDense

theorem mapM_eq_pure_map {m : Type → Type} [Monad m] [LawfulMonad m] {β γ : Type}
    {f : β → m γ} {g : β → γ} (l : List β) (h : ∀ x ∈ l, f x = pure (g x)) :
    l.mapM f = pure (l.map g) := by
  induction l with
  | nil => rfl
  | cons x xs ih =>
    rw [List.mapM_cons, h x List.mem_cons_self,
      ih fun y hy => h y (List.mem_cons_of_mem x hy)]
    simp

theorem mapM_isSome {β γ : Type} {f : β → Option γ} (l : List β)
    (h : ∀ x ∈ l, (f x).isSome) : (l.mapM f).isSome := by
  induction l with
  | nil => rfl
  | cons x xs ih =>
    obtain ⟨y, hy⟩ := Option.isSome_iff_exists.mp (h x List.mem_cons_self)
    obtain ⟨ys, hys⟩ :=
      Option.isSome_iff_exists.mp (ih fun y hy => h y (List.mem_cons_of_mem x hy))
    simp [List.mapM_cons, hy, hys]

theorem toFailure_eq_ok {β : Type} {r : Except Error β} {b : β} (h : r.toFailure = .ok b) :
    r = .ok b := by
  cases r with
  | error e => cases h
  | ok b' => cases h; rfl

section Buffers

variable {α : Type}

theorem withCols_eq_ok {cols : Nat} {rowIndex columns : Array Nat} {values : Array α}
    {a : Csr α} :
    Csr.withCols cols rowIndex columns values = .ok a ↔
      Valid rowIndex columns values.size cols ∧ a = ⟨rowIndex, columns, values, cols⟩ := by
  unfold Csr.withCols
  constructor
  · intro h
    obtain ⟨u, hv, ha⟩ := bind_eq_ok.mp h
    cases ha
    exact ⟨validate_eq_ok_iff.mp hv, rfl⟩
  · rintro ⟨hv, rfl⟩
    rw [validate_eq_ok_iff.mpr hv]
    rfl

theorem valid_of_withCols {cols : Nat} {rowIndex columns : Array Nat} {values : Array α}
    {a : Csr α} (h : Csr.withCols cols rowIndex columns values = .ok a) :
    Valid a.rowIndex a.columns a.values.size a.cols := by
  obtain ⟨hv, rfl⟩ := withCols_eq_ok.mp h
  exact hv

theorem ofParts_eq_ok {rowIndex columns : Array Nat} {values : Array α} {a : Csr α}
    (h : Csr.ofParts rowIndex columns values = .ok a) :
    ∃ cols, Csr.withCols cols rowIndex columns values = .ok a := by
  unfold Csr.ofParts at h
  split at h
  · obtain ⟨cols, -, ha⟩ := bind_eq_ok.mp h
    exact ⟨cols, toFailure_eq_ok ha⟩
  · exact ⟨0, toFailure_eq_ok h⟩

theorem copy_eq_ok [Element α] {a b : Csr α} (h : a.copy = .ok b) : b = a := by
  unfold Csr.copy at h
  obtain ⟨-, -, h⟩ := bind_eq_ok.mp h
  obtain ⟨-, -, h⟩ := bind_eq_ok.mp h
  obtain ⟨-, -, h⟩ := bind_eq_ok.mp h
  cases h
  rfl

theorem valid_setValue {a : Csr α} (hv : Valid a.rowIndex a.columns a.values.size a.cols)
    (k : Nat) (x : α) :
    Valid a.rowIndex a.columns (a.values.setIfInBounds k x).size a.cols := by
  rwa [Array.size_setIfInBounds]

end Buffers

section Accepted

variable {α ρ : Type} [RealFloat ρ] [Scalar α ρ]

/-- The operators the library hands out. A view is built as `withCols` builds an operator,
from buffers that pass `validate`. -/
inductive Accepted : Csr α → Prop
  | withCols {cols : Nat} {rowIndex columns : Array Nat} {values : Array α} {a : Csr α} :
      Csr.withCols cols rowIndex columns values = .ok a → Accepted a
  | ofParts {rowIndex columns : Array Nat} {values : Array α} {a : Csr α} :
      Csr.ofParts rowIndex columns values = .ok a → Accepted a
  | ofDense {m : Matrix α} {tol : ρ} {a : Csr α} : Csr.ofDense m tol = .ok a → Accepted a
  | copy {a b : Csr α} : Accepted a → a.copy = .ok b → Accepted b
  | setValue {a : Csr α} (k : Nat) (x : α) :
      Accepted a → Accepted { a with values := a.values.setIfInBounds k x }

theorem valid_of_accepted {a : Csr α} (h : Accepted (ρ := ρ) a) :
    Valid a.rowIndex a.columns a.values.size a.cols := by
  induction h with
  | withCols h => exact valid_of_withCols h
  | ofParts h =>
    obtain ⟨cols, h⟩ := ofParts_eq_ok h
    exact valid_of_withCols h
  | @ofDense m tol a h => exact (ofDense_eq_ok h) ▸ valid_compressed m tol
  | copy _ h ih => exact (copy_eq_ok h) ▸ ih
  | setValue k x _ ih => exact valid_setValue ih k x

end Accepted

section Rows

variable {α : Type} {a : Csr α}

structure RowInBounds (a : Csr α) (r : Nat) : Prop where
  next_lt : r + 1 < a.rowIndex.size
  start_le : a.rowIndex.getD r 0 ≤ a.rowIndex.getD (r + 1) 0
  stop_le_columns : a.rowIndex.getD (r + 1) 0 ≤ a.columns.size
  stop_le_values : a.rowIndex.getD (r + 1) 0 ≤ a.values.size

theorem rowInBounds_of_valid (hv : Valid a.rowIndex a.columns a.values.size a.cols) {r : Nat}
    (hr : r < a.rows) : RowInBounds a r := by
  have hstop : a.rowIndex.getD (r + 1) 0 ≤ a.columns.size :=
    hv.offset_rows ▸ hv.offset_mono hr (Nat.le_refl _)
  have hsizes : a.values.size = a.columns.size := hv.values_size.trans hv.columns_size.symm
  refine ⟨?_, hv.offset_mono (Nat.le_succ r) hr, hstop, hsizes ▸ hstop⟩
  rw [hv.rowIndex_size]
  omega

theorem row_eq_error_iff (a : Csr α) (r : Nat) (e : Error) :
    a.row r = .error e ↔ a.rows ≤ r ∧ e = .index "CsrOperator" [r] [a.rows] := by
  unfold Csr.row
  split
  · next hr => simp [Nat.not_le.mpr hr]
  · next hr =>
    simp only [Except.error.injEq]
    constructor
    · rintro rfl
      exact ⟨Nat.le_of_not_lt hr, rfl⟩
    · rintro ⟨-, rfl⟩
      rfl

theorem row_of_lt {r : Nat} (hr : r < a.rows) :
    a.row r = .ok (a.columns.extract (a.rowIndex.getD r 0) (a.rowIndex.getD (r + 1) 0),
      a.values.extract (a.rowIndex.getD r 0) (a.rowIndex.getD (r + 1) 0)) := by
  unfold Csr.row
  rw [if_pos hr]

theorem rows_cover [Element α] (hv : Valid a.rowIndex a.columns a.values.size a.cols) :
    ∃ rs, (List.range a.rows).mapM a.row = .ok rs ∧
      (rs.map fun p => p.1.toList).flatten = a.columns.toList ∧
      (rs.map fun p => p.2.toList).flatten = a.values.toList := by
  have hmono : ∀ k < a.rows, a.rowIndex.getD k 0 ≤ a.rowIndex.getD (k + 1) 0 :=
    fun k hk => hv.offset_mono (Nat.le_succ k) hk
  have hflat := flatten_rowPairs a hv.offset_zero a.rows hmono
  have hvals : a.values.size = a.columns.size := hv.values_size.trans hv.columns_size.symm
  rw [hv.offset_rows] at hflat
  refine ⟨_, mapM_eq_pure_map _ fun r hr => row_of_valid hv (List.mem_range.mp hr), ?_, ?_⟩
  · have := congrArg (List.map Prod.fst) hflat
    simp only [List.map_flatten, List.map_map, Function.comp_def] at this
    rw [map_range_getD] at this
    simpa [Function.comp_def] using this
  · have := congrArg (List.map Prod.snd) hflat
    simp only [List.map_flatten, List.map_map, Function.comp_def] at this
    rw [← hvals, map_range_getD] at this
    simpa [Function.comp_def] using this

end Rows

section Dense

variable {α ρ : Type} [Scalar α ρ] {a : Csr α}

theorem mem_entries_iff_row (hv : Valid a.rowIndex a.columns a.values.size a.cols) {r c : Nat}
    {v : α} :
    (r, c, v) ∈ a.entries ↔ ∃ cs vs, a.row r = .ok (cs, vs) ∧ (c, v) ∈ cs.toList.zip vs.toList := by
  rw [mem_entries]
  constructor
  · rintro ⟨hr, hp⟩
    refine ⟨_, _, row_of_valid hv hr, ?_⟩
    rwa [List.toList_toArray, List.toList_toArray, ← List.zip_of_prod rfl rfl]
  · rintro ⟨cs, vs, h, hp⟩
    obtain ⟨hr, hcs, hvs⟩ := row_eq_ok hv h
    rw [hcs, hvs, ← List.zip_of_prod rfl rfl] at hp
    exact ⟨hr, hp⟩

theorem reserve_eq_error {container : String} {extents : List Nat} {len size : Nat} {e : Error}
    (h : Storage.reserve container extents len size = .error e) :
    ∃ reason, e = .allocation container extents reason := by
  unfold Storage.reserve at h
  split_ifs at h
  · cases h
    exact ⟨_, rfl⟩
  · cases h
    exact ⟨_, rfl⟩

omit [Scalar α ρ] in
theorem copy_eq_error [Element α] {e : Error} (h : a.copy = .error e) :
    ∃ reason, e = .allocation "CsrOperator" [a.rows, a.cols] reason := by
  unfold Csr.copy at h
  rcases bind_eq_error.mp h with h | ⟨_, -, h⟩
  · exact reserve_eq_error h
  rcases bind_eq_error.mp h with h | ⟨_, -, h⟩
  · exact reserve_eq_error h
  rcases bind_eq_error.mp h with h | ⟨_, -, h⟩
  · exact reserve_eq_error h
  · cases h

theorem get_eq_error_iff (a : Csr α) (r c : Nat) (e : Error) :
    a.get r c = .error e ↔
      (a.cols ≤ c ∨ a.rows ≤ r) ∧ e = .index "CsrOperator" [r, c] [a.rows, a.cols] := by
  unfold Csr.get
  split
  · next hout =>
    simp only [Except.error.injEq]
    exact ⟨fun he => ⟨hout, he.symm⟩, fun h => h.2.symm⟩
  · next hin =>
    rw [row_of_lt (by omega)]
    simp only [bind, Except.bind, pure, Except.pure, reduceCtorEq, false_iff, not_and]
    intro hout
    exact absurd hout hin

end Dense

section Display

variable {α ρ : Type} [RealFloat ρ] [Scalar α ρ] {a : Csr α}

theorem tolText_isSome (a : Csr α) (tol : ρ) : ∃ t, a.tolText tol = some t := by
  have hlines := mapM_isSome (f := a.rowText tol) (List.range a.rows) fun r hr => by
    rw [Csr.rowText, row_of_lt (List.mem_range.mp hr)]
    rfl
  obtain ⟨lines, hlines⟩ := Option.isSome_iff_exists.mp hlines
  unfold Csr.tolText
  rw [hlines]
  exact ⟨_, rfl⟩

end Display

section Safety

variable {α ρ : Type} [RealFloat ρ] [Scalar α ρ]

/-- What the readers of an operator rely on: the CSR rules, every row read inside the
buffers and returned as the slice its offsets bound, the rows together giving back the
buffers, an index error as the only error of `row` and `get`, a dense expansion that writes
inside the matrix and fails only to allocate it, a display that never fails, and a copy
that fails only to allocate. -/
structure ReadersSafe (a : Csr α) : Prop where
  valid : Valid a.rowIndex a.columns a.values.size a.cols
  row_in_bounds : ∀ r < a.rows, RowInBounds a r
  row_eq : ∀ r < a.rows, a.row r =
    .ok (a.columns.extract (a.rowIndex.getD r 0) (a.rowIndex.getD (r + 1) 0),
      a.values.extract (a.rowIndex.getD r 0) (a.rowIndex.getD (r + 1) 0))
  rows_cover : ∃ rs, (List.range a.rows).mapM a.row = .ok rs ∧
    (rs.map fun p => p.1.toList).flatten = a.columns.toList ∧
    (rs.map fun p => p.2.toList).flatten = a.values.toList
  row_error_iff : ∀ r e, a.row r = .error e ↔ a.rows ≤ r ∧ e = .index "CsrOperator" [r] [a.rows]
  get_error_iff : ∀ r c e, a.get r c = .error e ↔
    (a.cols ≤ c ∨ a.rows ≤ r) ∧ e = .index "CsrOperator" [r, c] [a.rows, a.cols]
  dense_writes : ∀ r c (v : α), (r, c, v) ∈ a.entries ↔
    ∃ cs vs, a.row r = .ok (cs, vs) ∧ (c, v) ∈ cs.toList.zip vs.toList
  dense_in_range : ∀ e ∈ a.entries, e.1 < a.rows ∧ e.2.1 < a.cols
  toDense_ok : ∀ l, (∃ z, (Matrix.zeros a.rows a.cols l : Except Error (Matrix α)) = .ok z) →
    ∃ d, a.toDense l = .ok d
  tolText_ok : ∀ tol : ρ, ∃ t, a.tolText tol = some t
  copy_ok : ∀ b, a.copy = .ok b → b = a
  copy_error : ∀ e, a.copy = .error e → ∃ reason, e = .allocation "CsrOperator" [a.rows, a.cols] reason

theorem readersSafe_of_valid {a : Csr α} (hv : Valid a.rowIndex a.columns a.values.size a.cols) :
    ReadersSafe (ρ := ρ) a where
  valid := hv
  row_in_bounds _ hr := rowInBounds_of_valid hv hr
  row_eq _ hr := row_of_lt hr
  rows_cover := rows_cover hv
  row_error_iff := row_eq_error_iff a
  get_error_iff := get_eq_error_iff a
  dense_writes _ _ _ := mem_entries_iff_row hv
  dense_in_range _ he := entries_in_range hv he
  toDense_ok _ hz := toDense_ok hz
  tolText_ok := tolText_isSome a
  copy_ok _ h := copy_eq_ok h
  copy_error _ h := copy_eq_error h

/-- Every operator the library hands out, and every one after its values are overwritten in
place, is read safely. -/
theorem accepted_readers_safe {a : Csr α} (h : Accepted (ρ := ρ) a) : ReadersSafe (ρ := ρ) a :=
  readersSafe_of_valid (valid_of_accepted h)

/-- The operator `[[1, 2], [3, 0]]` with an explicit column count. -/
theorem sample_readers_safe :
    Accepted (ρ := Float) (⟨#[0, 2, 3], #[0, 1, 0], #[1.0, 2.0, 3.0], 2⟩ : Csr Float) ∧
      ReadersSafe (ρ := Float) (⟨#[0, 2, 3], #[0, 1, 0], #[1.0, 2.0, 3.0], 2⟩ : Csr Float) := by
  have h : Accepted (ρ := Float) (⟨#[0, 2, 3], #[0, 1, 0], #[1.0, 2.0, 3.0], 2⟩ : Csr Float) :=
    @Accepted.withCols Float Float _ _ 2 #[0, 2, 3] #[0, 1, 0] #[1.0, 2.0, 3.0] _
      (withCols_eq_ok.mpr ⟨⟨rfl, fun k hk => by
        have hk : k < 2 := by
          simp only [List.size_toArray, List.length_cons, List.length_nil] at hk
          omega
        interval_cases k <;> decide, rfl, rfl, by decide⟩, rfl⟩)
  exact ⟨h, accepted_readers_safe h⟩

end Safety

end DualArrays.Proofs.CsrReaders
