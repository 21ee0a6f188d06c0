import DualArrays.Proofs.CsrReaders

namespace DualArrays.Proofs.CsrConstructors

open DualArrays
open DualArrays.Proofs.Outcomes DualArrays.Proofs.CsrRows DualArrays.Proofs.CsrDense
open DualArrays.Proofs.CsrReaders

variable {α : Type}

def inferredCols (columns : Array Nat) : Nat := (columns.toList.max?.map (· + 1)).getD 0

theorem validate_eq_error {rowIndex columns : Array Nat} {nValues cols : Nat} {e : Error}
    (h : Csr.validate rowIndex columns nValues cols = .error e) :
    ∃ reason, e = .invariant "CsrOperator" reason := by
  unfold Csr.validate at h
  dsimp only at h
  split at h
  · cases h
    exact ⟨_, rfl⟩
  · split_ifs at h <;> cases h <;> exact ⟨_, rfl⟩

theorem withCols_eq_error {cols : Nat} {rowIndex columns : Array Nat} {values : Array α}
    {e : Error} (h : Csr.withCols cols rowIndex columns values = .error e) :
    ∃ reason, e = .invariant "CsrOperator" reason := by
  unfold Csr.withCols at h
  rcases bind_eq_error.mp h with h | ⟨_, -, h⟩
  · exact validate_eq_error h
  · cases h

/-- What a constructor over given buffers promises: it accepts them exactly when they keep the
CSR rules, makes the operator of exactly these buffers, and refuses them only with a broken
invariant of the operator. -/
structure AcceptsValidBuffers (r : Except Error (Csr α)) (rowIndex columns : Array Nat)
    (values : Array α) (cols : Nat) : Prop where
  ok_iff : (∃ a, r = .ok a) ↔ Valid rowIndex columns values.size cols
  ok_eq : ∀ a, r = .ok a → a = ⟨rowIndex, columns, values, cols⟩
  error_eq : ∀ e, r = .error e → ∃ reason, e = .invariant "CsrOperator" reason

theorem withCols_acceptsValidBuffers (cols : Nat) (rowIndex columns : Array Nat)
    (values : Array α) :
    AcceptsValidBuffers (Csr.withCols cols rowIndex columns values) rowIndex columns values
      cols where
  ok_iff := by
    constructor
    · rintro ⟨a, ha⟩
      exact (withCols_eq_ok.mp ha).1
    · intro hv
      exact ⟨_, withCols_eq_ok.mpr ⟨hv, rfl⟩⟩
  ok_eq _ ha := (withCols_eq_ok.mp ha).2
  error_eq _ := withCols_eq_error

theorem ofParts_eq (rowIndex columns : Array Nat) (values : Array α) :
    Csr.ofParts rowIndex columns values =
      if ∃ c ∈ columns, Word.max ≤ c then .error (.abort "attempt to add with overflow")
      else (Csr.withCols (inferredCols columns) rowIndex columns values).toFailure := by
  unfold Csr.ofParts inferredCols
  cases hmax : columns.toList.max? with
  | none =>
    have hnil : columns = #[] := Array.toList_eq_nil_iff.mp (List.max?_eq_none_iff.mp hmax)
    subst hnil
    simp
  | some m =>
    obtain ⟨hmem, hle⟩ := List.max?_eq_some_iff.mp hmax
    have hreach : (∃ c ∈ columns, Word.max ≤ c) ↔ Word.max ≤ m := by
      constructor
      · rintro ⟨c, hc, hmaxc⟩
        exact hmaxc.trans (hle c (Array.mem_toList_iff.mpr hc))
      · intro hm
        exact ⟨m, Array.mem_toList_iff.mp hmem, hm⟩
    dsimp only
    by_cases hm : Word.max ≤ m
    · rw [if_pos (hreach.mpr hm), word_add_of_lt (by omega)]
      rfl
    · rw [if_neg (mt hreach.mp hm), word_add_of_le (by omega)]
      rfl

/-- The constructors over given buffers. With a column count (`withCols`, which also builds a
borrowed view) the buffers are accepted exactly when they keep the CSR rules, and otherwise
refused with a broken invariant of the operator. Without one (`ofParts`) the column count is
one past the largest column index, or zero without columns, and the buffers then go through
the same check; forming that count aborts when a column index is the largest word. -/
theorem csr_constructors_accept_valid_buffers (cols : Nat) (rowIndex columns : Array Nat)
    (values : Array α) :
    AcceptsValidBuffers (Csr.withCols cols rowIndex columns values) rowIndex columns values
      cols ∧
    Csr.ofParts rowIndex columns values =
      if ∃ c ∈ columns, Word.max ≤ c then .error (.abort "attempt to add with overflow")
      else (Csr.withCols (inferredCols columns) rowIndex columns values).toFailure :=
  ⟨withCols_acceptsValidBuffers cols rowIndex columns values,
    ofParts_eq rowIndex columns values⟩

/-- Buffers whose only column index is the largest word abort when the column count is
inferred, though their first offset alone would have them refused. -/
theorem ofParts_largest_column_aborts :
    Csr.ofParts #[1] #[Word.max] (#[] : Array Float) =
      .error (.abort "attempt to add with overflow") := by
  rw [(csr_constructors_accept_valid_buffers 0 #[1] #[Word.max] (#[] : Array Float)).2,
    if_pos ⟨Word.max, by simp, le_refl _⟩]

end DualArrays.Proofs.CsrConstructors
