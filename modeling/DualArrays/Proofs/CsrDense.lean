import DualArrays.Proofs.CsrRows
import DualArrays.Proofs.ComplexModulus

/-!
# Dense matrices to compressed rows and back

`Csr.ofDense` keeps, row by row and in column order, the entries whose modulus reaches the
tolerance and that are not zero. It allocates the `rows + 1` offsets up front and grows the
columns and values one push at a time, so it succeeds exactly when those allocations are
granted (`ofDense_ok_iff`), and then gives the operator built from the kept rows. That
operator is valid, has the shape of the matrix, lists every row in increasing columns and
depends on the entries alone. Expanding it gives `0 + x` where an entry was kept and zero
elsewhere, and an operator with sorted rows of non-zero values that are not NaN comes back
from its expansion unchanged (`csr_dense_round_trip`).
-/

namespace DualArrays.Proofs.CsrDense

open DualArrays
open DualArrays.Csr (keeps keptRow keptRows)
open DualArrays.Proofs.MatrixEntries DualArrays.Proofs.Outcomes DualArrays.Proofs.CsrRows
open DualArrays.Proofs.ZeroAdd DualArrays.Proofs.FloatOrder DualArrays.Proofs.ExtremumScans

theorem word_add_of_le {a b : Nat} (h : a + b ≤ Word.max) : Word.add a b = .ok (a + b) := by
  simp [Word.add, Word.add?, h]

theorem word_add_of_lt {a b : Nat} (h : Word.max < a + b) :
    Word.add a b = .error (.abort "attempt to add with overflow") := by
  simp [Word.add, Word.add?, Nat.not_le.mpr h]

section Growth

open Storage

/-- The capacity of a buffer of `size`-byte entries after `n` pushes onto it from empty. -/
def capacityAfter (size : Nat) : Nat → Nat
  | 0 => 0
  | n + 1 =>
    if n < capacityAfter size n then capacityAfter size n
    else grownCapacity size (capacityAfter size n)

/-- The allocations of compressing `rows` rows into `nnz` kept entries of `size` bytes are
granted: the `rows + 1` offsets, and the columns and the values at the capacities that `nnz`
pushes grow them to. -/
structure CompressionFits (size rows nnz : Nat) : Prop where
  offsets : (rows + 1) * 8 ≤ allocatorLimit
  columns : capacityAfter 8 nnz * 8 ≤ allocatorLimit
  values : capacityAfter size nnz * size ≤ allocatorLimit

theorem allocate_eq_ok_iff {bytes : Nat} : allocate bytes = .ok () ↔ bytes ≤ allocatorLimit := by
  have hlimit : allocatorLimit ≤ Word.maxSigned := by decide
  unfold allocate
  split_ifs with hsigned hrefused
  · exact iff_of_false (fun h => nomatch h) (by omega)
  · exact iff_of_false (fun h => nomatch h) (by omega)
  · exact iff_of_true rfl (by omega)

theorem capacityAfter_succ_of_lt {size n : Nat} (h : n < capacityAfter size n) :
    capacityAfter size (n + 1) = capacityAfter size n := by
  rw [capacityAfter, if_pos h]

theorem capacityAfter_succ_of_le {size n : Nat} (h : capacityAfter size n ≤ n) :
    capacityAfter size (n + 1) = grownCapacity size (capacityAfter size n) := by
  rw [capacityAfter, if_neg (Nat.not_lt.mpr h)]

theorem capacityAfter_le_succ (size n : Nat) :
    capacityAfter size n ≤ capacityAfter size (n + 1) := by
  by_cases h : n < capacityAfter size n
  · rw [capacityAfter_succ_of_lt h]
  · rw [capacityAfter_succ_of_le (Nat.le_of_not_lt h), grownCapacity]
    omega

theorem capacityAfter_mono (size : Nat) : Monotone (capacityAfter size) :=
  monotone_nat_of_le_succ (capacityAfter_le_succ size)

theorem fits_of_le {size a b : Nat} (hab : a ≤ b)
    (h : capacityAfter size b * size ≤ allocatorLimit) :
    capacityAfter size a * size ≤ allocatorLimit :=
  (Nat.mul_le_mul_right size (capacityAfter_mono size hab)).trans h

theorem push_capacityAfter_eq_ok_iff {size n c : Nat}
    (hfit : capacityAfter size n * size ≤ allocatorLimit) :
    push size n (capacityAfter size n) = .ok c ↔
      c = capacityAfter size (n + 1) ∧ capacityAfter size (n + 1) * size ≤ allocatorLimit := by
  by_cases hn : n < capacityAfter size n
  · rw [capacityAfter_succ_of_lt hn]
    simp [push, hn, hfit, eq_comm]
  · rw [capacityAfter_succ_of_le (Nat.le_of_not_lt hn), push, if_neg hn, bind_eq_ok]
    constructor
    · rintro ⟨⟨⟩, halloc, hc⟩
      cases hc
      exact ⟨rfl, allocate_eq_ok_iff.mp halloc⟩
    · rintro ⟨rfl, hgrown⟩
      exact ⟨(), allocate_eq_ok_iff.mpr hgrown, rfl⟩

theorem pushPairs_eq_ok_iff {size₁ size₂ : Nat} (n : Nat) {len : Nat}
    (h₁ : capacityAfter size₁ len * size₁ ≤ allocatorLimit)
    (h₂ : capacityAfter size₂ len * size₂ ≤ allocatorLimit) :
    pushPairs size₁ size₂ n len (capacityAfter size₁ len) (capacityAfter size₂ len) = .ok () ↔
      capacityAfter size₁ (len + n) * size₁ ≤ allocatorLimit ∧
        capacityAfter size₂ (len + n) * size₂ ≤ allocatorLimit := by
  induction n generalizing len with
  | zero => exact ⟨fun _ => ⟨h₁, h₂⟩, fun _ => rfl⟩
  | succ n ih =>
    have hlen : len + 1 + n = len + (n + 1) := by omega
    rw [pushPairs, bind_eq_ok]
    simp only [push_capacityAfter_eq_ok_iff h₁, bind_eq_ok, push_capacityAfter_eq_ok_iff h₂]
    constructor
    · rintro ⟨_, ⟨rfl, g₁⟩, _, ⟨rfl, g₂⟩, hrest⟩
      rw [← hlen]
      exact (ih g₁ g₂).mp hrest
    · rintro ⟨f₁, f₂⟩
      have g₁ := fits_of_le (a := len + 1) (by omega) f₁
      have g₂ := fits_of_le (a := len + 1) (by omega) f₂
      refine ⟨_, ⟨rfl, g₁⟩, _, ⟨rfl, g₂⟩, (ih g₁ g₂).mpr ?_⟩
      rw [hlen]
      exact ⟨f₁, f₂⟩

theorem pushPairs_from_empty {size₁ size₂ n : Nat} :
    pushPairs size₁ size₂ n 0 0 0 = .ok () ↔
      capacityAfter size₁ n * size₁ ≤ allocatorLimit ∧
        capacityAfter size₂ n * size₂ ≤ allocatorLimit := by
  have h := @pushPairs_eq_ok_iff size₁ size₂ n 0 (by simp [capacityAfter])
    (by simp [capacityAfter])
  rwa [Nat.zero_add] at h

end Growth

section Compress

variable {α ρ : Type} [RealFloat ρ] [Scalar α ρ]

theorem mem_keptRow {m : Matrix α} {tol : ρ} {i j : Nat} {v : α} :
    (j, v) ∈ keptRow m tol i ↔ j < m.cols ∧ v = m.read Element.dflt i j ∧ keeps tol v = true := by
  simp only [keptRow, List.mem_filter, List.mem_map, List.mem_range, Prod.mk.injEq]
  constructor
  · rintro ⟨⟨j', hj', rfl, rfl⟩, hkept⟩
    exact ⟨hj', rfl, hkept⟩
  · rintro ⟨hj, rfl, hkept⟩
    exact ⟨⟨j, hj, rfl, rfl⟩, hkept⟩

theorem keptRow_lt_cols {m : Matrix α} {tol : ρ} {i : Nat} {p : Nat × α}
    (hp : p ∈ keptRow m tol i) : p.1 < m.cols :=
  (mem_keptRow.mp hp).1

theorem keptRow_pairwise (m : Matrix α) (tol : ρ) (i : Nat) :
    (keptRow m tol i).Pairwise fun p q => p.1 < q.1 := by
  refine List.Pairwise.sublist List.filter_sublist ?_
  exact List.pairwise_map.mpr List.pairwise_lt_range

theorem keptRows_length (m : Matrix α) (tol : ρ) : (keptRows m tol).length = m.rows := by
  simp [keptRows]

theorem keptRows_lt_cols (m : Matrix α) (tol : ρ) :
    ∀ row ∈ keptRows m tol, ∀ p ∈ row, p.1 < m.cols := by
  intro row hrow p hp
  obtain ⟨i, -, rfl⟩ := List.mem_map.mp hrow
  exact keptRow_lt_cols hp

theorem compress_eq (m : Matrix α) (tol : ρ) :
    Csr.compress m tol = .ok (ofRows m.cols (keptRows m tol)) :=
  withCols_ofRows m.cols (keptRows m tol) (keptRows_lt_cols m tol)

theorem ofDense_of_fits (m : Matrix α) (tol : ρ)
    (h : CompressionFits (Element.size α) m.rows (keptRows m tol).flatten.length) :
    Csr.ofDense m tol = .ok (ofRows m.cols (keptRows m tol)) := by
  have hword : m.rows + 1 ≤ Word.max := by
    have hoffsets := h.offsets
    simp only [Storage.allocatorLimit, Word.max, Nat.pow_eq] at hoffsets ⊢
    omega
  simp only [Csr.ofDense, word_add_of_le hword, allocate_eq_ok_iff.mpr h.offsets,
    pushPairs_from_empty.mpr ⟨h.columns, h.values⟩, compress_eq, bind, Except.bind]
  rfl

theorem ofDense_ok_iff (m : Matrix α) (tol : ρ) :
    (∃ a, Csr.ofDense m tol = .ok a) ↔
      CompressionFits (Element.size α) m.rows (keptRows m tol).flatten.length := by
  refine ⟨fun ⟨a, ha⟩ => ?_, fun h => ⟨_, ofDense_of_fits m tol h⟩⟩
  by_cases hword : m.rows + 1 ≤ Word.max
  · rw [Csr.ofDense, word_add_of_le hword] at ha
    obtain ⟨_, hn, ha⟩ := bind_eq_ok.mp ha
    cases hn
    obtain ⟨⟨⟩, halloc, ha⟩ := bind_eq_ok.mp ha
    obtain ⟨⟨⟩, hpush, -⟩ := bind_eq_ok.mp ha
    obtain ⟨hcolumns, hvalues⟩ := pushPairs_from_empty.mp hpush
    exact ⟨allocate_eq_ok_iff.mp halloc, hcolumns, hvalues⟩
  · rw [Csr.ofDense, word_add_of_lt (Nat.lt_of_not_le hword)] at ha
    cases ha

theorem ofDense_eq_ok {m : Matrix α} {tol : ρ} {a : Csr α} (h : Csr.ofDense m tol = .ok a) :
    a = ofRows m.cols (keptRows m tol) := by
  have hfits := (ofDense_ok_iff m tol).mp ⟨a, h⟩
  rw [ofDense_of_fits m tol hfits] at h
  cases h
  rfl

theorem keptRows_congr {m m' : Matrix α} (h : SameEntries m m') (tol : ρ) :
    keptRows m tol = keptRows m' tol := by
  unfold keptRows keptRow
  rw [← h.rows_eq, ← h.cols_eq]
  refine List.map_congr_left fun i hi => ?_
  congr 1
  refine List.map_congr_left fun j hj => ?_
  rw [h.read_eq _ i j (List.mem_range.mp hi) (List.mem_range.mp hj)]

theorem ofDense_congr {m m' : Matrix α} (h : SameEntries m m') (tol : ρ) :
    Csr.ofDense m tol = Csr.ofDense m' tol := by
  unfold Csr.ofDense
  rw [compress_eq, compress_eq, keptRows_congr h tol, h.rows_eq, h.cols_eq]

end Compress

section Compressed

variable {α ρ : Type} [RealFloat ρ] [Scalar α ρ] (m : Matrix α) (tol : ρ)

theorem valid_compressed :
    Valid (ofRows m.cols (keptRows m tol)).rowIndex (ofRows m.cols (keptRows m tol)).columns
      (ofRows m.cols (keptRows m tol)).values.size m.cols :=
  valid_ofRows m.cols (keptRows m tol) (keptRows_lt_cols m tol)

theorem compressed_rows : (ofRows m.cols (keptRows m tol)).rows = m.rows := by
  rw [ofRows_rows, keptRows_length]

theorem rowPairs_compressed {i : Nat} (hi : i < m.rows) :
    rowPairs (ofRows m.cols (keptRows m tol)) i = keptRow m tol i := by
  rw [rowPairs_ofRows _ _ (by rwa [keptRows_length])]
  simp [keptRows]

theorem row_compressed_sorted {i : Nat} {cs : Array Nat} {vs : Array α}
    (h : (ofRows m.cols (keptRows m tol)).row i = .ok (cs, vs)) : cs.toList.Pairwise (· < ·) := by
  obtain ⟨hi, hcs, -⟩ := row_eq_ok (valid_compressed m tol) h
  rw [compressed_rows] at hi
  rw [hcs, rowPairs_compressed m tol hi]
  exact List.pairwise_map.mpr (keptRow_pairwise m tol i)

theorem read_toDense_compressed {l : Layout} {d : Matrix α}
    (hd : (ofRows m.cols (keptRows m tol)).toDense l = .ok d) {i j : Nat} (hi : i < m.rows)
    (hj : j < m.cols) :
    d.read Element.dflt i j = if keeps tol (m.read Element.dflt i j) then
      Element.dflt + m.read Element.dflt i j else Element.dflt := by
  have hrows := compressed_rows m tol
  have hnd : ∀ r < (ofRows m.cols (keptRows m tol)).rows,
      ((rowPairs (ofRows m.cols (keptRows m tol)) r).map Prod.fst).Nodup := by
    intro r hr
    rw [rowPairs_compressed m tol (hrows ▸ hr)]
    exact (List.pairwise_map.mpr (keptRow_pairwise m tol r)).nodup
  have hcols : ∀ r < (ofRows m.cols (keptRows m tol)).rows,
      ∀ p ∈ rowPairs (ofRows m.cols (keptRows m tol)) r, p.1 < m.cols := by
    intro r hr p hp
    rw [rowPairs_compressed m tol (hrows ▸ hr)] at hp
    exact keptRow_lt_cols hp
  have hread := read_toDense hd hnd hcols (hrows ▸ hi) hj
  rw [rowPairs_compressed m tol hi] at hread
  split
  · next hkept => exact hread.1 _ (mem_keptRow.mpr ⟨hj, rfl, hkept⟩)
  · next hkept =>
      refine hread.2 fun v hv => ?_
      obtain ⟨-, rfl, hv⟩ := mem_keptRow.mp hv
      exact hkept hv

end Compressed

section Expanded

variable {α ρ : Type} [RealFloat ρ] [Scalar α ρ] [ZeroSlotLaws α ρ]

theorem keeps_dflt (tol : ρ) : keeps tol (Element.dflt : α) = false := by
  simp [keeps, ZeroSlotLaws.eq_dflt_zero]

variable [IeeeOrder ρ] [IeeeLe ρ] [ModulusLaws α ρ]

theorem keeps_zero_dflt_add {v : α} (hz : Element.eq v Scalar.zero = false)
    (hnan : Element.eq v v = true) : keeps RealFloat.zero (Element.dflt + v) = true := by
  have hself : Element.eq (Element.dflt + v) (Element.dflt + v) = true := by
    rw [ZeroSlotLaws.eq_self_dflt_add, hnan]
  simp [keeps, ModulusLaws.zero_le_modulus hself, ZeroSlotLaws.eq_dflt_add_zero, hz]

variable {A : Csr α} (hv : Valid A.rowIndex A.columns A.values.size A.cols)
  (hsorted : ∀ r < A.rows, ((rowPairs A r).map Prod.fst).Pairwise (· < ·))
  (hvals : ∀ v ∈ A.values, Element.eq v Scalar.zero = false ∧ Element.eq v v = true)
include hv hsorted hvals

theorem keptRow_toDense {l : Layout} {d : Matrix α} (hd : A.toDense l = .ok d) {r : Nat}
    (hr : r < A.rows) :
    keptRow d RealFloat.zero r = (rowPairs A r).map fun p => (p.1, Element.dflt + p.2) := by
  obtain ⟨hdr, hdc, -⟩ := toDense_shape hd
  have hcols : ∀ r < A.rows, ∀ p ∈ rowPairs A r, p.1 < A.cols :=
    fun r hr p hp => hv.columns_lt _ (mem_rowPairs hv hr hp).1
  have hnd : ∀ r < A.rows, ((rowPairs A r).map Prod.fst).Nodup :=
    fun r hr => (hsorted r hr).nodup
  -- both lists are strictly sorted by column, so they agree once they have the same members
  have : Std.Irrefl fun p q : Nat × α => p.1 < q.1 := ⟨fun p => Nat.lt_irrefl p.1⟩
  have : Std.Antisymm fun p q : Nat × α => p.1 < q.1 :=
    ⟨fun p q hpq hqp => absurd (Nat.lt_trans hpq hqp) (Nat.lt_irrefl _)⟩
  refine (keptRow_pairwise d _ r).eq_of_mem_iff
    (List.pairwise_map.mpr (List.pairwise_map.mp (hsorted r hr))) ?_
  rintro ⟨j, w⟩
  rw [mem_keptRow, hdc]
  constructor
  · rintro ⟨hj, rfl, hkept⟩
    have hread := read_toDense hd hnd hcols hr hj
    by_cases hstored : ∃ v, (j, v) ∈ rowPairs A r
    · obtain ⟨v, hjv⟩ := hstored
      exact List.mem_map.mpr ⟨(j, v), hjv, by rw [hread.1 v hjv]⟩
    · rw [hread.2 fun v hjv => hstored ⟨v, hjv⟩, keeps_dflt] at hkept
      cases hkept
  · intro hw
    obtain ⟨⟨j', v⟩, hjv, hpair⟩ := List.mem_map.mp hw
    cases hpair
    have hj := hcols r hr _ hjv
    have hval := hvals v (mem_rowPairs hv hr hjv).2
    refine ⟨hj, ((read_toDense hd hnd hcols hr hj).1 v hjv).symm, ?_⟩
    exact keeps_zero_dflt_add hval.1 hval.2

theorem keptRows_toDense {l : Layout} {d : Matrix α} (hd : A.toDense l = .ok d) :
    keptRows d RealFloat.zero = (List.range A.rows).map fun r =>
      (rowPairs A r).map fun p => (p.1, Element.dflt + p.2) := by
  obtain ⟨hdr, -, -⟩ := toDense_shape hd
  unfold keptRows
  rw [hdr]
  exact List.map_congr_left fun r hr =>
    keptRow_toDense hv hsorted hvals hd (List.mem_range.mp hr)

theorem keptCount_toDense {l : Layout} {d : Matrix α} (hd : A.toDense l = .ok d) :
    (keptRows d RealFloat.zero).flatten.length = A.values.size := by
  have hsize := congrArg (fun a : Csr α => a.values.size) (ofRows_rowPairs hv)
  simp only [ofRows, List.size_toArray, List.length_map] at hsize
  rw [keptRows_toDense hv hsorted hvals hd, ← hsize]
  simp [List.length_flatten, Function.comp_def]

theorem ofDense_toDense (hfit : CompressionFits (Element.size α) A.rows A.values.size)
    {l : Layout} {d : Matrix α} (hd : A.toDense l = .ok d) :
    Csr.ofDense d RealFloat.zero = .ok (ofRows A.cols ((List.range A.rows).map fun r =>
      (rowPairs A r).map fun p => (p.1, Element.dflt + p.2))) := by
  obtain ⟨hdr, hdc, -⟩ := toDense_shape hd
  have hfit' : CompressionFits (Element.size α) d.rows
      (keptRows d RealFloat.zero).flatten.length := by
    rw [hdr, keptCount_toDense hv hsorted hvals hd]
    exact hfit
  rw [ofDense_of_fits d _ hfit', hdc, keptRows_toDense hv hsorted hvals hd]

theorem beq_ofDense_toDense (hfit : CompressionFits (Element.size α) A.rows A.values.size)
    {l : Layout} {d : Matrix α} (hd : A.toDense l = .ok d) :
    ∃ a', Csr.ofDense d RealFloat.zero = .ok a' ∧ Csr.beq Element.eq a' A = true := by
  refine ⟨_, ofDense_toDense hv hsorted hvals hfit hd, ?_⟩
  have hbeq := beq_ofRows_mapValues A.cols ((List.range A.rows).map (rowPairs A)) Element.eq
    (fun v => Element.dflt + v) ?_
  · rwa [ofRows_rowPairs hv, List.map_map] at hbeq
  · intro row hrow p hp
    obtain ⟨r, hr, rfl⟩ := List.mem_map.mp hrow
    rw [ZeroSlotLaws.eq_dflt_add]
    exact (hvals _ (mem_rowPairs hv (List.mem_range.mp hr) hp).2).2

end Expanded

/-- What compressing a dense matrix gives, and how compression undoes expansion. -/
structure DenseRoundTrip (α : Type) {ρ : Type} [RealFloat ρ] [Scalar α ρ] : Prop where
  ok_iff (m : Matrix α) (tol : ρ) : (∃ a, Csr.ofDense m tol = .ok a) ↔
    CompressionFits (Element.size α) m.rows (keptRows m tol).flatten.length
  valid {m : Matrix α} {tol : ρ} {a : Csr α} : Csr.ofDense m tol = .ok a →
    Valid a.rowIndex a.columns a.values.size a.cols ∧ a.rows = m.rows ∧ a.cols = m.cols
  sorted {m : Matrix α} {tol : ρ} {a : Csr α} : Csr.ofDense m tol = .ok a →
    ∀ r cs vs, a.row r = .ok (cs, vs) → cs.toList.Pairwise (· < ·)
  layout {m m' : Matrix α} (tol : ρ) : SameEntries m m' → Csr.ofDense m tol = Csr.ofDense m' tol
  dense {m : Matrix α} {tol : ρ} {a : Csr α} (l : Layout) : Csr.ofDense m tol = .ok a →
    (∃ z, (Matrix.zeros m.rows m.cols l : Except Error (Matrix α)) = .ok z) →
    ∃ d, a.toDense l = .ok d ∧ ∀ i < m.rows, ∀ j < m.cols,
      d.read Element.dflt i j = (if keeps tol (m.read Element.dflt i j) then
        Element.dflt + m.read Element.dflt i j else Element.dflt) ∧
      (keeps tol (m.read Element.dflt i j) = true →
        Element.eq (d.read Element.dflt i j) (m.read Element.dflt i j) =
          Element.eq (m.read Element.dflt i j) (m.read Element.dflt i j))
  converse (A : Csr α) (l : Layout) :
    Valid A.rowIndex A.columns A.values.size A.cols →
    (∀ r cs vs, A.row r = .ok (cs, vs) → cs.toList.Pairwise (· < ·)) →
    (∀ v ∈ A.values, Element.eq v Scalar.zero = false ∧ Element.eq v v = true) →
    CompressionFits (Element.size α) A.rows A.values.size →
    (∃ z, (Matrix.zeros A.rows A.cols l : Except Error (Matrix α)) = .ok z) →
    ∃ d a', A.toDense l = .ok d ∧ Csr.ofDense d RealFloat.zero = .ok a' ∧
      Csr.beq Element.eq a' A = true

theorem csr_dense_round_trip {α ρ : Type} [RealFloat ρ] [Scalar α ρ] [ZeroSlotLaws α ρ]
    [IeeeOrder ρ] [IeeeLe ρ] [ModulusLaws α ρ] : DenseRoundTrip α where
  ok_iff := ofDense_ok_iff
  valid {m tol a} h := by
    rw [ofDense_eq_ok h]
    exact ⟨valid_compressed m tol, compressed_rows m tol, rfl⟩
  sorted {m tol a} h r cs vs hrow := by
    rw [ofDense_eq_ok h] at hrow
    exact row_compressed_sorted m tol hrow
  layout tol h := ofDense_congr h tol
  dense {m tol a} l h hz := by
    rw [ofDense_eq_ok h]
    obtain ⟨d, hd⟩ := toDense_ok (a := ofRows m.cols (keptRows m tol)) (by rwa [compressed_rows])
    refine ⟨d, hd, fun i hi j hj => ⟨read_toDense_compressed m tol hd hi hj, fun hkept => ?_⟩⟩
    rw [read_toDense_compressed m tol hd hi hj, if_pos hkept, ZeroSlotLaws.eq_dflt_add]
  converse A l hv hsorted hvals hfit hz := by
    have hsorted' : ∀ r < A.rows, ((rowPairs A r).map Prod.fst).Pairwise (· < ·) := by
      intro r hr
      have hrow := row_of_valid hv hr
      simpa using hsorted r _ _ hrow
    obtain ⟨d, hd⟩ := toDense_ok hz
    obtain ⟨a', ha', hbeq⟩ := beq_ofDense_toDense hv hsorted' hvals hfit hd
    exact ⟨d, a', hd, ha', hbeq⟩

theorem csr_dense_round_trip_complex : DenseRoundTrip (Complex Float) :=
  csr_dense_round_trip

/-- The entry `NaN + ∞i` has an infinite modulus and is not zero, so it is kept; expanded it is
`0 + (NaN + ∞i)`, which like every value with a NaN part equals nothing, itself included. -/
theorem kept_nan_part_not_restored :
    let m : Matrix (Complex Float) := ⟨1, 1, .row, #[⟨RealFloat.nan, RealFloat.infinity⟩], rfl⟩
    keeps (0.0 : Float) (m.read Element.dflt 0 0) = true ∧
      ((Csr.ofDense m 0.0).toOption.bind fun a => (a.toDense .row).toOption).map
        (fun d => Element.eq (d.read Element.dflt 0 0) (m.read Element.dflt 0 0)) = some false := by
  decide +kernel

end DualArrays.Proofs.CsrDense
