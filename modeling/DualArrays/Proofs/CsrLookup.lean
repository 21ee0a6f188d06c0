import DualArrays.Proofs.CsrRows
import DualArrays.Proofs.FloatArithmetic

namespace DualArrays.Proofs.CsrLookup

open DualArrays
open DualArrays.Proofs.MatrixEntries DualArrays.Proofs.Outcomes DualArrays.Proofs.CsrRows

section Stored

variable {α : Type} [Element α]

def storedAt (a : Csr α) (r c : Nat) : List α :=
  ((rowPairs a r).filter (·.1 == c)).map Prod.snd

theorem flatMap_range_eq_of_single {β : Type} {n i : Nat} (hi : i < n) (f : Nat → List β)
    (hf : ∀ k < n, k ≠ i → f k = []) : (List.range n).flatMap f = f i := by
  induction n with
  | zero => omega
  | succ n ih =>
      rw [List.range_succ, List.flatMap_append, List.flatMap_singleton]
      by_cases hin : i = n
      · subst hin
        have hnil : (List.range i).flatMap f = [] :=
          List.flatMap_eq_nil_iff.mpr fun k hk =>
            hf k (by simpa using Nat.lt_succ_of_lt (List.mem_range.mp hk))
              (Nat.ne_of_lt (List.mem_range.mp hk))
        rw [hnil, List.nil_append]
      · rw [ih (by omega) fun k hk => hf k (by omega), hf n (by omega) (Ne.symm hin),
          List.append_nil]

end Stored

section Lookup

variable {α ρ : Type} [Scalar α ρ]

theorem entries_at {a : Csr α} {i j : Nat} (hi : i < a.rows) :
    (a.entries.filter fun e => e.1 == i && e.2.1 == j).map (·.2.2) = storedAt a i j := by
  rw [entries_eq, List.filter_flatMap, List.map_flatMap]
  rw [flatMap_range_eq_of_single hi]
  · simp [storedAt, List.filter_map, Function.comp_def]
  · intro k _ hk
    simp [List.filter_map, Function.comp_def, hk]

theorem get_eq_sum {a : Csr α} (hv : Valid a.rowIndex a.columns a.values.size a.cols) {r c : Nat}
    (hr : r < a.rows) (hc : c < a.cols) : a.get r c = .ok (Scalar.sum (storedAt a r c)) := by
  unfold Csr.get
  rw [if_neg (by omega), row_of_valid hv hr]
  have hzip : (((rowPairs a r).map Prod.fst).toArray.toList.zip
      ((rowPairs a r).map Prod.snd).toArray.toList) = rowPairs a r :=
    (List.zip_of_prod rfl rfl).symm
  simp only [bind, Except.bind, pure, Except.pure, hzip]
  rfl

theorem read_foldl_addEntry_eq (es : List (Nat × Nat × α)) (m : Matrix α) (d : α)
    (hin : ∀ e ∈ es, e.1 < m.rows ∧ e.2.1 < m.cols) {i j : Nat} (hi : i < m.rows)
    (hj : j < m.cols) :
    (es.foldl addEntry m).read d i j =
      ((es.filter fun e => e.1 == i && e.2.1 == j).map (·.2.2)).foldl (· + ·) (m.read d i j) := by
  induction es generalizing m with
  | nil => rfl
  | cons e es ih =>
      obtain ⟨r, c, w⟩ := e
      have hrc := hin (r, c, w) List.mem_cons_self
      have ih' := ih (addEntry m (r, c, w)) (fun e he => by
        simpa using hin e (List.mem_cons_of_mem _ he)) (by simpa using hi) (by simpa using hj)
      rw [List.foldl_cons, ih', read_addEntry m d w hrc.1 hrc.2 hi hj]
      by_cases hat : i = r ∧ j = c
      · obtain ⟨rfl, rfl⟩ := hat
        simp
      · have hne : (r == i && c == j) = false := by
          simp only [Bool.and_eq_false_iff, beq_eq_false_iff_ne]
          omega
        rw [if_neg hat, List.filter_cons_of_neg (by simp [hne])]

theorem toDense_get {a : Csr α} (hv : Valid a.rowIndex a.columns a.values.size a.cols)
    {l : Layout} {M : Matrix α} (hM : a.toDense l = .ok M) {r c : Nat} (hr : r < a.rows)
    (hc : c < a.cols) :
    M.get r c = .ok ((storedAt a r c).foldl (· + ·) Element.dflt) := by
  obtain ⟨hMr, hMc, -⟩ := toDense_shape hM
  rw [toDense_eq] at hM
  obtain ⟨z, hz, hd⟩ := bind_eq_ok.mp hM
  cases hd
  obtain ⟨hzr, hzc, -, hzero⟩ := matrix_zeros_ok hz
  have hin : ∀ e ∈ a.entries, e.1 < z.rows ∧ e.2.1 < z.cols := fun e he => by
    rw [hzr, hzc]
    exact entries_in_range hv he
  unfold Matrix.get
  rw [if_pos ⟨hMr ▸ hr, hMc ▸ hc⟩, read_foldl_addEntry_eq _ z _ hin (hzr ▸ hr) (hzc ▸ hc),
    entries_at hr, hzero _ _ _ hr hc]

theorem toDense_ok_iff {a : Csr α} {l : Layout} :
    (∃ M, a.toDense l = .ok M) ↔
      ∃ z, (Matrix.zeros a.rows a.cols l : Except Error (Matrix α)) = .ok z := by
  constructor
  · rintro ⟨M, hM⟩
    rw [toDense_eq] at hM
    obtain ⟨z, hz, -⟩ := bind_eq_ok.mp hM
    exact ⟨z, hz⟩
  · exact toDense_ok

end Lookup

section Start

variable {α ρ : Type} [Scalar α ρ]

/-- How the start of a sum sits beside the value of a new slot: adding a value to either
gives the same result, except for the start itself, which the start keeps and the slot
absorbs. -/
class SumStartLaws (α : Type) (ρ : outParam Type) [Scalar α ρ] : Prop where
  start_add (x : α) :
    Scalar.sumStart + x = Element.dflt + x ∨
      (x = Scalar.sumStart ∧ Scalar.sumStart + x = Scalar.sumStart ∧
        Element.dflt + x = Element.dflt)

theorem foldl_sumStart_cases [SumStartLaws α ρ] (xs : List α) :
    xs.foldl (· + ·) Scalar.sumStart = xs.foldl (· + ·) Element.dflt ∨
      ((∀ x ∈ xs, x = Scalar.sumStart) ∧ xs.foldl (· + ·) Scalar.sumStart = Scalar.sumStart ∧
        xs.foldl (· + ·) Element.dflt = Element.dflt) := by
  induction xs with
  | nil => exact .inr ⟨fun _ h => absurd h List.not_mem_nil, rfl, rfl⟩
  | cons x xs ih =>
      rw [List.foldl_cons, List.foldl_cons]
      rcases SumStartLaws.start_add x with hsame | ⟨rfl, hstart, hdflt⟩
      · exact .inl (by rw [hsame])
      · rw [hstart, hdflt]
        rcases ih with heq | ⟨hall, hs, hd⟩
        · exact .inl heq
        · refine .inr ⟨fun y hy => ?_, hs, hd⟩
          rcases List.mem_cons.mp hy with rfl | hy
          · rfl
          · exact hall y hy

end Start

instance {ρ : Type} [RealFloat ρ] : SumStartLaws (Complex ρ) ρ where
  start_add _ := .inl rfl

section Binary

open Float.Model Float.Model.UnpackedFloat
open DualArrays.Proofs.FloatArithmetic

variable {ρ : Type} [RealFloat ρ]

theorem sumStartLaws_of_unpack (spec : Format) (unp : ρ → UnpackedFloat)
    (hinj : ∀ x y, unp x = unp y → x = y) (hneg : unp (-RealFloat.zero) = .zero .negative)
    (hzero : unp RealFloat.zero = .zero .positive)
    (hadd : ∀ x y, unp (x + y) = UnpackedFloat.unpack spec (UnpackedFloat.pack spec
      (add spec (unp x) (unp y))))
    (hnn : -RealFloat.zero + -RealFloat.zero = (-RealFloat.zero : ρ))
    (hpn : RealFloat.zero + -RealFloat.zero = (RealFloat.zero : ρ)) : SumStartLaws ρ ρ := by
  refine ⟨fun x => ?_⟩
  show -RealFloat.zero + x = RealFloat.zero + x ∨
    (x = -RealFloat.zero ∧ -RealFloat.zero + x = -RealFloat.zero ∧
      RealFloat.zero + x = RealFloat.zero)
  rcases negZero_add_cases spec (unp x) with hsame | ⟨hx, -, -⟩
  · exact .inl (hinj _ _ (by rw [hadd, hadd, hneg, hzero, hsame]))
  · have hx' : x = -RealFloat.zero := hinj _ _ (hx.trans hneg.symm)
    subst hx'
    exact .inr ⟨rfl, hnn, hpn⟩

instance : SumStartLaws Float Float :=
  sumStartLaws_of_unpack .binary64 (fun x => x.toModel.unpack)
    (fun _ _ => float_eq_iff_unpack_eq.mpr) rfl rfl (fun _ _ => rfl)
    (float_eq_iff_unpack_eq.mpr rfl) (float_eq_iff_unpack_eq.mpr rfl)

instance : SumStartLaws Float32 Float32 :=
  sumStartLaws_of_unpack .binary32 (fun x => x.toModel.unpack)
    (fun _ _ => float32_eq_iff_unpack_eq.mpr) rfl rfl (fun _ _ => rfl)
    (float32_eq_iff_unpack_eq.mpr rfl) (float32_eq_iff_unpack_eq.mpr rfl)

end Binary

section Agreement

variable {α ρ : Type} [Scalar α ρ] [SumStartLaws α ρ]

/-- Lookup and expansion of a valid operator, at an entry inside its shape: lookup sums the
values stored there from `sumStart`; expansion, which fails only where the zero matrix cannot
be had, adds them to a zero slot; and the two agree unless every value stored there is
`sumStart`, none stored included, where lookup gives `sumStart` and the dense matrix zero. -/
theorem get_matches_toDense_except_sumStart {a : Csr α}
    (hv : Valid a.rowIndex a.columns a.values.size a.cols) (l : Layout) {r c : Nat}
    (hr : r < a.rows) (hc : c < a.cols) :
    a.get r c = .ok (Scalar.sum (storedAt a r c)) ∧
    ((∃ M, a.toDense l = .ok M) ↔
      ∃ z, (Matrix.zeros a.rows a.cols l : Except Error (Matrix α)) = .ok z) ∧
    ∀ M, a.toDense l = .ok M →
      M.get r c = .ok ((storedAt a r c).foldl (· + ·) Element.dflt) ∧
      (a.get r c = M.get r c ∨
        ((∀ x ∈ storedAt a r c, x = Scalar.sumStart) ∧ a.get r c = .ok Scalar.sumStart ∧
          M.get r c = .ok Element.dflt)) := by
  have hget := get_eq_sum hv hr hc
  refine ⟨hget, toDense_ok_iff, fun M hM => ?_⟩
  have hdense := toDense_get hv hM hr hc
  refine ⟨hdense, ?_⟩
  rw [hget, hdense]
  rcases foldl_sumStart_cases (storedAt a r c) with hsame | ⟨hall, hs, hd⟩
  · exact .inl (congrArg Except.ok hsame)
  · exact .inr ⟨hall, congrArg Except.ok hs, congrArg Except.ok hd⟩

end Agreement

def unsortedRow : Csr Float := ⟨#[0, 3], #[1, 0, 1], #[2.0, -0.0, 3.0], 2⟩

/-- Lookup and expansion of `unsortedRow` agree on the repeated column, `-0 + 2 + 3 = 5`,
and disagree in the sign of the zero at the column that stores `-0` alone. -/
theorem unsortedRow_lookup :
    Valid unsortedRow.rowIndex unsortedRow.columns unsortedRow.values.size unsortedRow.cols ∧
    unsortedRow.get 0 1 = .ok 5.0 ∧ unsortedRow.get 0 0 = .ok (-0.0) ∧
    ∀ M, unsortedRow.toDense .col = .ok M → M.get 0 1 = .ok 5.0 ∧ M.get 0 0 = .ok 0.0 := by
  have hv : Valid unsortedRow.rowIndex unsortedRow.columns unsortedRow.values.size
      unsortedRow.cols :=
    validate_eq_ok_iff.mp (by decide +kernel)
  obtain ⟨hget₁, -, hdense₁⟩ := get_matches_toDense_except_sumStart hv .col (r := 0) (c := 1)
    (by decide) (by decide)
  obtain ⟨hget₀, -, hdense₀⟩ := get_matches_toDense_except_sumStart hv .col (r := 0) (c := 0)
    (by decide) (by decide)
  refine ⟨hv, hget₁.trans (by decide +kernel), hget₀.trans (by decide +kernel), fun M hM => ?_⟩
  exact ⟨(hdense₁ M hM).1.trans (by decide +kernel), (hdense₀ M hM).1.trans (by decide +kernel)⟩

end DualArrays.Proofs.CsrLookup
