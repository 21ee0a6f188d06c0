import DualArrays.Proofs.Jacobian
import DualArrays.Proofs.FloatArithmetic

namespace DualArrays.Proofs.DualityCheck

open DualArrays DualArrays.ComplexStep
open DualArrays.Proofs.Outcomes DualArrays.Proofs.Jacobian DualArrays.Proofs.FloatArithmetic
open DualArrays.Proofs.FloatOrder

section Binary64

theorem unpack_zero_of_eq_zero {x : Float} (h : RealFloat.eq x 0.0 = true) :
    ∃ s, x.toModel.unpack = .zero s := by
  rw [eq_float, unpack_zero, decide_eq_true_iff] at h
  cases hx : x.toModel.unpack with
  | zero s => exact ⟨s, rfl⟩
  | notANumber => rw [hx] at h; cases h
  | infinity s => rw [hx] at h; cases s <;> cases h
  | finite s m e hm => rw [hx] at h; cases s <;> cases h

theorem isNaN_false_of_isInf {x : Float} (hi : x.isInf = true) : x.isNaN = false := by
  rw [isInf_eq] at hi
  rw [isNaN_eq]
  cases hx : x.toModel.unpack <;> simp_all [Float.Model.UnpackedFloat.isInf,
    Float.Model.UnpackedFloat.isNaN]

theorem abs_sub_of_beq {x y : Float} (h : (x == y) = true) (hi : x.isInf = false) :
    (x - y).abs = 0.0 := by
  have heq : RealFloat.eq x y = true := h
  have hxn := (IeeeOrder.eq_iff.mp heq).1
  rcases IeeeOrder.eq_or_zero heq with rfl | ⟨hx0, hy0⟩
  · rw [sub_self_of_finite_float hxn hi]
    rfl
  · obtain ⟨s, hs⟩ := unpack_zero_of_eq_zero hx0
    obtain ⟨t, ht⟩ := unpack_zero_of_eq_zero hy0
    obtain ⟨s', hs'⟩ := sub_zero_zero .binary64 s t
    rw [float_eq_iff_unpack_eq, unpack_abs, unpack_sub, hs, ht, hs']
    cases s' <;> rfl

theorem equal_of_beq {x y : Float} (h : (x == y) = true) (hi : x.isInf = false) (tol : Float) :
    Reduce.equal x y tol = RealFloat.lt 0.0 tol := by
  have hxn : x.isNaN = false := (IeeeOrder.eq_iff.mp (show RealFloat.eq x y = true from h)).1
  have habs := abs_sub_of_beq h hi
  show (if RealFloat.lt x.abs RealFloat.epsilon then RealFloat.lt (x - y).abs tol
    else RealFloat.lt ((x - y).abs / x.abs) tol) = _
  rw [habs]
  cases hx : x.toModel.unpack with
  | notANumber => rw [isNaN_eq, hx] at hxn; cases hxn
  | infinity s => rw [isInf_eq, hx] at hi; cases hi
  | zero s =>
      have hm : x.abs = 0.0 := by
        rw [float_eq_iff_unpack_eq, unpack_abs, hx]
        rfl
      rw [hm, if_pos (by decide)]
  | finite s m e hm =>
      have hdiv : (0.0 : Float) / x.abs = 0.0 := by
        rw [float_eq_iff_unpack_eq, unpack_div, unpack_abs, hx]
        rfl
      rw [hdiv]
      split <;> rfl

theorem equal_self_of_inf {x : Float} (hi : x.isInf = true) (tol : Float) :
    Reduce.equal x x tol = false := by
  have hnan : (x - x).abs.isNaN = true := abs_isNaN (sub_self_isNaN hi)
  show (if RealFloat.lt x.abs RealFloat.epsilon then RealFloat.lt (x - x).abs tol
    else RealFloat.lt ((x - x).abs / x.abs) tol) = false
  split
  · exact lt_of_isNaN_left hnan tol
  · exact lt_of_isNaN_left (div_isNaN_left hnan _) tol

end Binary64

section Drift

/-- A perturbed real part agrees exactly with the real output: the two are IEEE equal, or
both are NaN. -/
def AgreesExactly (real perturbed : Float) : Prop :=
  (real == perturbed) = true ∨ (real.isNaN = true ∧ perturbed.isNaN = true)

instance (real perturbed : Float) : Decidable (AgreesExactly real perturbed) :=
  inferInstanceAs (Decidable (_ ∨ _))

theorem eq_of_agreesExactly_of_inf {r c : Float} (h : AgreesExactly r c) (hi : r.isInf = true) :
    c = r := by
  rcases h with heq | ⟨hr, -⟩
  · rcases IeeeOrder.eq_or_zero (show RealFloat.eq r c = true from heq) with h | ⟨hr0, -⟩
    · exact h.symm
    · obtain ⟨s, hs⟩ := unpack_zero_of_eq_zero hr0
      rw [isInf_eq, hs] at hi
      cases hi
  · rw [isNaN_false_of_isInf hi] at hr
    cases hr

theorem drift_eq_none {r c : Float} (h : AgreesExactly r c) (hi : r.isInf = false) :
    drift r c = none := by
  unfold drift
  rcases h with heq | ⟨hr, hc⟩
  · rw [equal_of_beq heq hi, show RealFloat.lt (0.0 : Float) dualityTolerance = true by decide,
      Bool.or_true, if_pos rfl]
  · rw [hr, hc]
    rfl

theorem drift_self_of_inf {r : Float} (hi : r.isInf = true) :
    drift r r = some (r - r).abs := by
  unfold drift
  rw [equal_self_of_inf hi, isNaN_false_of_isInf hi]
  rfl

theorem drift_isSome_of_agrees {r c : Float} (h : AgreesExactly r c) :
    (drift r c).isSome = r.isInf := by
  cases hi : r.isInf
  · rw [drift_eq_none h hi]
    rfl
  · rw [eq_of_agreesExactly_of_inf h hi, drift_self_of_inf hi]
    rfl

theorem not_le_driftRatio_of_inf {r : Float} (hi : r.isInf = true) (d : Float) :
    ¬d ≤ driftRatio * (r - r).abs :=
  not_le_of_isNaN_right d (mul_isNaN_right _ (abs_isNaN (sub_self_isNaN hi)))

end Drift

section Check

variable (s : ComplexStep) (k : DualKernel) (x : Array Float) (j : Nat)

def ColumnAgrees (real : Array Float) (perturbed : Array (Complex Float)) : Prop :=
  ∀ i < real.size, AgreesExactly (real.getD i 0.0) (perturbed.getD i Complex.zero').re

instance (real : Array Float) (perturbed : Array (Complex Float)) :
    Decidable (ColumnAgrees real perturbed) :=
  inferInstanceAs (Decidable (∀ i < real.size, _))

theorem drifted_of_agrees {real : Array Float} {perturbed : Array (Complex Float)}
    (h : ColumnAgrees real perturbed) :
    (List.range real.size).filter
        (fun i => (drift (real.getD i 0.0) (perturbed.getD i Complex.zero').re).isSome) =
      (List.range real.size).filter fun i => (real.getD i 0.0).isInf :=
  List.filter_congr fun i hi => drift_isSome_of_agrees (h i (List.mem_range.mp hi))

theorem verifyDuality_refuses {real : Array Float} {perturbed : Array (Complex Float)}
    {i₀ : Nat} {rest : List Nat}
    (hd : (List.range real.size).filter
        (fun i => (drift (real.getD i 0.0) (perturbed.getD i Complex.zero').re).isSome) =
      i₀ :: rest)
    (hinf : (real.getD i₀ 0.0).isInf = true)
    (hc : (perturbed.getD i₀ Complex.zero').re = real.getD i₀ 0.0) :
    s.verifyDuality k x j real perturbed ≠ .ok () := by
  unfold verifyDuality
  simp only [hd, List.isEmpty_cons]
  intro h
  obtain ⟨xc, -, h⟩ := bind_eq_ok.mp h
  obtain ⟨refined, -, h⟩ := bind_eq_ok.mp h
  obtain ⟨u, h, -⟩ := bind_eq_ok.mp h
  rw [List.forIn_cons, hc, if_pos (by simpa using not_le_driftRatio_of_inf hinf _)] at h
  cases h

theorem verifyDuality_eq_ok_iff {real : Array Float} {perturbed : Array (Complex Float)}
    (h : ColumnAgrees real perturbed) :
    s.verifyDuality k x j real perturbed = .ok () ↔
      ∀ i < real.size, (real.getD i 0.0).isInf = false := by
  have hd := drifted_of_agrees h
  cases hf : (List.range real.size).filter fun i => (real.getD i 0.0).isInf with
  | nil =>
      have hfin : ∀ i < real.size, (real.getD i 0.0).isInf = false := by
        intro i hi
        simpa using List.filter_eq_nil_iff.mp hf i (List.mem_range.mpr hi)
      refine ⟨fun _ => hfin, fun _ => ?_⟩
      -- nothing drifts, and the check returns before any refinement
      unfold verifyDuality
      simp only [hd, hf, List.isEmpty_nil]
      rfl
  | cons i₀ rest =>
      have hmem : i₀ ∈ (List.range real.size).filter fun i => (real.getD i 0.0).isInf := by
        rw [hf]
        exact List.mem_cons_self
      obtain ⟨hi₀, hinf⟩ : i₀ < real.size ∧ (real.getD i₀ 0.0).isInf = true := by
        simpa using hmem
      refine ⟨fun hok => absurd hok ?_, fun hfin => absurd (hfin i₀ hi₀) (by rw [hinf]; decide)⟩
      exact verifyDuality_refuses s k x j (hd.trans hf) hinf
        (eq_of_agreesExactly_of_inf (h i₀ hi₀) hinf)

end Check

section Columns

variable (s : ComplexStep) (k : DualKernel) (x : Array Float) (j : Nat)

theorem column_of_perturb_error {e : Error} (he : s.perturb x j = .error e)
    (b : Option (Array Float)) : s.column k x j b = .error e := by
  unfold column
  rw [he]
  rfl

theorem column_of_eval_error {xc : Vector (Complex Float)} (hxc : s.perturb x j = .ok xc)
    {e : Error} (he : k.evaluateIn xc.data = .error e) (b : Option (Array Float)) :
    s.column k x j b = .error e := by
  unfold column
  rw [hxc]
  show (k.evaluateIn xc.data >>= _) = _
  rw [he]
  rfl

theorem column_some_eq {xc fc : Vector (Complex Float)} (hxc : s.perturb x j = .ok xc)
    (hfc : k.evaluateIn xc.data = .ok fc) (real : Array Float) :
    s.column k x j (some real) =
      (s.verifyDuality k x j real fc.data >>= fun _ => s.column k x j none) := by
  unfold column
  rw [hxc]
  show (k.evaluateIn xc.data >>= _) = (_ >>= fun _ => k.evaluateIn xc.data >>= _)
  rw [hfc]
  rfl

theorem column_none_of_ok {b : Option (Array Float)} {c : Vector Float}
    (h : s.column k x j b = .ok c) : s.column k x j none = .ok c := by
  cases b with
  | none => exact h
  | some real =>
      cases hxc : s.perturb x j with
      | error e => rw [column_of_perturb_error s k x j hxc] at h; cases h
      | ok xc =>
          cases hfc : k.evaluateIn xc.data with
          | error e => rw [column_of_eval_error s k x j hxc hfc] at h; cases h
          | ok fc =>
              rw [column_some_eq s k x j hxc hfc] at h
              obtain ⟨_, -, h⟩ := bind_eq_ok.mp h
              exact h

theorem jacobianColumn_unchecked :
    (s.withCheckDuality false).jacobianColumn k x j = s.column k x j none :=
  rfl

theorem jacobianColumn_unchecked_of_ok {c : Vector Float} (h : s.jacobianColumn k x j = .ok c) :
    (s.withCheckDuality false).jacobianColumn k x j = .ok c := by
  rw [jacobianColumn_unchecked]
  unfold jacobianColumn at h
  split at h
  · obtain ⟨b, -, hb⟩ := bind_eq_ok.mp h
    exact column_none_of_ok s k x j hb
  · exact h

end Columns

section Runs

variable {α : Type}

theorem collectInOrder_ok_of_ok {f g : Nat → Except Error α}
    (hfg : ∀ j c, f j = .ok c → g j = .ok c) :
    ∀ {n : Nat} {cs : List α}, collectInOrder f n = .ok cs → collectInOrder g n = .ok cs
  | 0, _, h => h
  | n + 1, cs, h => by
      obtain ⟨ps, c, hps, hc, rfl⟩ := collectInOrder_succ_eq_ok.mp h
      exact collectInOrder_succ_eq_ok.mpr ⟨ps, c, collectInOrder_ok_of_ok hfg hps, hfg n c hc, rfl⟩

variable (s : ComplexStep) (k : DualKernel) (x : Array Float)

theorem jacobian_unchecked_of_ok {L : Vector Float × Matrix Float} (h : s.jacobian k x = .ok L) :
    (s.withCheckDuality false).jacobian k x = .ok L := by
  obtain ⟨v, hv⟩ := jacobian_value_ok s k x h
  cases hz : (Matrix.zeros k.outputs x.size .col : Except Error (Matrix Float)) with
  | error e => rw [jacobian_of_alloc_error s k x hv hz] at h; cases h
  | ok z =>
      rw [jacobian_eq s k x hv hz, map_eq_ok] at h
      obtain ⟨cs, hcs, rfl⟩ := h
      have hcs' := collectInOrder_ok_of_ok (jacobianColumn_unchecked_of_ok s k x) hcs
      rw [jacobian_eq _ k x hv hz, hcs']
      rfl

theorem jacobianParWith_unchecked_of_ok {collect} (hc : LawfulCollect collect)
    {L : Vector Float × Matrix Float} (h : jacobianParWith collect s k x = .ok L) :
    jacobianParWith collect (s.withCheckDuality false) k x = .ok L := by
  cases hv : k.evaluateIn x with
  | error e => rw [jacobianParWith_of_value_error collect s k x hv] at h; cases h
  | ok v =>
      rw [jacobianParWith_eq collect s k x hv] at h
      obtain ⟨cols, hcols, hrest⟩ := bind_eq_ok.mp h
      have hserial := collectInOrder_ok_of_ok (jacobianColumn_unchecked_of_ok s k x)
        ((hc.ok_iff _ _ _).mp hcols)
      rw [jacobianParWith_eq collect _ k x hv, (hc.ok_iff _ _ _).mpr hserial]
      exact hrest

end Runs

/-- The duality check is a pure guard: a run with the check that succeeds returns exactly
what the same run without the check returns, for one column, for the serial Jacobian and
for the Jacobian gathered by any lawful pool. -/
theorem duality_check_is_pure_guard (s : ComplexStep) (k : DualKernel) (x : Array Float) :
    (∀ j c, s.jacobianColumn k x j = .ok c →
      (s.withCheckDuality false).jacobianColumn k x j = .ok c) ∧
    (∀ L, s.jacobian k x = .ok L → (s.withCheckDuality false).jacobian k x = .ok L) ∧
    (∀ collect, LawfulCollect collect → ∀ L, jacobianParWith collect s k x = .ok L →
      jacobianParWith collect (s.withCheckDuality false) k x = .ok L) :=
  ⟨fun j _ h => jacobianColumn_unchecked_of_ok s k x j h,
    fun _ h => jacobian_unchecked_of_ok s k x h,
    fun _ hc _ h => jacobianParWith_unchecked_of_ok s k x hc h⟩

def identityKernel : DualKernel := Kernel.toDual ⟨1, [.input 0]⟩

/-- At `x = 2` the checked runs of `x ↦ x` succeed, and the unchecked ones return the same
value `2` and the same `1 × 1` Jacobian `[1]`. -/
theorem identity_check_is_transparent :
    ({} : ComplexStep).jacobianColumn identityKernel #[2.0] 0 = .ok ⟨#[1.0]⟩ ∧
    (({} : ComplexStep).withCheckDuality false).jacobianColumn identityKernel #[2.0] 0 =
      .ok ⟨#[1.0]⟩ ∧
    ({} : ComplexStep).jacobian identityKernel #[2.0] = .ok (⟨#[2.0]⟩, ofColumns 1 [⟨#[1.0]⟩]) ∧
    (({} : ComplexStep).withCheckDuality false).jacobian identityKernel #[2.0] =
      .ok (⟨#[2.0]⟩, ofColumns 1 [⟨#[1.0]⟩]) ∧
    jacobianPar {} identityKernel #[2.0] = .ok (⟨#[2.0]⟩, ofColumns 1 [⟨#[1.0]⟩]) ∧
    jacobianParWith collectInOrder (({} : ComplexStep).withCheckDuality false) identityKernel
      #[2.0] = .ok (⟨#[2.0]⟩, ofColumns 1 [⟨#[1.0]⟩]) := by
  obtain ⟨hcol, hjac, hpar⟩ := duality_check_is_pure_guard {} identityKernel #[2.0]
  have h₁ : ({} : ComplexStep).jacobianColumn identityKernel #[2.0] 0 = .ok ⟨#[1.0]⟩ := by
    decide +kernel
  have h₂ : ({} : ComplexStep).jacobian identityKernel #[2.0] =
      .ok (⟨#[2.0]⟩, ofColumns 1 [⟨#[1.0]⟩]) := by
    decide +kernel
  have h₃ : jacobianPar {} identityKernel #[2.0] = .ok (⟨#[2.0]⟩, ofColumns 1 [⟨#[1.0]⟩]) := by
    decide +kernel
  exact ⟨h₁, hcol 0 _ h₁, h₂, hjac _ h₂, h₃, hpar collectInOrder collectInOrder_lawful _ h₃⟩

/-- On exact agreement of the perturbed real parts with the real outputs (IEEE equal, or
both NaN), the check accepts column `j` exactly when no real output is infinite. An accepted
check changes nothing: the checked step of column `j`, which `jacobian` runs with the real
outputs as baseline, is the unchecked one, and `jacobianColumn` returns what it returns
without the check. -/
theorem exact_agreement_accepted_iff_finite (s : ComplexStep) (k : DualKernel) (x : Array Float)
    (j : Nat) {v : Vector Float} {xc fc : Vector (Complex Float)} (hv : k.evaluateIn x = .ok v)
    (hxc : s.perturb x j = .ok xc) (hfc : k.evaluateIn xc.data = .ok fc)
    (hagree : ColumnAgrees v.data fc.data) :
    (s.verifyDuality k x j v.data fc.data = .ok () ↔
      ∀ i < v.data.size, (v.data.getD i 0.0).isInf = false) ∧
    ((∀ i < v.data.size, (v.data.getD i 0.0).isInf = false) →
      s.column k x j (some v.data) = s.column k x j none ∧
      s.jacobianColumn k x j = (s.withCheckDuality false).jacobianColumn k x j) := by
  have hiff := verifyDuality_eq_ok_iff s k x j hagree
  refine ⟨hiff, fun hfin => ?_⟩
  have hcol : s.column k x j (some v.data) = s.column k x j none := by
    rw [column_some_eq s k x j hxc hfc, hiff.mpr hfin]
    rfl
  refine ⟨hcol, ?_⟩
  rw [jacobianColumn_eq s k x hv, jacobianColumn_unchecked]
  split
  · exact hcol
  · rfl

def negInfinityKernel : DualKernel := Kernel.toDual ⟨1, [.input 0, .const (-(1.0 / 0.0))]⟩

/-- Both outputs of `x ↦ (x, -∞)` at `x = 2` agree exactly under the perturbation of the
input, and the check refuses the column all the same. -/
theorem exact_agreement_refused_at_infinity :
    ColumnAgrees #[2.0, -(1.0 / 0.0)] #[⟨2.0, 1e-30⟩, ⟨-(1.0 / 0.0), 0.0⟩] ∧
    ({} : ComplexStep).verifyDuality negInfinityKernel #[2.0] 0 #[2.0, -(1.0 / 0.0)]
      #[⟨2.0, 1e-30⟩, ⟨-(1.0 / 0.0), 0.0⟩] ≠ .ok () := by
  have hagree : ColumnAgrees #[2.0, -(1.0 / 0.0)] #[⟨2.0, 1e-30⟩, ⟨-(1.0 / 0.0), 0.0⟩] := by
    decide +kernel
  refine ⟨hagree, fun h => ?_⟩
  have hv : negInfinityKernel.evaluateIn #[2.0] = .ok ⟨#[2.0, -(1.0 / 0.0)]⟩ := by
    decide +kernel
  have hxc : ({} : ComplexStep).perturb #[2.0] 0 = .ok ⟨#[⟨2.0, 1e-30⟩]⟩ := by
    decide +kernel
  have hfc : negInfinityKernel.evaluateIn (#[⟨2.0, 1e-30⟩] : Array (Complex Float)) =
      .ok ⟨#[⟨2.0, 1e-30⟩, ⟨-(1.0 / 0.0), 0.0⟩]⟩ := by
    decide +kernel
  have hfin := ((exact_agreement_accepted_iff_finite {} negInfinityKernel #[2.0] 0
    hv hxc hfc hagree).1.mp h) 1 (by decide)
  revert hfin
  decide +kernel

end DualArrays.Proofs.DualityCheck
