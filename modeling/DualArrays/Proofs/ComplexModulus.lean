import DualArrays.Proofs.HypotKernel
import DualArrays.Proofs.ExtremumScans

namespace DualArrays.Proofs.ComplexModulus

open Float.Model
open DualArrays.Proofs.FloatRounding DualArrays.Proofs.UnpackedArithmetic
open DualArrays.Proofs.FloatArithmetic DualArrays.Proofs.FloatErrorBounds
open DualArrays.Proofs.FloatOrder DualArrays.Proofs.FloatEncoding
open DualArrays.Proofs.HypotKernel DualArrays.Proofs.ExtremumScans
open DualArrays.Binary64 (twoPow)

section Signs

variable {x y : Float}

theorem positiveSign_add64 (hx : PositiveSign x.toModel.unpack) (hy : PositiveSign y.toModel.unpack) :
    PositiveSign (x + y).toModel.unpack := by
  rw [unpack_add]
  obtain ⟨hs, hc⟩ := add_positiveSign .binary64 hx hy (canonical_float x) (canonical_float y)
  exact positiveSign_unpack_pack _ (by decide) hc hs

theorem positiveSign_mul64 (hx : HasSign .positive x.toModel.unpack)
    (hy : HasSign .positive y.toModel.unpack) : PositiveSign (x * y).toModel.unpack := by
  rw [unpack_mul]
  obtain ⟨hs, hc⟩ := mul_hasSign .binary64 hx hy (canonical_float x) (canonical_float y)
  exact positiveSign_unpack_pack _ (by decide) hc (.inl hs)

theorem positiveSign_div64 (hx : HasSign .positive x.toModel.unpack)
    (hy : HasSign .positive y.toModel.unpack) (hy0 : toReal y ≠ 0) :
    PositiveSign (x / y).toModel.unpack := by
  rw [unpack_div]
  obtain ⟨hs, hc⟩ := div_hasSign .binary64 hx hy (canonical_float x) hy0
  exact positiveSign_unpack_pack _ (by decide) hc (.inl hs)

theorem positiveSign_mul_self64 (hx : x.toModel.unpack.isNaN = false) :
    PositiveSign (x * x).toModel.unpack := by
  rw [unpack_mul]
  obtain ⟨hs, hc⟩ := mul_self_positiveSign .binary64 hx (canonical_float x)
  exact positiveSign_unpack_pack _ (by decide) hc hs

theorem positiveSign_sqrt64 (hx : PositiveSign x.toModel.unpack) :
    PositiveSign (Float.sqrt x).toModel.unpack := by
  obtain ⟨hs, hc⟩ := sqrt_positiveSign .binary64 hx (canonical_float x)
  exact positiveSign_unpack_pack _ (by decide) hc hs

theorem isNaN_of_hasSign {s : UnpackedFloat.Sign} {u : UnpackedFloat} (h : HasSign s u) : u.isNaN = false := by
  cases u <;> first | rfl | exact h.elim

theorem add_isNaN (h : x.isNaN = true ∨ y.isNaN = true) : (x + y).isNaN = true := by
  apply isNaN_of_unpack
  have hadd : UnpackedFloat.add .binary64 x.toModel.unpack y.toModel.unpack = .notANumber := by
    rcases h with h | h <;> rw [unpack_of_isNaN h]
    · cases y.toModel.unpack <;> rfl
    · cases x.toModel.unpack <;> rfl
  rw [unpack_add, hadd]
  rfl

end Signs

section Constants

theorem twoPow_511 : Finite (twoPow 511) ∧ toReal (twoPow 511) = 2 ^ 511 ∧
    HasSign .positive (twoPow 511).toModel.unpack := by
  obtain ⟨hf, hv, hs⟩ := power_of_two_of_unpack (x := twoPow 511) (e := 459) rfl
  exact ⟨hf, by rw [hv]; norm_num, hs⟩

theorem twoPow_neg459 : Finite (twoPow (-459)) ∧ toReal (twoPow (-459)) = 2 ^ (-459 : ℤ) ∧
    HasSign .positive (twoPow (-459)).toModel.unpack := by
  obtain ⟨hf, hv, hs⟩ := power_of_two_of_unpack (x := twoPow (-459)) (e := -511) rfl
  exact ⟨hf, by rw [hv]; norm_num, hs⟩

theorem twoPow_neg54 : Finite (twoPow (-54)) ∧ toReal (twoPow (-54)) = 2 ^ (-54 : ℤ) ∧
    HasSign .positive (twoPow (-54)).toModel.unpack := by
  obtain ⟨hf, hv, hs⟩ := power_of_two_of_unpack (x := twoPow (-54)) (e := -106) rfl
  exact ⟨hf, by rw [hv]; norm_num, hs⟩

theorem twoPow_neg600 : Finite (twoPow (-600)) ∧ toReal (twoPow (-600)) = 2 ^ (-600 : ℤ) ∧
    HasSign .positive (twoPow (-600)).toModel.unpack := by
  obtain ⟨hf, hv, hs⟩ := power_of_two_of_unpack (x := twoPow (-600)) (e := -652) rfl
  exact ⟨hf, by rw [hv]; norm_num, hs⟩

end Constants

theorem kernelInputs_of_rounded {a b : Float} {P Q : ℝ} (ha : Rounded .binary64 P a.toModel.unpack)
    (hb : Rounded .binary64 Q b.toModel.unpack) (hQ : 0 ≤ Q) (hQP : Q ≤ P)
    (hlo : 2 ^ (-479 : ℤ) ≤ P) (hhi : 2 * P ≤ 2 ^ 511) : KernelInputs a b := by
  have hP : 0 ≤ P := hQ.trans hQP
  have hη : (2 : ℝ) ^ (-1075 : ℤ) ≤ P / 2 ^ 100 := by
    rw [le_div_iff₀ (by positivity)]
    calc (2 : ℝ) ^ (-1075 : ℤ) * 2 ^ 100 = 2 ^ (-975 : ℤ) := by
          rw [← zpow_natCast, ← zpow_add₀ two_ne_zero]; norm_num
      _ ≤ 2 ^ (-479 : ℤ) := zpow_le_zpow_right₀ one_le_two (by norm_num)
      _ ≤ P := hlo
  have h480 : (2 : ℝ) ^ (-479 : ℤ) = 2 ^ (-480 : ℤ) * 2 := by
    rw [← zpow_add_one₀ two_ne_zero]; norm_num
  obtain ⟨ha₁, ha₂⟩ := abs_le.mp (Near.of_rounded ha).error
  obtain ⟨hb₁, hb₂⟩ := abs_le.mp (Near.of_rounded hb).error
  rw [abs_of_nonneg hP] at ha₁ ha₂
  rw [abs_of_nonneg hQ] at hb₁ hb₂
  refine ⟨ha.isFinite, hb.isFinite, value_nonneg_of_rounded hb hQ, by linarith, by linarith, ?_⟩
  -- `linarith` cannot evaluate the numeral `2 ^ 511`; once named it is an atom
  generalize (2 : ℝ) ^ 511 = K at hhi ⊢
  linarith

structure SortedPair (a b : Float) : Prop where
  finite_a : Finite a
  finite_b : Finite b
  sign_a : HasSign .positive a.toModel.unpack
  sign_b : HasSign .positive b.toModel.unpack
  le : toReal b ≤ toReal a

theorem sortedPair_abs {x y : Float} (hx : Finite x) (hy : Finite y) :
    SortedPair (if x.abs < y.abs then y.abs else x.abs) (if x.abs < y.abs then x.abs else y.abs) := by
  obtain ⟨hfx, -, hpx⟩ := abs_finite hx
  obtain ⟨hfy, -, hpy⟩ := abs_finite hy
  split_ifs with h
  · exact ⟨hfy, hfx, hpy, hpx, ((lt_iff_toReal hfx hfy).mp h).le⟩
  · exact ⟨hfx, hfy, hpx, hpy, not_lt.mp fun hlt => h ((lt_iff_toReal hfx hfy).mpr hlt)⟩

namespace SortedPair

variable {a b : Float} (hs : SortedPair a b)
include hs

theorem nonneg_a : 0 ≤ toReal a := toReal_nonneg_of_hasSign hs.sign_a

theorem nonneg_b : 0 ≤ toReal b := toReal_nonneg_of_hasSign hs.sign_b

theorem kernelInputs (hbig : ¬twoPow 511 < a) (hsmall : ¬b < twoPow (-459)) : KernelInputs a b := by
  obtain ⟨hf₁, hv₁, -⟩ := twoPow_511
  obtain ⟨hf₂, hv₂, -⟩ := twoPow_neg459
  have hA : toReal a ≤ 2 ^ 511 := by
    rw [← hv₁]; exact not_lt.mp fun h => hbig ((lt_iff_toReal hf₁ hs.finite_a).mpr h)
  have hB : 2 ^ (-459 : ℤ) ≤ toReal b := by
    rw [← hv₂]; exact not_lt.mp fun h => hsmall ((lt_iff_toReal hs.finite_b hf₂).mpr h)
  have h480 : (2 : ℝ) ^ (-480 : ℤ) ≤ 2 ^ (-459 : ℤ) := zpow_le_zpow_right₀ one_le_two (by norm_num)
  have hA0 := hs.nonneg_a
  exact ⟨hs.finite_a, hs.finite_b, hs.nonneg_b, by linarith [hs.le], by linarith [hs.le], hA⟩

theorem kernelInputs_scaled_down (hbig : twoPow 511 < a) :
    KernelInputs (a * twoPow (-600)) (b * twoPow (-600)) := by
  obtain ⟨hf₁, hv₁, -⟩ := twoPow_511
  obtain ⟨hf₃, hv₃, -⟩ := twoPow_neg600
  have hA : 2 ^ 511 < toReal a := by rw [← hv₁]; exact (lt_iff_toReal hf₁ hs.finite_a).mp hbig
  have hS : (0 : ℝ) < 2 ^ (-600 : ℤ) := zpow_pos two_pos _
  have hfit (x : Float) : |toReal x * toReal (twoPow (-600))| ≤ maxFinite .binary64 := by
    rw [hv₃, abs_mul, abs_of_pos hS]
    exact (mul_le_of_le_one_right (abs_nonneg _)
      (zpow_le_one_of_nonpos₀ one_le_two (by norm_num))).trans (abs_toReal_le x)
  have ha := mul_rounded64 hs.finite_a hf₃ (hfit a)
  have hb := mul_rounded64 hs.finite_b hf₃ (hfit b)
  rw [hv₃] at ha hb
  refine kernelInputs_of_rounded ha hb (mul_nonneg hs.nonneg_b hS.le)
    (mul_le_mul_of_nonneg_right hs.le hS.le) ?_ ?_
  · calc (2 : ℝ) ^ (-479 : ℤ) ≤ 2 ^ 511 * 2 ^ (-600 : ℤ) := by
          rw [← zpow_natCast, ← zpow_add₀ two_ne_zero]
          exact zpow_le_zpow_right₀ one_le_two (by norm_num)
      _ ≤ toReal a * 2 ^ (-600 : ℤ) := mul_le_mul_of_nonneg_right hA.le hS.le
  · have hA' : toReal a ≤ 2 ^ 1024 := (le_abs_self _).trans ((abs_toReal_le a).trans maxFinite_le)
    calc 2 * (toReal a * 2 ^ (-600 : ℤ)) ≤ 2 * (2 ^ 1024 * 2 ^ (-600 : ℤ)) := by gcongr
      _ = 2 ^ (425 : ℤ) := by
          rw [← zpow_natCast, ← zpow_add₀ two_ne_zero, ← zpow_one_add₀ two_ne_zero]; norm_num
      _ ≤ 2 ^ 511 := by
          rw [← zpow_natCast]; exact zpow_le_zpow_right₀ one_le_two (by norm_num)

theorem kernelInputs_scaled_up (hsmall : b < twoPow (-459)) (hsep : ¬a ≥ b / twoPow (-54)) :
    KernelInputs (a / twoPow (-600)) (b / twoPow (-600)) := by
  obtain ⟨hf₂, hv₂, -⟩ := twoPow_neg459
  obtain ⟨hfE, hvE, -⟩ := twoPow_neg54
  obtain ⟨hf₃, hv₃, -⟩ := twoPow_neg600
  have hB : toReal b < 2 ^ (-459 : ℤ) := by
    rw [← hv₂]; exact (lt_iff_toReal hs.finite_b hf₂).mp hsmall
  have hE : (0 : ℝ) < 2 ^ (-54 : ℤ) := zpow_pos two_pos _
  have hS : (0 : ℝ) < 2 ^ (-600 : ℤ) := zpow_pos two_pos _
  have hR : toReal b / 2 ^ (-54 : ℤ) ≤ 2 ^ (-405 : ℤ) := by
    rw [div_le_iff₀ hE, ← zpow_add₀ two_ne_zero]
    exact hB.le.trans (le_of_eq (by norm_num))
  have hR₀ : 0 ≤ toReal b / 2 ^ (-54 : ℤ) := div_nonneg hs.nonneg_b hE.le
  have hfitR : |toReal b / toReal (twoPow (-54))| ≤ maxFinite .binary64 := by
    rw [hvE, abs_of_nonneg hR₀]
    exact hR.trans ((zpow_le_one_of_nonpos₀ one_le_two (by norm_num)).trans
      ((one_le_pow₀ one_le_two).trans two_pow_le_maxFinite))
  have hq := div_rounded64 hs.finite_b hfE (by rw [hvE]; exact hE.ne') hfitR
  rw [hvE] at hq
  have hsep' : toReal a < toReal (b / twoPow (-54)) :=
    not_le.mp fun h => hsep ((le_iff_toReal hq.isFinite hs.finite_a).mpr h)
  have hA0 : toReal a ≠ 0 := by
    intro hA
    have hb0 : toReal b = 0 := le_antisymm (hs.le.trans hA.le) hs.nonneg_b
    rw [hb0, zero_div] at hq
    have hq0 : toReal (b / twoPow (-54)) = 0 := value_eq_zero_of_rounded hq
    linarith
  have hAmin : 2 ^ (-1074 : ℤ) ≤ toReal a := by
    have h : 2 ^ (-1074 : ℤ) ≤ |toReal a| := two_pow_le_abs_value (canonical_float a) hA0
    rwa [abs_of_nonneg hs.nonneg_a] at h
  have hAmax : toReal a ≤ 2 ^ (-404 : ℤ) := by
    obtain ⟨-, hq₂⟩ := abs_le.mp (Near.of_rounded hq).error
    rw [abs_of_nonneg hR₀] at hq₂
    have h404 : (2 : ℝ) ^ (-404 : ℤ) = 2 ^ (-405 : ℤ) * 2 := by
      rw [← zpow_add_one₀ two_ne_zero]; norm_num
    have hη : (2 : ℝ) ^ (-1075 : ℤ) * 2 ≤ 2 ^ (-405 : ℤ) := by
      rw [← zpow_add_one₀ two_ne_zero]; exact zpow_le_zpow_right₀ one_le_two (by norm_num)
    have h405 : (0 : ℝ) ≤ 2 ^ (-405 : ℤ) := by positivity
    linarith
  have hfit (x : Float) (hx : |toReal x| ≤ toReal a) :
      |toReal x / toReal (twoPow (-600))| ≤ maxFinite .binary64 := by
    rw [hv₃, abs_div, abs_of_pos hS, div_le_iff₀ hS]
    calc |toReal x| ≤ 2 ^ (-404 : ℤ) := hx.trans hAmax
      _ ≤ 2 ^ 511 * 2 ^ (-600 : ℤ) := by
          rw [← zpow_natCast, ← zpow_add₀ two_ne_zero]
          exact zpow_le_zpow_right₀ one_le_two (by norm_num)
      _ ≤ maxFinite .binary64 * 2 ^ (-600 : ℤ) := by gcongr; exact two_pow_le_maxFinite
  have ha := div_rounded64 hs.finite_a hf₃ (by rw [hv₃]; exact hS.ne')
    (hfit a (abs_of_nonneg hs.nonneg_a).le)
  have hb := div_rounded64 hs.finite_b hf₃ (by rw [hv₃]; exact hS.ne')
    (hfit b (by rw [abs_of_nonneg hs.nonneg_b]; exact hs.le))
  rw [hv₃] at ha hb
  refine kernelInputs_of_rounded ha hb (div_nonneg hs.nonneg_b hS.le)
    (div_le_div_of_nonneg_right hs.le hS.le) ?_ ?_
  · rw [le_div_iff₀ hS]
    calc (2 : ℝ) ^ (-479 : ℤ) * 2 ^ (-600 : ℤ) ≤ 2 ^ (-1074 : ℤ) := by
          rw [← zpow_add₀ two_ne_zero]; exact zpow_le_zpow_right₀ one_le_two (by norm_num)
      _ ≤ toReal a := hAmin
  · rw [← mul_div_assoc, div_le_iff₀ hS]
    calc 2 * toReal a ≤ 2 * 2 ^ (-404 : ℤ) := by gcongr
      _ ≤ 2 ^ 511 * 2 ^ (-600 : ℤ) := by
          rw [← zpow_natCast, ← zpow_add₀ two_ne_zero, ← zpow_one_add₀ two_ne_zero]
          exact zpow_le_zpow_right₀ one_le_two (by norm_num)

end SortedPair

theorem hypot_positiveSign {x y : Float} (hxn : x.isNaN = false) (hyn : y.isNaN = false) :
    PositiveSign (Binary64.hypot x y).toModel.unpack := by
  unfold Binary64.hypot
  dsimp only
  by_cases hinf : (x.isInf || y.isInf) = true
  · rw [if_pos hinf]
    exact .inr rfl
  rw [if_neg hinf, hxn, hyn, if_neg (by decide)]
  simp only [Bool.or_eq_true, not_or, Bool.not_eq_true] at hinf
  have hs := sortedPair_abs (finite_of_not_inf_not_nan hinf.1 hxn)
    (finite_of_not_inf_not_nan hinf.2 hyn)
  generalize (if x.abs < y.abs then y.abs else x.abs) = a at hs ⊢
  generalize (if x.abs < y.abs then x.abs else y.abs) = b at hs ⊢
  obtain ⟨-, hv₃, hs₃⟩ := twoPow_neg600
  have hS : toReal (twoPow (-600)) ≠ 0 := by rw [hv₃]; positivity
  have hsum : PositiveSign (a + b).toModel.unpack :=
    positiveSign_add64 (.inl hs.sign_a) (.inl hs.sign_b)
  -- the branches of the definition: a sum of magnitudes, or the correction step, scaled down,
  -- scaled up or on the magnitudes themselves
  by_cases hbig : a > twoPow 511
  · rw [if_pos hbig]
    by_cases hsep : b ≤ a * twoPow (-54)
    · rw [if_pos hsep]
      exact hsum
    · rw [if_neg hsep]
      exact positiveSign_div64 (hs.kernelInputs_scaled_down hbig).hypotKernel_hasSign hs₃ hS
  · rw [if_neg hbig]
    by_cases hsmall : b < twoPow (-459)
    · rw [if_pos hsmall]
      by_cases hsep : a ≥ b / twoPow (-54)
      · rw [if_pos hsep]
        exact hsum
      · rw [if_neg hsep]
        exact positiveSign_mul64 (hs.kernelInputs_scaled_up hsmall hsep).hypotKernel_hasSign hs₃
    · rw [if_neg hsmall]
      by_cases hsep : b ≤ a * twoPow (-54)
      · rw [if_pos hsep]
        exact hsum
      · rw [if_neg hsep]
        exact .inl (hs.kernelInputs hbig hsmall).hypotKernel_hasSign

theorem hypot_positiveSign_or_isNaN (x y : Float) :
    PositiveSign (Binary64.hypot x y).toModel.unpack ∨ (Binary64.hypot x y).isNaN = true := by
  by_cases hn : x.isNaN = false ∧ y.isNaN = false
  · exact .inl (hypot_positiveSign hn.1 hn.2)
  have hn' : x.isNaN = true ∨ y.isNaN = true := by simpa only [not_and_or, Bool.not_eq_false] using hn
  unfold Binary64.hypot
  by_cases hinf : (x.isInf || y.isInf) = true
  · rw [if_pos hinf]
    exact .inl (.inr rfl)
  · rw [if_neg hinf, if_pos (by rw [Bool.or_eq_true]; exact hn')]
    exact .inr (add_isNaN hn')

section Binary32

theorem widen_isNaN {x : Float32} (hn : x.isNaN = false) (hi : x.isInf = false) :
    (Binary32.widen x).toModel.unpack.isNaN = false := by
  have hs : ∃ s, HasSign s x.toModel.unpack := by
    change x.toModel.unpack.isNaN = false at hn
    change x.toModel.unpack.isInf = false at hi
    cases h : x.toModel.unpack with
    | zero s => exact ⟨s, rfl⟩
    | finite s m e hm => exact ⟨s, rfl⟩
    | _ => rw [h] at hn hi; cases hn <;> cases hi
  obtain ⟨s, hs⟩ := hs
  obtain ⟨hr, hc⟩ := roundTo_hasSign .binary64 hs
  change (UnpackedFloat.unpack .binary64
    (UnpackedFloat.pack .binary64 (Binary32.roundTo .binary64 x.toModel.unpack))).isNaN = false
  rcases unpack_pack_hasSign .binary64 (by decide) hc hr with h | h <;> rw [h]
  · exact isNaN_of_hasSign hr
  · rfl

theorem narrow_positiveSign {z : Float} (hz : PositiveSign z.toModel.unpack) :
    PositiveSign (Binary32.narrow z).toModel.unpack := by
  obtain ⟨hs, hc⟩ := roundTo_positiveSign .binary32 hz
  exact positiveSign_unpack_pack .binary32 (by decide) hc hs

theorem hypot32_positiveSign {x y : Float32} (hxn : x.isNaN = false) (hyn : y.isNaN = false) :
    PositiveSign (Binary32.hypot x y).toModel.unpack := by
  unfold Binary32.hypot
  dsimp only
  by_cases hinf : (x.isInf || y.isInf) = true
  · rw [if_pos hinf]
    exact .inr rfl
  rw [if_neg hinf, hxn, hyn, if_neg (by decide)]
  simp only [Bool.or_eq_true, not_or, Bool.not_eq_true] at hinf
  exact narrow_positiveSign (positiveSign_sqrt64 (positiveSign_add64
    (positiveSign_mul_self64 (widen_isNaN hxn hinf.1))
    (positiveSign_mul_self64 (widen_isNaN hyn hinf.2))))

theorem add32_isNaN {x y : Float32} (h : x.isNaN = true ∨ y.isNaN = true) :
    (x + y).isNaN = true := by
  have hu : ∀ z : Float32, z.isNaN = true → z.toModel.unpack = .notANumber := fun z hz => by
    change z.toModel.unpack.isNaN = true at hz
    cases hz' : z.toModel.unpack <;> rw [hz'] at hz <;> first | rfl | cases hz
  have hadd : UnpackedFloat.add .binary32 x.toModel.unpack y.toModel.unpack = .notANumber := by
    rcases h with h | h <;> rw [hu _ h]
    · cases y.toModel.unpack <;> rfl
    · cases x.toModel.unpack <;> rfl
  change (UnpackedFloat.unpack .binary32 (UnpackedFloat.pack .binary32
    (UnpackedFloat.add .binary32 x.toModel.unpack y.toModel.unpack))).isNaN = true
  rw [hadd]
  rfl

theorem hypot32_positiveSign_or_isNaN (x y : Float32) :
    PositiveSign (Binary32.hypot x y).toModel.unpack ∨ (Binary32.hypot x y).isNaN = true := by
  by_cases hn : x.isNaN = false ∧ y.isNaN = false
  · exact .inl (hypot32_positiveSign hn.1 hn.2)
  have hn' : x.isNaN = true ∨ y.isNaN = true := by simpa only [not_and_or, Bool.not_eq_false] using hn
  unfold Binary32.hypot
  by_cases hinf : (x.isInf || y.isInf) = true
  · rw [if_pos hinf]
    exact .inl (.inr rfl)
  · rw [if_neg hinf, if_pos (by rw [Bool.or_eq_true]; exact hn')]
    exact .inr (add32_isNaN hn')

end Binary32

section Laws

theorem nonNeg_of_positiveSign {ρ : Type} [RealFloat ρ] (unp : ρ → UnpackedFloat)
    (hlt : ∀ x y, RealFloat.lt x y = decide ((unp x).compare (unp y) = some .lt))
    (hinj : ∀ x y, unp x = unp y → (unp x).isNaN = false → x = y)
    (hzero : unp RealFloat.zero = .zero .positive) {x : ρ} (h : PositiveSign (unp x)) :
    NonNeg x := by
  rcases h with h | h
  · cases hx : unp x with
    | zero s =>
        rw [hx] at h
        change s = .positive at h
        exact .inl (hinj _ _ (by rw [hx, hzero, h]) (by rw [hx]; rfl))
    | finite s m e hm =>
        rw [hx] at h
        change s = .positive at h
        subst h
        exact .inr (.inl (by rw [hlt, hzero, hx]; rfl))
    | _ => rw [hx] at h; exact h.elim
  · exact .inr (.inl (by rw [hlt, hzero, h]; rfl))

theorem modulusLaws_complex {ρ : Type} [RealFloat ρ] [IeeeOrder ρ] (unp : ρ → UnpackedFloat)
    (hlt : ∀ x y, RealFloat.lt x y = decide ((unp x).compare (unp y) = some .lt))
    (hnan : ∀ x, RealFloat.isNaN x = (unp x).isNaN)
    (hinj : ∀ x y, unp x = unp y → (unp x).isNaN = false → x = y)
    (hzero : unp RealFloat.zero = .zero .positive)
    (hpos : ∀ x y : ρ, RealFloat.isNaN x = false → RealFloat.isNaN y = false →
      PositiveSign (unp (RealFloat.hypot x y)))
    (hcases : ∀ x y : ρ,
      PositiveSign (unp (RealFloat.hypot x y)) ∨ RealFloat.isNaN (RealFloat.hypot x y) = true) :
    ModulusLaws (Complex ρ) ρ where
  nonNeg v := by
    show NonNeg (RealFloat.hypot v.re v.im)
    rcases hcases v.re v.im with h | h
    · exact nonNeg_of_positiveSign unp hlt hinj hzero h
    · exact .inr (.inr h)
  not_nan {v} hv := by
    have hv' : (RealFloat.eq v.re v.re && RealFloat.eq v.im v.im) = true := hv
    obtain ⟨h₁, h₂⟩ := Bool.and_eq_true_iff.mp hv'
    show RealFloat.isNaN (RealFloat.hypot v.re v.im) = false
    rw [hnan]
    exact (hpos _ _ (IeeeOrder.eq_iff.mp h₁).1 (IeeeOrder.eq_iff.mp h₂).1).isNaN

instance : ModulusLaws (Complex Float) Float :=
  modulusLaws_complex (fun x => x.toModel.unpack) lt_float (fun _ => rfl)
    (fun _ _ h hx => float_eq_of_unpack_eq h fun hn => by rw [hn] at hx; cases hx) rfl
    (fun _ _ => hypot_positiveSign) hypot_positiveSign_or_isNaN

instance : ModulusLaws (Complex Float32) Float32 :=
  modulusLaws_complex (fun x => x.toModel.unpack) lt_float32 (fun _ => rfl)
    (fun _ _ h hx => float32_eq_of_unpack_eq h fun hn => by rw [hn] at hx; cases hx) rfl
    (fun _ _ => hypot32_positiveSign) hypot32_positiveSign_or_isNaN

end Laws

end DualArrays.Proofs.ComplexModulus
