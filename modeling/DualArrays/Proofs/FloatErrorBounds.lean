import DualArrays.Proofs.UnpackedArithmetic
import DualArrays.Proofs.FloatArithmetic

namespace DualArrays.Proofs.FloatErrorBounds

open Float.Model Float.Model.UnpackedFloat
open DualArrays.Proofs.FloatRounding DualArrays.Proofs.UnpackedArithmetic
open DualArrays.Proofs.FloatArithmetic

/-- The real value of a float; zero for infinities and NaN. -/
noncomputable def toReal (x : Float) : ℝ := value x.toModel.unpack

def Finite (x : Float) : Prop := x.toModel.unpack.isFinite = true

theorem maxFinite_binary64 : maxFinite .binary64 = (2 ^ 53 - 1) * 2 ^ 971 := by
  rw [maxFinite, show ((2 ^ (Format.binary64.exponentBits - 1) : ℤ) - Format.binary64.mantissaBits)
    = ((971 : ℕ) : ℤ) by decide, zpow_natCast]
  rfl

theorem maxFinite_le : maxFinite .binary64 ≤ 2 ^ 1024 := by
  rw [maxFinite_binary64, show (2 : ℝ) ^ 1024 = 2 ^ 53 * 2 ^ 971 by rw [← pow_add]]
  gcongr
  linarith

theorem two_pow_le_maxFinite : (2 : ℝ) ^ 511 ≤ maxFinite .binary64 := by
  rw [maxFinite_binary64]
  calc (2 : ℝ) ^ 511 ≤ 2 ^ 971 := pow_le_pow_right₀ one_le_two (by norm_num)
    _ ≤ (2 ^ 53 - 1) * 2 ^ 971 := le_mul_of_one_le_left (by positivity) (by norm_num)

theorem canonical_float (x : Float) : Canonical .binary64 x.toModel.unpack :=
  (canonical_unpack _ (by decide) _).1

theorem abs_toReal_le (x : Float) : |toReal x| ≤ maxFinite .binary64 := by
  rw [toReal, abs_value]
  exact (canonical_unpack _ (by decide) _).2

theorem rounded_error {X : ℝ} {r : UnpackedFloat} (hr : Rounded .binary64 X r) :
    |value r - X| ≤ |X| / 2 ^ 53 + 2 ^ (-1075 : ℤ) := by
  have h := hr.error
  rwa [show Format.binary64.minExponent - 1 = -1075 by decide] at h

theorem unpack_pack_rounded {X : ℝ} {r : UnpackedFloat} (hr : Rounded .binary64 X r)
    (hX : |X| ≤ maxFinite .binary64) : (Float.Model.pack r).unpack = r := by
  refine unpack_pack_of_canonical _ (by decide) hr.canonical hr.isFinite ?_
  have herr := rounded_error hr
  have hdiff := abs_sub_abs_le_abs_sub (value r) X
  rw [maxFinite_binary64] at hX
  rw [← abs_value]
  have hη : (2 : ℝ) ^ (-1075 : ℤ) ≤ 1 := zpow_le_one_of_nonpos₀ one_le_two (by norm_num)
  have hK : (2 : ℝ) ^ 54 ≤ 2 ^ 971 := pow_le_pow_right₀ one_le_two (by norm_num)
  have htop : (2 : ℝ) ^ (2 ^ (Format.binary64.exponentBits - 1) : ℤ) = 2 ^ 53 * 2 ^ 971 := by
    rw [← pow_add]
    norm_num
  rw [htop]
  generalize (2 : ℝ) ^ 971 = K at hX hK ⊢
  generalize (2 : ℝ) ^ (-1075 : ℤ) = η at herr hη
  norm_num at hX hK herr ⊢
  linarith

section Operations

variable {x y : Float}

theorem add_rounded64 (hx : Finite x) (hy : Finite y) (h : |toReal x + toReal y| ≤ maxFinite .binary64) :
    Rounded .binary64 (toReal x + toReal y) (x + y).toModel.unpack := by
  have hr := add_rounded .binary64 (canonical_float x) (canonical_float y) hx hy
  rw [unpack_add, unpack_pack_rounded hr h]
  exact hr

theorem sub_rounded64 (hx : Finite x) (hy : Finite y) (h : |toReal x - toReal y| ≤ maxFinite .binary64) :
    Rounded .binary64 (toReal x - toReal y) (x - y).toModel.unpack := by
  have hr := sub_rounded .binary64 (canonical_float x) (canonical_float y) hx hy
  rw [unpack_sub, unpack_pack_rounded hr h]
  exact hr

theorem mul_rounded64 (hx : Finite x) (hy : Finite y) (h : |toReal x * toReal y| ≤ maxFinite .binary64) :
    Rounded .binary64 (toReal x * toReal y) (x * y).toModel.unpack := by
  have hr := mul_rounded .binary64 (canonical_float x) (canonical_float y) hx hy
  rw [unpack_mul, unpack_pack_rounded hr h]
  exact hr

theorem div_rounded64 (hx : Finite x) (hy : Finite y) (hy0 : toReal y ≠ 0)
    (h : |toReal x / toReal y| ≤ maxFinite .binary64) :
    Rounded .binary64 (toReal x / toReal y) (x / y).toModel.unpack := by
  have hr := div_rounded .binary64 (canonical_float x) hx hy hy0
  rw [unpack_div, unpack_pack_rounded hr h]
  exact hr

theorem sqrt_rounded64 (hx : Finite x) (h0 : 0 ≤ toReal x) :
    Rounded .binary64 (Real.sqrt (toReal x)) (Float.sqrt x).toModel.unpack := by
  have hr := sqrt_rounded .binary64 hx h0
  have hle : |Real.sqrt (toReal x)| ≤ maxFinite .binary64 := by
    rw [abs_of_nonneg (Real.sqrt_nonneg _)]
    have hmax := abs_toReal_le x
    rw [abs_of_nonneg h0] at hmax
    rcases le_total (toReal x) 1 with h1 | h1
    · calc Real.sqrt (toReal x) ≤ 1 := Real.sqrt_le_one.mpr h1
        _ ≤ maxFinite .binary64 := by
            rw [maxFinite_binary64]
            exact one_le_mul_of_one_le_of_one_le (by norm_num) (one_le_pow₀ one_le_two)
    · calc Real.sqrt (toReal x) ≤ Real.sqrt (toReal x ^ 2) := Real.sqrt_le_sqrt (by nlinarith)
        _ = toReal x := Real.sqrt_sq h0
        _ ≤ maxFinite .binary64 := hmax
  have hsq : (Float.sqrt x).toModel.unpack =
      (Float.Model.pack (UnpackedFloat.sqrt .binary64 x.toModel.unpack)).unpack := rfl
  rw [hsq, unpack_pack_rounded hr hle]
  exact hr

end Operations

section Values

variable {x y : Float}

theorem finite_of_not_inf_not_nan (hi : x.isInf = false) (hn : x.isNaN = false) : Finite x := by
  rw [isInf_eq] at hi
  rw [isNaN_eq] at hn
  unfold Finite
  cases h : x.toModel.unpack <;> simp_all [UnpackedFloat.isInf, UnpackedFloat.isNaN, UnpackedFloat.isFinite]

theorem toReal_of_unpack {s : Sign} {m : ℕ} {e : ℤ} {hm : 0 < m}
    (h : x.toModel.unpack = .finite s m e hm) : Finite x ∧ toReal x = signed s (m * 2 ^ e) := by
  unfold Finite toReal
  rw [h]
  exact ⟨rfl, rfl⟩

theorem power_of_two_of_unpack {e : ℤ}
    (h : x.toModel.unpack = .finite .positive (2 ^ 52) e (Nat.two_pow_pos 52)) :
    Finite x ∧ toReal x = 2 ^ (e + 52) ∧ HasSign .positive x.toModel.unpack := by
  obtain ⟨hf, hv⟩ := toReal_of_unpack h
  refine ⟨hf, ?_, by rw [h]; rfl⟩
  rw [hv, signed_positive, zpow_add₀ two_ne_zero]
  push_cast
  ring

theorem value_abs (u : UnpackedFloat) : value u.abs = |value u| := by
  cases u with
  | finite s m e hm =>
      have hpos : (0 : ℝ) < m * 2 ^ e := by positivity
      cases s <;> simp [UnpackedFloat.abs, value, abs_of_pos hpos]
  | _ => simp [UnpackedFloat.abs, value]

theorem abs_finite (hx : Finite x) : Finite x.abs ∧ toReal x.abs = |toReal x| ∧
    HasSign .positive x.abs.toModel.unpack := by
  unfold Finite at hx ⊢
  unfold toReal
  rw [unpack_abs, value_abs]
  refine ⟨?_, rfl, ?_⟩ <;> cases h : x.toModel.unpack <;> simp_all [UnpackedFloat.abs, HasSign,
    UnpackedFloat.isFinite]

theorem toReal_nonneg_of_hasSign (h : HasSign .positive x.toModel.unpack) : 0 ≤ toReal x := by
  rw [toReal, value_eq_signed_mag h, signed_positive, ← abs_value]
  exact abs_nonneg _

theorem lt_iff_toReal (hx : Finite x) (hy : Finite y) : x < y ↔ toReal x < toReal y := by
  have h := compare_eq_some_compare (canonical_float x) (canonical_float y) hx hy
  have hlt : (x < y) ↔ RealFloat.lt x y = true := (decide_eq_true_iff).symm
  rw [hlt, FloatOrder.lt_float, decide_eq_true_iff, h, Option.some.injEq, compare_lt_iff_lt]
  rfl

theorem le_iff_toReal (hx : Finite x) (hy : Finite y) : x ≤ y ↔ toReal x ≤ toReal y := by
  have h := compare_eq_some_compare (canonical_float x) (canonical_float y) hx hy
  have hle : (x ≤ y) ↔ RealFloat.le x y = true := (decide_eq_true_iff).symm
  rw [hle, ZeroAdd.le_float, UnpackedFloat.le, h]
  change (compare (toReal x) (toReal y)).isLE = true ↔ _
  rcases lt_trichotomy (toReal x) (toReal y) with hxy | hxy | hxy
  · simp [compare_lt_iff_lt.mpr hxy, hxy.le]
  · simp [hxy]
  · simp [compare_gt_iff_gt.mpr hxy, not_le.mpr hxy]

theorem two_pow_le_abs_value {u : UnpackedFloat} (hc : Canonical .binary64 u) (h : value u ≠ 0) :
    2 ^ (-1074 : ℤ) ≤ |value u| := by
  cases u with
  | finite s m e hm =>
      rw [abs_value, mag]
      have he : (-1074 : ℤ) ≤ e := hc.2.1
      calc (2 : ℝ) ^ (-1074 : ℤ) ≤ 2 ^ e := zpow_le_zpow_right₀ one_le_two he
        _ ≤ m * 2 ^ e := le_mul_of_one_le_left (by positivity) (by exact_mod_cast hm)
  | _ => exact absurd rfl h

theorem value_eq_zero_of_rounded {r : UnpackedFloat} (hr : Rounded .binary64 0 r) : value r = 0 := by
  by_contra h
  have h₁ := two_pow_le_abs_value hr.canonical h
  have h₂ := rounded_error hr
  rw [sub_zero, abs_zero, zero_div, zero_add] at h₂
  have h₃ : (2 : ℝ) ^ (-1075 : ℤ) < 2 ^ (-1074 : ℤ) := zpow_lt_zpow_right₀ one_lt_two (by norm_num)
  linarith

theorem value_nonneg_of_rounded {X : ℝ} {r : UnpackedFloat} (hr : Rounded .binary64 X r) (hX : 0 ≤ X) :
    0 ≤ value r := by
  rcases hX.lt_or_eq with hX | rfl
  · rw [value_eq_signed_mag (hr.pos hX), signed_positive, ← abs_value]
    exact abs_nonneg _
  · exact (value_eq_zero_of_rounded hr).ge

end Values

/-- A finite float within `e` of the real `x`. -/
structure Near (y : Float) (x e : ℝ) : Prop where
  finite : Finite y
  error : |toReal y - x| ≤ e

section Near

variable {y y₁ y₂ : Float} {x x₁ x₂ e e₁ e₂ b b₁ b₂ : ℝ}

theorem Near.mono (h : Near y x e) (he : e ≤ e₁) : Near y x e₁ := ⟨h.finite, h.error.trans he⟩

theorem near_exact (hy : Finite y) (hx : toReal y = x) : Near y x 0 :=
  ⟨hy, by rw [hx, sub_self, abs_zero]⟩

theorem Near.abs_le (h : Near y x e) : |toReal y| ≤ |x| + e := by
  have := abs_sub_abs_le_abs_sub (toReal y) x
  linarith [h.error]

theorem Near.recenter (h : Near y x e) {x' e' : ℝ} (hx : |x - x'| ≤ e') : Near y x' (e + e') :=
  ⟨h.finite, (abs_sub_le _ x _).trans (add_le_add h.error hx)⟩

theorem Near.of_rounded {X : ℝ} (hr : Rounded .binary64 X y.toModel.unpack) :
    Near y X (|X| / 2 ^ 53 + 2 ^ (-1075 : ℤ)) :=
  ⟨hr.isFinite, rounded_error hr⟩

theorem Near.step {z : Float} {X : ℝ} (hr : Rounded .binary64 X z.toModel.unpack) {x' e' : ℝ}
    (hX : |X - x'| ≤ e') (hb : |X| ≤ b) : Near z x' (e' + b / 2 ^ 53 + 2 ^ (-1075 : ℤ)) := by
  refine ⟨hr.isFinite, ?_⟩
  have herr := rounded_error hr
  have hdiv : |X| / 2 ^ 53 ≤ b / 2 ^ 53 := by gcongr
  calc |toReal z - x'| ≤ |toReal z - X| + |X - x'| := abs_sub_le _ _ _
    _ ≤ e' + b / 2 ^ 53 + 2 ^ (-1075 : ℤ) := by unfold toReal; linarith

theorem Near.add (h₁ : Near y₁ x₁ e₁) (h₂ : Near y₂ x₂ e₂) (hb : |x₁ + x₂| + e₁ + e₂ ≤ b)
    (hfit : b ≤ maxFinite .binary64) :
    Near (y₁ + y₂) (x₁ + x₂) (e₁ + e₂ + b / 2 ^ 53 + 2 ^ (-1075 : ℤ)) := by
  have hX : |toReal y₁ + toReal y₂ - (x₁ + x₂)| ≤ e₁ + e₂ := by
    rw [show toReal y₁ + toReal y₂ - (x₁ + x₂) = (toReal y₁ - x₁) + (toReal y₂ - x₂) by ring]
    exact (abs_add_le _ _).trans (add_le_add h₁.error h₂.error)
  have hb' : |toReal y₁ + toReal y₂| ≤ b := by
    have := abs_sub_abs_le_abs_sub (toReal y₁ + toReal y₂) (x₁ + x₂)
    linarith
  exact Near.step (add_rounded64 h₁.finite h₂.finite (hb'.trans hfit)) hX hb'

theorem Near.sub (h₁ : Near y₁ x₁ e₁) (h₂ : Near y₂ x₂ e₂) (hb : |x₁ - x₂| + e₁ + e₂ ≤ b)
    (hfit : b ≤ maxFinite .binary64) :
    Near (y₁ - y₂) (x₁ - x₂) (e₁ + e₂ + b / 2 ^ 53 + 2 ^ (-1075 : ℤ)) := by
  have hX : |toReal y₁ - toReal y₂ - (x₁ - x₂)| ≤ e₁ + e₂ := by
    rw [show toReal y₁ - toReal y₂ - (x₁ - x₂) = (toReal y₁ - x₁) - (toReal y₂ - x₂) by ring]
    exact (abs_sub _ _).trans (add_le_add h₁.error h₂.error)
  have hb' : |toReal y₁ - toReal y₂| ≤ b := by
    have := abs_sub_abs_le_abs_sub (toReal y₁ - toReal y₂) (x₁ - x₂)
    linarith
  exact Near.step (sub_rounded64 h₁.finite h₂.finite (hb'.trans hfit)) hX hb'

theorem Near.mul (h₁ : Near y₁ x₁ e₁) (h₂ : Near y₂ x₂ e₂) (hb₁ : |x₁| + e₁ ≤ b₁)
    (hb₂ : |x₂| + e₂ ≤ b₂) (hfit : b₁ * b₂ ≤ maxFinite .binary64) :
    Near (y₁ * y₂) (x₁ * x₂) (e₁ * b₂ + b₁ * e₂ + b₁ * b₂ / 2 ^ 53 + 2 ^ (-1075 : ℤ)) := by
  have hy₁ : |toReal y₁| ≤ b₁ := h₁.abs_le.trans hb₁
  have hy₂ : |toReal y₂| ≤ b₂ := h₂.abs_le.trans hb₂
  have he₁ := h₁.error
  have he₂ := h₂.error
  have hx₁ : |x₁| ≤ b₁ := by linarith [abs_nonneg (toReal y₁ - x₁)]
  have hX : |toReal y₁ * toReal y₂ - x₁ * x₂| ≤ e₁ * b₂ + b₁ * e₂ := by
    rw [show toReal y₁ * toReal y₂ - x₁ * x₂ = (toReal y₁ - x₁) * toReal y₂ + x₁ * (toReal y₂ - x₂)
      by ring]
    refine (abs_add_le _ _).trans (add_le_add ?_ ?_) <;> rw [abs_mul]
    · exact mul_le_mul he₁ hy₂ (abs_nonneg _) ((abs_nonneg _).trans he₁)
    · exact mul_le_mul hx₁ he₂ (abs_nonneg _) ((abs_nonneg _).trans hx₁)
  have hb' : |toReal y₁ * toReal y₂| ≤ b₁ * b₂ := by
    rw [abs_mul]
    exact mul_le_mul hy₁ hy₂ (abs_nonneg _) ((abs_nonneg _).trans hy₁)
  exact Near.step (mul_rounded64 h₁.finite h₂.finite (hb'.trans hfit)) hX hb'

theorem Near.const_mul (h : Near y x e) {c : Float} {k : ℝ} (hc : Near c k 0) (hk : 0 ≤ k)
    (hb : |x| + e ≤ b) (hfit : k * b ≤ maxFinite .binary64) :
    Near (c * y) (k * x) (k * e + k * b / 2 ^ 53 + 2 ^ (-1075 : ℤ)) :=
  (Near.mul hc h (by rw [abs_of_nonneg hk, add_zero]) hb hfit).mono
    (by rw [zero_mul, zero_add])

theorem abs_sqrt_sub_sqrt_le {a c : ℝ} (ha : 0 ≤ a) (hc : 0 < c) :
    |Real.sqrt a - Real.sqrt c| ≤ |a - c| / Real.sqrt c := by
  have hsc : 0 < Real.sqrt c := Real.sqrt_pos.mpr hc
  have hsum : 0 < Real.sqrt a + Real.sqrt c := by positivity
  have hdiff : Real.sqrt a - Real.sqrt c = (a - c) / (Real.sqrt a + Real.sqrt c) := by
    rw [eq_div_iff hsum.ne']
    ring_nf
    rw [Real.sq_sqrt ha, Real.sq_sqrt hc.le]
  rw [hdiff, abs_div, abs_of_pos hsum]
  exact div_le_div_of_nonneg_left (abs_nonneg _) hsc (by linarith [Real.sqrt_nonneg a])

theorem Near.sqrt (h : Near y x e) (hx : 0 < x) (he : e ≤ x) (hy0 : 0 ≤ toReal y) :
    Near (Float.sqrt y) (Real.sqrt x)
      (e / Real.sqrt x + 2 * Real.sqrt x / 2 ^ 53 + 2 ^ (-1075 : ℤ)) := by
  have hX : |Real.sqrt (toReal y) - Real.sqrt x| ≤ e / Real.sqrt x :=
    (abs_sqrt_sub_sqrt_le hy0 hx).trans (by gcongr; exact h.error)
  have hb : |Real.sqrt (toReal y)| ≤ 2 * Real.sqrt x := by
    have hy : toReal y ≤ 4 * x := by linarith [le_abs_self (toReal y - x), h.error]
    rw [abs_of_nonneg (Real.sqrt_nonneg _)]
    calc Real.sqrt (toReal y) ≤ Real.sqrt (2 ^ 2 * x) := Real.sqrt_le_sqrt (by linarith)
      _ = 2 * Real.sqrt x := by rw [Real.sqrt_mul (by norm_num), Real.sqrt_sq (by norm_num)]
  exact Near.step (sqrt_rounded64 h.finite hy0) hX hb

end Near

end DualArrays.Proofs.FloatErrorBounds
