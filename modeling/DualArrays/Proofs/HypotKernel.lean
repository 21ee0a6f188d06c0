import DualArrays.Proofs.FloatErrorBounds

/-!
# The correction step of the binary64 norm

`Binary64.hypotKernel a b`, for `0 ≤ b ≤ a` (up to a relative `2 ^ -40`) with `a` between
`2 ^ -480` and `2 ^ 511`, is a positive finite double. The first root is within `2 ^ -49 a`
of `√(a² + b²)`; the residual either branch forms is within `2 ^ -44 a²` of zero, because it
differs only by rounding from `(δ + b)² - a² - b²` (or `(δ + a)² - a² - b²`) with `δ` the root
less `b` (or `a`); so the correction it makes is far too small to reach zero.
-/

namespace DualArrays.Proofs.HypotKernel

open Float.Model
open DualArrays.Proofs.FloatRounding DualArrays.Proofs.UnpackedArithmetic
open DualArrays.Proofs.FloatErrorBounds

theorem near_two : Near (2.0 : Float) 2 0 := by
  obtain ⟨hf, hv, -⟩ := power_of_two_of_unpack (x := 2.0) (e := -51) rfl
  exact near_exact hf (by rw [hv]; norm_num)

theorem near_four : Near (4.0 : Float) 4 0 := by
  obtain ⟨hf, hv, -⟩ := power_of_two_of_unpack (x := 4.0) (e := -50) rfl
  exact near_exact hf (by rw [hv]; norm_num)

theorem abs_sq_sub_sq_le {x y e c : ℝ} (h₁ : |x - y| ≤ e) (h₂ : |x + y| ≤ c) :
    |x ^ 2 - y ^ 2| ≤ c * e := by
  rw [sq_sub_sq, abs_mul]
  exact mul_le_mul h₂ h₁ (abs_nonneg _) ((abs_nonneg _).trans h₂)

/-- The range in which the kernel is called: both operands finite, the second between zero and
the first (up to a relative `2 ^ -40`, what scaling both by one power of two can leave), and the
first far enough from the ends of the format that no square overflows or underflows. -/
structure KernelInputs (a b : Float) : Prop where
  finite_a : Finite a
  finite_b : Finite b
  nonneg_b : 0 ≤ toReal b
  le_a : toReal b ≤ toReal a + toReal a / 2 ^ 40
  lower : 2 ^ (-480 : ℤ) ≤ toReal a
  upper : toReal a ≤ 2 ^ 511

namespace KernelInputs

variable {a b : Float} (hk : KernelInputs a b)
include hk

theorem pos : 0 < toReal a := (zpow_pos two_pos _).trans_le hk.lower

theorem eta_le : (2 : ℝ) ^ (-1075 : ℤ) ≤ toReal a / 2 ^ 100 := by
  rw [le_div_iff₀ (by positivity)]
  calc (2 : ℝ) ^ (-1075 : ℤ) * 2 ^ 100 = 2 ^ (-975 : ℤ) := by
        rw [← zpow_natCast, ← zpow_add₀ two_ne_zero]; norm_num
    _ ≤ 2 ^ (-480 : ℤ) := zpow_le_zpow_right₀ one_le_two (by norm_num)
    _ ≤ toReal a := hk.lower

theorem eta_le_sq : (2 : ℝ) ^ (-1075 : ℤ) ≤ toReal a ^ 2 / 2 ^ 100 := by
  rw [le_div_iff₀ (by positivity)]
  calc (2 : ℝ) ^ (-1075 : ℤ) * 2 ^ 100 = 2 ^ (-975 : ℤ) := by
        rw [← zpow_natCast, ← zpow_add₀ two_ne_zero]; norm_num
    _ ≤ (2 ^ (-480 : ℤ)) ^ 2 := by
        rw [← zpow_natCast, ← zpow_mul]
        exact zpow_le_zpow_right₀ one_le_two (by norm_num)
    _ ≤ toReal a ^ 2 := pow_le_pow_left₀ (zpow_nonneg zero_le_two _) hk.lower 2

theorem linear_fits : 4 * toReal a ≤ maxFinite .binary64 := by
  have hA : toReal a ≤ 2 ^ 971 :=
    hk.upper.trans (pow_le_pow_right₀ one_le_two (by norm_num))
  have hK : (0 : ℝ) ≤ 2 ^ 971 := by positivity
  rw [maxFinite_binary64]
  generalize (2 : ℝ) ^ 971 = K at hA hK ⊢
  norm_num
  linarith

theorem square_fits : 3 * toReal a ^ 2 ≤ maxFinite .binary64 := by
  have hA : toReal a ^ 2 ≤ 2 ^ 51 * 2 ^ 971 :=
    calc toReal a ^ 2 ≤ (2 ^ 511) ^ 2 := pow_le_pow_left₀ hk.pos.le hk.upper 2
      _ = 2 ^ 51 * 2 ^ 971 := by rw [← pow_mul, ← pow_add]
  have hK : (0 : ℝ) ≤ 2 ^ 971 := by positivity
  rw [maxFinite_binary64]
  generalize (2 : ℝ) ^ 971 = K at hA hK ⊢
  norm_num at hA ⊢
  linarith

theorem sq_b_le : toReal b ^ 2 ≤ toReal a ^ 2 + toReal a ^ 2 / 2 ^ 38 :=
  calc toReal b ^ 2 = toReal b * toReal b := sq _
    _ ≤ (toReal a + toReal a / 2 ^ 40) * (toReal a + toReal a / 2 ^ 40) :=
        mul_le_mul hk.le_a hk.le_a hk.nonneg_b (by linarith [hk.nonneg_b, hk.le_a])
    _ ≤ toReal a ^ 2 + toReal a ^ 2 / 2 ^ 38 := by ring_nf; linarith [sq_nonneg (toReal a)]

theorem root_bounds :
    let H := Real.sqrt (toReal a * toReal a + toReal b * toReal b)
    H ^ 2 = toReal a * toReal a + toReal b * toReal b ∧ toReal a ≤ H ∧ toReal b ≤ H ∧
      H ≤ toReal a + toReal b ∧ H ≤ 3 * toReal a / 2 := by
  intro H
  have hA := hk.pos
  have hB := hk.nonneg_b
  have hsq : H ^ 2 = toReal a * toReal a + toReal b * toReal b := Real.sq_sqrt (by positivity)
  refine ⟨hsq, ?_, ?_, ?_, ?_⟩
  · exact Real.le_sqrt_of_sq_le (by nlinarith)
  · exact Real.le_sqrt_of_sq_le (by nlinarith)
  · exact Real.sqrt_le_iff.mpr ⟨by positivity, by nlinarith⟩
  · refine Real.sqrt_le_iff.mpr ⟨by positivity, ?_⟩
    have := hk.sq_b_le
    nlinarith

theorem root_near : Near (Float.sqrt (a * a + b * b))
    (Real.sqrt (toReal a * toReal a + toReal b * toReal b)) (toReal a / 2 ^ 49) := by
  obtain ⟨-, hAH, -, -, hH⟩ := hk.root_bounds
  have hA := hk.pos
  have hA2 : 0 ≤ toReal a ^ 2 := sq_nonneg _
  have hB := hk.nonneg_b
  have hBB := hk.sq_b_le
  have hη := hk.eta_le_sq
  have hfit := hk.square_fits
  have ha : |toReal a| + 0 ≤ toReal a := by rw [abs_of_pos hA]; linarith
  have hb : |toReal b| + 0 ≤ toReal a + toReal a / 2 ^ 40 := by
    rw [abs_of_nonneg hB]; linarith [hk.le_a]
  have hP₁ : Near (a * a) (toReal a * toReal a) (toReal a ^ 2 / 2 ^ 52) :=
    (Near.mul (near_exact hk.finite_a rfl) (near_exact hk.finite_a rfl) ha ha
      (by ring_nf; linarith)).mono (by ring_nf; linarith)
  have hP₂ : Near (b * b) (toReal b * toReal b) (toReal a ^ 2 / 2 ^ 52) :=
    (Near.mul (near_exact hk.finite_b rfl) (near_exact hk.finite_b rfl) hb hb
      (by ring_nf; linarith)).mono (by ring_nf; linarith)
  have hS : Near (a * a + b * b) (toReal a * toReal a + toReal b * toReal b)
      (toReal a ^ 2 / 2 ^ 50) :=
    (Near.add hP₁ hP₂ (by rw [abs_of_nonneg (by positivity)]; ring_nf; linarith) hfit).mono
      (by linarith)
  have hS0 : 0 ≤ toReal (a * a + b * b) := by
    have := (abs_le.mp hS.error).1
    nlinarith
  refine (hS.sqrt (by positivity) (by nlinarith) hS0).mono ?_
  have h₁ : toReal a ^ 2 / 2 ^ 50 / Real.sqrt (toReal a * toReal a + toReal b * toReal b) ≤
      toReal a / 2 ^ 50 := by
    rw [div_le_iff₀ (hA.trans_le hAH)]
    calc toReal a ^ 2 / 2 ^ 50 = toReal a / 2 ^ 50 * toReal a := by ring
      _ ≤ _ := mul_le_mul_of_nonneg_left hAH (by positivity)
  linarith [hk.eta_le]

theorem sq_near_root {t : ℝ}
    (ht : |t - Real.sqrt (toReal a * toReal a + toReal b * toReal b)| ≤ toReal a / 2 ^ 48) :
    |t ^ 2 - (toReal a * toReal a + toReal b * toReal b)| ≤ toReal a ^ 2 / 2 ^ 46 := by
  obtain ⟨hsq, hAH, -, -, hH⟩ := hk.root_bounds
  have hA := hk.pos
  obtain ⟨ht₁, ht₂⟩ := abs_le.mp ht
  have hsum : |t + Real.sqrt (toReal a * toReal a + toReal b * toReal b)| ≤ 4 * toReal a :=
    abs_le.mpr ⟨by linarith, by linarith⟩
  calc _ = |t ^ 2 - Real.sqrt (toReal a * toReal a + toReal b * toReal b) ^ 2| := by rw [hsq]
    _ ≤ 4 * toReal a * (toReal a / 2 ^ 48) := abs_sq_sub_sq_le ht hsum
    _ = toReal a ^ 2 / 2 ^ 46 := by ring

theorem productTerm_of_le {d : Float} (hd : Finite d) (hlo : -(toReal a / 2 ^ 48) ≤ toReal d)
    (hhi : toReal d ≤ toReal a + toReal a / 2 ^ 48) :
    Near (a * (2.0 * d - a)) (toReal a * (2 * toReal d - toReal a)) (toReal a ^ 2 / 2 ^ 48) := by
  have hA := hk.pos
  have hA2 : 0 ≤ toReal a ^ 2 := sq_nonneg _
  have hη := hk.eta_le
  have hη2 := hk.eta_le_sq
  have hlin := hk.linear_fits
  have hfit := hk.square_fits
  have ha₀ : Near a (toReal a) 0 := near_exact hk.finite_a rfl
  have hd₀ : Near d (toReal d) 0 := near_exact hd rfl
  set A := toReal a
  have hAabs : |A| = A := abs_of_pos hA
  have hdA : |toReal d| ≤ A + A / 2 ^ 48 := abs_le.mpr ⟨by linarith, by linarith⟩
  have hD : Near (2.0 * d) (2 * toReal d) (A / 2 ^ 50) :=
    (hd₀.const_mul near_two zero_le_two (by linarith : _ ≤ 2 * A) (by linarith)).mono (by linarith)
  have hdA' : |2 * toReal d - A| ≤ A + A / 2 ^ 46 := abs_le.mpr ⟨by linarith, by linarith⟩
  have hE : Near (2.0 * d - a) (2 * toReal d - A) (A / 2 ^ 49) :=
    (Near.sub hD ha₀ (by linarith : _ ≤ 2 * A) (by linarith)).mono (by linarith)
  exact (Near.mul ha₀ hE (by linarith : _ ≤ A) (by linarith : _ ≤ 2 * A)
    (by ring_nf; linarith)).mono (by ring_nf; linarith)

theorem shiftTerm_of_le {d : Float} (hd : Finite d) (hlo : -(toReal a / 2 ^ 48) ≤ toReal d)
    (hhi : toReal d ≤ toReal a + toReal a / 2 ^ 48) :
    Near ((d - 2.0 * (a - b)) * d) ((toReal d - 2 * (toReal a - toReal b)) * toReal d)
      (toReal a ^ 2 / 2 ^ 47) := by
  have hA := hk.pos
  have hA2 : 0 ≤ toReal a ^ 2 := sq_nonneg _
  have hB := hk.nonneg_b
  have hBA := hk.le_a
  have hη := hk.eta_le
  have hη2 := hk.eta_le_sq
  have hlin := hk.linear_fits
  have hfit := hk.square_fits
  have ha₀ : Near a (toReal a) 0 := near_exact hk.finite_a rfl
  have hb₀ : Near b (toReal b) 0 := near_exact hk.finite_b rfl
  have hd₀ : Near d (toReal d) 0 := near_exact hd rfl
  set A := toReal a
  set B := toReal b
  have hdA : |toReal d| ≤ A + A / 2 ^ 48 := abs_le.mpr ⟨by linarith, by linarith⟩
  have hAB : |A - B| ≤ A := abs_le.mpr ⟨by linarith, by linarith⟩
  have hF : Near (a - b) (A - B) (A / 2 ^ 51) :=
    (Near.sub ha₀ hb₀ (by linarith : _ ≤ 2 * A) (by linarith)).mono (by linarith)
  have hG : Near (2.0 * (a - b)) (2 * (A - B)) (A / 2 ^ 49) :=
    (hF.const_mul near_two zero_le_two (by linarith : _ ≤ 2 * A) (by linarith)).mono (by linarith)
  have hdAB : |toReal d - 2 * (A - B)| ≤ 2 * A + A / 2 ^ 39 :=
    abs_le.mpr ⟨by linarith, by linarith⟩
  have hH' : Near (d - 2.0 * (a - b)) (toReal d - 2 * (A - B)) (A / 2 ^ 48) :=
    (Near.sub hd₀ hG (by linarith : _ ≤ 3 * A) (by linarith)).mono (by linarith)
  exact (Near.mul hH' hd₀ (by linarith : _ ≤ 2 * A + A / 2 ^ 38) (by linarith : _ ≤ A + A / 2 ^ 48)
    (by ring_nf; linarith)).mono (by ring_nf; linarith)

theorem productTerm_of_gt {d : Float} (hd : Finite d) (hlo : -(toReal a / 2 ^ 48) ≤ toReal d)
    (hhi : toReal d ≤ toReal a / 2 + toReal a / 2 ^ 48) :
    Near (2.0 * d * (a - 2.0 * b)) (2 * toReal d * (toReal a - 2 * toReal b))
      (toReal a ^ 2 / 2 ^ 47) := by
  have hA := hk.pos
  have hA2 : 0 ≤ toReal a ^ 2 := sq_nonneg _
  have hB := hk.nonneg_b
  have hBA := hk.le_a
  have hη := hk.eta_le
  have hη2 := hk.eta_le_sq
  have hlin := hk.linear_fits
  have hfit := hk.square_fits
  have ha₀ : Near a (toReal a) 0 := near_exact hk.finite_a rfl
  have hb₀ : Near b (toReal b) 0 := near_exact hk.finite_b rfl
  have hd₀ : Near d (toReal d) 0 := near_exact hd rfl
  set A := toReal a
  set B := toReal b
  have hBabs : |B| ≤ A + A / 2 ^ 40 := by rw [abs_of_nonneg hB]; exact hBA
  have hdA : |toReal d| ≤ A / 2 + A / 2 ^ 48 := abs_le.mpr ⟨by linarith, by linarith⟩
  have hD : Near (2.0 * d) (2 * toReal d) (A / 2 ^ 50) :=
    (hd₀.const_mul near_two zero_le_two (by linarith : _ ≤ A) (by linarith)).mono (by linarith)
  have hF : Near (2.0 * b) (2 * B) (A / 2 ^ 50) :=
    (hb₀.const_mul near_two zero_le_two (by linarith : _ ≤ 2 * A) (by linarith)).mono (by linarith)
  have hAB : |A - 2 * B| ≤ A + A / 2 ^ 39 := abs_le.mpr ⟨by linarith, by linarith⟩
  have hG : Near (a - 2.0 * b) (A - 2 * B) (A / 2 ^ 49) :=
    (Near.sub ha₀ hF (by linarith : _ ≤ 2 * A) (by linarith)).mono (by linarith)
  have h2d : |2 * toReal d| ≤ A + A / 2 ^ 47 := abs_le.mpr ⟨by linarith, by linarith⟩
  exact (Near.mul hD hG (by linarith : _ ≤ A + A / 2 ^ 45) (by linarith : _ ≤ A + A / 2 ^ 38)
    (by ring_nf; linarith)).mono (by ring_nf; linarith)

theorem squareTerm_of_gt {d : Float} (hd : Finite d) (hlo : -(toReal a / 2 ^ 48) ≤ toReal d)
    (hhi : toReal d ≤ toReal a / 2 + toReal a / 2 ^ 48) :
    Near ((4.0 * d - b) * b + d * d) ((4 * toReal d - toReal b) * toReal b + toReal d * toReal d)
      (toReal a ^ 2 / 2 ^ 46) := by
  have hA := hk.pos
  have hA2 : 0 ≤ toReal a ^ 2 := sq_nonneg _
  have hB := hk.nonneg_b
  have hBA := hk.le_a
  have hη := hk.eta_le
  have hη2 := hk.eta_le_sq
  have hlin := hk.linear_fits
  have hfit := hk.square_fits
  have hb₀ : Near b (toReal b) 0 := near_exact hk.finite_b rfl
  have hd₀ : Near d (toReal d) 0 := near_exact hd rfl
  set A := toReal a
  set B := toReal b
  have hBabs : |B| ≤ A + A / 2 ^ 40 := by rw [abs_of_nonneg hB]; exact hBA
  have hdA : |toReal d| ≤ A / 2 + A / 2 ^ 48 := abs_le.mpr ⟨by linarith, by linarith⟩
  have hJ : Near (4.0 * d) (4 * toReal d) (A / 2 ^ 50) :=
    (hd₀.const_mul near_four zero_le_four (by linarith : _ ≤ A) (by linarith)).mono (by linarith)
  have h4d : |4 * toReal d - B| ≤ 2 * A + A / 2 ^ 39 := abs_le.mpr ⟨by linarith, by linarith⟩
  have hK : Near (4.0 * d - b) (4 * toReal d - B) (A / 2 ^ 49) :=
    (Near.sub hJ hb₀ (by linarith : _ ≤ 3 * A) (by linarith)).mono (by linarith)
  have hL : Near ((4.0 * d - b) * b) ((4 * toReal d - B) * B) (A ^ 2 / 2 ^ 47) :=
    (Near.mul hK hb₀ (by linarith : _ ≤ 2 * A + A / 2 ^ 38) (by linarith : _ ≤ A + A / 2 ^ 40)
      (by ring_nf; linarith)).mono (by ring_nf; linarith)
  have hN : Near (d * d) (toReal d * toReal d) (A ^ 2 / 2 ^ 51) :=
    (Near.mul hd₀ hd₀ (by linarith : _ ≤ A) (by linarith : _ ≤ A) (by ring_nf; linarith)).mono
      (by ring_nf; linarith)
  have hLN : |(4 * toReal d - B) * B + toReal d * toReal d| ≤ 5 * A ^ 2 / 2 :=
    calc _ ≤ |4 * toReal d - B| * |B| + |toReal d| * |toReal d| := by
          rw [← abs_mul, ← abs_mul]; exact abs_add_le _ _
      _ ≤ (2 * A + A / 2 ^ 39) * (A + A / 2 ^ 40) + (A / 2 + A / 2 ^ 48) * (A / 2 + A / 2 ^ 48) :=
          add_le_add (mul_le_mul h4d hBabs (abs_nonneg _) (by positivity))
            (mul_le_mul hdA hdA (abs_nonneg _) (by positivity))
      _ ≤ 5 * A ^ 2 / 2 := by ring_nf; linarith
  exact (Near.add hL hN (by linarith : _ ≤ 3 * A ^ 2) hfit).mono (by linarith)

theorem residual_near_of_le {h : Float}
    (hh : Near h (Real.sqrt (toReal a * toReal a + toReal b * toReal b)) (toReal a / 2 ^ 49)) :
    Near (a * (2.0 * (h - b) - a) + (h - b - 2.0 * (a - b)) * (h - b)) 0
      (toReal a ^ 2 / 2 ^ 44) := by
  obtain ⟨-, -, hBH, hHAB, -⟩ := hk.root_bounds
  have hA := hk.pos
  have hA2 : 0 ≤ toReal a ^ 2 := sq_nonneg _
  have hη := hk.eta_le
  have hη2 := hk.eta_le_sq
  have hlin := hk.linear_fits
  have hfit := hk.square_fits
  have hb₀ : Near b (toReal b) 0 := near_exact hk.finite_b rfl
  set A := toReal a
  set B := toReal b
  set H := Real.sqrt (A * A + B * B)
  obtain ⟨hv₁, hv₂⟩ := abs_le.mp hh.error
  have hhB : |toReal h - B| ≤ 2 * A := abs_le.mpr ⟨by linarith, by linarith⟩
  have hd : Near (h - b) (toReal h - B) (A / 2 ^ 51) :=
    (Near.sub (near_exact hh.finite rfl) hb₀ (by linarith : _ ≤ 2 * A) (by linarith)).mono
      (by linarith)
  set d := h - b
  obtain ⟨hd₁, hd₂⟩ := abs_le.mp hd.error
  have hlo : -(A / 2 ^ 48) ≤ toReal d := by linarith
  have hhi : toReal d ≤ A + A / 2 ^ 48 := by linarith
  have ht₁ : Near (a * (2.0 * d - a)) (A * (2 * toReal d - A)) (A ^ 2 / 2 ^ 48) :=
    hk.productTerm_of_le hd.finite hlo hhi
  have ht₂ : Near ((d - 2.0 * (a - b)) * d) ((toReal d - 2 * (A - B)) * toReal d)
      (A ^ 2 / 2 ^ 47) :=
    hk.shiftTerm_of_le hd.finite hlo hhi
  -- exactly, the residual is `(δ + b)² - (a² + b²)`, and `δ + b` is within rounding of the root
  have hI : |A * (2 * toReal d - A) + (toReal d - 2 * (A - B)) * toReal d - 0| ≤
      A ^ 2 / 2 ^ 46 := by
    have h₁ : |toReal d + B - H| ≤ A / 2 ^ 48 := abs_le.mpr ⟨by linarith, by linarith⟩
    calc _ = |(toReal d + B) ^ 2 - (A * A + B * B)| := by congr 1; ring
      _ ≤ A ^ 2 / 2 ^ 46 := hk.sq_near_root h₁
  have hI' := hI
  rw [sub_zero] at hI'
  exact ((Near.add ht₁ ht₂ (by linarith : _ ≤ A ^ 2 / 2 ^ 44) (by linarith)).recenter hI).mono
    (by linarith)

theorem residual_near_of_gt {h : Float}
    (hh : Near h (Real.sqrt (toReal a * toReal a + toReal b * toReal b)) (toReal a / 2 ^ 49)) :
    Near (2.0 * (h - a) * (a - 2.0 * b) + ((4.0 * (h - a) - b) * b + (h - a) * (h - a))) 0
      (toReal a ^ 2 / 2 ^ 44) := by
  obtain ⟨-, hAH, -, -, hH⟩ := hk.root_bounds
  have hA := hk.pos
  have hA2 : 0 ≤ toReal a ^ 2 := sq_nonneg _
  have hη := hk.eta_le
  have hη2 := hk.eta_le_sq
  have hlin := hk.linear_fits
  have hfit := hk.square_fits
  have ha₀ : Near a (toReal a) 0 := near_exact hk.finite_a rfl
  set A := toReal a
  set B := toReal b
  set H := Real.sqrt (A * A + B * B)
  obtain ⟨hv₁, hv₂⟩ := abs_le.mp hh.error
  have hhA : |toReal h - A| ≤ A := abs_le.mpr ⟨by linarith, by linarith⟩
  have hd : Near (h - a) (toReal h - A) (A / 2 ^ 51) :=
    (Near.sub (near_exact hh.finite rfl) ha₀ (by linarith : _ ≤ A) (by linarith)).mono
      (by linarith)
  set d := h - a
  obtain ⟨hd₁, hd₂⟩ := abs_le.mp hd.error
  have hlo : -(A / 2 ^ 48) ≤ toReal d := by linarith
  have hhi : toReal d ≤ A / 2 + A / 2 ^ 48 := by linarith
  have ht₁ : Near (2.0 * d * (a - 2.0 * b)) (2 * toReal d * (A - 2 * B)) (A ^ 2 / 2 ^ 47) :=
    hk.productTerm_of_gt hd.finite hlo hhi
  have ht₂ : Near ((4.0 * d - b) * b + d * d) ((4 * toReal d - B) * B + toReal d * toReal d)
      (A ^ 2 / 2 ^ 46) :=
    hk.squareTerm_of_gt hd.finite hlo hhi
  have hI : |2 * toReal d * (A - 2 * B) + ((4 * toReal d - B) * B + toReal d * toReal d) - 0| ≤
      A ^ 2 / 2 ^ 46 := by
    have h₁ : |toReal d + A - H| ≤ A / 2 ^ 48 := abs_le.mpr ⟨by linarith, by linarith⟩
    calc _ = |(toReal d + A) ^ 2 - (A * A + B * B)| := by congr 1; ring
      _ ≤ A ^ 2 / 2 ^ 46 := hk.sq_near_root h₁
  have hI' := hI
  rw [sub_zero] at hI'
  exact ((Near.add ht₁ ht₂ (by linarith : _ ≤ A ^ 2 / 2 ^ 44) (by linarith)).recenter hI).mono
    (by linarith)

theorem correction_hasSign {h T : Float}
    (hh : Near h (Real.sqrt (toReal a * toReal a + toReal b * toReal b)) (toReal a / 2 ^ 49))
    (hT : Near T 0 (toReal a ^ 2 / 2 ^ 44)) :
    HasSign .positive (h - T / (2.0 * h)).toModel.unpack := by
  obtain ⟨-, hAH, -, -, hH⟩ := hk.root_bounds
  have hA := hk.pos
  have hη := hk.eta_le
  have hlin := hk.linear_fits
  set A := toReal a
  obtain ⟨hv₁, hv₂⟩ := abs_le.mp hh.error
  have hhA : |toReal h| ≤ 2 * A := abs_le.mpr ⟨by linarith, by linarith⟩
  have hW : Near (2.0 * h) (2 * toReal h) (A / 2 ^ 50) :=
    ((near_exact hh.finite rfl).const_mul near_two zero_le_two (by linarith : _ ≤ 2 * A)
      (by linarith)).mono (by linarith)
  obtain ⟨hw₁, -⟩ := abs_le.mp hW.error
  have hWA : A ≤ toReal (2.0 * h) := by linarith
  have hW0 : 0 < toReal (2.0 * h) := hA.trans_le hWA
  -- the quotient is at most `2 ^ -44 a`, so the correction is negligible beside the root
  have hX : |toReal T / toReal (2.0 * h)| ≤ A / 2 ^ 44 := by
    have hTA : |toReal T| ≤ A ^ 2 / 2 ^ 44 := by simpa using hT.error
    rw [abs_div, abs_of_pos hW0, div_le_iff₀ hW0]
    calc |toReal T| ≤ A / 2 ^ 44 * A := by linarith
      _ ≤ A / 2 ^ 44 * toReal (2.0 * h) := mul_le_mul_of_nonneg_left hWA (by positivity)
  have hq := Near.of_rounded (div_rounded64 hT.finite hW.finite hW0.ne' (by linarith))
  obtain ⟨hq₁, hq₂⟩ := abs_le.mp hq.error
  obtain ⟨hX₁, hX₂⟩ := abs_le.mp hX
  have hfit : |toReal h - toReal (T / (2.0 * h))| ≤ maxFinite .binary64 :=
    (abs_le.mpr ⟨by linarith, by linarith⟩).trans hlin
  exact (sub_rounded64 hh.finite hq.finite hfit).pos (by linarith)

theorem hypotKernel_hasSign : HasSign .positive (Binary64.hypotKernel a b).toModel.unpack := by
  have hh := hk.root_near
  unfold Binary64.hypotKernel
  dsimp only
  split
  · exact hk.correction_hasSign hh (hk.residual_near_of_le hh)
  · exact hk.correction_hasSign hh (hk.residual_near_of_gt hh)

end KernelInputs

end DualArrays.Proofs.HypotKernel
