import DualArrays.Proofs.FloatRounding
import DualArrays.Proofs.FloatEncoding

namespace DualArrays.Proofs.UnpackedArithmetic

open Float.Model Float.Model.UnpackedFloat
open DualArrays.Proofs.FloatRounding DualArrays.Proofs.FloatEncoding

variable (spec : Format)

theorem rounded_zero (t : Sign) : Rounded spec 0 (.zero t) :=
  ⟨rfl, trivial, fun h => absurd h (lt_irrefl 0), fun h => absurd h (lt_irrefl 0),
    by simp only [value, sub_zero, abs_zero, zero_div, zero_add]; positivity⟩

theorem signed_pos_iff {s : Sign} {x : ℝ} (hx : 0 < x) : 0 < signed s x ↔ s = .positive := by
  cases s <;> simp [hx, hx.le]

theorem signed_neg_iff {s : Sign} {x : ℝ} (hx : 0 < x) : signed s x < 0 ↔ s = .negative := by
  cases s <;> simp [hx, hx.le]

theorem signed_neg (s : Sign) (x : ℝ) : signed (-s) x = -signed s x := by
  cases s <;> simp [signed]

theorem minExponent_nonpos : spec.minExponent ≤ 0 := by
  have h₁ : (1 : ℤ) ≤ 2 ^ (spec.exponentBits - 1) := one_le_pow₀ (by norm_num)
  have h₂ := spec.hm
  simp only [Format.minExponent, Format.mantissaBits]
  push_cast
  omega

theorem apply_neg_sign (s : Sign) (n : ℤ) : (-s).apply n = -s.apply n := by
  cases s
  · exact (Int.neg_neg n).symm
  · rfl

theorem cast_apply (s : Sign) (n : ℕ) : ((s.apply (n : ℤ) : ℤ) : ℝ) = signed s n := by
  cases s <;> simp [Sign.apply]

theorem rounded_self {u : UnpackedFloat} (hc : Canonical spec u) (hf : u.isFinite = true) :
    Rounded spec (value u) u := by
  cases u with
  | zero t => exact rounded_zero spec t
  | finite s m e hm =>
      have hpos : (0 : ℝ) < m * 2 ^ e := by positivity
      refine ⟨rfl, hc, fun h => (signed_pos_iff hpos).mp h, fun h => (signed_neg_iff hpos).mp h, ?_⟩
      rw [sub_self, abs_zero]
      positivity
  | _ => cases hf

theorem rounded_neg_finite {s : Sign} {m : ℕ} {e : ℤ} (hm : 0 < m)
    (hc : Canonical spec (.finite s m e hm)) :
    Rounded spec (-value (.finite s m e hm)) (.finite (-s) m e hm) := by
  have h := rounded_self spec (u := .finite (-s) m e hm) hc rfl
  rw [value, signed_neg] at h
  exact h

theorem decreaseExponent_value (m : ℕ) {e e' : ℤ} (h : e' ≤ e) :
    ((decreaseExponent m e e').1 : ℝ) * 2 ^ e' = m * 2 ^ e := by
  simp only [decreaseExponent, Nat.shiftLeft_eq, Nat.cast_mul, Nat.cast_pow, Nat.cast_ofNat]
  rw [mul_assoc, ← zpow_natCast, ← zpow_add₀ two_ne_zero, Int.toNat_of_nonneg (by omega)]
  ring_nf

theorem aligned_sum_value (s₁ s₂ : Sign) (m₁ m₂ : ℕ) (e₁ e₂ : ℤ) :
    (((s₁.apply (decreaseExponent m₁ e₁ (min e₁ e₂)).1 +
        s₂.apply (decreaseExponent m₂ e₂ (min e₁ e₂)).1 : ℤ) : ℝ) * 2 ^ min e₁ e₂) =
      signed s₁ (m₁ * 2 ^ e₁) + signed s₂ (m₂ * 2 ^ e₂) := by
  have h₁ := decreaseExponent_value m₁ (min_le_left e₁ e₂)
  have h₂ := decreaseExponent_value m₂ (min_le_right e₁ e₂)
  rw [Int.cast_add, cast_apply, cast_apply, add_mul, ← h₁, ← h₂]
  cases s₁ <;> cases s₂ <;> simp only [signed] <;> ring

section Cores

theorem locates_fraction (q r d : ℕ) (hr : r < d) :
    Locates (ExtendedMantissa.ofMantissaAndAccuracy q (accuracyOfFraction r d)) (q + r / d) := by
  have hd : (0 : ℝ) < d := by exact_mod_cast lt_of_le_of_lt (Nat.zero_le r) hr
  have hr1 : (r : ℝ) / d < 1 := (div_lt_one hd).mpr (by exact_mod_cast hr)
  unfold accuracyOfFraction
  split_ifs with h0
  · subst h0
    simp [Locates, ExtendedMantissa.ofMantissaAndAccuracy]
  have hr0 : (0 : ℝ) < r / d := div_pos (by exact_mod_cast Nat.pos_of_ne_zero h0) hd
  -- where the remainder lies against half the divisor decides the round and sticky bits
  rcases lt_trichotomy (2 * r) d with h | h | h
  · have hhalf : (r : ℝ) / d < 1 / 2 := by
      rw [div_lt_iff₀ hd]
      have : (2 * r : ℝ) < d := by exact_mod_cast h
      linarith
    rw [Nat.compare_eq_lt.mpr h]
    simp only [Locates, ExtendedMantissa.ofMantissaAndAccuracy]
    constructor <;> linarith
  · have hhalf : (r : ℝ) / d = 1 / 2 := by
      rw [div_eq_iff hd.ne']
      have : (2 * r : ℝ) = d := by exact_mod_cast h
      linarith
    rw [Nat.compare_eq_eq.mpr h]
    simp only [Locates, ExtendedMantissa.ofMantissaAndAccuracy]
    rw [hhalf]
  · have hhalf : 1 / 2 < (r : ℝ) / d := by
      rw [lt_div_iff₀ hd]
      have : (d : ℝ) < 2 * r := by exact_mod_cast h
      linarith
    rw [Nat.compare_eq_gt.mpr h]
    simp only [Locates, ExtendedMantissa.ofMantissaAndAccuracy]
    constructor <;> linarith

theorem divCore_locates {m₂ : ℕ} (hm₂ : 0 < m₂) (m₁ : ℕ) (e₁ e₂ : ℤ) :
    Locates (ExtendedMantissa.ofMantissaAndAccuracy (divCore spec m₁ e₁ m₂ e₂).1
      (divCore spec m₁ e₁ m₂ e₂).2.2)
      ((m₁ * 2 ^ e₁) / (m₂ * 2 ^ e₂) / 2 ^ (divCore spec m₁ e₁ m₂ e₂).2.1) := by
  simp only [divCore]
  set T := min (e₁ - e₂) (spec.targetExponent (totalExponent m₁ e₁ - totalExponent m₂ e₂))
  set k := (e₁ - e₂ - T).toNat
  have hk : (k : ℤ) = e₁ - e₂ - T := Int.toNat_of_nonneg (by omega)
  have hd : (m₂ : ℝ) ≠ 0 := by positivity
  have hval : (m₁ * 2 ^ e₁) / (m₂ * 2 ^ e₂) / 2 ^ T =
      (((m₁ <<< k) / m₂ : ℕ) : ℝ) + (((m₁ <<< k) % m₂ : ℕ) : ℝ) / m₂ := by
    have hsplit : (((m₁ <<< k) / m₂ : ℕ) : ℝ) + (((m₁ <<< k) % m₂ : ℕ) : ℝ) / m₂ =
        ((m₁ <<< k : ℕ) : ℝ) / m₂ := by
      rw [eq_div_iff hd, add_mul, div_mul_cancel₀ _ hd, mul_comm]
      exact_mod_cast Nat.div_add_mod (m₁ <<< k) m₂
    rw [hsplit, Nat.shiftLeft_eq, Nat.cast_mul, Nat.cast_pow, Nat.cast_ofNat, ← zpow_natCast, hk,
      zpow_sub₀ two_ne_zero, zpow_sub₀ two_ne_zero]
    field_simp
  rw [hval]
  exact locates_fraction _ _ _ (Nat.mod_lt _ hm₂)

theorem divCore_exponent {m₁ m₂ : ℕ} (hm₁ : 0 < m₁) (hm₂ : 0 < m₂) (e₁ e₂ : ℤ) :
    (divCore spec m₁ e₁ m₂ e₂).2.1 ≤
      spec.targetExponent (totalExponent (divCore spec m₁ e₁ m₂ e₂).1 (divCore spec m₁ e₁ m₂ e₂).2.1) := by
  apply exponent_le_target
  simp only [divCore]
  set T := min (e₁ - e₂) (spec.targetExponent (totalExponent m₁ e₁ - totalExponent m₂ e₂))
  by_cases hT : T ≤ spec.minExponent
  · exact .inr hT
  refine .inl ((Nat.le_div_iff_mul_le hm₂).mpr ?_)
  -- off the least exponent the shift leaves `p` bits more in the dividend than in the divisor
  have hk : Nat.log2 m₂ + spec.mantissaBits ≤ Nat.log2 m₁ + (e₁ - e₂ - T).toNat := by
    simp only [T, Format.targetExponent, totalExponent] at hT ⊢
    omega
  calc 2 ^ spec.mantissaBitsWithoutImplicit * m₂
      ≤ 2 ^ spec.mantissaBitsWithoutImplicit * 2 ^ (Nat.log2 m₂ + 1) :=
        Nat.mul_le_mul_left _ Nat.lt_log2_self.le
    _ = 2 ^ (Nat.log2 m₂ + spec.mantissaBits) := by
        rw [← Nat.pow_add, Format.mantissaBits]
        ring_nf
    _ ≤ 2 ^ (Nat.log2 m₁ + (e₁ - e₂ - T).toNat) := Nat.pow_le_pow_right two_pos hk
    _ ≤ m₁ <<< (e₁ - e₂ - T).toNat := by
        rw [Nat.shiftLeft_eq, Nat.pow_add]
        exact Nat.mul_le_mul_right _ (Nat.log2_self_le hm₁.ne')

theorem locates_sqrt (M : ℕ) :
    Locates (ExtendedMantissa.ofMantissaAndAccuracy (Nat.sqrt M)
      (if M - Nat.sqrt M * Nat.sqrt M = 0 then .exact
        else .inexact (if M - Nat.sqrt M * Nat.sqrt M ≤ Nat.sqrt M then .lt else .gt)))
      (Real.sqrt M) := by
  set r := Nat.sqrt M
  have hlo : r * r ≤ M := Nat.sqrt_le M
  have hhi : M < (r + 1) * (r + 1) := Nat.lt_succ_sqrt M
  have hr : (0 : ℝ) ≤ r := Nat.cast_nonneg r
  have hM : (0 : ℝ) ≤ M := Nat.cast_nonneg M
  have hsq : Real.sqrt M < r + 1 := by
    rw [Real.sqrt_lt' (by positivity)]
    exact_mod_cast (by nlinarith : M < (r + 1) ^ 2)
  split_ifs with h0 hle
  · have hsq' : (M : ℝ) = r * r := by exact_mod_cast (by omega : M = r * r)
    simp only [Locates, ExtendedMantissa.ofMantissaAndAccuracy]
    rw [hsq', Real.sqrt_mul_self hr]
  · have hgt : (r : ℝ) < Real.sqrt M := by
      rw [Real.lt_sqrt hr]
      exact_mod_cast (by rw [sq]; omega : r ^ 2 < M)
    have hmid : Real.sqrt M < r + 1 / 2 := by
      rw [Real.sqrt_lt' (by positivity)]
      have : (M : ℝ) ≤ r * r + r := by exact_mod_cast (by omega : M ≤ r * r + r)
      nlinarith
    simp only [Locates, ExtendedMantissa.ofMantissaAndAccuracy]
    exact ⟨hgt, hmid⟩
  · have hmid : (r : ℝ) + 1 / 2 < Real.sqrt M := by
      rw [Real.lt_sqrt (by positivity)]
      have : (r * r + r + 1 : ℝ) ≤ M := by exact_mod_cast (by omega : r * r + r + 1 ≤ M)
      nlinarith
    simp only [Locates, ExtendedMantissa.ofMantissaAndAccuracy]
    exact ⟨hmid, hsq⟩

theorem sqrtCore_locates (m : ℕ) (e : ℤ) :
    Locates (ExtendedMantissa.ofMantissaAndAccuracy (sqrtCore spec m e).1 (sqrtCore spec m e).2.2)
      (Real.sqrt (m * 2 ^ e) / 2 ^ (sqrtCore spec m e).2.1) := by
  simp only [sqrtCore]
  set T := min (e.ediv 2) (spec.targetExponent ((totalExponent m e + 1).ediv 2))
  set k := (e - 2 * T).toNat
  have hk : (k : ℤ) = e - 2 * T := by
    have hT : T ≤ e / 2 := min_le_left _ _
    omega
  have hval : Real.sqrt (m * 2 ^ e) / 2 ^ T = Real.sqrt ((m <<< k : ℕ) : ℝ) := by
    have he : (m : ℝ) * 2 ^ e = ((m <<< k : ℕ) : ℝ) * (2 ^ T) ^ 2 := by
      rw [Nat.shiftLeft_eq, Nat.cast_mul, Nat.cast_pow, Nat.cast_ofNat, ← zpow_natCast, hk,
        ← zpow_natCast, ← zpow_mul, mul_assoc, ← zpow_add₀ two_ne_zero]
      ring_nf
    rw [he, Real.sqrt_mul (Nat.cast_nonneg _), Real.sqrt_sq (by positivity),
      mul_div_assoc, div_self (by positivity), mul_one]
  rw [hval]
  exact locates_sqrt _

theorem sqrtCore_exponent {m : ℕ} (hm : 0 < m) (e : ℤ) :
    (sqrtCore spec m e).2.1 ≤
      spec.targetExponent (totalExponent (sqrtCore spec m e).1 (sqrtCore spec m e).2.1) := by
  apply exponent_le_target
  simp only [sqrtCore]
  set T := min (e.ediv 2) (spec.targetExponent ((totalExponent m e + 1).ediv 2))
  by_cases hT : T ≤ spec.minExponent
  · exact .inr hT
  refine .inl (Nat.le_sqrt.mpr ?_)
  have hk : 2 * spec.mantissaBitsWithoutImplicit ≤ Nat.log2 m + (e - 2 * T).toNat := by
    have hT₁ : T ≤ e / 2 := min_le_left _ _
    have hT₂ : T ≤ spec.targetExponent ((totalExponent m e + 1) / 2) := min_le_right _ _
    simp only [Format.targetExponent, totalExponent, Format.mantissaBits] at hT hT₂
    omega
  calc 2 ^ spec.mantissaBitsWithoutImplicit * 2 ^ spec.mantissaBitsWithoutImplicit
      = 2 ^ (2 * spec.mantissaBitsWithoutImplicit) := by rw [← Nat.pow_add, two_mul]
    _ ≤ 2 ^ (Nat.log2 m + (e - 2 * T).toNat) := Nat.pow_le_pow_right two_pos hk
    _ ≤ m <<< (e - 2 * T).toNat := by
        rw [Nat.shiftLeft_eq, Nat.pow_add]
        exact Nat.mul_le_mul_right _ (Nat.log2_self_le hm.ne')

end Cores

section Operands

variable {u v : UnpackedFloat}

theorem mul_rounded (hu : Canonical spec u) (hv : Canonical spec v) (hfu : u.isFinite = true)
    (hfv : v.isFinite = true) : Rounded spec (value u * value v) (mul spec u v) := by
  cases u with
  | zero s =>
      cases v with
      | zero t =>
          change Rounded spec _ (.zero (s * t))
          simpa [value] using rounded_zero spec _
      | finite t m e hm =>
          change Rounded spec _ (.zero (s * t))
          simpa [value] using rounded_zero spec _
      | _ => cases hfv
  | finite s₁ m₁ e₁ hm₁ =>
      cases v with
      | zero t =>
          change Rounded spec _ (.zero (s₁ * t))
          simpa [value] using rounded_zero spec _
      | finite s₂ m₂ e₂ hm₂ =>
          -- canonical operands put the exponent of the exact product at or below its target
          have he : e₁ + e₂ ≤ spec.targetExponent (totalExponent (m₁ * m₂) (e₁ + e₂)) := by
            apply exponent_le_target
            obtain ⟨-, hmin₁, hlow₁⟩ := hu
            obtain ⟨-, hmin₂, hlow₂⟩ := hv
            have hmin := minExponent_nonpos spec
            rcases hlow₁ with h₁ | h₁
            · exact .inl (h₁.trans (Nat.le_mul_of_pos_right _ hm₂))
            rcases hlow₂ with h₂ | h₂
            · exact .inl (h₂.trans (Nat.le_mul_of_pos_left _ hm₁))
            · exact .inr (by omega)
          have h := roundWithAccuracy_rounded spec (s₁ * s₂) (locates_exact_div (m₁ * m₂) (e₁ + e₂)) he
          have hval : value (.finite s₁ m₁ e₁ hm₁) * value (.finite s₂ m₂ e₂ hm₂) =
              signed (s₁ * s₂) ((m₁ * m₂ : ℕ) * 2 ^ (e₁ + e₂)) := by
            rw [value, value, signed_mul_signed, zpow_add₀ two_ne_zero]
            push_cast
            ring_nf
          rw [hval]
          exact h
      | _ => cases hfv
  | _ => cases hfu

theorem add_rounded (hu : Canonical spec u) (hv : Canonical spec v) (hfu : u.isFinite = true)
    (hfv : v.isFinite = true) : Rounded spec (value u + value v) (add spec u v) := by
  cases u with
  | zero s =>
      cases v with
      | zero t =>
          simp only [value, add_zero, UnpackedFloat.add]
          split <;> exact rounded_zero spec _
      | finite t m e hm =>
          change Rounded spec _ (.finite t m e hm)
          simpa [value] using rounded_self spec hv hfv
      | _ => cases hfv
  | finite s₁ m₁ e₁ hm₁ =>
      cases v with
      | zero t =>
          change Rounded spec _ (.finite s₁ m₁ e₁ hm₁)
          simpa [value] using rounded_self spec hu hfu
      | finite s₂ m₂ e₂ hm₂ =>
          show Rounded spec (signed s₁ (m₁ * 2 ^ e₁) + signed s₂ (m₂ * 2 ^ e₂)) _
          rw [← aligned_sum_value]
          exact normalize_rounded spec _ _ _
      | _ => cases hfv
  | _ => cases hfu

theorem sub_rounded (hu : Canonical spec u) (hv : Canonical spec v) (hfu : u.isFinite = true)
    (hfv : v.isFinite = true) : Rounded spec (value u - value v) (sub spec u v) := by
  cases u with
  | zero s =>
      cases v with
      | zero t =>
          simp only [value, sub_zero, UnpackedFloat.sub]
          split <;> exact rounded_zero spec _
      | finite t m e hm =>
          change Rounded spec _ (.finite (-t) m e hm)
          simpa [value] using rounded_neg_finite spec hm hv
      | _ => cases hfv
  | finite s₁ m₁ e₁ hm₁ =>
      cases v with
      | zero t =>
          change Rounded spec _ (.finite s₁ m₁ e₁ hm₁)
          simpa [value] using rounded_self spec hu hfu
      | finite s₂ m₂ e₂ hm₂ =>
          have h := normalize_rounded spec (s₁.apply (decreaseExponent m₁ e₁ (min e₁ e₂)).1 +
            (-s₂).apply (decreaseExponent m₂ e₂ (min e₁ e₂)).1) (min e₁ e₂) .positive
          rw [aligned_sum_value, signed_neg, ← sub_eq_add_neg, apply_neg_sign, ← sub_eq_add_neg] at h
          exact h
      | _ => cases hfv
  | _ => cases hfu

theorem signed_div_signed (s t : Sign) (x y : ℝ) : signed s x / signed t y = signed (s / t) (x / y) := by
  have hdiv : s / t = s * t := by cases s <;> cases t <;> rfl
  have hinv : (signed t y)⁻¹ = signed t y⁻¹ := by cases t <;> simp [inv_neg]
  rw [div_eq_mul_inv, hinv, signed_mul_signed, hdiv, div_eq_mul_inv]

theorem div_rounded (hu : Canonical spec u) (hfu : u.isFinite = true) (hfv : v.isFinite = true)
    (hv0 : value v ≠ 0) : Rounded spec (value u / value v) (div spec u v) := by
  cases v with
  | zero t => exact absurd rfl hv0
  | finite s₂ m₂ e₂ hm₂ =>
      cases u with
      | zero s =>
          change Rounded spec _ (.zero (s / s₂))
          simpa [value] using rounded_zero spec _
      | finite s₁ m₁ e₁ hm₁ =>
          change Rounded spec _ (roundWithAccuracy spec (s₁ / s₂) (divCore spec m₁ e₁ m₂ e₂).1
            (divCore spec m₁ e₁ m₂ e₂).2.1 (divCore spec m₁ e₁ m₂ e₂).2.2)
          rw [value, value, signed_div_signed]
          exact roundWithAccuracy_rounded spec _ (divCore_locates spec hm₂ m₁ e₁ e₂)
            (divCore_exponent spec hm₁ hm₂ e₁ e₂)
      | _ => cases hfu
  | _ => cases hfv

theorem sqrt_rounded (hfu : u.isFinite = true) (h0 : 0 ≤ value u) :
    Rounded spec (Real.sqrt (value u)) (UnpackedFloat.sqrt spec u) := by
  cases u with
  | zero s =>
      change Rounded spec _ (.zero s)
      simpa [value] using rounded_zero spec _
  | finite s m e hm =>
      cases s with
      | negative =>
          have : (0 : ℝ) < m * 2 ^ e := by positivity
          simp [value] at h0
          linarith
      | positive =>
          change Rounded spec _ (roundWithAccuracy spec .positive (sqrtCore spec m e).1
            (sqrtCore spec m e).2.1 (sqrtCore spec m e).2.2)
          exact roundWithAccuracy_rounded spec .positive (sqrtCore_locates spec m e)
            (sqrtCore_exponent spec hm e)
  | _ => cases hfu

end Operands

section Packing

theorem two_pow_exponentBits : 2 ^ spec.exponentBits = 2 * 2 ^ (spec.exponentBits - 1) := by
  have := spec.he
  rw [← Nat.pow_succ']
  congr 1
  omega

theorem exponentCodes_cast :
    ((2 ^ spec.exponentBits : ℕ) : ℤ) = 2 * 2 ^ (spec.exponentBits - 1) := by
  rw [two_pow_exponentBits]
  push_cast
  rfl

theorem exponentBias_cast : (spec.exponentBias : ℤ) = 2 ^ (spec.exponentBits - 1) - 1 := by
  simp only [Format.exponentBias]
  push_cast [Nat.one_le_two_pow]
  rfl

theorem mantissaBits_cast : (spec.mantissaBits : ℤ) = 1 + spec.mantissaBitsWithoutImplicit := by
  simp [Format.mantissaBits]

theorem minExponent_eq : spec.minExponent = 3 - 2 ^ (spec.exponentBits - 1) - spec.mantissaBits :=
  rfl

theorem two_pow_mantissaBits : 2 ^ spec.mantissaBits = 2 * 2 ^ spec.mantissaBitsWithoutImplicit := by
  rw [Format.mantissaBits, Nat.pow_add, Nat.pow_one]

theorem two_le_two_pow_exponentBits (hspec : 2 ≤ spec.exponentBits) :
    (2 : ℤ) ≤ 2 ^ (spec.exponentBits - 1) := by
  exact_mod_cast (Nat.pow_le_pow_right two_pos (by omega : 1 ≤ spec.exponentBits - 1))

theorem abs_value (u : UnpackedFloat) : |value u| = mag u := by
  cases u with
  | finite s m e hm => cases s <;> simp [value, mag, abs_of_pos (by positivity : (0 : ℝ) < m * 2 ^ e)]
  | _ => simp [value, mag]

theorem sign_unpackSign_packComponents (s : Sign) (E : BitVec spec.exponentBits)
    (M : BitVec spec.mantissaBitsWithoutImplicit) :
    Sign.ofBitVec (unpackSign (packComponents spec s E M)) = s := by
  have h : unpackSign (packComponents spec s E M) = s.toBitVec := by
    apply BitVec.eq_of_getLsbD_eq
    intro i hi
    obtain rfl : i = 0 := by omega
    simp [unpackSign, packComponents, BitVec.getLsbD_append, BitVec.getElem_append]
  rw [h]
  cases s <;> rfl

theorem toNat_allOnes_exponent : (-1#(spec.exponentBits)).toNat = 2 ^ spec.exponentBits - 1 := by
  simp only [BitVec.neg_one_eq_allOnes, BitVec.toNat_allOnes]

theorem zero_ne_allOnes : (0#(spec.exponentBits)) ≠ -1#_ := by
  intro h
  have h' := congrArg BitVec.toNat h
  have := Nat.one_lt_two_pow_iff.mpr spec.he.ne'
  rw [toNat_allOnes_exponent, BitVec.toNat_zero] at h'
  omega

theorem mag_le_maxFinite {s : Sign} {m : ℕ} {e : ℤ} {hm : 0 < m} (hlt : m < 2 ^ spec.mantissaBits)
    (he : e ≤ (2 ^ (spec.exponentBits - 1) : ℤ) - spec.mantissaBits) :
    mag (.finite s m e hm) ≤ maxFinite spec := by
  have hm' : (m : ℝ) ≤ 2 ^ spec.mantissaBits - 1 := by
    have h : ((m + 1 : ℕ) : ℝ) ≤ ((2 ^ spec.mantissaBits : ℕ) : ℝ) := Nat.cast_le.mpr hlt
    push_cast at h
    linarith
  exact mul_le_mul hm' (zpow_le_zpow_right₀ one_le_two he) (by positivity)
    (by linarith [Nat.one_le_two_pow (n := spec.mantissaBits),
      (by exact_mod_cast Nat.one_le_two_pow : (1 : ℝ) ≤ 2 ^ spec.mantissaBits)])

theorem canonical_unpack (hspec : 2 ≤ spec.exponentBits) (b : BitVec spec.numBits) :
    Canonical spec (unpack spec b) ∧ mag (unpack spec b) ≤ maxFinite spec := by
  have hK := two_le_two_pow_exponentBits spec hspec
  have hcap := exponentCodes_cast spec
  have hbias := exponentBias_cast spec
  have hp := mantissaBits_cast spec
  have hmin := minExponent_eq spec
  have hmax : (0 : ℝ) ≤ maxFinite spec := by
    unfold maxFinite
    have : (1 : ℝ) ≤ 2 ^ spec.mantissaBits := by exact_mod_cast Nat.one_le_two_pow
    have : (0 : ℝ) ≤ 2 ^ spec.mantissaBits - 1 := by linarith
    positivity
  have hpow := two_pow_mantissaBits spec
  unfold UnpackedFloat.unpack
  simp only
  split_ifs with hexp hman hzero hman'
  · exact ⟨trivial, hmax⟩
  · exact ⟨trivial, hmax⟩
  · exact ⟨trivial, hmax⟩
  · -- a subnormal: the stored mantissa at the least exponent
    have hM := (unpackMantissa b).isLt
    have hE : ((unpackExponent b).toNat : ℤ) = 0 := by rw [hzero]; rfl
    have hlt : (unpackMantissa b).toNat < 2 ^ spec.mantissaBits := by omega
    refine ⟨⟨hlt, by omega, .inr (by omega)⟩, mag_le_maxFinite spec hlt (by omega)⟩
  · -- a normal value: the implicit bit above the stored mantissa
    have hM := (unpackMantissa b).isLt
    have hElt := (unpackExponent b).isLt
    have hE0 : (unpackExponent b).toNat ≠ 0 := fun h => hzero (BitVec.eq_of_toNat_eq (by simpa using h))
    have hE1 : (unpackExponent b).toNat ≠ 2 ^ spec.exponentBits - 1 := fun h =>
      hexp (BitVec.eq_of_toNat_eq (by rw [toNat_allOnes_exponent]; exact h))
    have hE : ((unpackExponent b).toNat : ℤ) + 2 ≤ ((2 ^ spec.exponentBits : ℕ) : ℤ) := by omega
    have hval := toNat_implicit_append (unpackMantissa b)
    have hlt : (1#1 ++ unpackMantissa b).toNat < 2 ^ spec.mantissaBits := by omega
    refine ⟨⟨hlt, by omega, .inl (by omega)⟩, mag_le_maxFinite spec hlt (by omega)⟩

theorem unpack_pack_of_canonical (hspec : 2 ≤ spec.exponentBits) {u : UnpackedFloat}
    (hc : Canonical spec u) (hf : u.isFinite = true)
    (hlt : mag u < 2 ^ (2 ^ (spec.exponentBits - 1) : ℤ)) : unpack spec (pack spec u) = u := by
  have hK := two_le_two_pow_exponentBits spec hspec
  have hcap := exponentCodes_cast spec
  have hbias := exponentBias_cast spec
  have hp := mantissaBits_cast spec
  have hmin := minExponent_eq spec
  have hpow := two_pow_mantissaBits spec
  cases u with
  | zero s =>
      show unpack spec (packComponents spec s 0 0) = _
      unfold UnpackedFloat.unpack
      simp only [unpackMantissa_packComponents, unpackExponent_packComponents,
        sign_unpackSign_packComponents]
      split_ifs <;> simp_all [zero_ne_allOnes spec]
  | finite s m e hm =>
      obtain ⟨hmp, hmin', hlow⟩ := hc
      have he : e ≤ (2 ^ (spec.exponentBits - 1) : ℤ) - spec.mantissaBits := by
        by_contra he
        have hnorm : 2 ^ spec.mantissaBitsWithoutImplicit ≤ m := hlow.resolve_right (by omega)
        have hge : (2 : ℝ) ^ (2 ^ (spec.exponentBits - 1) : ℤ) ≤ mag (.finite s m e hm) := by
          calc (2 : ℝ) ^ (2 ^ (spec.exponentBits - 1) : ℤ)
              = 2 ^ spec.mantissaBitsWithoutImplicit *
                  2 ^ ((2 ^ (spec.exponentBits - 1) : ℤ) - spec.mantissaBitsWithoutImplicit) := by
                rw [← zpow_natCast, ← zpow_add₀ two_ne_zero]
                ring_nf
            _ ≤ m * 2 ^ e := by
                gcongr
                · exact_mod_cast hnorm
                · exact one_le_two
                · omega
        exact absurd hlt (not_lt.mpr hge)
      generalize hb : (e + spec.exponentBias + spec.mantissaBitsWithoutImplicit).toNat = biased
      have hbI : (biased : ℤ) = e + spec.exponentBias + spec.mantissaBitsWithoutImplicit :=
        hb ▸ Int.toNat_of_nonneg (by omega)
      have hfits : ¬2 ^ spec.exponentBits ≤ biased + 1 := by omega
      have hbits : (BitVec.ofNat spec.exponentBits biased).toNat = biased := by
        rw [BitVec.toNat_ofNat, Nat.mod_eq_of_lt (by omega)]
      have hne1 : BitVec.ofNat spec.exponentBits biased ≠ -1#_ := by
        intro h
        have := congrArg BitVec.toNat h
        rw [hbits, toNat_allOnes_exponent] at this
        omega
      by_cases hnorm : 2 ^ spec.mantissaBitsWithoutImplicit ≤ m
      · have hlog : m.log2 + 1 = spec.mantissaBits := by
          have h₁ := (Nat.le_log2 hm.ne').mpr hnorm
          have h₂ := (Nat.log2_lt hm.ne').mpr hmp
          omega
        have hne0 : BitVec.ofNat spec.exponentBits biased ≠ 0#_ := by
          intro h
          have := congrArg BitVec.toNat h
          rw [hbits, BitVec.toNat_zero] at this
          omega
        have hmant : (1#1 ++ BitVec.ofNat spec.mantissaBitsWithoutImplicit m).toNat = m := by
          rw [toNat_implicit_append, BitVec.toNat_ofNat]
          have hdiv : m / 2 ^ spec.mantissaBitsWithoutImplicit = 1 := by
            apply Nat.div_eq_of_lt_le <;> omega
          have := Nat.mod_add_div m (2 ^ spec.mantissaBitsWithoutImplicit)
          rw [hdiv] at this
          omega
        unfold UnpackedFloat.pack UnpackedFloat.unpack
        simp only [hb, if_neg hfits, hlog, if_true, unpackMantissa_packComponents,
          unpackExponent_packComponents, sign_unpackSign_packComponents, hmant]
        rw [if_neg hne1, if_neg hne0, hbits]
        congr 1
        omega
      · have he' : e = spec.minExponent := hlow.resolve_left hnorm
        have hlog : ¬m.log2 + 1 = spec.mantissaBits := by
          have := (Nat.log2_lt hm.ne').mpr (not_le.mp hnorm)
          omega
        have hmbits : (BitVec.ofNat spec.mantissaBitsWithoutImplicit m).toNat = m := by
          rw [BitVec.toNat_ofNat, Nat.mod_eq_of_lt (not_le.mp hnorm)]
        have hmz : BitVec.ofNat spec.mantissaBitsWithoutImplicit m ≠ 0#_ := by
          intro h
          have := congrArg BitVec.toNat h
          rw [hmbits, BitVec.toNat_zero] at this
          omega
        unfold UnpackedFloat.pack UnpackedFloat.unpack
        simp only [hb, if_neg hfits, hlog, if_false, unpackMantissa_packComponents,
          unpackExponent_packComponents, sign_unpackSign_packComponents]
        rw [if_neg (zero_ne_allOnes spec), if_true, dif_neg hmz]
        congr 1
        simp only [BitVec.toNat_zero, Nat.cast_zero]
        omega
  | _ => cases hf

end Packing

section Order

variable {spec}

theorem lt_of_exponent_lt {s₁ s₂ : Sign} {m₁ m₂ : ℕ} {e₁ e₂ : ℤ} {hm₁ : 0 < m₁} {hm₂ : 0 < m₂}
    (hc₁ : Canonical spec (.finite s₁ m₁ e₁ hm₁)) (hc₂ : Canonical spec (.finite s₂ m₂ e₂ hm₂))
    (he : e₁ < e₂) : (m₁ : ℝ) * 2 ^ e₁ < m₂ * 2 ^ e₂ := by
  obtain ⟨hlt₁, hmin₁, -⟩ := hc₁
  obtain ⟨-, -, hlow₂⟩ := hc₂
  have hnorm : 2 ^ spec.mantissaBitsWithoutImplicit ≤ m₂ := hlow₂.resolve_right (by omega)
  have h₁ : (m₁ : ℝ) < 2 ^ spec.mantissaBits := by exact_mod_cast hlt₁
  have h₂ : (2 : ℝ) ^ spec.mantissaBitsWithoutImplicit ≤ m₂ := by exact_mod_cast hnorm
  calc (m₁ : ℝ) * 2 ^ e₁ < 2 ^ spec.mantissaBits * 2 ^ e₁ := by gcongr
    _ = 2 ^ spec.mantissaBitsWithoutImplicit * 2 ^ (e₁ + 1) := by
        rw [Format.mantissaBits, zpow_add_one₀ two_ne_zero, pow_add]
        ring
    _ ≤ m₂ * 2 ^ e₂ := by
        gcongr
        · exact one_le_two
        · omega

theorem compare_then_eq {s₁ s₂ : Sign} {m₁ m₂ : ℕ} {e₁ e₂ : ℤ} {hm₁ : 0 < m₁} {hm₂ : 0 < m₂}
    (hc₁ : Canonical spec (.finite s₁ m₁ e₁ hm₁)) (hc₂ : Canonical spec (.finite s₂ m₂ e₂ hm₂)) :
    (compare e₁ e₂).then (compare m₁ m₂) = compare ((m₁ : ℝ) * 2 ^ e₁) (m₂ * 2 ^ e₂) := by
  rcases lt_trichotomy e₁ e₂ with he | rfl | he
  · rw [Int.compare_eq_lt.mpr he, compare_lt_iff_lt.mpr (lt_of_exponent_lt hc₁ hc₂ he)]
    rfl
  · have hpos : (0 : ℝ) < 2 ^ e₁ := zpow_pos two_pos e₁
    rw [compare_eq_iff_eq.mpr rfl]
    rcases lt_trichotomy m₁ m₂ with hm | rfl | hm
    · rw [compare_lt_iff_lt.mpr hm, compare_lt_iff_lt.mpr (by gcongr)]
      rfl
    · rw [compare_eq_iff_eq.mpr rfl, compare_eq_iff_eq.mpr rfl]
      rfl
    · rw [compare_gt_iff_gt.mpr hm, compare_gt_iff_gt.mpr (by gcongr)]
      rfl
  · rw [Int.compare_eq_gt.mpr he, compare_gt_iff_gt.mpr (lt_of_exponent_lt hc₂ hc₁ he)]
    rfl

theorem compare_neg_neg (a b : ℝ) : compare (-a) (-b) = (compare a b).swap := by
  rcases lt_trichotomy a b with h | rfl | h
  · rw [compare_lt_iff_lt.mpr h, compare_gt_iff_gt.mpr (neg_lt_neg h)]
    rfl
  · rw [compare_eq_iff_eq.mpr rfl, compare_eq_iff_eq.mpr rfl]
    rfl
  · rw [compare_gt_iff_gt.mpr h, compare_lt_iff_lt.mpr (neg_lt_neg h)]
    rfl

theorem compare_eq_some_compare {u v : UnpackedFloat} (hu : Canonical spec u)
    (hv : Canonical spec v) (hfu : u.isFinite = true) (hfv : v.isFinite = true) :
    u.compare v = some (compare (value u) (value v)) := by
  cases u with
  | zero s =>
      cases v with
      | zero t => simp [UnpackedFloat.compare, value]
      | finite t m e hm =>
          have hpos : (0 : ℝ) < m * 2 ^ e := by positivity
          cases t <;> simp only [UnpackedFloat.compare, value, signed_negative, signed_positive,
            Option.some.injEq]
          · exact (compare_gt_iff_gt.mpr (by linarith)).symm
          · exact (compare_lt_iff_lt.mpr hpos).symm
      | _ => cases hfv
  | finite s m e hm =>
      have hpos : (0 : ℝ) < m * 2 ^ e := by positivity
      cases v with
      | zero t =>
          cases s <;> simp only [UnpackedFloat.compare, value, signed_negative, signed_positive,
            Option.some.injEq]
          · exact (compare_lt_iff_lt.mpr (by linarith)).symm
          · exact (compare_gt_iff_gt.mpr hpos).symm
      | finite t m' e' hm' =>
          have hpos' : (0 : ℝ) < m' * 2 ^ e' := by positivity
          have hthen := compare_then_eq hu hv
          cases s <;> cases t
          · simp only [UnpackedFloat.compare, value, signed_negative, hthen, Option.some.injEq]
            rw [compare_neg_neg]
          · simp only [UnpackedFloat.compare, value, signed_negative, signed_positive,
              Option.some.injEq]
            exact (compare_lt_iff_lt.mpr (by linarith)).symm
          · simp only [UnpackedFloat.compare, value, signed_negative, signed_positive,
              Option.some.injEq]
            exact (compare_gt_iff_gt.mpr (by linarith)).symm
          · simp only [UnpackedFloat.compare, value, signed_positive, hthen]
      | _ => cases hfv
  | _ => cases hfu

end Order

section Signs

theorem hasSign_roundWithAccuracy (s : Sign) (m : ℕ) (e : ℤ) (acc : Accuracy) :
    HasSign s (roundWithAccuracy spec s m e acc) := by
  unfold roundWithAccuracy
  dsimp only
  split <;> rfl

def PositiveSign (u : UnpackedFloat) : Prop :=
  HasSign .positive u ∨ u = .infinity .positive

theorem PositiveSign.isNaN {u : UnpackedFloat} (h : PositiveSign u) : u.isNaN = false := by
  rcases h with h | rfl
  · cases u <;> first | rfl | exact h.elim
  · rfl

theorem unpack_packedInfinity (s : Sign) : unpack spec (packedInfinity spec s) = .infinity s := by
  unfold packedInfinity UnpackedFloat.unpack
  simp only [unpackMantissa_packComponents, unpackExponent_packComponents,
    sign_unpackSign_packComponents, if_true]
  rfl

theorem unpack_pack_hasSign (hspec : 2 ≤ spec.exponentBits) {s : Sign} {u : UnpackedFloat}
    (hc : Canonical spec u) (hs : HasSign s u) :
    unpack spec (pack spec u) = u ∨ unpack spec (pack spec u) = .infinity s := by
  by_cases hlt : mag u < 2 ^ (2 ^ (spec.exponentBits - 1) : ℤ)
  · exact .inl (unpack_pack_of_canonical spec hspec hc hs.isFinite hlt)
  right
  cases u with
  | zero t => exact absurd (by simp only [mag]; positivity) hlt
  | finite t m e hm =>
      cases hs
      obtain ⟨hmp, -, -⟩ := hc
      have he : (2 ^ (spec.exponentBits - 1) : ℤ) - spec.mantissaBits < e := by
        by_contra he
        refine hlt (lt_of_lt_of_le (mul_lt_mul_of_pos_right
          (by exact_mod_cast hmp : (m : ℝ) < 2 ^ spec.mantissaBits) (zpow_pos two_pos e)) ?_)
        rw [← zpow_natCast, ← zpow_add₀ two_ne_zero]
        exact zpow_le_zpow_right₀ one_le_two (by omega)
      have hcap := exponentCodes_cast spec
      have hbias := exponentBias_cast spec
      have hp := mantissaBits_cast spec
      have hover : 2 ^ spec.exponentBits ≤
          (e + spec.exponentBias + spec.mantissaBitsWithoutImplicit).toNat + 1 := by
        omega
      unfold UnpackedFloat.pack
      simp only [if_pos hover]
      exact unpack_packedInfinity spec s
  | _ => exact hs.elim

theorem hasSign_round (s : Sign) (m : ℕ) (e : ℤ) : HasSign s (round spec s m e) := by
  unfold UnpackedFloat.round
  exact hasSign_roundWithAccuracy spec _ _ _ _

theorem hasSign_normalize {n : ℤ} (hn : 0 < n) (e : ℤ) (zs : Sign) :
    HasSign .positive (normalize spec n e zs) := by
  unfold UnpackedFloat.normalize
  rw [Int.compare_eq_gt.mpr hn]
  exact hasSign_round spec _ _ _

theorem sign_mul_self (s : Sign) : s * s = .positive := by
  cases s <;> rfl

theorem positiveSign_unpack_pack (hspec : 2 ≤ spec.exponentBits) {u : UnpackedFloat}
    (hc : Canonical spec u) (hu : PositiveSign u) : PositiveSign (unpack spec (pack spec u)) := by
  rcases hu with hs | rfl
  · rcases unpack_pack_hasSign spec hspec hc hs with h | h <;> rw [h]
    · exact .inl hs
    · exact .inr rfl
  · exact .inr (unpack_packedInfinity spec .positive)

section Operations

variable {u v : UnpackedFloat}

theorem add_positiveSign (hu : PositiveSign u) (hv : PositiveSign v) (hcu : Canonical spec u)
    (hcv : Canonical spec v) : PositiveSign (add spec u v) ∧ Canonical spec (add spec u v) := by
  rcases hu with hu | rfl
  · rcases hv with hv | rfl
    · refine ⟨.inl ?_, (add_rounded spec hcu hcv hu.isFinite hv.isFinite).canonical⟩
      cases u with
      | zero s =>
          cases hu
          cases v with
          | zero t => cases hv; rfl
          | finite t m e hm => exact hv
          | _ => exact hv.elim
      | finite s m e hm =>
          cases hu
          cases v with
          | zero t => rfl
          | finite t m' e' hm' =>
              cases hv
              refine hasSign_normalize spec ?_ _ _
              simp only [Sign.apply, Nat.shiftLeft_eq]
              positivity
          | _ => exact hv.elim
      | _ => exact hu.elim
    · cases u with
      | zero s => exact ⟨.inr rfl, trivial⟩
      | finite s m e hm => exact ⟨.inr rfl, trivial⟩
      | _ => exact hu.elim
  · rcases hv with hv | rfl
    · cases v with
      | zero t => exact ⟨.inr rfl, trivial⟩
      | finite t m e hm => exact ⟨.inr rfl, trivial⟩
      | _ => exact hv.elim
    · exact ⟨.inr rfl, trivial⟩

theorem mul_self_positiveSign (hn : u.isNaN = false) (hc : Canonical spec u) :
    PositiveSign (mul spec u u) ∧ Canonical spec (mul spec u u) := by
  cases u with
  | infinity s => exact ⟨.inr (by rw [← sign_mul_self s]; rfl), trivial⟩
  | notANumber => cases hn
  | zero s => exact ⟨.inl (sign_mul_self s), trivial⟩
  | finite s m e hm =>
      refine ⟨.inl ?_, (mul_rounded spec hc hc rfl rfl).canonical⟩
      rw [← sign_mul_self s]
      exact hasSign_roundWithAccuracy spec _ _ _ _

theorem mul_hasSign (hu : HasSign .positive u) (hv : HasSign .positive v) (hcu : Canonical spec u)
    (hcv : Canonical spec v) : HasSign .positive (mul spec u v) ∧ Canonical spec (mul spec u v) := by
  refine ⟨?_, (mul_rounded spec hcu hcv hu.isFinite hv.isFinite).canonical⟩
  cases u with
  | zero s =>
      cases hu
      cases v with
      | zero t => cases hv; rfl
      | finite t m e hm => cases hv; rfl
      | _ => exact hv.elim
  | finite s m e hm =>
      cases hu
      cases v with
      | zero t => cases hv; rfl
      | finite t m' e' hm' => cases hv; exact hasSign_roundWithAccuracy spec _ _ _ _
      | _ => exact hv.elim
  | _ => exact hu.elim

theorem div_hasSign (hu : HasSign .positive u) (hv : HasSign .positive v) (hcu : Canonical spec u)
    (hv0 : value v ≠ 0) : HasSign .positive (div spec u v) ∧ Canonical spec (div spec u v) := by
  refine ⟨?_, (div_rounded spec hcu hu.isFinite hv.isFinite hv0).canonical⟩
  cases v with
  | zero t => exact absurd rfl hv0
  | finite t m' e' hm' =>
      cases hv
      cases u with
      | zero s => cases hu; rfl
      | finite s m e hm => cases hu; exact hasSign_roundWithAccuracy spec _ _ _ _
      | _ => exact hu.elim
  | _ => exact hv.elim

theorem sqrt_positiveSign (hu : PositiveSign u) (hc : Canonical spec u) :
    PositiveSign (UnpackedFloat.sqrt spec u) ∧ Canonical spec (UnpackedFloat.sqrt spec u) := by
  rcases hu with hu | rfl
  · have h0 : 0 ≤ value u := by
      rw [value_eq_signed_mag hu, signed_positive, ← abs_value]
      exact abs_nonneg _
    refine ⟨.inl ?_, (sqrt_rounded spec hu.isFinite h0).canonical⟩
    cases u with
    | zero s => exact hu
    | finite s m e hm => cases hu; exact hasSign_roundWithAccuracy spec _ _ _ _
    | _ => exact hu.elim
  · exact ⟨.inr rfl, trivial⟩

theorem roundTo_hasSign {s : Sign} (hu : HasSign s u) :
    HasSign s (Binary32.roundTo spec u) ∧ Canonical spec (Binary32.roundTo spec u) := by
  cases u with
  | zero t => exact ⟨hu, trivial⟩
  | finite t m e hm =>
      cases hu
      exact ⟨hasSign_round spec _ _ _, (round_rounded spec s hm e).canonical⟩
  | _ => exact hu.elim

theorem roundTo_positiveSign (hu : PositiveSign u) :
    PositiveSign (Binary32.roundTo spec u) ∧ Canonical spec (Binary32.roundTo spec u) := by
  rcases hu with hu | rfl
  · exact ⟨.inl (roundTo_hasSign spec hu).1, (roundTo_hasSign spec hu).2⟩
  · exact ⟨.inr rfl, trivial⟩

end Operations

end Signs

end DualArrays.Proofs.UnpackedArithmetic
