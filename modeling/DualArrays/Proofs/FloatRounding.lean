import Mathlib

/-!
# Rounding in the unpacked float model

Lean's binary floats compute through an unpacked model: a result is formed exactly as a
mantissa and exponent, possibly with round and sticky bits that say where the exact value lies
beyond the last kept bit, and `roundWithAccuracy` rounds it to the precision of a format, to
nearest with ties to even. This module gives the rounding its error bound: the rounded value
lies within half a unit in the last place of the exact value, and that unit is at most
`2 ^ -(p - 1)` times the value, or the least subnormal power for tiny values. The result is
canonical for the format, so that packing it loses nothing.
-/

namespace DualArrays.Proofs.FloatRounding

open Float.Model Float.Model.UnpackedFloat

/-- Where a real `x` lies relative to an extended mantissa: at the mantissa, below or at the
midpoint to the next integer, or beyond it, as the round and sticky bits say. -/
def Locates (em : ExtendedMantissa) (x : ℝ) : Prop :=
  match em.roundBit, em.stickyBit with
  | false, false => x = em.mantissa
  | false, true => (em.mantissa : ℝ) < x ∧ x < em.mantissa + 1 / 2
  | true, false => x = em.mantissa + 1 / 2
  | true, true => (em.mantissa : ℝ) + 1 / 2 < x ∧ x < em.mantissa + 1

theorem locates_exact (m : ℕ) : Locates (ExtendedMantissa.ofMantissaAndAccuracy m .exact) m := by
  simp [Locates, ExtendedMantissa.ofMantissaAndAccuracy]

theorem Locates.bounds {em : ExtendedMantissa} {x : ℝ} (h : Locates em x) :
    (em.mantissa : ℝ) ≤ x ∧ x < em.mantissa + 1 := by
  rcases em with ⟨m, r, s⟩
  cases r <;> cases s <;> simp only [Locates] at h
  · subst h; constructor <;> linarith
  · constructor <;> linarith [h.1, h.2]
  · subst h; constructor <;> linarith
  · constructor <;> linarith [h.1, h.2]

theorem Locates.shiftRightOne {em : ExtendedMantissa} {x : ℝ} (h : Locates em x) :
    Locates em.shiftRightOne (x / 2) := by
  rcases em with ⟨m, r, s⟩
  -- the bit shifted out becomes the round bit, and the old bits fold into the sticky bit
  have hdiv : ((m / 2 : ℕ) : ℝ) * 2 + ((m % 2 : ℕ) : ℝ) = m := by
    exact_mod_cast Nat.div_add_mod' m 2
  rcases Nat.mod_two_eq_zero_or_one m with hb | hb <;> rw [hb] at hdiv <;>
    cases r <;> cases s <;> simp [Locates, ExtendedMantissa.shiftRightOne, hb] at h hdiv ⊢
  all_goals first
    | (constructor <;> linarith [h.1, h.2])
    | (subst h; constructor <;> linarith)
    | (subst h; linarith)

theorem Locates.shiftRight {em : ExtendedMantissa} {x : ℝ} (h : Locates em x) (n : ℕ) :
    Locates (em >>> n) (x / 2 ^ n) := by
  change Locates (n.repeat ExtendedMantissa.shiftRightOne em) _
  induction n with
  | zero => simpa [Nat.repeat] using h
  | succ n ih =>
      rw [Nat.repeat, pow_succ, ← div_div]
      exact ih.shiftRightOne

theorem Locates.roundedMantissa {em : ExtendedMantissa} {x : ℝ} (h : Locates em x) :
    |(em.roundedMantissa : ℝ) - x| ≤ 1 / 2 := by
  rcases em with ⟨m, r, s⟩
  have hpar : ((m % 2 : ℕ) : ℝ) ≤ 1 := by exact_mod_cast Nat.le_of_lt_succ (Nat.mod_lt m two_pos)
  have hpar' : (0 : ℝ) ≤ ((m % 2 : ℕ) : ℝ) := Nat.cast_nonneg _
  cases r <;> cases s <;>
    simp only [Locates, ExtendedMantissa.roundedMantissa, ExtendedMantissa.accuracy,
      Accuracy.roundToNearestEven] at h ⊢ <;> push_cast <;> rw [abs_le]
  all_goals first
    | (constructor <;> linarith [h.1, h.2])
    | (subst h; constructor <;> linarith)

def HasSign (s : Sign) : UnpackedFloat → Prop
  | .zero t => t = s
  | .finite t .. => t = s
  | _ => False

noncomputable def mag : UnpackedFloat → ℝ
  | .finite _ m e _ => (m : ℝ) * 2 ^ e
  | _ => 0

def signed : Sign → ℝ → ℝ
  | .positive, x => x
  | .negative, x => -x

@[simp] theorem signed_positive (x : ℝ) : signed .positive x = x := rfl

@[simp] theorem signed_negative (x : ℝ) : signed .negative x = -x := rfl

theorem signed_mul_signed (s t : Sign) (x y : ℝ) : signed s x * signed t y = signed (s * t) (x * y) := by
  cases s <;> cases t <;> first | rfl | (simp only [signed]; ring)

noncomputable def value : UnpackedFloat → ℝ
  | .finite s m e _ => signed s (m * 2 ^ e)
  | _ => 0

/-- A finite value as packing needs it: at most `p` mantissa bits, an exponent no lower than
the least, and all `p` bits in use unless the exponent is the least. -/
def Canonical (spec : Format) : UnpackedFloat → Prop
  | .finite _ m e _ => m < 2 ^ spec.mantissaBits ∧ spec.minExponent ≤ e ∧
      (2 ^ spec.mantissaBitsWithoutImplicit ≤ m ∨ e = spec.minExponent)
  | _ => True

noncomputable def maxFinite (spec : Format) : ℝ :=
  (2 ^ spec.mantissaBits - 1) * 2 ^ ((2 ^ (spec.exponentBits - 1) : ℤ) - spec.mantissaBits)

/-- `r` is `x ≥ 0` rounded with sign `s` at unit exponent `T`: a canonical zero or finite value
of sign `s` within half a unit `2 ^ T` of `x`. -/
structure RoundsTo (spec : Format) (s : Sign) (x : ℝ) (T : ℤ) (r : UnpackedFloat) : Prop where
  hasSign : HasSign s r
  canonical : Canonical spec r
  error : |mag r - x| ≤ 2 ^ (T - 1)

/-- `r` is the real `x` rounded to the format: a canonical zero or finite value, of the sign of
`x` when `x` is not zero, within `2 ^ -p` of `|x|` plus half the least unit. -/
structure Rounded (spec : Format) (x : ℝ) (r : UnpackedFloat) : Prop where
  isFinite : r.isFinite = true
  canonical : Canonical spec r
  pos : 0 < x → HasSign .positive r
  neg : x < 0 → HasSign .negative r
  error : |value r - x| ≤ |x| / 2 ^ spec.mantissaBits + 2 ^ (spec.minExponent - 1)

theorem HasSign.isFinite {s : Sign} {r : UnpackedFloat} (h : HasSign s r) : r.isFinite = true := by
  cases r <;> first | rfl | exact h.elim

theorem value_eq_signed_mag {s : Sign} {r : UnpackedFloat} (h : HasSign s r) :
    value r = signed s (mag r) := by
  cases r with
  | zero t => cases s <;> simp [value, mag]
  | finite t m e hm => cases h; rfl
  | _ => exact h.elim

@[simp] theorem mantissa_ofMantissaAndAccuracy (m : ℕ) (acc : Accuracy) :
    (ExtendedMantissa.ofMantissaAndAccuracy m acc).mantissa = m := by
  cases acc with
  | exact => rfl
  | inexact o => cases o <;> rfl

theorem Locates.nonneg {em : ExtendedMantissa} {x : ℝ} (h : Locates em x) : 0 ≤ x :=
  (Nat.cast_nonneg _).trans h.bounds.1

section Located

variable {m : ℕ} {e : ℤ} {acc : Accuracy} {x : ℝ}

theorem located_lt (hx : Locates (ExtendedMantissa.ofMantissaAndAccuracy m acc) (x / 2 ^ e)) :
    x < 2 ^ totalExponent m e := by
  have hhi := hx.bounds.2
  rw [mantissa_ofMantissaAndAccuracy] at hhi
  have hpos : (0 : ℝ) < 2 ^ e := zpow_pos two_pos e
  have hlog : (m : ℝ) + 1 ≤ 2 ^ (m.log2 + 1) := by exact_mod_cast Nat.lt_log2_self
  calc x < (m + 1) * 2 ^ e := by rwa [div_lt_iff₀ hpos] at hhi
    _ ≤ 2 ^ (m.log2 + 1) * 2 ^ e := mul_le_mul_of_nonneg_right hlog hpos.le
    _ = 2 ^ totalExponent m e := by
        rw [totalExponent, zpow_add₀ two_ne_zero, ← zpow_natCast]
        push_cast
        rfl

theorem le_located (hm : 0 < m)
    (hx : Locates (ExtendedMantissa.ofMantissaAndAccuracy m acc) (x / 2 ^ e)) :
    (2 : ℝ) ^ (totalExponent m e - 1) ≤ x := by
  have hlo := hx.bounds.1
  rw [mantissa_ofMantissaAndAccuracy] at hlo
  have hpos : (0 : ℝ) < 2 ^ e := zpow_pos two_pos e
  have hlog : (2 : ℝ) ^ m.log2 ≤ m := by exact_mod_cast Nat.log2_self_le hm.ne'
  calc (2 : ℝ) ^ (totalExponent m e - 1) = 2 ^ m.log2 * 2 ^ e := by
        rw [totalExponent, show (m.log2 : ℤ) + 1 + e - 1 = (m.log2 : ℤ) + e by ring,
          zpow_add₀ two_ne_zero, zpow_natCast]
    _ ≤ m * 2 ^ e := mul_le_mul_of_nonneg_right hlog hpos.le
    _ ≤ x := by rwa [le_div_iff₀ hpos] at hlo

end Located

section Shifts

variable (spec : Format)

theorem shiftToTargetExponent_of_le {m : ℕ} {e : ℤ} (acc : Accuracy)
    (he : e ≤ spec.targetExponent (totalExponent m e)) :
    shiftToTargetExponent spec m e acc =
      (ExtendedMantissa.ofMantissaAndAccuracy m acc >>>
        (spec.targetExponent (totalExponent m e) - e).toNat,
        spec.targetExponent (totalExponent m e)) := by
  simp only [shiftToTargetExponent, shiftToExponent, Prod.mk.injEq, true_and]
  omega

theorem shiftToTargetExponent_of_lt {R : ℕ} {T : ℤ} (hR : R < 2 ^ spec.mantissaBits)
    (hT : spec.minExponent ≤ T) :
    shiftToTargetExponent spec R T .exact = (ExtendedMantissa.ofMantissaAndAccuracy R .exact, T) := by
  have hlog : (totalExponent R T) ≤ spec.mantissaBits + T := by
    unfold totalExponent
    by_cases hz : R = 0
    · subst hz
      simp only [Nat.log2_zero, Nat.cast_zero, zero_add]
      have := spec.hm
      simp only [Format.mantissaBits]
      omega
    · have := (Nat.log2_lt hz).mpr hR
      omega
  have ht : spec.targetExponent (totalExponent R T) ≤ T := by
    unfold Format.targetExponent
    omega
  simp only [shiftToTargetExponent, shiftToExponent, Prod.mk.injEq]
  constructor
  · rw [show (spec.targetExponent (totalExponent R T) - T).toNat = 0 by omega]
    rfl
  · omega

theorem shiftToTargetExponent_carry {T : ℤ} (hT : spec.minExponent ≤ T) :
    shiftToTargetExponent spec (2 ^ spec.mantissaBits) T .exact =
      (⟨2 ^ spec.mantissaBitsWithoutImplicit, false, false⟩, T + 1) := by
  have ht : spec.targetExponent (totalExponent (2 ^ spec.mantissaBits) T) = T + 1 := by
    simp only [Format.targetExponent, totalExponent, Nat.log2_two_pow]
    omega
  have hpow : 2 ^ spec.mantissaBits = 2 ^ spec.mantissaBitsWithoutImplicit * 2 := by
    rw [Format.mantissaBits, Nat.add_comm, Nat.pow_succ]
  simp only [shiftToTargetExponent, shiftToExponent, ht, show (T + 1 - T).toNat = 1 by omega,
    Prod.mk.injEq, Nat.cast_one, and_true]
  show ExtendedMantissa.shiftRightOne ⟨2 ^ spec.mantissaBits, false, false⟩ = _
  simp [ExtendedMantissa.shiftRightOne, hpow]

end Shifts

section Round

variable (spec : Format) (s : Sign) {m : ℕ} {e : ℤ} (acc : Accuracy)

def firstRounded : ℕ :=
  (ExtendedMantissa.ofMantissaAndAccuracy m acc >>>
    (spec.targetExponent (totalExponent m e) - e).toNat).roundedMantissa

theorem roundWithAccuracy_of_lt (he : e ≤ spec.targetExponent (totalExponent m e))
    (hR : firstRounded spec acc (m := m) (e := e) < 2 ^ spec.mantissaBits) :
    roundWithAccuracy spec s m e acc =
      if h : firstRounded spec acc (m := m) (e := e) = 0 then .zero s
      else .finite s (firstRounded spec acc (m := m) (e := e))
        (spec.targetExponent (totalExponent m e)) (Nat.pos_of_ne_zero h) := by
  have hT : spec.minExponent ≤ spec.targetExponent (totalExponent m e) := le_max_right _ _
  unfold roundWithAccuracy
  rw [shiftToTargetExponent_of_le spec acc he]
  dsimp only
  unfold firstRounded at hR ⊢
  rw [shiftToTargetExponent_of_lt spec hR hT]
  rfl

theorem roundWithAccuracy_of_carry (he : e ≤ spec.targetExponent (totalExponent m e))
    (hR : firstRounded spec acc (m := m) (e := e) = 2 ^ spec.mantissaBits) :
    roundWithAccuracy spec s m e acc =
      .finite s (2 ^ spec.mantissaBitsWithoutImplicit)
        (spec.targetExponent (totalExponent m e) + 1) (Nat.two_pow_pos _) := by
  have hT : spec.minExponent ≤ spec.targetExponent (totalExponent m e) := le_max_right _ _
  unfold roundWithAccuracy
  rw [shiftToTargetExponent_of_le spec acc he]
  dsimp only
  unfold firstRounded at hR
  rw [hR, shiftToTargetExponent_carry spec hT]
  simp

variable {acc} {x : ℝ}

theorem locates_firstShift (hx : Locates (ExtendedMantissa.ofMantissaAndAccuracy m acc) (x / 2 ^ e))
    (he : e ≤ spec.targetExponent (totalExponent m e)) :
    Locates (ExtendedMantissa.ofMantissaAndAccuracy m acc >>>
      (spec.targetExponent (totalExponent m e) - e).toNat)
      (x / 2 ^ spec.targetExponent (totalExponent m e)) := by
  have h := hx.shiftRight (spec.targetExponent (totalExponent m e) - e).toNat
  rwa [div_div, ← zpow_natCast, ← zpow_add₀ two_ne_zero, Int.toNat_of_nonneg (by omega),
    add_sub_cancel] at h

theorem firstRounded_le (hx : Locates (ExtendedMantissa.ofMantissaAndAccuracy m acc) (x / 2 ^ e))
    (he : e ≤ spec.targetExponent (totalExponent m e)) :
    firstRounded spec acc (m := m) (e := e) ≤ 2 ^ spec.mantissaBits := by
  set T := spec.targetExponent (totalExponent m e)
  have herr := abs_le.mp (locates_firstShift spec hx he).roundedMantissa
  have hsmall : x / 2 ^ T < 2 ^ spec.mantissaBits := by
    rw [div_lt_iff₀ (zpow_pos two_pos T), ← zpow_natCast, ← zpow_add₀ two_ne_zero]
    calc x < 2 ^ totalExponent m e := located_lt hx
      _ ≤ 2 ^ ((spec.mantissaBits : ℤ) + T) :=
          zpow_le_zpow_right₀ one_le_two (by simp only [T, Format.targetExponent]; omega)
  have hR : (firstRounded spec acc (m := m) (e := e) : ℝ) < 2 ^ spec.mantissaBits + 1 := by
    unfold firstRounded
    linarith
  exact Nat.le_of_lt_succ (by exact_mod_cast hR)

theorem le_firstRounded (hm : 0 < m)
    (hx : Locates (ExtendedMantissa.ofMantissaAndAccuracy m acc) (x / 2 ^ e))
    (he : e ≤ spec.targetExponent (totalExponent m e))
    (hT : spec.targetExponent (totalExponent m e) ≠ spec.minExponent) :
    2 ^ spec.mantissaBitsWithoutImplicit ≤ firstRounded spec acc (m := m) (e := e) := by
  set T := spec.targetExponent (totalExponent m e)
  have herr := abs_le.mp (locates_firstShift spec hx he).roundedMantissa
  have hTeq : T = totalExponent m e - spec.mantissaBits := by
    simp only [T, Format.targetExponent] at hT ⊢
    omega
  have hlarge : (2 : ℝ) ^ spec.mantissaBitsWithoutImplicit ≤ x / 2 ^ T := by
    rw [le_div_iff₀ (zpow_pos two_pos T), ← zpow_natCast, ← zpow_add₀ two_ne_zero]
    refine le_trans (zpow_le_zpow_right₀ one_le_two ?_) (le_located hm hx)
    simp only [hTeq, Format.mantissaBits]
    omega
  have hR : (2 : ℝ) ^ spec.mantissaBitsWithoutImplicit <
      (firstRounded spec acc (m := m) (e := e) : ℝ) + 1 := by
    unfold firstRounded
    linarith
  exact Nat.le_of_lt_succ (by exact_mod_cast hR)

theorem exponent_le_target
    (h : 2 ^ spec.mantissaBitsWithoutImplicit ≤ m ∨ e ≤ spec.minExponent) :
    e ≤ spec.targetExponent (totalExponent m e) := by
  rcases h with h | h
  · have hm : m ≠ 0 := by
      have := Nat.two_pow_pos spec.mantissaBitsWithoutImplicit
      omega
    have hlog := (Nat.le_log2 hm).mpr h
    simp only [Format.targetExponent, totalExponent, Format.mantissaBits]
    omega
  · exact h.trans (le_max_right _ _)

theorem target_eq_minExponent_of_zero (he : e ≤ spec.targetExponent (totalExponent 0 e)) :
    spec.targetExponent (totalExponent 0 e) = spec.minExponent := by
  have := spec.hm
  simp only [Format.targetExponent, totalExponent, Format.mantissaBits, Nat.log2_zero] at he ⊢
  omega

theorem roundWithAccuracy_roundsTo
    (hx : Locates (ExtendedMantissa.ofMantissaAndAccuracy m acc) (x / 2 ^ e))
    (he : e ≤ spec.targetExponent (totalExponent m e)) :
    RoundsTo spec s x (spec.targetExponent (totalExponent m e)) (roundWithAccuracy spec s m e acc) := by
  set T := spec.targetExponent (totalExponent m e) with hTdef
  set R := firstRounded spec acc (m := m) (e := e)
  have hT : spec.minExponent ≤ T := le_max_right _ _
  have hle : R ≤ 2 ^ spec.mantissaBits := firstRounded_le spec hx he
  have hlow : 2 ^ spec.mantissaBitsWithoutImplicit ≤ R ∨ T = spec.minExponent := by
    by_cases hTm : T = spec.minExponent
    · exact .inr hTm
    rcases Nat.eq_zero_or_pos m with rfl | hm
    · exact absurd (target_eq_minExponent_of_zero spec he) hTm
    · exact .inl (le_firstRounded spec hm hx he hTm)
  have herr : |(R : ℝ) * 2 ^ T - x| ≤ 2 ^ (T - 1) := by
    have h := (locates_firstShift spec hx he).roundedMantissa
    have hpos : (0 : ℝ) < 2 ^ T := zpow_pos two_pos T
    calc |(R : ℝ) * 2 ^ T - x| = |(R : ℝ) - x / 2 ^ T| * 2 ^ T := by
          rw [← abs_of_pos hpos, ← abs_mul, abs_of_pos hpos, sub_mul, div_mul_cancel₀ _ hpos.ne']
      _ ≤ 1 / 2 * 2 ^ T := mul_le_mul_of_nonneg_right h hpos.le
      _ = 2 ^ (T - 1) := by rw [zpow_sub₀ two_ne_zero, zpow_one]; ring
  rcases hle.lt_or_eq with hlt | heq
  · rw [roundWithAccuracy_of_lt spec s acc he hlt]
    split_ifs with h0
    · refine ⟨rfl, trivial, ?_⟩
      have hR0 : R = 0 := h0
      rw [hR0, Nat.cast_zero, zero_mul] at herr
      simpa [mag] using herr
    · exact ⟨rfl, ⟨hlt, hT, hlow⟩, herr⟩
  · rw [roundWithAccuracy_of_carry spec s acc he heq, ← hTdef]
    refine ⟨rfl, ⟨?_, by omega, .inl le_rfl⟩, ?_⟩
    · exact Nat.pow_lt_pow_right one_lt_two (by simp [Format.mantissaBits])
    · have hcarry : mag (.finite s (2 ^ spec.mantissaBitsWithoutImplicit) (T + 1)
          (Nat.two_pow_pos _)) = (R : ℝ) * 2 ^ T := by
        rw [mag, heq, Format.mantissaBits, zpow_add_one₀ two_ne_zero]
        push_cast
        ring
      rw [hcarry]
      exact herr

theorem half_unit_le (hm : 0 < m)
    (hx : Locates (ExtendedMantissa.ofMantissaAndAccuracy m acc) (x / 2 ^ e)) :
    (2 : ℝ) ^ (spec.targetExponent (totalExponent m e) - 1) ≤
      x / 2 ^ spec.mantissaBits + 2 ^ (spec.minExponent - 1) := by
  have hx0 : 0 ≤ x / 2 ^ spec.mantissaBits :=
    div_nonneg ((le_located hm hx).trans' (by positivity)) (by positivity)
  rcases max_cases (totalExponent m e - spec.mantissaBits) spec.minExponent with ⟨hT, -⟩ | ⟨hT, -⟩
  · have hlo := le_located hm hx
    rw [Format.targetExponent, hT]
    calc (2 : ℝ) ^ (totalExponent m e - spec.mantissaBits - 1)
        = 2 ^ (totalExponent m e - 1) / 2 ^ spec.mantissaBits := by
          rw [← zpow_natCast, ← zpow_sub₀ two_ne_zero]
          ring_nf
      _ ≤ x / 2 ^ spec.mantissaBits := by gcongr
      _ ≤ _ := le_add_of_nonneg_right (by positivity)
  · rw [Format.targetExponent, hT]
    linarith

end Round

section Normalize

variable (spec : Format)

theorem log2_shiftLeft {m : ℕ} (hm : m ≠ 0) (k : ℕ) : (m <<< k).log2 = m.log2 + k := by
  rw [Nat.shiftLeft_eq, Nat.log2_eq_iff (Nat.mul_ne_zero hm (Nat.two_pow_pos k).ne')]
  constructor
  · rw [Nat.pow_add]
    exact Nat.mul_le_mul_right _ (Nat.log2_self_le hm)
  · rw [show m.log2 + k + 1 = (m.log2 + 1) + k by omega, Nat.pow_add]
    exact Nat.mul_lt_mul_of_pos_right Nat.lt_log2_self (Nat.two_pow_pos k)

theorem round_roundsTo (s : Sign) {m : ℕ} (hm : 0 < m) (e : ℤ) :
    RoundsTo spec s (m * 2 ^ e) (spec.targetExponent (totalExponent m e)) (round spec s m e) := by
  set k := (e - spec.targetExponent (totalExponent m e)).toNat
  have htot : totalExponent (m <<< k) (e - k) = totalExponent m e := by
    simp only [totalExponent, log2_shiftLeft hm.ne']
    push_cast
    ring
  have hx : Locates (ExtendedMantissa.ofMantissaAndAccuracy (m <<< k) .exact)
      ((m : ℝ) * 2 ^ e / 2 ^ (e - (k : ℤ))) := by
    have hval : (m : ℝ) * 2 ^ e / 2 ^ (e - (k : ℤ)) = ((m <<< k : ℕ) : ℝ) := by
      rw [Nat.shiftLeft_eq, zpow_sub₀ two_ne_zero, zpow_natCast]
      push_cast
      field_simp
    rw [hval]
    exact locates_exact _
  have he : e - (k : ℤ) ≤ spec.targetExponent (totalExponent (m <<< k) (e - k)) := by
    rw [htot]
    omega
  have h := roundWithAccuracy_roundsTo spec s hx he
  rw [htot] at h
  exact h

theorem RoundsTo.rounded {s : Sign} {x : ℝ} {T : ℤ} {r : UnpackedFloat}
    (h : RoundsTo spec s x T r) (hx : 0 ≤ x)
    (hT : (2 : ℝ) ^ (T - 1) ≤ x / 2 ^ spec.mantissaBits + 2 ^ (spec.minExponent - 1)) :
    Rounded spec (signed s x) r := by
  have herr : |value r - signed s x| ≤ |signed s x| / 2 ^ spec.mantissaBits +
      2 ^ (spec.minExponent - 1) := by
    rw [value_eq_signed_mag h.hasSign]
    cases s
    · rw [signed_negative, signed_negative, abs_neg, abs_of_nonneg hx,
        show -mag r - -x = -(mag r - x) by ring, abs_neg]
      exact h.error.trans hT
    · rw [signed_positive, signed_positive, abs_of_nonneg hx]
      exact h.error.trans hT
  refine ⟨h.hasSign.isFinite, h.canonical, fun hpos => ?_, fun hneg => ?_, herr⟩
  · cases s
    · exact absurd hx (by simp at hpos; linarith)
    · exact h.hasSign
  · cases s
    · exact h.hasSign
    · exact absurd hx (by simp at hneg; linarith)

theorem roundWithAccuracy_rounded (s : Sign) {m : ℕ} {e : ℤ} {acc : Accuracy} {x : ℝ}
    (hx : Locates (ExtendedMantissa.ofMantissaAndAccuracy m acc) (x / 2 ^ e))
    (he : e ≤ spec.targetExponent (totalExponent m e)) :
    Rounded spec (signed s x) (roundWithAccuracy spec s m e acc) := by
  have hx0 : 0 ≤ x := by
    have h := hx.nonneg
    rwa [div_nonneg_iff, or_iff_left (fun h => absurd h.2 (not_le.mpr (zpow_pos two_pos e))),
      and_iff_left (zpow_pos two_pos e).le] at h
  refine (roundWithAccuracy_roundsTo spec s hx he).rounded spec hx0 ?_
  rcases Nat.eq_zero_or_pos m with rfl | hm
  · rw [target_eq_minExponent_of_zero spec he]
    exact le_add_of_nonneg_left (by positivity)
  · exact half_unit_le spec hm hx

theorem locates_exact_div (m : ℕ) (e : ℤ) :
    Locates (ExtendedMantissa.ofMantissaAndAccuracy m .exact) ((m : ℝ) * 2 ^ e / 2 ^ e) := by
  rw [mul_div_assoc, div_self (zpow_ne_zero e two_ne_zero), mul_one]
  exact locates_exact m

theorem round_rounded (s : Sign) {m : ℕ} (hm : 0 < m) (e : ℤ) :
    Rounded spec (signed s (m * 2 ^ e)) (round spec s m e) :=
  (round_roundsTo spec s hm e).rounded spec (by positivity)
    (half_unit_le spec hm (locates_exact_div m e))

theorem normalize_rounded (n e : ℤ) (zs : Sign) :
    Rounded spec ((n : ℝ) * 2 ^ e) (normalize spec n e zs) := by
  unfold UnpackedFloat.normalize
  rcases lt_trichotomy n 0 with hn | rfl | hn
  · rw [Int.compare_eq_lt.mpr hn]
    have h := round_rounded spec .negative (m := (-n).toNat) (by omega) e
    have hcast : ((-n).toNat : ℝ) = -(n : ℝ) := by
      rw [← Int.cast_natCast, Int.toNat_of_nonneg (by omega), Int.cast_neg]
    rwa [signed_negative, hcast, neg_mul, neg_neg] at h
  · rw [show compare (0 : ℤ) 0 = .eq from rfl]
    refine ⟨rfl, trivial, fun h => ?_, fun h => ?_, ?_⟩
    · simp at h
    · simp at h
    · simp [value]
      positivity
  · rw [Int.compare_eq_gt.mpr hn]
    have h := round_rounded spec .positive (m := n.toNat) (by omega) e
    have hcast : (n.toNat : ℝ) = (n : ℝ) := by
      rw [← Int.cast_natCast, Int.toNat_of_nonneg hn.le]
    rwa [signed_positive, hcast] at h

end Normalize

end DualArrays.Proofs.FloatRounding
