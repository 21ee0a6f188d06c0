import Mathlib
import DualArrays.Scalar.Real

namespace DualArrays.Proofs.FloatEncoding

open Float.Model Float.Model.UnpackedFloat

theorem sign_toBitVec_ofBitVec (s : BitVec 1) : (Sign.ofBitVec s).toBitVec = s := by
  unfold Sign.ofBitVec
  split
  · rename_i h
    simp [Sign.toBitVec, h]
  · rename_i h
    simp only [Sign.toBitVec]
    revert h
    revert s
    decide

theorem packComponents_fields (spec : Format) (b : BitVec spec.numBits) :
    packComponents spec (Sign.ofBitVec (unpackSign b)) (unpackExponent b) (unpackMantissa b) =
      b := by
  apply BitVec.eq_of_getLsbD_eq
  intro i hi
  have hi' : i < 1 + spec.exponentBits + spec.mantissaBitsWithoutImplicit := hi
  simp only [packComponents, sign_toBitVec_ofBitVec, BitVec.getLsbD_append, unpackSign,
    unpackExponent, unpackMantissa, BitVec.getLsbD_cast, BitVec.getLsbD_extractLsb]
  -- the three fields: mantissa below, exponent in the middle, the sign bit on top
  by_cases hm : i < spec.mantissaBitsWithoutImplicit
  · simp [hm]
    omega
  · by_cases he : i - spec.mantissaBitsWithoutImplicit < spec.exponentBits
    · have hidx : spec.mantissaBitsWithoutImplicit + (i - spec.mantissaBitsWithoutImplicit) = i := by
        omega
      simp [hm, he, hidx]
      omega
    · have hidx : spec.mantissaBitsWithoutImplicit + spec.exponentBits +
          (i - spec.mantissaBitsWithoutImplicit - spec.exponentBits) = i := by
        omega
      simp [hm, he, hidx]
      omega

theorem toNat_implicit_append {w : Nat} (m : BitVec w) :
    (1#1 ++ m).toNat = 2 ^ w + m.toNat := by
  rw [BitVec.toNat_append, ← Nat.shiftLeft_add_eq_or_of_lt m.isLt, Nat.shiftLeft_eq]
  simp

theorem pack_subnormal (spec : Format) (hspec : 2 ≤ spec.exponentBits) (s : Sign)
    (M : BitVec spec.mantissaBitsWithoutImplicit) (h : 0 < M.toNat) :
    UnpackedFloat.pack spec (.finite s M.toNat
      (((0#_ : BitVec spec.exponentBits).toNat : Int) -
        (spec.exponentBias + spec.mantissaBitsWithoutImplicit) + 1) h) =
      packComponents spec s 0#_ M := by
  have hlog : M.toNat.log2 < spec.mantissaBitsWithoutImplicit :=
    (Nat.log2_lt (by omega)).mpr M.isLt
  have hpow : 2 < 2 ^ spec.exponentBits :=
    calc 2 < 2 ^ 2 := by decide
      _ ≤ 2 ^ spec.exponentBits := Nat.pow_le_pow_right (by decide) hspec
  have hbits : spec.mantissaBits = 1 + spec.mantissaBitsWithoutImplicit := rfl
  simp only [UnpackedFloat.pack]
  split_ifs with hinf hnormal
  · simp at hinf
    omega
  · omega
  · simp

theorem pack_normal (spec : Format) (s : Sign) (E : BitVec spec.exponentBits)
    (M : BitVec spec.mantissaBitsWithoutImplicit) (hE : E ≠ -1#_) (h : 0 < (1#1 ++ M).toNat) :
    UnpackedFloat.pack spec (.finite s (1#1 ++ M).toNat
      ((E.toNat : Int) - (spec.exponentBias + spec.mantissaBitsWithoutImplicit)) h) =
      packComponents spec s E M := by
  have hval := toNat_implicit_append M
  have hlog : (1#1 ++ M).toNat.log2 = spec.mantissaBitsWithoutImplicit := by
    rw [hval, Nat.log2_eq_iff (by omega)]
    have := M.isLt
    constructor
    · omega
    · rw [Nat.pow_succ]
      omega
  have hE' : E.toNat + 1 < 2 ^ spec.exponentBits := by
    have hlt := E.isLt
    have hne : E.toNat ≠ 2 ^ spec.exponentBits - 1 := by
      intro heq
      apply hE
      rw [BitVec.neg_one_eq_allOnes]
      apply BitVec.eq_of_toNat_eq
      simp [heq]
    omega
  have hbits : spec.mantissaBits = 1 + spec.mantissaBitsWithoutImplicit := rfl
  have hbiased : ((E.toNat : Int) - (spec.exponentBias + spec.mantissaBitsWithoutImplicit) +
      spec.exponentBias + spec.mantissaBitsWithoutImplicit).toNat = E.toNat := by
    omega
  simp only [UnpackedFloat.pack]
  split_ifs with hinf hnormal
  · omega
  · congr 1
    · rw [hbiased]
      simp
    · apply BitVec.eq_of_toNat_eq
      simp [hval]
  · omega

theorem pack_unpack (spec : Format) (hspec : 2 ≤ spec.exponentBits) (b : BitVec spec.numBits)
    (hb : UnpackedFloat.unpack spec b ≠ .notANumber) :
    UnpackedFloat.pack spec (UnpackedFloat.unpack spec b) = b := by
  conv => rhs; rw [← packComponents_fields spec b]
  unfold UnpackedFloat.unpack at hb ⊢
  simp only at hb ⊢
  split
  · rename_i hexp
    split
    · rename_i hman
      simp [UnpackedFloat.pack, packedInfinity, hexp, hman]
    · rename_i hman
      simp [hexp, hman] at hb
  · rename_i hexp
    split
    · rename_i hzero
      split
      · rename_i hman
        simp [UnpackedFloat.pack, packedZero, hzero, hman]
      · rename_i hman
        have hpos : 0 < (unpackMantissa b).toNat := by
          rw [Nat.pos_iff_ne_zero]
          intro h0
          exact hman (BitVec.eq_of_toNat_eq (by simpa using h0))
        rw [hzero]
        exact pack_subnormal spec hspec _ _ hpos
    · exact pack_normal spec _ _ _ hexp _

theorem unpack_injective (spec : Format) (hspec : 2 ≤ spec.exponentBits)
    {b c : BitVec spec.numBits} (h : UnpackedFloat.unpack spec b = UnpackedFloat.unpack spec c)
    (hb : UnpackedFloat.unpack spec b ≠ .notANumber) : b = c := by
  have hc : UnpackedFloat.unpack spec c ≠ .notANumber := h ▸ hb
  rw [← pack_unpack spec hspec b hb, ← pack_unpack spec hspec c hc, h]

theorem float_eq_of_unpack_eq {x y : Float} (h : x.toModel.unpack = y.toModel.unpack)
    (hx : x.toModel.unpack ≠ .notANumber) : x = y := by
  have hbits := unpack_injective Format.binary64 (by decide) h hx
  rcases x with ⟨⟨xb, _⟩⟩
  rcases y with ⟨⟨yb, _⟩⟩
  have : xb = yb := UInt64.toBitVec_inj.mp hbits
  subst this
  rfl

theorem float32_eq_of_unpack_eq {x y : Float32} (h : x.toModel.unpack = y.toModel.unpack)
    (hx : x.toModel.unpack ≠ .notANumber) : x = y := by
  have hbits := unpack_injective Format.binary32 (by decide) h hx
  rcases x with ⟨⟨xb, _⟩⟩
  rcases y with ⟨⟨yb, _⟩⟩
  have : xb = yb := UInt32.toBitVec_inj.mp hbits
  subst this
  rfl

end DualArrays.Proofs.FloatEncoding
