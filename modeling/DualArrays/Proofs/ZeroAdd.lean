import DualArrays.Scalar.Basic
import DualArrays.Proofs.FloatOrder

namespace DualArrays.Proofs.ZeroAdd

open Float.Model Float.Model.UnpackedFloat
open DualArrays.Proofs.FloatEncoding DualArrays.Proofs.FloatOrder

section Unpacked

@[simp]
theorem unpackSign_packComponents (spec : Format) (s : Sign) (E M) :
    unpackSign (packComponents spec s E M) = s.toBitVec := by
  ext i hi
  obtain rfl : i = 0 := by omega
  simp [unpackSign, packComponents, BitVec.getLsbD_append, BitVec.getLsbD_eq_getElem,
    BitVec.getElem_append]

theorem sign_ofBitVec_toBitVec (s : Sign) : Sign.ofBitVec s.toBitVec = s := by
  cases s <;> rfl

theorem unpack_packComponents_positive (spec : Format) (s : Sign) (E M) :
    UnpackedFloat.unpack spec (packComponents spec .positive E M) =
      (UnpackedFloat.unpack spec (packComponents spec s E M)).abs := by
  simp only [UnpackedFloat.unpack, unpackSign_packComponents, unpackMantissa_packComponents,
    unpackExponent_packComponents, sign_ofBitVec_toBitVec]
  split_ifs <;> rfl

theorem unpack_pack_abs (spec : Format) (hspec : 2 ≤ spec.exponentBits)
    (hnan : UnpackedFloat.unpack spec (UnpackedFloat.pack spec .notANumber) = .notANumber)
    (b : BitVec spec.numBits) :
    UnpackedFloat.unpack spec (UnpackedFloat.pack spec (UnpackedFloat.unpack spec b).abs) =
      (UnpackedFloat.unpack spec b).abs := by
  by_cases hb : UnpackedFloat.unpack spec b = .notANumber
  · rw [hb]
    exact hnan
  have habs := unpack_packComponents_positive spec (Sign.ofBitVec (unpackSign b))
    (unpackExponent b) (unpackMantissa b)
  rw [packComponents_fields] at habs
  have hb' : UnpackedFloat.unpack spec
      (packComponents spec .positive (unpackExponent b) (unpackMantissa b)) ≠ .notANumber := by
    rw [habs]
    cases h : UnpackedFloat.unpack spec b with
    | notANumber => exact absurd h hb
    | _ => simp [UnpackedFloat.abs]
  rw [← habs, pack_unpack spec hspec _ hb']

theorem zero_add_of_ne_zero (spec : Format) {u : UnpackedFloat} (h : ∀ s, u ≠ .zero s) :
    add spec (.zero .positive) u = u := by
  cases u with
  | zero s => exact absurd rfl (h s)
  | _ => rfl

theorem zero_add_zero (spec : Format) (s : Sign) :
    add spec (.zero .positive) (.zero s) = .zero .positive := by
  cases s <;> rfl

theorem unpack_pack_zero_add (spec : Format) (hspec : 2 ≤ spec.exponentBits)
    (hnan : UnpackedFloat.unpack spec (UnpackedFloat.pack spec .notANumber) = .notANumber)
    (hzero : UnpackedFloat.unpack spec (UnpackedFloat.pack spec (.zero .positive)) = .zero .positive)
    (b : BitVec spec.numBits) :
    UnpackedFloat.unpack spec
        (UnpackedFloat.pack spec (add spec (.zero .positive) (UnpackedFloat.unpack spec b))) =
      add spec (.zero .positive) (UnpackedFloat.unpack spec b) := by
  by_cases hz : ∃ s, UnpackedFloat.unpack spec b = .zero s
  · obtain ⟨s, hs⟩ := hz
    rw [hs, zero_add_zero]
    exact hzero
  · by_cases hn : UnpackedFloat.unpack spec b = .notANumber
    · rw [hn]
      exact hnan
    · rw [zero_add_of_ne_zero _ (by simpa using hz), pack_unpack spec hspec _ hn]

theorem compare_zero (s t : Sign) (v : UnpackedFloat) :
    (UnpackedFloat.zero s).compare v = (UnpackedFloat.zero t).compare v := by
  cases v with
  | infinity r => cases r <;> rfl
  | finite r m e hm => cases r <;> rfl
  | _ => rfl

theorem compare_zero_add_left (spec : Format) (u v : UnpackedFloat) :
    (add spec (.zero .positive) u).compare v = u.compare v := by
  by_cases hz : ∃ s, u = .zero s
  · obtain ⟨s, rfl⟩ := hz
    rw [zero_add_zero]
    exact compare_zero _ _ v
  · rw [zero_add_of_ne_zero spec (by simpa using hz)]

theorem compare_zero_add_right (spec : Format) (u v : UnpackedFloat) :
    v.compare (add spec (.zero .positive) u) = v.compare u := by
  by_cases hz : ∃ s, u = .zero s
  · obtain ⟨s, rfl⟩ := hz
    rw [zero_add_zero]
    cases v with
    | infinity r => cases r <;> rfl
    | finite r m e hm => cases r <;> cases s <;> rfl
    | _ => rfl
  · rw [zero_add_of_ne_zero spec (by simpa using hz)]

end Unpacked

/-- The laws of adding to `+0` that a zero slot relies on. -/
class IeeeZeroAdd (ρ : Type) [RealFloat ρ] : Prop where
  eq_zero_add (x : ρ) : RealFloat.eq (RealFloat.zero + x) x = RealFloat.eq x x
  eq_zero_add_zero (x : ρ) :
    RealFloat.eq (RealFloat.zero + x) RealFloat.zero = RealFloat.eq x RealFloat.zero
  eq_self_zero_add (x : ρ) :
    RealFloat.eq (RealFloat.zero + x) (RealFloat.zero + x) = RealFloat.eq x x

section Transfer

variable {ρ : Type} [RealFloat ρ] (spec : Format) (unp : ρ → UnpackedFloat)

theorem ieeeZeroAdd_of_unpack
    (heq : ∀ x y, RealFloat.eq x y = decide ((unp x).compare (unp y) = some .eq))
    (hadd : ∀ x, unp (RealFloat.zero + x) = add spec (.zero .positive) (unp x)) :
    IeeeZeroAdd ρ := by
  refine ⟨?eqAdd, ?eqAddZero, ?eqSelf⟩
  case eqAdd =>
    intro x
    rw [heq, heq, hadd, compare_zero_add_left]
  case eqAddZero =>
    intro x
    rw [heq, heq, hadd, compare_zero_add_left]
  case eqSelf =>
    intro x
    rw [heq, heq, hadd, compare_zero_add_left, compare_zero_add_right]

end Transfer

theorem le_float (x y : Float) : RealFloat.le x y = x.toModel.unpack.le y.toModel.unpack := by
  show decide (x ≤ y) = _
  rw [Bool.eq_iff_iff, decide_eq_true_iff]
  show Float.le x y = true ↔ _
  unfold Float.le
  rw [decide_eq_true_iff]
  rfl

theorem le_float32 (x y : Float32) :
    RealFloat.le x y = x.toModel.unpack.le y.toModel.unpack := by
  show decide (x ≤ y) = _
  rw [Bool.eq_iff_iff, decide_eq_true_iff]
  show Float32.le x y = true ↔ _
  unfold Float32.le
  rw [decide_eq_true_iff]
  rfl

theorem unpack_zero_add_float (x : Float) :
    (RealFloat.zero + x).toModel.unpack = add .binary64 (.zero .positive) x.toModel.unpack :=
  unpack_pack_zero_add _ (by decide) rfl rfl _

theorem unpack_abs_float (x : Float) :
    (RealFloat.abs x).toModel.unpack = x.toModel.unpack.abs :=
  unpack_pack_abs _ (by decide) rfl _

theorem unpack_zero_add_float32 (x : Float32) :
    (RealFloat.zero + x).toModel.unpack = add .binary32 (.zero .positive) x.toModel.unpack :=
  unpack_pack_zero_add _ (by decide) rfl rfl _

theorem unpack_abs_float32 (x : Float32) :
    (RealFloat.abs x).toModel.unpack = x.toModel.unpack.abs :=
  unpack_pack_abs _ (by decide) rfl _

instance : IeeeZeroAdd Float :=
  ieeeZeroAdd_of_unpack .binary64 (fun x => x.toModel.unpack) eq_float unpack_zero_add_float

instance : IeeeZeroAdd Float32 :=
  ieeeZeroAdd_of_unpack .binary32 (fun x => x.toModel.unpack) eq_float32
    unpack_zero_add_float32

section Real

variable {ρ : Type} [RealFloat ρ] [IeeeOrder ρ]

theorem eq_zero_zero : RealFloat.eq (RealFloat.zero : ρ) RealFloat.zero = true :=
  IeeeOrder.eq_iff.mpr ⟨IeeeOrder.zero_not_nan, IeeeOrder.zero_not_nan,
    IeeeOrder.lt_irrefl _, IeeeOrder.lt_irrefl _⟩

end Real

/-- The laws of a scalar type that reading a value back from a zero slot relies on: the
value read equals the value, is zero and has no NaN part exactly when the value does. Equality
of a value with itself says that it has no NaN part. -/
class ZeroSlotLaws (α : Type) (ρ : outParam Type) [RealFloat ρ] [Scalar α ρ] : Prop where
  eq_dflt_add (x : α) : Element.eq (Element.dflt + x) x = Element.eq x x
  eq_dflt_add_zero (x : α) :
    Element.eq (Element.dflt + x) Scalar.zero = Element.eq x Scalar.zero
  eq_self_dflt_add (x : α) :
    Element.eq (Element.dflt + x) (Element.dflt + x) = Element.eq x x
  eq_dflt_zero : Element.eq (Element.dflt : α) Scalar.zero = true

instance {ρ : Type} [RealFloat ρ] [IeeeOrder ρ] [IeeeZeroAdd ρ] : ZeroSlotLaws ρ ρ where
  eq_dflt_add := IeeeZeroAdd.eq_zero_add
  eq_dflt_add_zero := IeeeZeroAdd.eq_zero_add_zero
  eq_self_dflt_add := IeeeZeroAdd.eq_self_zero_add
  eq_dflt_zero := eq_zero_zero

instance {ρ : Type} [RealFloat ρ] [IeeeOrder ρ] [IeeeZeroAdd ρ] :
    ZeroSlotLaws (Complex ρ) ρ where
  eq_dflt_add z := by
    show (RealFloat.eq (RealFloat.zero + z.re) z.re && RealFloat.eq (RealFloat.zero + z.im) z.im) =
      (RealFloat.eq z.re z.re && RealFloat.eq z.im z.im)
    rw [IeeeZeroAdd.eq_zero_add, IeeeZeroAdd.eq_zero_add]
  eq_dflt_add_zero z := by
    show (RealFloat.eq (RealFloat.zero + z.re) RealFloat.zero &&
        RealFloat.eq (RealFloat.zero + z.im) RealFloat.zero) =
      (RealFloat.eq z.re RealFloat.zero && RealFloat.eq z.im RealFloat.zero)
    rw [IeeeZeroAdd.eq_zero_add_zero, IeeeZeroAdd.eq_zero_add_zero]
  eq_self_dflt_add z := by
    show (RealFloat.eq (RealFloat.zero + z.re) (RealFloat.zero + z.re) &&
        RealFloat.eq (RealFloat.zero + z.im) (RealFloat.zero + z.im)) =
      (RealFloat.eq z.re z.re && RealFloat.eq z.im z.im)
    rw [IeeeZeroAdd.eq_self_zero_add, IeeeZeroAdd.eq_self_zero_add]
  eq_dflt_zero := by
    show (RealFloat.eq RealFloat.zero RealFloat.zero && RealFloat.eq RealFloat.zero RealFloat.zero) =
      true
    rw [eq_zero_zero, Bool.and_self]

end DualArrays.Proofs.ZeroAdd
