import DualArrays.Proofs.ZeroAdd

namespace DualArrays.Proofs.FloatArithmetic

open Float.Model Float.Model.UnpackedFloat
open DualArrays.Proofs.FloatEncoding DualArrays.Proofs.ZeroAdd

section Unpacked

variable (spec : Format)

theorem eq_packedNaN_of_unpack {b : BitVec spec.numBits} (hv : spec.Valid b)
    (h : UnpackedFloat.unpack spec b = .notANumber) : b = packedNaN spec := by
  unfold UnpackedFloat.unpack at h
  simp only at h
  split_ifs at h with hexp hman
  exact hv.eq_packedNaN hexp hman

theorem bits_eq_of_unpack_eq (hspec : 2 ≤ spec.exponentBits) {b c : BitVec spec.numBits}
    (hb : spec.Valid b) (hc : spec.Valid c)
    (h : UnpackedFloat.unpack spec b = UnpackedFloat.unpack spec c) : b = c := by
  by_cases hn : UnpackedFloat.unpack spec b = .notANumber
  · rw [eq_packedNaN_of_unpack spec hb hn, eq_packedNaN_of_unpack spec hc (h ▸ hn)]
  · exact unpack_injective spec hspec h hn

theorem sub_self_of_finite {u : UnpackedFloat} (hn : u.isNaN = false) (hi : u.isInf = false) :
    sub spec u u = .zero .positive := by
  cases u with
  | notANumber => cases hn
  | infinity s => cases hi
  | zero s => cases s <;> rfl
  | finite s m e hm =>
      -- the two mantissas cancel exactly, and an exact zero rounds to `+0`
      simp only [UnpackedFloat.sub, Int.sub_self, UnpackedFloat.normalize]
      rfl

theorem sub_self_of_inf {u : UnpackedFloat} (hi : u.isInf = true) :
    sub spec u u = .notANumber := by
  cases u with
  | infinity s => cases s <;> rfl
  | _ => cases hi

theorem mul_nan_right (u : UnpackedFloat) : mul spec u .notANumber = .notANumber := by
  cases u <;> rfl

theorem div_nan_left (u : UnpackedFloat) : div spec .notANumber u = .notANumber := by
  cases u <;> rfl

theorem sub_zero_zero (s t : Sign) : ∃ s', sub spec (.zero s) (.zero t) = .zero s' := by
  cases s <;> cases t <;> exact ⟨_, rfl⟩

theorem negZero_add_cases (u : UnpackedFloat) :
    add spec (.zero .negative) u = add spec (.zero .positive) u ∨
      (u = .zero .negative ∧ add spec (.zero .negative) u = .zero .negative ∧
        add spec (.zero .positive) u = .zero .positive) := by
  cases u with
  | zero s => cases s <;> simp [UnpackedFloat.add]
  | _ => exact .inl rfl

end Unpacked

section Binary64

theorem float_eq_iff_unpack_eq {x y : Float} : x = y ↔ x.toModel.unpack = y.toModel.unpack := by
  refine ⟨fun h => h ▸ rfl, fun h => ?_⟩
  rcases x with ⟨⟨xb, hxv⟩⟩
  rcases y with ⟨⟨yb, hyv⟩⟩
  have : xb = yb := UInt64.toBitVec_inj.mp (bits_eq_of_unpack_eq _ (by decide) hxv hyv h)
  subst this
  rfl

@[simp] theorem unpack_zero : (0.0 : Float).toModel.unpack = .zero .positive := rfl

@[simp] theorem unpack_negZero : (-0.0 : Float).toModel.unpack = .zero .negative := rfl

theorem unpack_sub (x y : Float) :
    (x - y).toModel.unpack =
      (Float.Model.pack (sub .binary64 x.toModel.unpack y.toModel.unpack)).unpack :=
  rfl

theorem unpack_add (x y : Float) :
    (x + y).toModel.unpack =
      (Float.Model.pack (add .binary64 x.toModel.unpack y.toModel.unpack)).unpack :=
  rfl

theorem unpack_mul (x y : Float) :
    (x * y).toModel.unpack =
      (Float.Model.pack (mul .binary64 x.toModel.unpack y.toModel.unpack)).unpack :=
  rfl

theorem unpack_div (x y : Float) :
    (x / y).toModel.unpack =
      (Float.Model.pack (div .binary64 x.toModel.unpack y.toModel.unpack)).unpack :=
  rfl

theorem unpack_abs (x : Float) : x.abs.toModel.unpack = x.toModel.unpack.abs :=
  unpack_abs_float x

theorem isNaN_eq (x : Float) : x.isNaN = x.toModel.unpack.isNaN := rfl

theorem isInf_eq (x : Float) : x.isInf = x.toModel.unpack.isInf := rfl

theorem isNaN_of_unpack {x : Float} (h : x.toModel.unpack = .notANumber) : x.isNaN = true := by
  rw [isNaN_eq, h]
  rfl

theorem unpack_of_isNaN {x : Float} (h : x.isNaN = true) : x.toModel.unpack = .notANumber := by
  rw [isNaN_eq] at h
  cases hx : x.toModel.unpack with
  | notANumber => rfl
  | _ => rw [hx] at h; cases h

theorem sub_self_of_finite_float {x : Float} (hn : x.isNaN = false) (hi : x.isInf = false) :
    x - x = 0.0 := by
  rw [float_eq_iff_unpack_eq, unpack_sub, sub_self_of_finite _ hn hi]
  rfl

theorem sub_self_isNaN {x : Float} (hi : x.isInf = true) : (x - x).isNaN = true := by
  apply isNaN_of_unpack
  rw [unpack_sub, sub_self_of_inf _ hi]
  rfl

theorem abs_isNaN {x : Float} (h : x.isNaN = true) : x.abs.isNaN = true := by
  apply isNaN_of_unpack
  rw [unpack_abs, unpack_of_isNaN h]
  rfl

theorem div_isNaN_left {x : Float} (h : x.isNaN = true) (y : Float) : (x / y).isNaN = true := by
  apply isNaN_of_unpack
  rw [unpack_div, unpack_of_isNaN h, div_nan_left]
  rfl

theorem mul_isNaN_right (x : Float) {y : Float} (h : y.isNaN = true) : (x * y).isNaN = true := by
  apply isNaN_of_unpack
  rw [unpack_mul, unpack_of_isNaN h, mul_nan_right]
  rfl

theorem not_le_of_isNaN_right (x : Float) {y : Float} (h : y.isNaN = true) : ¬x ≤ y := by
  intro hle
  have hb : RealFloat.le x y = true := decide_eq_true hle
  rw [le_float, unpack_of_isNaN h] at hb
  simp [UnpackedFloat.le, FloatOrder.compare_nan_right] at hb

theorem lt_of_isNaN_left {x : Float} (h : x.isNaN = true) (y : Float) :
    RealFloat.lt x y = false :=
  FloatOrder.IeeeOrder.lt_nan_left h

end Binary64

section Binary32

theorem float32_eq_iff_unpack_eq {x y : Float32} :
    x = y ↔ x.toModel.unpack = y.toModel.unpack := by
  refine ⟨fun h => h ▸ rfl, fun h => ?_⟩
  rcases x with ⟨⟨xb, hxv⟩⟩
  rcases y with ⟨⟨yb, hyv⟩⟩
  have : xb = yb := UInt32.toBitVec_inj.mp (bits_eq_of_unpack_eq _ (by decide) hxv hyv h)
  subst this
  rfl

end Binary32

end DualArrays.Proofs.FloatArithmetic
