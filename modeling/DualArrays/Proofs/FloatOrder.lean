import DualArrays.Proofs.FloatEncoding

namespace DualArrays.Proofs.FloatOrder

open Float.Model
open DualArrays.Proofs.FloatEncoding

/-- Where an unpacked float that is not NaN stands on the extended real line: first its
class (`-∞`, negative, zero, positive, `+∞`), then exponent and mantissa, both negated for
negative values. -/
def orderKey : UnpackedFloat → Int × Int × Int
  | .notANumber => (0, 0, 0)
  | .infinity .negative => (0, 0, 0)
  | .finite .negative m e _ => (1, -e, -m)
  | .zero _ => (2, 0, 0)
  | .finite .positive m e _ => (3, e, m)
  | .infinity .positive => (4, 0, 0)

def KeyLt (a b : Int × Int × Int) : Prop :=
  a.1 < b.1 ∨ (a.1 = b.1 ∧ (a.2.1 < b.2.1 ∨ (a.2.1 = b.2.1 ∧ a.2.2 < b.2.2)))

theorem keyLt_irrefl (a : Int × Int × Int) : ¬KeyLt a a := by
  simp only [KeyLt]
  omega

theorem KeyLt.trans {a b c : Int × Int × Int} (hab : KeyLt a b) (hbc : KeyLt b c) :
    KeyLt a c := by
  simp only [KeyLt] at hab hbc ⊢
  omega

theorem KeyLt.cotrans {a c : Int × Int × Int} (b : Int × Int × Int) (h : KeyLt a c) :
    KeyLt a b ∨ KeyLt b c := by
  simp only [KeyLt] at h ⊢
  omega

theorem eq_of_not_keyLt {a b : Int × Int × Int} (hab : ¬KeyLt a b) (hba : ¬KeyLt b a) :
    a = b := by
  simp only [KeyLt] at hab hba
  ext <;> omega

theorem compare_eq_lt_iff {u v : UnpackedFloat} (hu : u.isNaN = false) (hv : v.isNaN = false) :
    u.compare v = some .lt ↔ KeyLt (orderKey u) (orderKey v) := by
  cases u with
  | notANumber => simp [UnpackedFloat.isNaN] at hu
  | infinity s =>
      cases v with
      | notANumber => simp [UnpackedFloat.isNaN] at hv
      | infinity t => cases s <;> cases t <;> simp [UnpackedFloat.compare, orderKey, KeyLt, compare]
      | zero t => cases s <;> cases t <;> simp [UnpackedFloat.compare, orderKey, KeyLt]
      | finite t m e hm => cases s <;> cases t <;> simp [UnpackedFloat.compare, orderKey, KeyLt]
  | zero s =>
      cases v with
      | notANumber => simp [UnpackedFloat.isNaN] at hv
      | infinity t => cases s <;> cases t <;> simp [UnpackedFloat.compare, orderKey, KeyLt]
      | zero t => cases s <;> cases t <;> simp [UnpackedFloat.compare, orderKey, KeyLt]
      | finite t m e hm => cases s <;> cases t <;> simp [UnpackedFloat.compare, orderKey, KeyLt]
  | finite s m e hm =>
      cases v with
      | notANumber => simp [UnpackedFloat.isNaN] at hv
      | infinity t => cases s <;> cases t <;> simp [UnpackedFloat.compare, orderKey, KeyLt]
      | zero t => cases s <;> cases t <;> simp [UnpackedFloat.compare, orderKey, KeyLt]
      | finite t m' e' hm' =>
          cases s <;> cases t <;>
            simp [UnpackedFloat.compare, orderKey, KeyLt, Ordering.then, compare,
              compareOfLessAndEq] <;>
            split_ifs <;> simp <;> omega

theorem compare_eq_eq_iff {u v : UnpackedFloat} (hu : u.isNaN = false) (hv : v.isNaN = false) :
    u.compare v = some .eq ↔ orderKey u = orderKey v := by
  cases u with
  | notANumber => simp [UnpackedFloat.isNaN] at hu
  | infinity s =>
      cases v with
      | notANumber => simp [UnpackedFloat.isNaN] at hv
      | infinity t => cases s <;> cases t <;> simp [UnpackedFloat.compare, orderKey, compare]
      | zero t => cases s <;> cases t <;> simp [UnpackedFloat.compare, orderKey]
      | finite t m e hm => cases s <;> cases t <;> simp [UnpackedFloat.compare, orderKey]
  | zero s =>
      cases v with
      | notANumber => simp [UnpackedFloat.isNaN] at hv
      | infinity t => cases s <;> cases t <;> simp [UnpackedFloat.compare, orderKey]
      | zero t => cases s <;> cases t <;> simp [UnpackedFloat.compare, orderKey]
      | finite t m e hm => cases s <;> cases t <;> simp [UnpackedFloat.compare, orderKey]
  | finite s m e hm =>
      cases v with
      | notANumber => simp [UnpackedFloat.isNaN] at hv
      | infinity t => cases s <;> cases t <;> simp [UnpackedFloat.compare, orderKey]
      | zero t => cases s <;> cases t <;> simp [UnpackedFloat.compare, orderKey]
      | finite t m' e' hm' =>
          cases s <;> cases t <;>
            simp [UnpackedFloat.compare, orderKey, Ordering.then, compare,
              compareOfLessAndEq] <;>
            split_ifs <;> simp <;> omega

theorem compare_nan_left (v : UnpackedFloat) : UnpackedFloat.compare .notANumber v = none := by
  simp [UnpackedFloat.compare]

theorem compare_nan_right (u : UnpackedFloat) : u.compare .notANumber = none := by
  cases u <;> simp [UnpackedFloat.compare]

theorem eq_or_zero_of_orderKey_eq {u v : UnpackedFloat} (hu : u.isNaN = false)
    (hv : v.isNaN = false) (h : orderKey u = orderKey v) :
    u = v ∨ (∃ s t, u = .zero s ∧ v = .zero t) := by
  cases u with
  | notANumber => simp [UnpackedFloat.isNaN] at hu
  | infinity s =>
      cases v with
      | notANumber => simp [UnpackedFloat.isNaN] at hv
      | infinity t => cases s <;> cases t <;> simp_all [orderKey]
      | zero t => cases s <;> simp_all [orderKey]
      | finite t m e hm => cases s <;> cases t <;> simp_all [orderKey]
  | zero s =>
      cases v with
      | notANumber => simp [UnpackedFloat.isNaN] at hv
      | infinity t => cases t <;> simp_all [orderKey]
      | zero t => exact .inr ⟨s, t, rfl, rfl⟩
      | finite t m e hm => cases t <;> simp_all [orderKey]
  | finite s m e hm =>
      cases v with
      | notANumber => simp [UnpackedFloat.isNaN] at hv
      | infinity t => cases s <;> cases t <;> simp_all [orderKey]
      | zero t => cases s <;> simp_all [orderKey]
      | finite t m' e' hm' =>
          left
          cases s <;> cases t <;> simp_all [orderKey]

theorem isNaN_false_of_compare_eq_some {u v : UnpackedFloat} {o : Ordering}
    (h : u.compare v = some o) : u.isNaN = false ∧ v.isNaN = false := by
  constructor
  · cases u with
    | notANumber => simp [compare_nan_left] at h
    | _ => rfl
  · cases v with
    | notANumber => simp [compare_nan_right] at h
    | _ => rfl

/-- The comparison laws of an IEEE 754 binary type that the library relies on. -/
class IeeeOrder (ρ : Type) [RealFloat ρ] : Prop where
  lt_irrefl (x : ρ) : RealFloat.lt x x = false
  lt_trans {x y z : ρ} :
    RealFloat.lt x y = true → RealFloat.lt y z = true → RealFloat.lt x z = true
  lt_cotrans {x y z : ρ} : RealFloat.isNaN y = false → RealFloat.lt x z = true →
    RealFloat.lt x y = true ∨ RealFloat.lt y z = true
  lt_nan_left {x y : ρ} : RealFloat.isNaN x = true → RealFloat.lt x y = false
  lt_nan_right {x y : ρ} : RealFloat.isNaN y = true → RealFloat.lt x y = false
  eq_iff {x y : ρ} : RealFloat.eq x y = true ↔ RealFloat.isNaN x = false ∧
    RealFloat.isNaN y = false ∧ RealFloat.lt x y = false ∧ RealFloat.lt y x = false
  eq_or_zero {x y : ρ} : RealFloat.eq x y = true →
    x = y ∨ (RealFloat.eq x RealFloat.zero = true ∧ RealFloat.eq y RealFloat.zero = true)
  zero_not_nan : RealFloat.isNaN (RealFloat.zero : ρ) = false
  zero_lt_epsilon : RealFloat.lt RealFloat.zero (RealFloat.epsilon : ρ) = true

section Transfer

variable {ρ : Type} [RealFloat ρ]

structure ComparesUnpacked (unp : ρ → UnpackedFloat) : Prop where
  lt (x y : ρ) : RealFloat.lt x y = decide ((unp x).compare (unp y) = some .lt)
  eq (x y : ρ) : RealFloat.eq x y = decide ((unp x).compare (unp y) = some .eq)
  isNaN (x : ρ) : RealFloat.isNaN x = (unp x).isNaN

namespace ComparesUnpacked

variable {unp : ρ → UnpackedFloat} (hc : ComparesUnpacked unp) {x y : ρ}
include hc

theorem not_nan_of_lt (h : RealFloat.lt x y = true) :
    RealFloat.isNaN x = false ∧ RealFloat.isNaN y = false := by
  rw [hc.lt, decide_eq_true_iff] at h
  rw [hc.isNaN, hc.isNaN]
  exact isNaN_false_of_compare_eq_some h

theorem not_nan_of_eq (h : RealFloat.eq x y = true) :
    RealFloat.isNaN x = false ∧ RealFloat.isNaN y = false := by
  rw [hc.eq, decide_eq_true_iff] at h
  rw [hc.isNaN, hc.isNaN]
  exact isNaN_false_of_compare_eq_some h

theorem lt_iff_keyLt (hx : RealFloat.isNaN x = false) (hy : RealFloat.isNaN y = false) :
    RealFloat.lt x y = true ↔ KeyLt (orderKey (unp x)) (orderKey (unp y)) := by
  rw [hc.lt, decide_eq_true_iff]
  exact compare_eq_lt_iff (by rwa [← hc.isNaN]) (by rwa [← hc.isNaN])

theorem eq_iff_orderKey (hx : RealFloat.isNaN x = false) (hy : RealFloat.isNaN y = false) :
    RealFloat.eq x y = true ↔ orderKey (unp x) = orderKey (unp y) := by
  rw [hc.eq, decide_eq_true_iff]
  exact compare_eq_eq_iff (by rwa [← hc.isNaN]) (by rwa [← hc.isNaN])

theorem lt_eq_false_of_isNaN_left (hx : RealFloat.isNaN x = true) : RealFloat.lt x y = false := by
  cases h : RealFloat.lt x y
  · rfl
  · simp [(hc.not_nan_of_lt h).1] at hx

theorem lt_eq_false_of_isNaN_right (hy : RealFloat.isNaN y = true) :
    RealFloat.lt x y = false := by
  cases h : RealFloat.lt x y
  · rfl
  · simp [(hc.not_nan_of_lt h).2] at hy

theorem lt_eq_false_of_orderKey_eq (hx : RealFloat.isNaN x = false)
    (hy : RealFloat.isNaN y = false) (hk : orderKey (unp x) = orderKey (unp y)) :
    RealFloat.lt x y = false := by
  cases hxy : RealFloat.lt x y
  · rfl
  · have := (hc.lt_iff_keyLt hx hy).mp hxy
    rw [hk] at this
    exact absurd this (keyLt_irrefl _)

end ComparesUnpacked

variable (unp : ρ → UnpackedFloat)

theorem ieeeOrder_of_unpack
    (hlt : ∀ x y, RealFloat.lt x y = decide ((unp x).compare (unp y) = some .lt))
    (heq : ∀ x y, RealFloat.eq x y = decide ((unp x).compare (unp y) = some .eq))
    (hnan : ∀ x, RealFloat.isNaN x = (unp x).isNaN)
    (hinj : ∀ x y, unp x = unp y → (unp x).isNaN = false → x = y)
    (hzero : unp RealFloat.zero = .zero .positive)
    (heps : RealFloat.lt RealFloat.zero (RealFloat.epsilon : ρ) = true) : IeeeOrder ρ := by
  have hc : ComparesUnpacked unp := ⟨hlt, heq, hnan⟩
  have hz : RealFloat.isNaN (RealFloat.zero : ρ) = false := by rw [hnan, hzero]; rfl
  refine ⟨?irrefl, ?trans, ?cotrans, ?nanLeft, ?nanRight, ?eqIff, ?eqOrZero, hz, heps⟩
  case irrefl =>
    intro x
    cases hx : RealFloat.isNaN x
    · exact hc.lt_eq_false_of_orderKey_eq hx hx rfl
    · exact hc.lt_eq_false_of_isNaN_left hx
  case trans =>
    intro x y z hxy hyz
    obtain ⟨hx, hy⟩ := hc.not_nan_of_lt hxy
    obtain ⟨-, hz⟩ := hc.not_nan_of_lt hyz
    exact (hc.lt_iff_keyLt hx hz).mpr
      (((hc.lt_iff_keyLt hx hy).mp hxy).trans ((hc.lt_iff_keyLt hy hz).mp hyz))
  case cotrans =>
    intro x y z hy hxz
    obtain ⟨hx, hz⟩ := hc.not_nan_of_lt hxz
    rw [hc.lt_iff_keyLt hx hy, hc.lt_iff_keyLt hy hz]
    exact ((hc.lt_iff_keyLt hx hz).mp hxz).cotrans _
  case nanLeft => exact hc.lt_eq_false_of_isNaN_left
  case nanRight => exact hc.lt_eq_false_of_isNaN_right
  case eqIff =>
    intro x y
    constructor
    · intro h
      obtain ⟨hx, hy⟩ := hc.not_nan_of_eq h
      have hk := (hc.eq_iff_orderKey hx hy).mp h
      exact ⟨hx, hy, hc.lt_eq_false_of_orderKey_eq hx hy hk,
        hc.lt_eq_false_of_orderKey_eq hy hx hk.symm⟩
    · rintro ⟨hx, hy, hxy, hyx⟩
      apply (hc.eq_iff_orderKey hx hy).mpr
      apply eq_of_not_keyLt
      · rw [← hc.lt_iff_keyLt hx hy, hxy]
        decide
      · rw [← hc.lt_iff_keyLt hy hx, hyx]
        decide
  case eqOrZero =>
    intro x y h
    obtain ⟨hx, hy⟩ := hc.not_nan_of_eq h
    have hk := (hc.eq_iff_orderKey hx hy).mp h
    have hx' : (unp x).isNaN = false := by rwa [← hnan]
    rcases eq_or_zero_of_orderKey_eq hx' (by rwa [← hnan]) hk with hsame | ⟨s, t, hs, ht⟩
    · exact .inl (hinj x y hsame hx')
    · right
      constructor
      · rw [hc.eq_iff_orderKey hx hz, hs, hzero]
        rfl
      · rw [hc.eq_iff_orderKey hy hz, ht, hzero]
        rfl

end Transfer

theorem lt_float (x y : Float) :
    RealFloat.lt x y = decide (x.toModel.unpack.compare y.toModel.unpack = some .lt) := by
  show decide (x < y) = _
  simp only [LT.lt, Float.lt, Float.Model.lt, UnpackedFloat.lt]
  simp

theorem eq_float (x y : Float) :
    RealFloat.eq x y = decide (x.toModel.unpack.compare y.toModel.unpack = some .eq) := by
  show (x.toModel.unpack.compare y.toModel.unpack == some .eq) = _
  exact Bool.beq_eq_decide_eq _ _

theorem lt_float32 (x y : Float32) :
    RealFloat.lt x y = decide (x.toModel.unpack.compare y.toModel.unpack = some .lt) := by
  show decide (x < y) = _
  simp only [LT.lt, Float32.lt, Float32.Model.lt, UnpackedFloat.lt]
  simp

theorem eq_float32 (x y : Float32) :
    RealFloat.eq x y = decide (x.toModel.unpack.compare y.toModel.unpack = some .eq) := by
  show (x.toModel.unpack.compare y.toModel.unpack == some .eq) = _
  exact Bool.beq_eq_decide_eq _ _

instance : IeeeOrder Float :=
  ieeeOrder_of_unpack (fun x => x.toModel.unpack) lt_float eq_float (fun _ => rfl)
    (fun _ _ h hx => float_eq_of_unpack_eq h (fun hn => by rw [hn] at hx; cases hx)) rfl (by decide)

instance : IeeeOrder Float32 :=
  ieeeOrder_of_unpack (fun x => x.toModel.unpack) lt_float32 eq_float32 (fun _ => rfl)
    (fun _ _ h hx => float32_eq_of_unpack_eq h (fun hn => by rw [hn] at hx; cases hx)) rfl (by decide)

end DualArrays.Proofs.FloatOrder
