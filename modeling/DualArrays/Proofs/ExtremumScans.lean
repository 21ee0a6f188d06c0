import DualArrays.Linalg.Blas
import DualArrays.Proofs.FloatMaximum
import DualArrays.Proofs.FloatArithmetic

namespace DualArrays.Proofs.ExtremumScans

open Float.Model (UnpackedFloat)
open DualArrays.Proofs.FloatOrder DualArrays.Proofs.FloatMaximum
open DualArrays.Proofs.FloatEncoding DualArrays.Proofs.ZeroAdd
open RealFloat

class IeeeLe (ρ : Type) [RealFloat ρ] : Prop where
  le_eq (x y : ρ) : le x y = (lt x y || RealFloat.eq x y)

theorem unpacked_le_eq (u v : UnpackedFloat) :
    u.le v = (decide (u.compare v = some .lt) || decide (u.compare v = some .eq)) := by
  unfold UnpackedFloat.le
  cases u.compare v with
  | none => rfl
  | some o => cases o <;> rfl

instance : IeeeLe Float where
  le_eq x y := by rw [le_float, lt_float, eq_float, unpacked_le_eq]

instance : IeeeLe Float32 where
  le_eq x y := by rw [le_float32, lt_float32, eq_float32, unpacked_le_eq]

section Order

variable {ρ : Type} [RealFloat ρ]

def Maximal (xs : List ρ) (x : ρ) : Bool := xs.all fun y => !lt x y

def Minimal (xs : List ρ) (x : ρ) : Bool := xs.all fun y => !lt y x

/-- The smallest index whose value no value exceeds. -/
def firstMaxIndex (xs : List ρ) : Option Nat := xs.findIdx? (Maximal xs)

def firstMinBy {α : Type} (key : α → ρ) (xs : List α) : Option α :=
  xs.find? fun x => Minimal (xs.map key) (key x)

/-- The first value that is not NaN and that no value exceeds, or `+0` when there is none. -/
def largest (xs : List ρ) : ρ := (xs.find? fun x => !isNaN x && Maximal xs x).getD zero

def NonNeg (x : ρ) : Prop := x = zero ∨ lt zero x = true ∨ isNaN x = true

variable [IeeeOrder ρ]

theorem lt_of_lt_of_not_lt {a b c : ρ} (hb : isNaN b = false) (hac : lt a c = true)
    (hbc : lt b c = false) : lt a b = true := by
  rcases IeeeOrder.lt_cotrans hb hac with h | h
  · exact h
  · rw [hbc] at h
    exact absurd h (by decide)

theorem lt_of_not_lt_of_lt {a b c : ρ} (hb : isNaN b = false) (hab : lt a b = false)
    (hac : lt a c = true) : lt b c = true := by
  rcases IeeeOrder.lt_cotrans hb hac with h | h
  · rw [hab] at h
    exact absurd h (by decide)
  · exact h

theorem lt_zero_eq_false {x : ρ} (hx : NonNeg x) (hnan : isNaN x = false) : lt x zero = false := by
  rcases hx with rfl | hx | hx
  · exact IeeeOrder.lt_irrefl _
  · exact lt_asymm hx
  · rw [hx] at hnan
    exact absurd hnan (by decide)

theorem eq_zero_of_nonNeg {x : ρ} (hx : NonNeg x) (h : RealFloat.eq x zero = true) : x = zero := by
  obtain ⟨hnan, -, -, hlt⟩ := IeeeOrder.eq_iff.mp h
  rcases hx with hx | hx | hx
  · exact hx
  · rw [hlt] at hx
    exact absurd hx (by decide)
  · rw [hnan] at hx
    exact absurd hx (by decide)

variable [IeeeLe ρ]

theorem lt_eq_false_of_le {x y : ρ} (h : le x y = true) : lt y x = false := by
  rw [IeeeLe.le_eq, Bool.or_eq_true] at h
  rcases h with h | h
  · exact lt_asymm h
  · exact (IeeeOrder.eq_iff.mp h).2.2.2

theorem le_eq_not_lt {x y : ρ} (hx : isNaN x = false) (hy : isNaN y = false) :
    le x y = !lt y x := by
  cases hyx : lt y x
  · rw [IeeeLe.le_eq]
    cases hxy : lt x y
    · exact IeeeOrder.eq_iff.mpr ⟨hx, hy, hxy, hyx⟩
    · rfl
  · cases hle : le x y
    · rfl
    · rw [lt_eq_false_of_le hle] at hyx
      exact absurd hyx (by decide)

end Order

section IndexScan

variable {ρ : Type} [RealFloat ρ]

def keepStep (best : Option (Nat × ρ)) (p : ρ × Nat) : Option (Nat × ρ) :=
  match best with
  | some (_, b) => if le p.1 b then best else some (p.2, p.1)
  | none => some (p.2, p.1)

def FirstMax (xs : List ρ) (k : Nat) (b : ρ) : Prop :=
  xs[k]? = some b ∧ (∀ y ∈ xs, lt b y = false) ∧ ∀ j < k, ∀ y, xs[j]? = some y → lt y b = true

def ScanState (xs : List ρ) : Option (Nat × ρ) → Prop
  | none => xs = []
  | some (k, b) => FirstMax xs k b

theorem iamax_eq {α : Type} [Scalar α ρ] (x : Array α) :
    Blas.iamax x = ((x.toList.map Scalar.modulus).zipIdx.foldl keepStep none).map Prod.fst := by
  rw [List.zipIdx_map, List.foldl_map]
  rfl

theorem firstMaxIndex_eq_of_firstMax {xs : List ρ} {k : Nat} {b : ρ} (h : FirstMax xs k b) :
    firstMaxIndex xs = some k := by
  obtain ⟨hk, htop, hbefore⟩ := h
  obtain ⟨hklen, hkb⟩ := List.getElem?_eq_some_iff.mp hk
  have hbmem : b ∈ xs := List.mem_of_getElem? hk
  rw [firstMaxIndex, List.findIdx?_eq_some_iff_getElem]
  refine ⟨hklen, ?_, ?_⟩
  · rw [hkb, Maximal, List.all_eq_true]
    intro y hy
    rw [htop y hy]
    rfl
  · intro j hj hmax
    have hjb := hbefore j hj _ (List.getElem?_eq_getElem (by omega))
    rw [Maximal, List.all_eq_true] at hmax
    have := hmax b hbmem
    rw [hjb] at this
    exact absurd this (by decide)

variable [IeeeOrder ρ] [IeeeLe ρ]

theorem scanState_keepStep {xs : List ρ} {best : Option (Nat × ρ)} {m : ρ}
    (hxs : ∀ y ∈ xs, isNaN y = false) (hm : isNaN m = false) (h : ScanState xs best) :
    ScanState (xs ++ [m]) (keepStep best (m, xs.length)) := by
  cases best with
  | none =>
      obtain rfl : xs = [] := h
      refine ⟨rfl, ?_, fun j hj => absurd hj (Nat.not_lt_zero j)⟩
      simp [IeeeOrder.lt_irrefl]
  | some c =>
      obtain ⟨k, b⟩ := c
      obtain ⟨hk, htop, hbefore⟩ := h
      have hklen : k < xs.length := (List.getElem?_eq_some_iff.mp hk).1
      have hb : isNaN b = false := hxs b (List.mem_of_getElem? hk)
      cases hle : le m b
      · have hbm : lt b m = true := by
          rw [le_eq_not_lt hm hb, Bool.not_eq_false'] at hle
          exact hle
        have hbelow : ∀ y ∈ xs, lt y m = true :=
          fun y hy => lt_of_not_lt_of_lt (hxs y hy) (htop y hy) hbm
        simp only [keepStep, hle, Bool.false_eq_true, if_false]
        refine ⟨by simp, ?_, ?_⟩
        · intro y hy
          rcases List.mem_append.mp hy with hy | hy
          · exact lt_asymm (hbelow y hy)
          · rw [List.mem_singleton.mp hy]
            exact IeeeOrder.lt_irrefl m
        · intro j hj y hy
          rw [List.getElem?_append_left hj] at hy
          exact hbelow y (List.mem_of_getElem? hy)
      · simp only [keepStep, hle, if_true]
        refine ⟨by rw [List.getElem?_append_left hklen]; exact hk, ?_, ?_⟩
        · intro y hy
          rcases List.mem_append.mp hy with hy | hy
          · exact htop y hy
          · rw [List.mem_singleton.mp hy]
            exact lt_eq_false_of_le hle
        · intro j hj y hy
          rw [List.getElem?_append_left (by omega)] at hy
          exact hbefore j hj y hy

theorem scanState_foldl (pre rest : List ρ) (hnan : ∀ y ∈ pre ++ rest, isNaN y = false)
    {best : Option (Nat × ρ)} (h : ScanState pre best) :
    ScanState (pre ++ rest) ((rest.zipIdx pre.length).foldl keepStep best) := by
  induction rest generalizing pre best with
  | nil => simpa using h
  | cons m rest ih =>
      have hpre : ∀ y ∈ pre, isNaN y = false := fun y hy => hnan y (List.mem_append_left _ hy)
      have hm : isNaN m = false := hnan m (by simp)
      have hstep := ih (pre ++ [m]) (by simpa using hnan) (scanState_keepStep hpre hm h)
      rw [List.zipIdx_cons, List.foldl_cons]
      simpa using hstep

theorem iamax_eq_firstMaxIndex {α : Type} [Scalar α ρ] (x : Array α)
    (hnan : ∀ v ∈ x, isNaN (Scalar.modulus v : ρ) = false) :
    Blas.iamax x = firstMaxIndex (x.toList.map Scalar.modulus) ∧
      (Blas.iamax x = none ↔ x.size = 0) := by
  have hms : ∀ y ∈ x.toList.map Scalar.modulus, isNaN y = false := by
    simpa using hnan
  have hscan := scanState_foldl [] (x.toList.map Scalar.modulus) (by simpa using hms)
    (show ScanState [] (none : Option (Nat × ρ)) from rfl)
  rw [List.nil_append, List.length_nil] at hscan
  rw [iamax_eq]
  cases hfold : (x.toList.map Scalar.modulus).zipIdx.foldl keepStep none with
  | none =>
      rw [hfold] at hscan
      have hx : x.toList = [] := List.map_eq_nil_iff.mp hscan
      have hsize : x.size = 0 := by rw [← Array.length_toList, hx, List.length_nil]
      simp [firstMaxIndex, hx, hsize]
  | some c =>
      obtain ⟨k, b⟩ := c
      rw [hfold] at hscan
      have hk := hscan.1
      refine ⟨(firstMaxIndex_eq_of_firstMax hscan).symm, ?_⟩
      simp only [Option.map_some, reduceCtorEq, false_iff]
      intro hsize
      have : x.toList = [] := List.eq_nil_of_length_eq_zero (by rw [Array.length_toList, hsize])
      simp [this] at hk

end IndexScan

section EntryFold

variable {ρ : Type} [RealFloat ρ] {α : Type}

def minStep (key : α → ρ) (a b : α) : α := if lt (key b) (key a) then b else a

theorem minimum_eq [Scalar α ρ] (xs : Array α) :
    Reduce.minimum xs = match xs.toList with
      | [] => none
      | x :: rest => some (rest.foldl (minStep Scalar.re) x) := rfl

@[simp] theorem minimal_append_singleton (l : List ρ) (y x : ρ) :
    Minimal (l ++ [y]) x = (Minimal l x && !lt y x) := by
  simp [Minimal, List.all_append]

variable [IeeeOrder ρ]

theorem firstMinBy_singleton (key : α → ρ) (x : α) : firstMinBy key [x] = some x := by
  simp [firstMinBy, Minimal, IeeeOrder.lt_irrefl]

theorem firstMinBy_append_minStep {key : α → ρ} {xs : List α} {a b : α}
    (hnan : ∀ y ∈ xs, isNaN (key y) = false) (h : firstMinBy key xs = some a) :
    firstMinBy key (xs ++ [b]) = some (minStep key a b) := by
  rw [firstMinBy, List.find?_eq_some_iff_append] at h ⊢
  obtain ⟨hmin, pre, post, hxs, hpre⟩ := h
  have hkeys : ∀ y ∈ xs, lt (key y) (key a) = false := by
    intro y hy
    have := (List.all_eq_true.mp hmin) (key y) (List.mem_map_of_mem hy)
    simpa using this
  rw [List.map_append, List.map_singleton]
  unfold minStep
  cases hba : lt (key b) (key a)
  · simp only [Bool.false_eq_true, if_false, minimal_append_singleton, hmin, hba, Bool.not_false,
      Bool.and_self, true_and]
    refine ⟨pre, post ++ [b], by simp [hxs], fun w hw => ?_⟩
    have := hpre w hw
    simp only [Bool.not_eq_eq_eq_not, Bool.not_true] at this ⊢
    simp [this]
  · have hbelow : ∀ y ∈ xs, lt (key b) (key y) = true :=
      fun y hy => lt_of_lt_of_not_lt (hnan y hy) hba (hkeys y hy)
    simp only [if_true, minimal_append_singleton, IeeeOrder.lt_irrefl, Bool.not_false,
      Bool.and_true]
    refine ⟨?_, xs, [], rfl, fun w hw => ?_⟩
    · rw [Minimal, List.all_eq_true]
      intro k hk
      obtain ⟨y, hy, rfl⟩ := List.mem_map.mp hk
      simp [lt_asymm (hbelow y hy)]
    · simp [hbelow w hw]

theorem firstMinBy_foldl {key : α → ρ} (pre rest : List α)
    (hnan : ∀ y ∈ pre ++ rest, isNaN (key y) = false) {a : α} (h : firstMinBy key pre = some a) :
    firstMinBy key (pre ++ rest) = some (rest.foldl (minStep key) a) := by
  induction rest generalizing pre a with
  | nil => simpa using h
  | cons b rest ih =>
      have hpre : ∀ y ∈ pre, isNaN (key y) = false :=
        fun y hy => hnan y (List.mem_append_left _ hy)
      have hstep := ih (pre ++ [b]) (by simpa using hnan) (firstMinBy_append_minStep hpre h)
      simpa using hstep

theorem minimum_eq_firstMinBy [Scalar α ρ] (xs : Array α)
    (hnan : ∀ v ∈ xs, isNaN (Scalar.re v : ρ) = false) :
    Reduce.minimum xs = firstMinBy Scalar.re xs.toList := by
  rw [minimum_eq]
  cases hxs : xs.toList with
  | nil => rfl
  | cons x rest =>
      have hall : ∀ y ∈ [x] ++ rest, isNaN (Scalar.re y : ρ) = false := by
        intro y hy
        rw [List.singleton_append, ← hxs] at hy
        exact hnan y (Array.mem_toList_iff.mp hy)
      exact (firstMinBy_foldl [x] rest hall (firstMinBy_singleton _ x)).symm

omit [IeeeOrder ρ] in
theorem minimum_eq_none_iff [Scalar α ρ] (xs : Array α) :
    Reduce.minimum xs = none ↔ xs.size = 0 := by
  rw [minimum_eq, ← Array.length_toList]
  cases xs.toList <;> simp

end EntryFold

section Largest

variable {ρ : Type} [RealFloat ρ] [IeeeOrder ρ]

theorem top_eq_zero {r : ρ} {ms : List ρ} (hms : ∀ m ∈ ms, NonNeg m) (h : IsTop r (zero :: ms))
    (hr : RealFloat.eq r zero = true) : r = zero := by
  rcases List.mem_cons.mp h.1 with rfl | hmem
  · rfl
  · exact eq_zero_of_nonNeg (hms r hmem) hr

theorem top_eq_of_sameUpToZero {r r' : ρ} {ms ms' : List ρ} (hms : ∀ m ∈ ms, NonNeg m)
    (hms' : ∀ m ∈ ms', NonNeg m) (h : IsTop r (zero :: ms)) (h' : IsTop r' (zero :: ms'))
    (hs : SameUpToZero r r') : r = r' := by
  rcases hs with hs | ⟨hr, hr'⟩
  · exact hs
  · rw [top_eq_zero hms h hr, top_eq_zero hms' h' hr']

theorem foldl_fmax_eq_largest (ms : List ρ) (hms : ∀ m ∈ ms, NonNeg m) :
    ms.foldl fmax zero = largest ms := by
  have htop := isTop_foldl_fmax ms IeeeOrder.zero_not_nan
  unfold largest
  cases hfind : ms.find? (fun x => !isNaN x && Maximal ms x) with
  | none =>
      rcases List.mem_cons.mp htop.1 with h | hmem
      · exact h
      · refine absurd ?_ (List.find?_eq_none.mp hfind _ hmem)
        simp only [Bool.and_eq_true, Bool.not_eq_eq_eq_not, Bool.not_true, Maximal,
          List.all_eq_true]
        exact ⟨htop.2.1, fun y hy => by simp [htop.2.2 y (List.mem_cons_of_mem _ hy)]⟩
  | some c =>
      have hc := List.find?_some hfind
      have hcmem : c ∈ ms := List.mem_of_find?_eq_some hfind
      simp only [Bool.and_eq_true, Bool.not_eq_eq_eq_not, Bool.not_true, Maximal,
        List.all_eq_true] at hc
      have hctop : IsTop c (zero :: ms) := by
        refine ⟨List.mem_cons_of_mem _ hcmem, hc.1, fun x hx => ?_⟩
        rcases List.mem_cons.mp hx with rfl | hx
        · exact lt_zero_eq_false (hms c hcmem) hc.1
        · simpa using hc.2 x hx
      exact top_eq_of_sameUpToZero hms hms htop hctop (isTop_unique htop hctop fun _ => Iff.rfl)

end Largest

/-- What the extremum scans need of the modulus of a scalar type: every modulus is `+0`, above
zero or NaN, and an entry that equals itself, one with no NaN part, has a modulus that is not
NaN. -/
class ModulusLaws (α : Type) (ρ : outParam Type) [RealFloat ρ] [Scalar α ρ] : Prop where
  nonNeg (v : α) : NonNeg (Scalar.modulus v)
  not_nan {v : α} : Element.eq v v = true → isNaN (Scalar.modulus v) = false

theorem modulusLaws_of_unpack {ρ : Type} [RealFloat ρ] [IeeeOrder ρ] (unp : ρ → UnpackedFloat)
    (hlt : ∀ x y, lt x y = decide ((unp x).compare (unp y) = some .lt))
    (hnan : ∀ x, isNaN x = (unp x).isNaN)
    (hinj : ∀ x y, unp x = unp y → (unp x).isNaN = false → x = y)
    (hzero : unp zero = .zero .positive)
    (habs : ∀ x, unp (abs x) = (unp x).abs) : ModulusLaws ρ ρ where
  nonNeg x := by
    show NonNeg (abs x)
    unfold NonNeg
    rw [hlt, hnan, habs, hzero]
    cases hx : unp x with
    | notANumber => exact .inr (.inr rfl)
    | zero s =>
        refine .inl (hinj _ _ ?_ ?_)
        · rw [habs, hx, hzero]
          rfl
        · rw [habs, hx]
          rfl
    | infinity s => exact .inr (.inl rfl)
    | finite s m e hm => exact .inr (.inl rfl)
  not_nan {x} hx := by
    have hxn := (IeeeOrder.eq_iff.mp hx).1
    show isNaN (abs x) = false
    rw [hnan, habs]
    rw [hnan] at hxn
    cases hu : unp x <;> simp_all [UnpackedFloat.abs, UnpackedFloat.isNaN]

instance : ModulusLaws Float Float :=
  modulusLaws_of_unpack (fun x => x.toModel.unpack) lt_float (fun _ => rfl)
    (fun _ _ h hx => float_eq_of_unpack_eq h fun hn => by rw [hn] at hx; cases hx) rfl
    unpack_abs_float

instance : ModulusLaws Float32 Float32 :=
  modulusLaws_of_unpack (fun x => x.toModel.unpack) lt_float32 (fun _ => rfl)
    (fun _ _ h hx => float32_eq_of_unpack_eq h fun hn => by rw [hn] at hx; cases hx) rfl
    unpack_abs_float32

theorem ModulusLaws.zero_le_modulus {α ρ : Type} [RealFloat ρ] [Scalar α ρ] [IeeeOrder ρ]
    [IeeeLe ρ] [ModulusLaws α ρ] {v : α} (hv : Element.eq v v = true) :
    le zero (Scalar.modulus v) = true := by
  rw [IeeeLe.le_eq]
  rcases ModulusLaws.nonNeg v with h | h | h
  · rw [h, eq_zero_zero, Bool.or_true]
  · rw [h, Bool.true_or]
  · rw [ModulusLaws.not_nan hv] at h
    cases h

section Moduli

variable {α ρ : Type} [RealFloat ρ] [IeeeOrder ρ] [Scalar α ρ] [ModulusLaws α ρ]

omit [IeeeOrder ρ] in
theorem nonNeg_moduli (xs : Array α) : ∀ m ∈ xs.toList.map Scalar.modulus, NonNeg (m : ρ) := by
  simp only [List.mem_map]
  rintro m ⟨v, -, rfl⟩
  exact ModulusLaws.nonNeg v

theorem maximumAbs_eq_largest (xs : Array α) :
    Reduce.maximumAbs xs = largest (xs.toList.map Scalar.modulus) := by
  rw [maximumAbs_eq_foldl]
  exact foldl_fmax_eq_largest _ (nonNeg_moduli xs)

/-- A complex entry with a NaN imaginary part has a NaN modulus, which the largest modulus
skips: the one entry `1 + NaN i` gives `+0`, not its modulus. -/
theorem maximumAbs_skips_nan_modulus :
    isNaN (Scalar.modulus (⟨1.0, nan⟩ : Complex Float)) = true ∧
      Reduce.maximumAbs #[(⟨1.0, nan⟩ : Complex Float)] = 0.0 :=
  ⟨by decide, by decide⟩

theorem maximumAbs_eq_of_mem_iff {xs ys : Array α} (hmem : ∀ x, x ∈ xs ↔ x ∈ ys) :
    Reduce.maximumAbs xs = Reduce.maximumAbs ys := by
  have hs := maximumAbs_congr hmem
  rw [maximumAbs_eq_foldl, maximumAbs_eq_foldl] at hs ⊢
  exact top_eq_of_sameUpToZero (nonNeg_moduli xs) (nonNeg_moduli ys)
    (isTop_foldl_fmax _ IeeeOrder.zero_not_nan) (isTop_foldl_fmax _ IeeeOrder.zero_not_nan) hs

end Moduli

/-- The extremum scans of a scalar type pick the first extremum: `iamax` the smallest index of
a maximal modulus, `minimum` the first entry of minimal real part, both none exactly for no
entries, and `maximumAbs` the largest modulus that is not NaN, or `+0`, whatever the order of
the entries. -/
structure PicksFirstExtremum (α : Type) {ρ : outParam Type} [RealFloat ρ] [Scalar α ρ] : Prop where
  iamax_first (x : Array α) : (∀ v ∈ x, Element.eq v v = true) →
    Blas.iamax x = firstMaxIndex (x.toList.map Scalar.modulus)
  iamax_none (x : Array α) : (∀ v ∈ x, Element.eq v v = true) →
    (Blas.iamax x = none ↔ x.size = 0)
  minimum_first (xs : Array α) : (∀ v ∈ xs, isNaN (Scalar.re v) = false) →
    Reduce.minimum xs = firstMinBy Scalar.re xs.toList
  minimum_none (xs : Array α) : Reduce.minimum xs = none ↔ xs.size = 0
  maximumAbs_largest (xs : Array α) :
    Reduce.maximumAbs xs = largest (xs.toList.map Scalar.modulus)
  maximumAbs_perm (xs ys : Array α) : xs.toList.Perm ys.toList →
    Reduce.maximumAbs xs = Reduce.maximumAbs ys

theorem extremum_scans_pick_first {α ρ : Type} [RealFloat ρ] [IeeeOrder ρ] [IeeeLe ρ]
    [Scalar α ρ] [ModulusLaws α ρ] : PicksFirstExtremum α where
  iamax_first x hx := (iamax_eq_firstMaxIndex x fun v hv => ModulusLaws.not_nan (hx v hv)).1
  iamax_none x hx := (iamax_eq_firstMaxIndex x fun v hv => ModulusLaws.not_nan (hx v hv)).2
  minimum_first := minimum_eq_firstMinBy
  minimum_none := minimum_eq_none_iff
  maximumAbs_largest := maximumAbs_eq_largest
  maximumAbs_perm _ _ h := maximumAbs_eq_of_mem_iff fun v => by
    rw [← Array.mem_toList_iff, h.mem_iff, Array.mem_toList_iff]

theorem extremum_scans_pick_first_float : PicksFirstExtremum Float :=
  extremum_scans_pick_first

end DualArrays.Proofs.ExtremumScans
