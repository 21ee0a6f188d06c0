import Mathlib
import DualArrays.Branch

namespace DualArrays.Proofs.RealPartChoices

open DualArrays RealFloat

/-- A choice among `n` arguments: the one at `index`, negated when `negated` holds. -/
structure Pick (n : Nat) where
  index : Fin n
  negated : Bool
  deriving DecidableEq

namespace Pick

def apply {α : Type} [Neg α] {n : Nat} (p : Pick n) (args : Fin n → α) : α :=
  if p.negated then -args p.index else args p.index

theorem map_apply {α β : Type} [Neg α] [Neg β] {n : Nat} (f : α → β)
    (hneg : ∀ x, f (-x) = -f x) (p : Pick n) (args : Fin n → α) :
    f (p.apply args) = p.apply (fun i => f (args i)) := by
  unfold apply
  split_ifs
  · exact hneg _
  · rfl

end Pick

variable {ρ : Type} [RealFloat ρ]

section Rules

def absRule (x : ρ) : Pick 1 := ⟨0, lt x zero⟩

def maxRule (x y : ρ) : Pick 2 := ⟨if lt x y then 1 else 0, false⟩

def minRule (x y : ρ) : Pick 2 := ⟨if lt y x then 1 else 0, false⟩

def maxAbsRule (x y : ρ) : Pick 2 :=
  if lt (Branch.abs x) (Branch.abs y) then ⟨1, lt y zero⟩ else ⟨0, lt x zero⟩

def minAbsRule (x y : ρ) : Pick 2 :=
  if lt (Branch.abs y) (Branch.abs x) then ⟨1, lt y zero⟩ else ⟨0, lt x zero⟩

def selectRule (c : ρ) : Pick 3 := ⟨if le zero c then 1 else 2, false⟩

end Rules

section Choices

variable {α : Type} [Scalar α ρ]

theorem abs_eq_pick (x : α) : Branch.abs x = (absRule (Scalar.re x)).apply ![x] := by
  unfold Branch.abs absRule Pick.apply
  split_ifs <;> rfl

theorem max_eq_pick (a b : α) :
    Branch.max a b = (maxRule (Scalar.re a) (Scalar.re b)).apply ![a, b] := by
  unfold Branch.max
  by_cases h : lt (Scalar.re a) (Scalar.re b) <;> simp [maxRule, Pick.apply, h]

theorem min_eq_pick (a b : α) :
    Branch.min a b = (minRule (Scalar.re a) (Scalar.re b)).apply ![a, b] := by
  unfold Branch.min
  by_cases h : lt (Scalar.re b) (Scalar.re a) <;> simp [minRule, Pick.apply, h]

theorem selectIfNonnegative_eq_pick (c a b : α) :
    Branch.selectIfNonnegative c a b = (selectRule (Scalar.re c)).apply ![c, a, b] := by
  unfold Branch.selectIfNonnegative
  by_cases h : le zero (Scalar.re c) <;> simp [selectRule, Pick.apply, h]

variable (hneg : ∀ x : α, Scalar.re (-x) = -Scalar.re x)
include hneg

theorem re_apply {n : Nat} (p : Pick n) (args : Fin n → α) :
    Scalar.re (p.apply args) = p.apply (FinVec.map Scalar.re args) := by
  rw [FinVec.map_eq]
  exact Pick.map_apply Scalar.re hneg p args

theorem re_abs (x : α) : Scalar.re (Branch.abs x) = Branch.abs (Scalar.re x) := by
  rw [abs_eq_pick, abs_eq_pick, re_apply hneg]
  rfl

theorem maxAbsReal_eq_pick (a b : α) :
    Branch.maxAbsReal a b = (maxAbsRule (Scalar.re a) (Scalar.re b)).apply ![a, b] := by
  unfold Branch.maxAbsReal Branch.max maxAbsRule
  rw [re_abs hneg, re_abs hneg, abs_eq_pick, abs_eq_pick]
  split_ifs <;> rfl

theorem minAbsReal_eq_pick (a b : α) :
    Branch.minAbsReal a b = (minAbsRule (Scalar.re a) (Scalar.re b)).apply ![a, b] := by
  unfold Branch.minAbsReal Branch.min minAbsRule
  rw [re_abs hneg, re_abs hneg, abs_eq_pick, abs_eq_pick]
  split_ifs <;> rfl

end Choices

section Projection

@[simp] theorem re_real (x : ρ) : Scalar.re x = x := rfl

theorem re_neg_real (x : ρ) : Scalar.re (-x) = -Scalar.re x := rfl

theorem re_neg_complex (z : Complex ρ) : Scalar.re (-z) = -Scalar.re z := rfl

variable {α : Type} [Scalar α ρ] (hneg : ∀ x : α, Scalar.re (-x) = -Scalar.re x)
include hneg

theorem re_max (a b : α) :
    Scalar.re (Branch.max a b) = Branch.max (Scalar.re a) (Scalar.re b) := by
  rw [max_eq_pick, max_eq_pick, re_apply hneg]
  rfl

theorem re_min (a b : α) :
    Scalar.re (Branch.min a b) = Branch.min (Scalar.re a) (Scalar.re b) := by
  rw [min_eq_pick, min_eq_pick, re_apply hneg]
  rfl

theorem re_maxAbsReal (a b : α) :
    Scalar.re (Branch.maxAbsReal a b) = Branch.maxAbsReal (Scalar.re a) (Scalar.re b) := by
  rw [maxAbsReal_eq_pick hneg, maxAbsReal_eq_pick re_neg_real, re_apply hneg]
  rfl

theorem re_minAbsReal (a b : α) :
    Scalar.re (Branch.minAbsReal a b) = Branch.minAbsReal (Scalar.re a) (Scalar.re b) := by
  rw [minAbsReal_eq_pick hneg, minAbsReal_eq_pick re_neg_real, re_apply hneg]
  rfl

theorem re_selectIfNonnegative (c a b : α) :
    Scalar.re (Branch.selectIfNonnegative c a b) =
      Branch.selectIfNonnegative (Scalar.re c) (Scalar.re a) (Scalar.re b) := by
  rw [selectIfNonnegative_eq_pick, selectIfNonnegative_eq_pick, re_apply hneg]
  rfl

end Projection

/-- The branch helpers of a scalar type with real type `ρ` decide on real parts. Each returns the
argument its rule picks from the real parts of the arguments, negated where the rule says so,
and the real part of its result is the same helper taken at `ρ` on the real parts. -/
structure BranchesOnRealParts (α ρ : Type) [RealFloat ρ] [Scalar α ρ] : Prop where
  abs : ∀ x : α, Branch.abs x = (absRule (Scalar.re x)).apply ![x]
  max : ∀ a b : α, Branch.max a b = (maxRule (Scalar.re a) (Scalar.re b)).apply ![a, b]
  min : ∀ a b : α, Branch.min a b = (minRule (Scalar.re a) (Scalar.re b)).apply ![a, b]
  maxAbsReal : ∀ a b : α,
    Branch.maxAbsReal a b = (maxAbsRule (Scalar.re a) (Scalar.re b)).apply ![a, b]
  minAbsReal : ∀ a b : α,
    Branch.minAbsReal a b = (minAbsRule (Scalar.re a) (Scalar.re b)).apply ![a, b]
  selectIfNonnegative : ∀ c a b : α,
    Branch.selectIfNonnegative c a b = (selectRule (Scalar.re c)).apply ![c, a, b]
  re_abs : ∀ x : α, Scalar.re (Branch.abs x) = Branch.abs (Scalar.re x)
  re_max : ∀ a b : α, Scalar.re (Branch.max a b) = Branch.max (Scalar.re a) (Scalar.re b)
  re_min : ∀ a b : α, Scalar.re (Branch.min a b) = Branch.min (Scalar.re a) (Scalar.re b)
  re_maxAbsReal : ∀ a b : α,
    Scalar.re (Branch.maxAbsReal a b) = Branch.maxAbsReal (Scalar.re a) (Scalar.re b)
  re_minAbsReal : ∀ a b : α,
    Scalar.re (Branch.minAbsReal a b) = Branch.minAbsReal (Scalar.re a) (Scalar.re b)
  re_selectIfNonnegative : ∀ c a b : α,
    Scalar.re (Branch.selectIfNonnegative c a b) =
      Branch.selectIfNonnegative (Scalar.re c) (Scalar.re a) (Scalar.re b)

theorem branchesOnRealParts_of_re_neg {α : Type} [Scalar α ρ]
    (hneg : ∀ x : α, Scalar.re (-x) = -Scalar.re x) : BranchesOnRealParts α ρ where
  abs := abs_eq_pick
  max := max_eq_pick
  min := min_eq_pick
  maxAbsReal := maxAbsReal_eq_pick hneg
  minAbsReal := minAbsReal_eq_pick hneg
  selectIfNonnegative := selectIfNonnegative_eq_pick
  re_abs := re_abs hneg
  re_max := re_max hneg
  re_min := re_min hneg
  re_maxAbsReal := re_maxAbsReal hneg
  re_minAbsReal := re_minAbsReal hneg
  re_selectIfNonnegative := re_selectIfNonnegative hneg

/-- Over every real floating-point type, the branch helpers decide on real parts both for the
reals and for the complex numbers over them. -/
theorem branches_on_real_parts (ρ : Type) [RealFloat ρ] :
    BranchesOnRealParts ρ ρ ∧ BranchesOnRealParts (Complex ρ) ρ :=
  ⟨branchesOnRealParts_of_re_neg re_neg_real, branchesOnRealParts_of_re_neg re_neg_complex⟩

end DualArrays.Proofs.RealPartChoices
