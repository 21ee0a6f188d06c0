import DualArrays.Proofs.MultiarrayProducts

namespace DualArrays.Proofs.BasisSize

open DualArrays DualArrays.Proofs.Outcomes DualArrays.Proofs.MultiarrayProducts
open DualArrays.Proofs.ProtocolInvariants DualArrays.Proofs.CsrReaders

section Power

theorem pow?_eq_some_iff {b e n : Nat} :
    Word.pow? b e = some n ↔ b ^ e ≤ Word.max ∧ n = b ^ e := by
  have hone : 1 ≤ Word.max := by decide
  unfold Word.pow?
  by_cases h0 : b = 0
  · subst h0
    cases e with
    | zero => simp [hone, eq_comm]
    | succ e => simp [eq_comm]
  by_cases h1 : b = 1
  · subst h1
    simp [hone, eq_comm]
  rw [if_neg h0, if_neg h1]
  by_cases h64 : e ≥ 64
  · have hbig : 2 ^ 64 ≤ b ^ e :=
      calc 2 ^ 64 ≤ 2 ^ e := Nat.pow_le_pow_right (by omega) h64
        _ ≤ b ^ e := Nat.pow_le_pow_left (by omega) e
    have hover : Word.max < b ^ e := Nat.lt_of_lt_of_le (by decide) hbig
    simp [h64, Nat.not_le_of_lt hover]
  · rw [if_neg h64, Nat.pow_eq]
    split_ifs with hfit <;> simp [hfit, eq_comm]

theorem pow?_eq_none_iff {b e : Nat} : Word.pow? b e = none ↔ Word.max < b ^ e := by
  rw [Option.eq_none_iff_forall_ne_some]
  constructor
  · intro h
    by_contra hle
    exact h _ (pow?_eq_some_iff.mpr ⟨Nat.le_of_not_lt hle, rfl⟩)
  · intro hlt n hn
    exact absurd (pow?_eq_some_iff.mp hn).1 (Nat.not_le_of_lt hlt)

end Power

section Size

theorem nBasis_eq_of_lt (c : Config) {p : Nat} (hp : p < Word.max) :
    c.nBasis p =
      if c.pMax < p then
        .error (.error (.config ("order " ++ toString p ++ " exceeds p_max = " ++
          toString c.pMax)))
      else if c.dim < 2 ^ 32 ∧ (p + 1) ^ c.dim ≤ Word.max then .ok ((p + 1) ^ c.dim)
      else .error (.error (.config ("basis size overflows for p = " ++ toString p))) := by
  have hadd : Word.add p 1 = .ok (p + 1) := word_add_eq_ok_iff.mpr ⟨by omega, rfl⟩
  unfold Config.nBasis
  by_cases hmax : c.pMax < p
  · simp [hmax, bind, Except.bind, throw, throwThe, MonadExceptOf.throw]
  by_cases hdim : c.dim < 2 ^ 32
  · have hdim' : ¬ c.dim ≥ Nat.pow 2 32 := by simpa [Nat.pow_eq] using hdim
    cases hpow : Word.pow? (p + 1) c.dim with
    | none =>
      have hover := pow?_eq_none_iff.mp hpow
      simp [hmax, hdim', hadd, hpow, Nat.not_le_of_lt hover, bind, Except.bind, throw, throwThe,
        MonadExceptOf.throw]
    | some n =>
      obtain ⟨hfit, rfl⟩ := pow?_eq_some_iff.mp hpow
      simp [hmax, hdim', hadd, hpow, hfit, bind, Except.bind, pure, Except.pure]
  · have hdim' : c.dim ≥ Nat.pow 2 32 := by simpa [Nat.pow_eq] using hdim
    simp [hmax, hdim', bind, Except.bind, throw, throwThe, MonadExceptOf.throw]

theorem nBasis_of_gt (c : Config) {p : Nat} (hp : c.pMax < p) :
    c.nBasis p = .error (.error (.config ("order " ++ toString p ++ " exceeds p_max = " ++
      toString c.pMax))) := by
  simp [Config.nBasis, hp, bind, Except.bind, throw, throwThe, MonadExceptOf.throw]

theorem nBasis_not_abort (c : Config) {p : Nat} (hp : c.pMax < p ∨ p < Word.max)
    (msg : String) : c.nBasis p ≠ .error (.abort msg) := by
  rcases hp with hp | hp
  · simp [nBasis_of_gt c hp]
  · rw [nBasis_eq_of_lt c hp]
    split_ifs <;> simp

end Size

section Coefficients

variable {α : Type} [Element α]

theorem zeros_pair_eq (a b : Nat) (l : Layout) :
    (Multiarray.zeros [a, b] l : Except Error (Multiarray α)) =
        .ok ⟨[a, b], l, Array.replicate (a * b) Element.dflt⟩ ∨
      ∃ r, (Multiarray.zeros [a, b] l : Except Error (Multiarray α)) =
        .error (.allocation "Multiarray" [a, b] r) := by
  have horder : checkOrder [a, b] = .ok () := by simp [checkOrder, maxOrder]
  unfold Multiarray.zeros Multiarray.filled
  cases hp : Word.prod? [a, b] with
  | none => exact .inr ⟨.extentOverflow, by simp [horder, Storage.checkedLen, hp, bind, Except.bind]⟩
  | some n =>
    have hn : n = a * b := by simpa using foldlM_mul?_eq_some hp
    subst hn
    cases hr : Storage.reserve "Multiarray" [a, b] (a * b) (Element.size α) with
    | ok u =>
      exact .inl (by simp [horder, Storage.checkedLen, hp, Storage.filled, hr, bind, Except.bind,
        pure, Except.pure])
    | error e =>
      obtain ⟨r, rfl⟩ := reserve_eq_error hr
      exact .inr ⟨r, by simp [horder, Storage.checkedLen, hp, Storage.filled, hr, bind,
        Except.bind]⟩

inductive CoefficientsOutcome (c : Config) (p : Nat) : Except Failure (Multiarray α) → Prop
  | zeros {n : Nat} : c.nBasis p = .ok n →
      CoefficientsOutcome c p (.ok ⟨[n, c.nVar], c.layout, Array.replicate (n * c.nVar) Element.dflt⟩)
  | sizeError {e : Error} : c.nBasis p = .error (.error e) →
      CoefficientsOutcome c p (.error (.error e))
  | allocation {n : Nat} (r : AllocReason) : c.nBasis p = .ok n →
      CoefficientsOutcome c p (.error (.error (.allocation "Multiarray" [n, c.nVar] r)))

theorem coefficients_outcome (c : Config) {p : Nat} (hp : c.pMax < p ∨ p < Word.max) :
    CoefficientsOutcome c p (Multiarray.coefficients c p : Except Failure (Multiarray α)) := by
  unfold Multiarray.coefficients
  cases hn : c.nBasis p with
  | error f =>
    cases f with
    | error e => exact .sizeError hn
    | abort msg => exact absurd hn (nBasis_not_abort c hp msg)
  | ok n =>
    simp only [bind, Except.bind, Multiarray.zerosWith, Except.toFailure]
    rcases zeros_pair_eq (α := α) n c.nVar c.layout with h | ⟨r, h⟩
    · rw [h]
      exact .zeros hn
    · rw [h]
      exact .allocation r hn

end Coefficients

/-- What sizing a basis of order `p` gives. An order above `pMax` is refused. For an order whose
successor is a machine word, the size is `(p + 1) ^ dim` when the dimension is a 32-bit word and
the power a machine word, and an overflow error otherwise. For both kinds of order the sizing
never aborts, and the coefficient multiarray of that order has one of the results of
`CoefficientsOutcome`. -/
structure SizesBasis (c : Config) (p : Nat) : Prop where
  exceeds : c.pMax < p →
    c.nBasis p = .error (.error (.config ("order " ++ toString p ++ " exceeds p_max = " ++
      toString c.pMax)))
  fits : p ≤ c.pMax → p < Word.max → c.dim < 2 ^ 32 → (p + 1) ^ c.dim ≤ Word.max →
    c.nBasis p = .ok ((p + 1) ^ c.dim)
  overflows : p ≤ c.pMax → p < Word.max → ¬(c.dim < 2 ^ 32 ∧ (p + 1) ^ c.dim ≤ Word.max) →
    c.nBasis p = .error (.error (.config ("basis size overflows for p = " ++ toString p)))
  never_aborts : c.pMax < p ∨ p < Word.max → ∀ msg, c.nBasis p ≠ .error (.abort msg)
  coefficients : c.pMax < p ∨ p < Word.max → ∀ (α : Type) [Element α],
    CoefficientsOutcome c p (Multiarray.coefficients c p : Except Failure (Multiarray α))

theorem sizes_basis (c : Config) (p : Nat) : SizesBasis c p where
  exceeds hp := nBasis_of_gt c hp
  fits hle hp hdim hfit := by
    rw [nBasis_eq_of_lt c hp, if_neg (Nat.not_lt_of_le hle), if_pos ⟨hdim, hfit⟩]
  overflows hle hp hover := by
    rw [nBasis_eq_of_lt c hp, if_neg (Nat.not_lt_of_le hle), if_neg hover]
  never_aborts hp := nBasis_not_abort c hp
  coefficients hp _ _ := coefficients_outcome c hp

/-- In the default plane the basis of order two has nine functions, and its coefficients are a
`9 × 1` multiarray of zeros in column-major layout or an allocation error. -/
theorem sizes_plane_basis_of_order_two :
    ({} : Config).nBasis 2 = .ok 9 ∧
      CoefficientsOutcome {} 2 (Multiarray.coefficients {} 2 : Except Failure (Multiarray Float)) :=
  ⟨(sizes_basis {} 2).fits (by decide) (by decide) (by decide) (by decide),
    (sizes_basis {} 2).coefficients (.inr (by decide)) Float⟩

/-- The basis of order zero has one function in every dimension, yet a dimension of `2 ^ 32`
is refused as an overflow: the order is within `pMax` and one is a machine word, but the size is
not `1`. -/
theorem nBasis_wide_dimension_overflows :
    0 ≤ ({ dim := 2 ^ 32 } : Config).pMax ∧ (0 + 1) ^ ({ dim := 2 ^ 32 } : Config).dim ≤ Word.max ∧
      ({ dim := 2 ^ 32 } : Config).nBasis 0 =
        .error (.error (.config "basis size overflows for p = 0")) := by
  refine ⟨by decide, by simp [Word.max], ?_⟩
  rw [nBasis_eq_of_lt _ (by decide)]
  simp only [if_neg (by decide : ¬ ({ dim := 2 ^ 32 } : Config).pMax < 0)]
  rw [if_neg (by simp)]
  rfl

end DualArrays.Proofs.BasisSize
