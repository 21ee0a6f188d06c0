
namespace DualArrays.Decimal

/-- The widths of the fraction and exponent fields of a binary interchange format. -/
structure BinaryFormat where
  fractionBits : Nat
  exponentBits : Nat
  deriving Repr, DecidableEq

namespace BinaryFormat

def binary64 : BinaryFormat := ⟨52, 11⟩

def binary32 : BinaryFormat := ⟨23, 8⟩

/-- The exponent bias, `2 ^ (exponentBits - 1) - 1`. -/
def bias (f : BinaryFormat) : Nat := Nat.pow 2 (f.exponentBits - 1) - 1

/-- The binary exponent of the least significant bit of a subnormal value. -/
def minExp (f : BinaryFormat) : Int := 1 - (f.bias : Int) - f.fractionBits

def hiddenBit (f : BinaryFormat) : Nat := Nat.pow 2 f.fractionBits

end BinaryFormat

/-- What a bit pattern denotes, read exactly. -/
inductive Unpacked where
  | nan
  | infinite (negative : Bool)
  | finite (negative : Bool) (mant : Nat) (exp : Int)
  deriving Repr, DecidableEq

namespace BinaryFormat

/-- Reads a bit pattern: an all-ones exponent is an infinity or a NaN, a zero exponent a
subnormal (or zero), any other exponent a normal value with its hidden bit restored. -/
def unpack (f : BinaryFormat) (bits : Nat) : Unpacked :=
  let frac := bits % Nat.pow 2 f.fractionBits
  let biased := (bits / Nat.pow 2 f.fractionBits) % Nat.pow 2 f.exponentBits
  let negative := (bits / Nat.pow 2 (f.fractionBits + f.exponentBits)) % 2 == 1
  if biased = Nat.pow 2 f.exponentBits - 1 then
    if frac = 0 then .infinite negative else .nan
  else if biased = 0 then
    .finite negative frac f.minExp
  else
    .finite negative (frac + f.hiddenBit) (f.minExp + (biased - 1 : Nat))

/-- The lower neighbour of `mant * 2 ^ exp` is half as far as the upper one exactly when
the value is a power of two above the smallest normal value. -/
def narrowBelow (f : BinaryFormat) (mant : Nat) (exp : Int) : Bool :=
  mant == f.hiddenBit && decide (f.minExp < exp)

end BinaryFormat

theorem unpack_zero (f : BinaryFormat) (h : 0 < f.exponentBits) :
    f.unpack 0 = .finite false 0 f.minExp := by
  have hne : (0 : Nat) ≠ 2 ^ f.exponentBits - 1 := by
    have : 2 ≤ 2 ^ f.exponentBits := by
      calc 2 = 2 ^ 1 := rfl
        _ ≤ 2 ^ f.exponentBits := Nat.pow_le_pow_right (by decide) h
    omega
  simp [BinaryFormat.unpack, Nat.zero_div, Nat.zero_mod, hne]

/-- `num / den` rounded to the nearest integer, a tie to the even one. -/
def roundHalfEven (num den : Nat) : Nat :=
  let q := num / den
  let r := num % den
  if 2 * r > den ∨ (2 * r = den ∧ q % 2 = 1) then q + 1 else q

def atLeastPow2 (num den : Nat) (k : Int) : Bool :=
  if 0 ≤ k then decide (num ≥ den * Nat.pow 2 k.toNat) else decide (num * Nat.pow 2 (-k).toNat ≥ den)

def scaledRound (num den : Nat) (k : Int) : Nat :=
  if 0 ≤ k then roundHalfEven num (den * Nat.pow 2 k.toNat)
  else roundHalfEven (num * Nat.pow 2 (-k).toNat) den

/-- The binary64 value nearest to `num / den > 0`, a tie to the even significand: the
significand is the quotient scaled to 53 bits (fewer below the normal range) and rounded
once, and a value past the largest finite one is `+∞`. -/
def nearestOfRatio (num den : Nat) : Float :=
  let b₀ : Int := (num.log2 : Int) - den.log2
  let b := if atLeastPow2 num den b₀ then b₀ else b₀ - 1
  let k := max (b - 52) (-1074)
  let s := scaledRound num den k
  let (s, k) := if s = Nat.pow 2 53 then (Nat.pow 2 52, k + 1) else (s, k)
  if k > 971 then Float.ofBits 0x7FF0000000000000
  else Float.scaleB s.toUInt64.toFloat k

/-- The binary64 value nearest to `m * 10 ^ e`. A value of `10 ^ 309` or more is `+∞`
and one below `10 ^ -324` is zero, both beyond the finite range by a margin, so far
exponents are settled without computing their power. -/
def nearestBinary64 (m : Nat) (e : Int) : Float :=
  let len : Int := (toString m).length
  if m = 0 ∨ len + e ≤ -324 then 0
  else if len - 1 + e ≥ 309 then Float.ofBits 0x7FF0000000000000
  else nearestOfRatio (m * Nat.pow 10 e.toNat) (Nat.pow 10 (-e).toNat)

end DualArrays.Decimal
