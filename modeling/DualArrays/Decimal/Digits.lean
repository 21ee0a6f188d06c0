import DualArrays.Decimal.Binary

namespace DualArrays.Decimal

/-- A positive decimal `0.d₁d₂…dₙ × 10 ^ point`, most significant digit first. -/
structure Digits where
  digits : List Nat
  point : Int
  deriving Repr, DecidableEq

/-- How an exact tie between two candidate digit strings is settled. -/
inductive Tie where
  | up
  | even
  deriving Repr, DecidableEq

def digitsOf (n : Nat) : List Nat :=
  if n < 10 then [n] else digitsOf (n / 10) ++ [n % 10]
termination_by n
decreasing_by exact Nat.div_lt_self (by omega) (by decide)

def digitsValue (ds : List Nat) : Nat := ds.foldl (fun acc d => 10 * acc + d) 0

def scaled (n : Nat) (e2 e10 : Int) : Nat × Nat :=
  (n * Nat.pow 2 e2.toNat * Nat.pow 10 e10.toNat, Nat.pow 2 (-e2).toNat * Nat.pow 10 (-e10).toNat)

def ratioLt (a b : Nat × Nat) : Bool := a.1 * b.2 < b.1 * a.2

def ratioEq (a b : Nat × Nat) : Bool := a.1 * b.2 == b.1 * a.2

/-- The decimal exponent `e` of a positive value `mant * 2 ^ exp`, with
`10 ^ e ≤ mant * 2 ^ exp < 10 ^ (e + 1)`. Values down to `10 ^ -400` are covered, which
includes every binary32 and binary64 value. -/
def floorLog10 (mant : Nat) (exp : Int) : Int :=
  let r := scaled mant exp 400
  ((digitsOf (r.1 / r.2)).length : Int) - 1 - 400

def stripZeros (coeff : Nat) (exp10 : Int) : Nat × Int :=
  if h : coeff ≠ 0 ∧ coeff % 10 = 0 then stripZeros (coeff / 10) (exp10 + 1) else (coeff, exp10)
termination_by coeff
decreasing_by exact Nat.div_lt_self (Nat.pos_of_ne_zero h.1) (by decide)

def Digits.ofCoeff (coeff : Nat) (exp10 : Int) : Digits :=
  let (c, e) := stripZeros coeff exp10
  let ds := digitsOf c
  ⟨ds, e + ds.length⟩

/-- The value `mant * 2 ^ exp` correctly rounded to `n` significant digits (`n ≥ 1`), a
half going to the even neighbour. All `n` digits are kept, trailing zeros included. -/
def roundSignificant (n : Nat) (mant : Nat) (exp : Int) : Digits :=
  let e := floorLog10 mant exp
  let p := e + 1 - n
  let r := scaled mant exp (-p)
  let q := r.1 / r.2
  let rest := r.1 % r.2
  let q := if 2 * rest > r.2 || (2 * rest == r.2 && q % 2 == 1) then q + 1 else q
  if q = Nat.pow 10 n then ⟨digitsOf (Nat.pow 10 (n - 1)), e + 2⟩ else ⟨digitsOf q, e + 1⟩

/-- The candidate coefficient (in units of `10 ^ p`) that the shortest search keeps at
grid `p`, if any candidate of that grid reads back. -/
def shortestAt (f : BinaryFormat) (tie : Tie) (mant : Nat) (exp : Int) (p : Int) :
    Option Nat :=
  let up := scaled (4 * mant + 2) (exp - 2) 0
  let down := scaled (if f.narrowBelow mant exp then 4 * mant - 1 else 4 * mant - 2) (exp - 2) 0
  let inclusive := mant % 2 == 0
  let inside (t : Nat × Nat) : Bool :=
    (ratioLt down t || (inclusive && ratioEq down t)) &&
      (ratioLt t up || (inclusive && ratioEq t up))
  let r := scaled mant exp (-p)
  let q := r.1 / r.2
  match inside (scaled q 0 p), inside (scaled (q + 1) 0 p) with
  | true, true =>
    let twice := scaled (2 * mant) exp 0
    let mid := scaled (2 * q + 1) 0 p
    if ratioLt twice mid then some q
    else if ratioLt mid twice then some (q + 1)
    else match tie with
      | .up => some (q + 1)
      | .even => some (if q % 2 == 0 then q else q + 1)
  | true, false => some q
  | false, true => some (q + 1)
  | false, false => none

/-- The shortest digits that read back to the positive value `mant * 2 ^ exp` of format
`f`: grids `10 ^ e`, `10 ^ (e - 1)`, … are tried in turn, `e` the value's decimal
exponent, and the first grid with a candidate wins. Seventeen grids always suffice for
binary64 and nine for binary32; past them the value rounded to seventeen digits stands. -/
def shortest (f : BinaryFormat) (tie : Tie) (mant : Nat) (exp : Int) : Digits :=
  let e := floorLog10 mant exp
  let hit := (List.range 17).findSome? fun (k : Nat) =>
    (shortestAt f tie mant exp (e - k)).map fun c => (c, e - (k : Int))
  match hit with
  | some (c, p) => Digits.ofCoeff c p
  | none => roundSignificant 17 mant exp

end DualArrays.Decimal
