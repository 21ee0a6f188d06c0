import DualArrays.Decimal.Digits

namespace DualArrays.Decimal

def digitChar (d : Nat) : Char := Char.ofNat (48 + d)

def digitText (ds : List Nat) : String := String.ofList (ds.map digitChar)

def zeros (n : Nat) : String := String.ofList (List.replicate n '0')

/-- Positional text of `0.d₁…dₙ × 10 ^ point` with at least `minFrac` fractional digits;
with `minFrac = 0` a whole value has no point. -/
def Digits.positional (d : Digits) (minFrac : Nat) : String :=
  let n := d.digits.length
  if d.point ≤ 0 then
    let lead := "0." ++ zeros d.point.natAbs ++ digitText d.digits
    lead ++ zeros (minFrac - (d.point.natAbs + n))
  else if d.point.toNat < n then
    let k := d.point.toNat
    let frac := d.digits.drop k
    digitText (d.digits.take k) ++ "." ++ digitText frac ++ zeros (minFrac - frac.length)
  else
    let whole := digitText d.digits ++ zeros (d.point.toNat - n)
    if minFrac = 0 then whole else whole ++ "." ++ zeros minFrac

/-- Exponent text `d₁.d₂…dₙeE` of `0.d₁…dₙ × 10 ^ point`, where `E = point - 1`; a
single digit has no point. -/
def Digits.exponential (d : Digits) : String :=
  let body := match d.digits with
    | [] => "0"
    | [a] => digitText [a]
    | a :: rest => digitText [a] ++ "." ++ digitText rest
  body ++ "e" ++ toString (d.point - 1)

/-- The sign written before a value: a minus sign for negative values (zero included), a
plus sign for the others when `plus` is set. -/
def signText (negative plus : Bool) : String :=
  if negative then "-" else if plus then "+" else ""

namespace Unpacked

/-- Shortest digits in positional notation, no point for whole values. -/
def plain (f : BinaryFormat) : Unpacked → String
  | .nan => "NaN"
  | .infinite neg => signText neg false ++ "inf"
  | .finite neg 0 _ => signText neg false ++ "0"
  | .finite neg m e => signText neg false ++ (shortest f .up m e).positional 0

/-- Shortest digits: in exponent notation when `exponent` is set (zero excepted), otherwise
positional with at least one fractional digit. -/
def readable (f : BinaryFormat) (exponent : Bool) : Unpacked → String
  | .nan => "NaN"
  | .infinite neg => signText neg false ++ "inf"
  | .finite neg 0 _ => signText neg false ++ "0.0"
  | .finite neg m e =>
    let d := shortest f .up m e
    signText neg false ++ (if exponent then d.exponential else d.positional 1)

/-- The value rounded to `frac` fractional digits in exponent notation, a half going to the
even neighbour; `plus` writes a plus sign before values that are not negative. A NaN has no
sign. -/
def scientific (frac : Nat) (plus : Bool) : Unpacked → String
  | .nan => "NaN"
  | .infinite neg => signText neg plus ++ "inf"
  | .finite neg 0 _ =>
    signText neg plus ++ (⟨List.replicate (frac + 1) 0, 1⟩ : Digits).exponential
  | .finite neg m e => signText neg plus ++ (roundSignificant (frac + 1) m e).exponential

end Unpacked

def padLeft (width : Nat) (s : String) : String :=
  String.ofList (List.replicate (width - s.length) ' ') ++ s

end DualArrays.Decimal
