import DualArrays.Decimal.Text

/-!
# Real floating-point types

`RealFloat ρ` collects what the library does with one binary floating-point type: IEEE 754
arithmetic in round-to-nearest, the elementary functions of the platform's mathematical
library, the conversions that the library performs, and the texts of a value. Its two
instances are `Float` (binary64) and `Float32` (binary32).

On top of the class this module defines the operations whose rule is fixed here rather
than by the platform:

* `powi`: an integer power by binary powering, squaring the base once per bit of the
  exponent and multiplying the bits that are set from the least significant up; a
  negative exponent takes the reciprocal of the result at the end;
* `fmax` / `fmin`: the larger or smaller argument, a NaN giving way to the other argument
  and a tie going to the second;
* `hypot` for `Float`: the square root of `x² + y²` with one correction step, so that the
  intermediate sum neither overflows nor underflows; for `Float32` the sum is formed in
  binary64, where it is exact, and rounded once.
-/

namespace DualArrays

/-- A binary floating-point type used as the real numbers of the library. -/
class RealFloat (ρ : Type) extends Add ρ, Sub ρ, Mul ρ, Div ρ, Neg ρ where
  format : Decimal.BinaryFormat
  bits : ρ → Nat
  zero : ρ
  one : ρ
  /-- IEEE 754 `<`: false whenever a NaN takes part. -/
  lt : ρ → ρ → Bool
  /-- IEEE 754 `≤`: false whenever a NaN takes part. -/
  le : ρ → ρ → Bool
  /-- IEEE 754 equality: a NaN equals nothing and `-0.0 = 0.0`. -/
  eq : ρ → ρ → Bool
  ofFloat : Float → ρ
  ofUInt64 : UInt64 → ρ
  toFloat : ρ → Float
  sqrt : ρ → ρ
  exp : ρ → ρ
  ln : ρ → ρ
  sin : ρ → ρ
  cos : ρ → ρ
  sinh : ρ → ρ
  cosh : ρ → ρ
  atan2 : ρ → ρ → ρ
  pow : ρ → ρ → ρ
  /-- The Euclidean norm `sqrt (x² + y²)` without undue overflow or underflow. -/
  hypot : ρ → ρ → ρ
  /-- The absolute value: the sign bit cleared. -/
  abs : ρ → ρ
  isNaN : ρ → Bool
  isInf : ρ → Bool
  epsilon : ρ
  infinity : ρ
  /-- The quiet NaN with the sign bit clear. -/
  nan : ρ
  /-- Whether the readable text of the value uses exponent notation: for non-zero values
  below `1e-4` or from `1e16` on, both constants rounded to the type. -/
  readableExponent : ρ → Bool

namespace RealFloat

variable {ρ : Type} [RealFloat ρ]

def isFinite (x : ρ) : Bool := !(isNaN x) && !(isInf x)

def signNegative (x : ρ) : Bool :=
  (bits x / Nat.pow 2 ((format ρ).fractionBits + (format ρ).exponentBits)) % 2 == 1

def unpack (x : ρ) : Decimal.Unpacked := (format ρ).unpack (bits x)

def isZero (x : ρ) : Bool := eq x zero

/-- The larger argument; a NaN gives way to the other argument, and of two equal arguments
(`-0.0` and `0.0` among them) the second is returned. -/
def fmax (x y : ρ) : ρ :=
  if isNaN x then y else if isNaN y then x else if lt y x then x else y

/-- The smaller argument; a NaN gives way to the other argument, and of two equal arguments
the second is returned. -/
def fmin (x y : ρ) : ρ :=
  if isNaN x then y else if isNaN y then x else if lt x y then x else y

/-- Binary powering by a natural exponent `n ≥ 1`: the result accumulates the base's
squares at the set bits of `n`, least significant first. -/
def powNat (a r : ρ) (n : Nat) : ρ :=
  let r := if n % 2 = 1 then r * a else r
  if h : n / 2 = 0 then r else powNat (a * a) r (n / 2)
termination_by n
decreasing_by omega

/-- The integer power `x ^ n` by binary powering from `1`; for negative `n` the power of
`|n|` is formed first and its reciprocal taken. -/
def powi (x : ρ) (n : Int) : ρ :=
  let r := powNat x one n.natAbs
  if n < 0 then one / r else r

/-- Shortest positional text (`1`, `0.5`, `-0`, `NaN`, `inf`). -/
def plainText (x : ρ) : String := (unpack x).plain (format ρ)

/-- Shortest readable text (`1.0`, `1e-5`, `-0.0`, `NaN`, `inf`). -/
def readableText (x : ρ) : String := (unpack x).readable (format ρ) (readableExponent x)

/-- Exponent text with `frac` fractional digits, a plus sign before non-negative values
when `plus` is set. -/
def scientificText (frac : Nat) (plus : Bool) (x : ρ) : String :=
  (unpack x).scientific frac plus

def unpackWide (x : ρ) : Decimal.Unpacked :=
  Decimal.BinaryFormat.binary64.unpack (toFloat x).toBits.toNat

end RealFloat

namespace Binary64

/-- `2 ^ k` rounded to binary64: exact from `2 ^ -1074` to `2 ^ 1023`. -/
def twoPow (k : Int) : Float :=
  ⟨Float.Model.pack (Float.Model.UnpackedFloat.round .binary64 .positive 1 k)⟩

/-- One correction step for `sqrt (ax² + ay²)` with `ax ≥ ay ≥ 0` in a range where the
squares neither overflow nor underflow: the rounding error of the first square root is
estimated from the residual of the sum, formed so that it cancels exactly. -/
def hypotKernel (ax ay : Float) : Float :=
  let h := Float.sqrt (ax * ax + ay * ay)
  if h ≤ 2.0 * ay then
    let delta := h - ay
    let t1 := ax * (2.0 * delta - ax)
    let t2 := (delta - 2.0 * (ax - ay)) * delta
    h - (t1 + t2) / (2.0 * h)
  else
    let delta := h - ax
    let t1 := 2.0 * delta * (ax - 2.0 * ay)
    let t2 := (4.0 * delta - ay) * ay + delta * delta
    h - (t1 + t2) / (2.0 * h)

/-- The Euclidean norm of `(x, y)`: an infinite argument gives `+∞` and a NaN a NaN; when
one magnitude is below `2 ^ -54` times the other the sum of magnitudes is exact enough;
a larger magnitude above `2 ^ 511` or a smaller one below `2 ^ -459` scales both by
`2 ^ ∓600` around the kernel, so that no square in it overflows or loses precision. -/
def hypot (x y : Float) : Float :=
  if x.isInf || y.isInf then Float.ofBits 0x7FF0000000000000
  else if x.isNaN || y.isNaN then x + y
  else
    let x := x.abs
    let y := y.abs
    let ax := if x < y then y else x
    let ay := if x < y then x else y
    let eps := twoPow (-54)
    let scale := twoPow (-600)
    if ax > twoPow 511 then
      if ay ≤ ax * eps then ax + ay else hypotKernel (ax * scale) (ay * scale) / scale
    else if ay < twoPow (-459) then
      if ax ≥ ay / eps then ax + ay else hypotKernel (ax / scale) (ay / scale) * scale
    else if ay ≤ ax * eps then ax + ay
    else hypotKernel ax ay

end Binary64

instance : RealFloat Float where
  add := Float.add
  sub := Float.sub
  mul := Float.mul
  div := Float.div
  neg := Float.neg
  format := .binary64
  bits x := x.toBits.toNat
  zero := 0.0
  one := 1.0
  lt x y := decide (x < y)
  le x y := decide (x ≤ y)
  eq x y := x == y
  ofFloat x := x
  ofUInt64 n := n.toFloat
  toFloat x := x
  sqrt := Float.sqrt
  exp := Float.exp
  ln := Float.log
  sin := Float.sin
  cos := Float.cos
  sinh := Float.sinh
  cosh := Float.cosh
  atan2 := Float.atan2
  pow := Float.pow
  hypot := Binary64.hypot
  abs := Float.abs
  isNaN := Float.isNaN
  isInf := Float.isInf
  epsilon := Float.ofBits 0x3CB0000000000000
  infinity := Float.ofBits 0x7FF0000000000000
  nan := Float.ofBits 0x7FF8000000000000
  readableExponent x := x != 0.0 && (x.abs < 1e-4 || x.abs ≥ 1e16)

namespace Binary32

open Float.Model in
/-- A value rounded to the format `spec`, to nearest with ties to even; zeros, infinities and
NaN keep their kind and sign. -/
def roundTo (spec : Format) : UnpackedFloat → UnpackedFloat
  | .finite s m e _ => UnpackedFloat.round spec s m e
  | u => u

/-- The binary64 value of a binary32 value, which is exact. -/
def widen (x : Float32) : Float := ⟨Float.Model.pack (roundTo .binary64 x.toModel.unpack)⟩

def narrow (x : Float) : Float32 :=
  ⟨Float32.Model.pack (roundTo .binary32 x.toModel.unpack)⟩

/-- The Euclidean norm of `(x, y)` in binary32: an infinite argument gives `+∞`, a NaN a
NaN, and otherwise the binary64 square root of the exact binary64 sum of squares, rounded
once to binary32. -/
def hypot (x y : Float32) : Float32 :=
  if x.isInf || y.isInf then Float32.ofBits 0x7F800000
  else if x.isNaN || y.isNaN then x + y
  else
    let a := widen x
    let b := widen y
    narrow (Float.sqrt (a * a + b * b))

end Binary32

instance : RealFloat Float32 where
  add := Float32.add
  sub := Float32.sub
  mul := Float32.mul
  div := Float32.div
  neg := Float32.neg
  format := .binary32
  bits x := x.toBits.toNat
  zero := 0.0
  one := 1.0
  lt x y := decide (x < y)
  le x y := decide (x ≤ y)
  eq x y := x == y
  ofFloat x := x.toFloat32
  ofUInt64 n := n.toFloat32
  toFloat x := x.toFloat
  sqrt := Float32.sqrt
  exp := Float32.exp
  ln := Float32.log
  sin := Float32.sin
  cos := Float32.cos
  sinh := Float32.sinh
  cosh := Float32.cosh
  atan2 := Float32.atan2
  pow := Float32.pow
  hypot := Binary32.hypot
  abs := Float32.abs
  isNaN := Float32.isNaN
  isInf := Float32.isInf
  epsilon := Float32.ofBits 0x34000000
  infinity := Float32.ofBits 0x7F800000
  nan := Float32.ofBits 0x7FC00000
  readableExponent x := x != 0.0 && (x.abs < 1e-4 || x.abs ≥ 1e16)

end DualArrays
