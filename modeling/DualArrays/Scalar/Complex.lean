import DualArrays.Scalar.Real

namespace DualArrays

/-- A complex number with real and imaginary parts of type `ρ`. -/
structure Complex (ρ : Type) where
  re : ρ
  im : ρ

namespace Complex

open RealFloat

variable {ρ : Type} [RealFloat ρ]

instance : Add (Complex ρ) := ⟨fun z w => ⟨z.re + w.re, z.im + w.im⟩⟩
instance : Sub (Complex ρ) := ⟨fun z w => ⟨z.re - w.re, z.im - w.im⟩⟩
instance : Neg (Complex ρ) := ⟨fun z => ⟨-z.re, -z.im⟩⟩
instance : Mul (Complex ρ) :=
  ⟨fun z w => ⟨z.re * w.re - z.im * w.im, z.re * w.im + z.im * w.re⟩⟩

/-- The squared modulus `re² + im²`, rounded as written. -/
def normSq (z : Complex ρ) : ρ := z.re * z.re + z.im * z.im

instance : Div (Complex ρ) :=
  ⟨fun z w =>
    let n := normSq w
    ⟨(z.re * w.re + z.im * w.im) / n, (z.im * w.re - z.re * w.im) / n⟩⟩

def ofReal (r : ρ) : Complex ρ := ⟨r, zero⟩

def zero' : Complex ρ := ⟨zero, zero⟩

def one' : Complex ρ := ⟨one, zero⟩

def scale (z : Complex ρ) (r : ρ) : Complex ρ := ⟨z.re * r, z.im * r⟩

def unscale (z : Complex ρ) (r : ρ) : Complex ρ := ⟨z.re / r, z.im / r⟩

def conj (z : Complex ρ) : Complex ρ := ⟨z.re, -z.im⟩

/-- The modulus `hypot re im`. -/
def norm (z : Complex ρ) : ρ := hypot z.re z.im

def arg (z : Complex ρ) : ρ := atan2 z.im z.re

def fromPolar (r θ : ρ) : Complex ρ := ⟨r * cos θ, r * sin θ⟩

/-- The reciprocal `(re - im i) / (re² + im²)`. -/
def inv (z : Complex ρ) : Complex ρ :=
  let n := normSq z
  ⟨z.re / n, -z.im / n⟩

def isFinite' (z : Complex ρ) : Bool := isFinite z.re && isFinite z.im

/-- The principal square root. On the real axis the root of `|re|` goes to the real part
for a non-negative sign of `re` (keeping `im`), and to the imaginary part, signed like
`im`, otherwise; on the imaginary axis both parts are `sqrt (|im| / 2)`; elsewhere it is
the root of the modulus at half the argument. -/
def sqrt (z : Complex ρ) : Complex ρ :=
  if isZero z.im then
    if !signNegative z.re then ⟨RealFloat.sqrt z.re, z.im⟩
    else
      let r := RealFloat.sqrt (-z.re)
      if !signNegative z.im then ⟨zero, r⟩ else ⟨zero, -r⟩
  else if isZero z.re then
    let x := RealFloat.sqrt (abs z.im / (one + one))
    if !signNegative z.im then ⟨x, x⟩ else ⟨x, -x⟩
  else
    fromPolar (RealFloat.sqrt (norm z)) (arg z / (one + one))

/-- The exponential `e ^ re (cos im + i sin im)`. An infinite real part with a zero or
non-finite imaginary part keeps its real part (a NaN imaginary part for an infinite one),
and `-∞` with a non-finite imaginary part gives zero; a NaN real part with a zero
imaginary part is returned as is. -/
def exp (z : Complex ρ) : Complex ρ :=
  if isInf z.re then
    if lt z.re zero then
      if !(isFinite z.im) then ⟨zero, zero⟩ else fromPolar (RealFloat.exp z.re) z.im
    else if isZero z.im || !(isFinite z.im) then
      ⟨z.re, if isInf z.im then nan else z.im⟩
    else fromPolar (RealFloat.exp z.re) z.im
  else if isNaN z.re && isZero z.im then z
  else fromPolar (RealFloat.exp z.re) z.im

def ln (z : Complex ρ) : Complex ρ := ⟨RealFloat.ln (norm z), arg z⟩

def sin (z : Complex ρ) : Complex ρ :=
  ⟨RealFloat.sin z.re * cosh z.im, RealFloat.cos z.re * sinh z.im⟩

def cos (z : Complex ρ) : Complex ρ :=
  ⟨RealFloat.cos z.re * cosh z.im, -(RealFloat.sin z.re) * sinh z.im⟩

/-- A real power: `1` for a zero exponent, otherwise the modulus raised to `e` at `e`
times the argument. -/
def powf (z : Complex ρ) (e : ρ) : Complex ρ :=
  if isZero e then one' else fromPolar (pow (norm z) e) (arg z * e)

/-- Repeated squaring for an exponent `n ≥ 1` whose trailing zero bits are already
consumed: each further bit squares the base, a set bit multiplies it into the result. -/
def powAcc (base acc : Complex ρ) (n : Nat) : Complex ρ :=
  if h : n ≤ 1 then acc
  else
    let base := base * base
    let acc := if (n / 2) % 2 = 1 then acc * base else acc
    powAcc base acc (n / 2)
termination_by n
decreasing_by omega

def powOdd (base : Complex ρ) (n : Nat) : Complex ρ :=
  if h : n = 0 then one'
  else if n % 2 = 0 then powOdd (base * base) (n / 2)
  else powAcc base base n
termination_by n
decreasing_by omega

def powNat (z : Complex ρ) (n : Nat) : Complex ρ := powOdd z n

/-- The integer power: the reciprocal is taken first for a negative exponent. -/
def powi (z : Complex ρ) (n : Int) : Complex ρ :=
  if n < 0 then powNat (inv z) n.natAbs else powNat z n.natAbs

end Complex

end DualArrays
