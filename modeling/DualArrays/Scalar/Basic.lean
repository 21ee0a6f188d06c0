import DualArrays.Scalar.Complex

namespace DualArrays

/-- A value that the containers store. -/
class Element (α : Type) where
  /-- The value a new slot holds. -/
  dflt : α
  size : Nat
  /-- The equality of values (IEEE equality for floating-point parts). -/
  eq : α → α → Bool
  text : α → String
  debugText : α → String

/-- An arithmetic type of the kernels, with real type `ρ`. -/
class Scalar (α : Type) (ρ : outParam Type) extends Element α, Add α, Sub α, Mul α, Div α,
    Neg α where
  isComplex : Bool
  zero : α
  one : α
  /-- Where a sum starts: `-0.0` for a real type, so that a sum of zeros keeps their sign,
  and `0 + 0i` for a complex type. -/
  sumStart : α
  ofReal : ρ → α
  /-- The value with the given parts; a real type drops the imaginary part. -/
  ofParts : ρ → ρ → α
  scale : α → ρ → α
  unscale : α → ρ → α
  re : α → ρ
  im : α → ρ
  /-- The absolute value of a real, the modulus of a complex number. -/
  modulus : α → ρ
  conj : α → α
  sqrt : α → α
  exp : α → α
  ln : α → α
  sin : α → α
  cos : α → α
  recip : α → α
  powi : α → Int → α
  powf : α → ρ → α
  isFinite : α → Bool

namespace Scalar

variable {α ρ : Type} [RealFloat ρ] [Scalar α ρ]

def ofFloat (x : Float) : α := ofReal (RealFloat.ofFloat x)

def ofUInt64 (n : UInt64) : α := ofReal (RealFloat.ofUInt64 n)

def kind : String := if isComplex α then "complex" else "real"

/-- The sum of a list from `sumStart`, left to right. -/
def sum (xs : List α) : α := xs.foldl (· + ·) (sumStart (α := α))

end Scalar

open RealFloat in
/-- The plain text of a complex number: the real part, the sign of the imaginary part
(`-` only when it is below zero), its magnitude and `i`. A part below zero is written as
`0 - part`, which is the part without its sign. -/
def Complex.text {ρ : Type} [RealFloat ρ] (z : Complex ρ) : String :=
  let reNeg := lt z.re zero
  let imNeg := lt z.im zero
  let reAbs := if reNeg then zero - z.re else z.re
  let imAbs := if imNeg then zero - z.im else z.im
  (if reNeg then "-" else "") ++ plainText reAbs ++ (if imNeg then "-" else "+") ++
    plainText imAbs ++ "i"

instance {ρ : Type} [RealFloat ρ] : Scalar ρ ρ where
  dflt := RealFloat.zero
  size := (RealFloat.format ρ).fractionBits + (RealFloat.format ρ).exponentBits + 1 |>.div 8
  eq := RealFloat.eq
  text := RealFloat.plainText
  debugText := RealFloat.readableText
  isComplex := false
  zero := RealFloat.zero
  one := RealFloat.one
  sumStart := -RealFloat.zero
  ofReal r := r
  ofParts re _ := re
  scale x r := x * r
  unscale x r := x / r
  re x := x
  im _ := RealFloat.zero
  modulus := RealFloat.abs
  conj x := x
  sqrt := RealFloat.sqrt
  exp := RealFloat.exp
  ln := RealFloat.ln
  sin := RealFloat.sin
  cos := RealFloat.cos
  recip x := RealFloat.one / x
  powi := RealFloat.powi
  powf := RealFloat.pow
  isFinite := RealFloat.isFinite

instance {ρ : Type} [RealFloat ρ] : Scalar (Complex ρ) ρ where
  dflt := Complex.zero'
  size := 2 * ((RealFloat.format ρ).fractionBits + (RealFloat.format ρ).exponentBits + 1).div 8
  eq z w := RealFloat.eq z.re w.re && RealFloat.eq z.im w.im
  text := Complex.text
  debugText z :=
    "Complex \x7b re: " ++ RealFloat.readableText z.re ++ ", im: " ++
      RealFloat.readableText z.im ++ " \x7d"
  isComplex := true
  zero := Complex.zero'
  one := Complex.one'
  sumStart := Complex.zero'
  ofReal := Complex.ofReal
  ofParts re im := ⟨re, im⟩
  scale := Complex.scale
  unscale := Complex.unscale
  re z := z.re
  im z := z.im
  modulus := Complex.norm
  conj := Complex.conj
  sqrt := Complex.sqrt
  exp := Complex.exp
  ln := Complex.ln
  sin := Complex.sin
  cos := Complex.cos
  recip := Complex.inv
  powi := Complex.powi
  powf := Complex.powf
  isFinite := Complex.isFinite'

instance : Element Int32 where
  dflt := 0
  size := 4
  eq a b := a == b
  text a := toString a.toInt
  debugText a := toString a.toInt

instance : Element Int64 where
  dflt := 0
  size := 8
  eq a b := a == b
  text a := toString a.toInt
  debugText a := toString a.toInt

instance : Element UInt64 where
  dflt := 0
  size := 8
  eq a b := a == b
  text a := toString a.toNat
  debugText a := toString a.toNat

end DualArrays
