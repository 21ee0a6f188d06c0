import DualArrays.Branch
import DualArrays.Vector.Basic

namespace DualArrays

inductive UnaryOp where
  | neg | sqrt | exp | ln | sin | cos | recip | conj
  | abs
  deriving DecidableEq, Repr

inductive BinaryOp where
  | add | sub | mul | div
  | max
  | min
  | maxAbsReal | minAbsReal
  deriving DecidableEq, Repr

/-- An expression in the inputs of a kernel. -/
inductive Expr where
  | const (c : Float)
  | input (i : Nat)
  | unary (op : UnaryOp) (e : Expr)
  | binary (op : BinaryOp) (a b : Expr)
  | powi (e : Expr) (k : Int)
  | powf (e : Expr) (r : Float)
  | scale (e : Expr) (r : Float)
  | unscale (e : Expr) (r : Float)
  | select (c a b : Expr)
  | ifImagNonzero (c a b : Expr)
  | ifModulusGt (c : Expr) (r : Float) (a b : Expr)

namespace UnaryOp

variable {α ρ : Type} [RealFloat ρ] [Scalar α ρ]

def apply : UnaryOp → α → α
  | neg, x => -x
  | sqrt, x => Scalar.sqrt x
  | exp, x => Scalar.exp x
  | ln, x => Scalar.ln x
  | sin, x => Scalar.sin x
  | cos, x => Scalar.cos x
  | recip, x => Scalar.recip x
  | conj, x => Scalar.conj x
  | abs, x => Branch.abs x

end UnaryOp

namespace BinaryOp

variable {α ρ : Type} [RealFloat ρ] [Scalar α ρ]

def apply : BinaryOp → α → α → α
  | add, a, b => a + b
  | sub, a, b => a - b
  | mul, a, b => a * b
  | div, a, b => a / b
  | max, a, b => Branch.max a b
  | min, a, b => Branch.min a b
  | maxAbsReal, a, b => Branch.maxAbsReal a b
  | minAbsReal, a, b => Branch.minAbsReal a b

end BinaryOp

namespace Expr

def inputsBelow (n : Nat) : Expr → Bool
  | const _ => true
  | input i => i < n
  | unary _ e | powi e _ | powf e _ | scale e _ | unscale e _ => e.inputsBelow n
  | binary _ a b => a.inputsBelow n && b.inputsBelow n
  | select c a b | ifImagNonzero c a b | ifModulusGt c _ a b =>
    c.inputsBelow n && a.inputsBelow n && b.inputsBelow n

variable {α ρ : Type} [RealFloat ρ] [Scalar α ρ]

/-- The value of the expression at the inputs `x`; an input past the end reads as the
default value, which a checked expression never does. -/
def eval (x : Array α) : Expr → α
  | const c => Scalar.ofFloat c
  | input i => x.getD i Element.dflt
  | unary op e => op.apply (e.eval x)
  | binary op a b => op.apply (a.eval x) (b.eval x)
  | powi e k => Scalar.powi (e.eval x) k
  | powf e r => Scalar.powf (e.eval x) (RealFloat.ofFloat r)
  | scale e r => Scalar.scale (e.eval x) (RealFloat.ofFloat r)
  | unscale e r => Scalar.unscale (e.eval x) (RealFloat.ofFloat r)
  | select c a b => Branch.selectIfNonnegative (c.eval x) (a.eval x) (b.eval x)
  | ifImagNonzero c a b =>
    let cv := c.eval x
    let av := a.eval x
    let bv := b.eval x
    if RealFloat.eq (Scalar.im cv) RealFloat.zero then bv else av
  | ifModulusGt c r a b =>
    let cv := c.eval x
    let av := a.eval x
    let bv := b.eval x
    if RealFloat.lt (RealFloat.ofFloat r) (Scalar.modulus cv) then av else bv

end Expr

/-- A kernel: its number of inputs and one expression per output. -/
structure Kernel where
  inputs : Nat
  outputs : List Expr

namespace Kernel

def outputCount (k : Kernel) : Nat := k.outputs.length

end Kernel

end DualArrays
