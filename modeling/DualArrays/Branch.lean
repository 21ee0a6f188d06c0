import DualArrays.Scalar.Basic

namespace DualArrays

namespace Branch

open RealFloat

variable {α ρ : Type} [RealFloat ρ] [Scalar α ρ]

/-- `-x` when the real part of `x` is below zero, otherwise `x`. -/
def abs (x : α) : α := if lt (Scalar.re x) zero then -x else x

/-- `b` when its real part exceeds that of `a`, otherwise `a`. -/
def max (a b : α) : α := if lt (Scalar.re a) (Scalar.re b) then b else a

/-- `b` when its real part is below that of `a`, otherwise `a`. -/
def min (a b : α) : α := if lt (Scalar.re b) (Scalar.re a) then b else a

def maxAbsReal (a b : α) : α := max (abs a) (abs b)

def minAbsReal (a b : α) : α := min (abs a) (abs b)

/-- `ifNonneg` when the real part of `cond` is at least zero, otherwise `ifNeg`. -/
def selectIfNonnegative (cond ifNonneg ifNeg : α) : α :=
  if le zero (Scalar.re cond) then ifNonneg else ifNeg

end Branch

end DualArrays
