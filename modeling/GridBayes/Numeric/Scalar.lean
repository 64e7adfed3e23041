/-! The arithmetic that densities, interpolation and sampling are written in. A scalar type has the
field operations, comparisons, elementary and special functions, and values for infinity and
not-a-number; doubles are one instance. Comparisons are truth values, and every comparison with
not-a-number is false. -/
namespace GridBayes

class Scalar (α : Type) extends Add α, Sub α, Mul α, Div α, Neg α, OfScientific α where
  ofNat : Nat → α
  lt : α → α → Bool
  le : α → α → Bool
  eq : α → α → Bool
  nan : α
  infinity : α
  isFinite : α → Bool
  truncate : α → Int
  exp : α → α
  log : α → α
  log10 : α → α
  sqrt : α → α
  sin : α → α
  cos : α → α
  pow : α → α → α
  copysign : α → α → α
  erf : α → α
  erfc : α → α
  erfcInv : α → α
  lnGamma : α → α
  lnBeta : α → α → α
  gammaIncInv : α → α → α
  betaIncInv : α → α → α → α

namespace Scalar

variable {α : Type} [Scalar α]

@[inline] def isNaN (x : α) : Bool :=
  !eq x x

@[inline] def fmin (x y : α) : α :=
  if isNaN x then y else if isNaN y then x else if lt y x then y else x

@[inline] def fmax (x y : α) : α :=
  if isNaN x then y else if isNaN y then x else if lt x y then y else x

@[inline] def fabs (x : α) : α :=
  copysign x 1.0

@[inline] def pi : α :=
  3.14159265358979323846

end Scalar

end GridBayes
