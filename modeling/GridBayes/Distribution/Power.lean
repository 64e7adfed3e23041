import GridBayes.Numeric.Scalar

/-! Powers of numbers that are not negative, as complex arithmetic gives them: a product with an infinite
factor has no imaginary part that could be told, and what has none is not a real number. -/
namespace GridBayes.Distribution
open Scalar

variable {α : Type} [Scalar α]

structure Power (α : Type) where
  value : α
  isReal : Bool

namespace Power

def unreal (value : α) : Power α :=
  ⟨value, false⟩

def ofLog (exponent logBase : α) : Power α :=
  let e := exponent * logBase
  if isNaN e then unreal nan
  else if isFinite exponent && isFinite logBase then ⟨exp e, true⟩
  else if lt e 0.0 then ⟨0.0, true⟩
  else unreal infinity

def of (base exponent : α) : Power α :=
  ofLog exponent (log base)

def times (factor : α) (x : Power α) : Power α :=
  ⟨factor * x.value, x.isReal && isFinite factor && isFinite x.value⟩

def plus (x y : Power α) : Power α :=
  ⟨x.value + y.value, x.isReal && y.isReal⟩

def minus (x y : Power α) : Power α :=
  ⟨x.value - y.value, x.isReal && y.isReal⟩

/-- A number divided by another: zero if only the divisor is infinite, not real if too large. -/
def under (numerator : α) (x : Power α) : Power α :=
  if !isFinite numerator || isNaN x.value || eq x.value 0.0 then unreal nan
  else if isFinite x.value then
    let quotient := numerator / x.value
    ⟨quotient, x.isReal && isFinite quotient⟩
  else ⟨0.0, true⟩

def raised (x : Power α) (exponent : α) : Power α :=
  if x.isReal then of x.value exponent else x

def read (x : Power α) (f : α → α) : α :=
  if x.isReal then f x.value else 0.0

end Power

end GridBayes.Distribution
