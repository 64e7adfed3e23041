import GridBayes.Numeric.BetaInverse
import GridBayes.Numeric.Scalar

/-! Doubles as scalars. -/
namespace GridBayes

/-- The whole number towards zero; beyond 64 bits it is the least such number. -/
def Numeric.truncate (x : Float) : Int :=
  if x.isNaN || x.abs >= 9223372036854775808.0 then -9223372036854775808
  else x.toInt64.toInt

def Numeric.copysign (x y : Float) : Float :=
  let sign : UInt64 := 0x8000000000000000
  Float.ofBits ((x.toBits &&& (sign - 1)) ||| (y.toBits &&& sign))

instance : Scalar Float where
  ofNat n := n.toFloat
  lt x y := decide (x < y)
  le x y := decide (x <= y)
  eq x y := x == y
  nan := 0.0 / 0.0
  infinity := 1.0 / 0.0
  isFinite x := x.isFinite
  truncate := Numeric.truncate
  exp := Float.exp
  log := Float.log
  log10 := Float.log10
  sqrt := Float.sqrt
  sin := Float.sin
  cos := Float.cos
  pow := Float.pow
  copysign := Numeric.copysign
  erf := Numeric.erf
  erfc := Numeric.erfc
  erfcInv := Numeric.erfcInv
  lnGamma := Numeric.lnGamma
  lnBeta := Numeric.lnBeta
  gammaIncInv := Numeric.gammaIncInv
  betaIncInv := Numeric.betaIncInv

end GridBayes
