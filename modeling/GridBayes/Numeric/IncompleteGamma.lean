import GridBayes.Numeric.ErrorFunction
import GridBayes.Numeric.GammaFunction

/-! The regularised incomplete gamma functions for doubles. Where the two arguments are large and close
to each other they are an expansion around the normal distribution; elsewhere a series or a continued
fraction. -/
namespace GridBayes.Numeric

def roundoff : Float := 1.11022302462515654042e-16

/-! ## Exact coefficients -/

def seriesPlaces : Nat := 120

def seriesOne : Int := Int.pow 10 seriesPlaces

/-- The coefficients of `μ` in powers of `η`, where `η² / 2` is `μ - log (1 + μ)`, from `μ μ' = η (1 + μ)`. -/
def deviationSeries : (count : Nat) → Array Int
  | 0 => #[]
  | 1 => #[seriesOne]
  | n + 2 =>
    let a := deviationSeries (n + 1)
    let at_ (i : Nat) : Int := a.getD i 0
    let products := (List.range n).foldl (fun sum i => sum + at_ (i + 1) * at_ (n - i)) 0
    let previous := at_ n
    a.push ((2 * previous * seriesOne - (n + 3 : Int) * products) / (2 * (n + 3 : Int) * seriesOne))

def firstRow (count : Nat) : Array Int :=
  let a := deviationSeries (count + 2)
  (Array.range count).map fun (n : Nat) =>
    (n + 2 : Int) * a.getD (n + 1) 0 - (if n == 0 then seriesOne else 0)

def nextRow (first row : Array Int) : Array Int :=
  (Array.range (row.size - 2)).map fun (n : Nat) =>
    (n + 2 : Int) * row.getD (n + 2) 0 - row.getD 1 0 * first.getD n 0 / seriesOne

def rowsFrom (first : Array Int) : (count : Nat) → (row : Array Int) → List (Array Int)
  | 0, _ => []
  | count + 1, row => row :: rowsFrom first count (nextRow first row)

def ofPlaces (n : Int) : Float :=
  let x := Float.ofScientific n.natAbs true seriesPlaces
  if n < 0 then -x else x

def normalExpansion : List (List Float) :=
  let first := firstRow 75
  (rowsFrom first 25 first).map fun row => (row.toList.take 25).map ofPlaces

/-! ## The front factor -/

def logRestSum (x : Float) : (fuel : Nat) → (n power sum : Float) → Float
  | 0, _, _, sum => sum
  | fuel + 1, n, power, sum =>
    let power := power * -x
    let term := power / n
    let sum := sum + term
    if term.abs < roundoff * sum.abs then sum else logRestSum x fuel (n + 1.0) power sum

def logRest (x : Float) : Float :=
  if x.abs < 0.5 then logRestSum x 498 2.0 x 0.0 else log1p x - x

def lanczosShift : Float := 6.024680040776729583740234375

def lanczosQuotient (x : Float) : Float :=
  let upper := [0.006061842346248906525783753964555936883222,
    0.5098416655656676188125178644804694509993, 19.51992788247617482847860966235652136208,
    449.9445569063168119446858607650988409623, 6955.999602515376140356310115515198987526,
    75999.29304014542649875303443598909137092, 601859.6171681098786670226533699352302507,
    3481712.15498064590882071018964774556468, 14605578.08768506808414169982791359218571,
    43338889.32467613834773723740590533316085, 86363131.28813859145546927288977868422342,
    103794043.1163445451906271053616070238554, 56906521.91347156388090791033559122686859]
  let lower := [1.0, 66.0, 1925.0, 32670.0, 357423.0, 2637558.0, 13339535.0, 45995730.0,
    105258076.0, 150917976.0, 120543840.0, 39916800.0, 0.0]
  if x.abs <= 1.0 then horner x upper / horner x lower
  else horner (1.0 / x) upper.reverse / horner (1.0 / x) lower.reverse

def gammaFront (a x : Float) : Float :=
  if 0.4 * a.abs < (a - x).abs then
    let ax := a * Float.log x - x - lnGamma a
    if ax < -7.09782712893383996843e2 then 0.0 else Float.exp ax
  else
    let shifted := a + lanczosShift - 0.5
    let front := Float.sqrt (shifted / Float.exp 1.0) / lanczosQuotient a
    if a < 200.0 && x < 200.0 then front * (Float.exp (a - x) * Float.pow (x / shifted) a)
    else
      let offset := x - a - lanczosShift + 0.5
      front * Float.exp (a * logRest (offset / shifted) + x * (0.5 - lanczosShift) / shifted)

/-! ## Series and fraction -/

def gammaSum (x : Float) : (fuel : Nat) → (a term sum : Float) → Float
  | 0, _, _, sum => sum
  | fuel + 1, a, term, sum =>
    let a := a + 1.0
    let term := term * (x / a)
    let sum := sum + term
    if term <= roundoff * sum then sum else gammaSum x fuel a term sum

def lowerSeries (a x : Float) : Float :=
  let front := gammaFront a x
  if front == 0.0 then 0.0 else gammaSum x 2000 a 1.0 1.0 * front / a

def upperSum (a x : Float) : (fuel : Nat) → (n factor sum : Float) → Float
  | 0, _, _, sum => sum
  | fuel + 1, n, factor, sum =>
    let factor := factor * (-x / n)
    let term := factor / (a + n)
    let sum := sum + term
    if term.abs <= roundoff * sum.abs then sum else upperSum a x fuel (n + 1.0) factor sum

def upperSeries (a x : Float) : Float :=
  let sum := upperSum a x 1999 1.0 1.0 0.0
  let logX := Float.log x
  let lead := -expm1 (a * logX - lnGamma1p a)
  lead - Float.exp (a * logX - lnGamma a) * sum

structure Approximants where
  upper : Float
  upperBefore : Float
  lower : Float
  lowerBefore : Float

def Approximants.next (f : Approximants) (z yc : Float) : Approximants × Float × Float :=
  let upper := f.upper * z - f.upperBefore * yc
  let lower := f.lower * z - f.lowerBefore * yc
  let scale := if 4.503599627370496e15 < upper.abs then 2.22044604925031308085e-16 else 1.0
  (⟨upper * scale, f.upper * scale, lower * scale, f.lower * scale⟩, upper, lower)

def upperFractionFrom : (fuel : Nat) → (c y z value : Float) → Approximants → Float
  | 0, _, _, _, value, _ => value
  | fuel + 1, c, y, z, value, f =>
    let c := c + 1.0
    let y := y + 1.0
    let z := z + 2.0
    let (f, upper, lower) := f.next z (y * c)
    let next := if lower == 0.0 then value else upper / lower
    if lower != 0.0 && ((value - next) / next).abs <= roundoff then next
    else upperFractionFrom fuel c y z next f

def upperFraction (a x : Float) : Float :=
  let front := gammaFront a x
  if front == 0.0 then 0.0
  else
    let y := 1.0 - a
    let z := x + y + 1.0
    let start : Approximants := ⟨x + 1.0, 1.0, z * x, x⟩
    upperFractionFrom 2000 0.0 y z ((x + 1.0) / (z * x)) start * front

/-! ## The expansion around the normal distribution -/

def rowValue (eta : Float) : (power sum : Float) → List Float → Float
  | _, sum, [] => sum
  | power, sum, c :: rest =>
    let power := eta * power
    let term := c * power
    let sum := sum + term
    if term.abs < roundoff * sum.abs then sum else rowValue eta power sum rest

def expansionSum (a eta : Float) : (factor before sum : Float) → List (List Float) → Float
  | factor, before, sum, (c :: row) :: rest =>
    let term := rowValue eta 1.0 c row * factor
    if before < term.abs then sum
    else
      let sum := sum + term
      if term.abs < roundoff * sum.abs then sum
      else expansionSum a eta (factor / a) term.abs sum rest
  | _, _, sum, _ => sum

def gammaExpansion (a x sign : Float) : Float :=
  let size := Float.sqrt (-2.0 * logRest ((x - a) / a))
  let eta := if 1.0 < x / a then size else if x / a < 1.0 then -size else 0.0
  0.5 * erfc (sign * eta * Float.sqrt (a / 2.0))
    + sign * Float.exp (-0.5 * a * eta * eta) * expansionSum a eta 1.0 infinite 0.0 normalExpansion
      / Float.sqrt (2.0 * pi * a)

def areClose (a x : Float) : Bool :=
  let distance := (x - a).abs / a
  (20.0 < a && a < 200.0 && distance < 0.3) || (200.0 < a && distance < 4.5 / Float.sqrt a)

/-! ## The functions -/

/-- The values where an argument is not positive or not finite. -/
def gammaEdge (a x : Float) (upper : Bool) : Option Float :=
  let lower (b : Bool) : Option Float := some (if b == upper then 0.0 else 1.0)
  if a.isNaN || x.isNaN || x < 0.0 || a < 0.0 then some (0.0 / 0.0)
  else if a == 0.0 then if 0.0 < x then lower true else some (0.0 / 0.0)
  else if x == 0.0 then lower false
  else if a.isInf then if x.isInf then some (0.0 / 0.0) else lower false
  else if x.isInf then lower true
  else none

def gammaUpper (a x : Float) : Float :=
  match gammaEdge a x true with
  | some value => value
  | none =>
    if areClose a x then gammaExpansion a x 1.0
    else if 1.1 < x then if x < a then 1.0 - lowerSeries a x else upperFraction a x
    else
      let edge := if x <= 0.5 then -0.4 / Float.log x else x * 1.1
      if edge < a then 1.0 - lowerSeries a x else upperSeries a x

def gammaLower (a x : Float) : Float :=
  match gammaEdge a x false with
  | some value => value
  | none =>
    if areClose a x then gammaExpansion a x (-1.0)
    else if 1.0 < x && a < x then 1.0 - gammaUpper a x
    else lowerSeries a x

end GridBayes.Numeric
