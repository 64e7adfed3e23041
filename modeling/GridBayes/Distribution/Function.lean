import GridBayes.Distribution.Family
import GridBayes.Distribution.Power

/-! Densities, quantiles and the functions that models may call. Densities are logarithms; outside
the support they are minus infinity, and where the parameters make no sense the result is
not-a-number. -/
namespace GridBayes.Distribution
open Scalar

variable {α : Type} [Scalar α]

/-! ## Transforms -/

def expit (x : α) : α :=
  1.0 / (1.0 + exp (-x))

def logit (x : α) : α :=
  log (x / (1.0 - x))

def logitSlope (x : α) : α :=
  -log (x - x * x)

def smootherstep (x start stop : α) : α :=
  if eq stop start then 0.5
  else
    let t := fmax (fmin ((x - start) / (stop - start)) 1.0) 0.0
    t * t * t * (t * (6.0 * t - 15.0) + 10.0)

def logSumExp (x y cx cy : α) : α :=
  let top := if lt x y then y else x
  top + log (cx * exp (x - top) + cy * exp (y - top))

/-! ## Uniform and normal -/

def uniformDensity (x low high : α) : α :=
  if le low x && le x high then -log (high - low) else -infinity

def uniformQuantile (p low high : α) : α :=
  low + p * (high - low)

def logBell (x mean sigma : α) : α :=
  -((x - mean) * (x - mean)) / (2.0 * sigma * sigma) - 0.5 * log (2.0 * pi * sigma * sigma)

def normalDensity (x mean sigma : α) : α :=
  if le sigma 0.0 then nan else logBell x mean sigma

def normalQuantile (p mean sigma : α) : α :=
  -sqrt 2.0 * erfcInv (2.0 * p) * sigma + mean

def normalCumulative (x mean sigma : α) : α :=
  (1.0 + erf ((x - mean) / sigma / sqrt 2.0)) / 2.0

/-! ## Beta, gamma and exponential -/

def betaDensity (x a b : α) : α :=
  (a - 1.0) * log x + (b - 1.0) * log (1.0 - x) - lnBeta a b

def betaQuantile (p a b : α) : α :=
  betaIncInv a b p

def gammaDensity (x a rate : α) : α :=
  (a - 1.0) * log (x * rate) + log rate - rate * x - lnGamma a

def gammaQuantile (p a rate : α) : α :=
  gammaIncInv a p / rate

def exponentialDensity (x rate : α) : α :=
  if le rate 0.0 then nan else if lt x 0.0 then -infinity else log rate - rate * x

def exponentialPoint (p rate : α) : α :=
  -log (1.0 - p) / rate

def exponentialQuantile (p rate : α) : α :=
  if lt 1.0 p || lt p 0.0 || le rate 0.0 then nan else exponentialPoint p rate

def exponentialCumulative (x rate : α) : α :=
  if le rate 0.0 then nan else if le x 0.0 then 0.0 else 1.0 - exp (-rate * x)

/-! ## Two normals -/

def badMixture (weight sigma1 sigma2 : α) : Bool :=
  le sigma1 0.0 || le sigma2 0.0 || lt 1.0 weight || lt weight 0.0

def binormDensity (x weight mean1 mean2 sigma1 sigma2 : α) : α :=
  if badMixture weight sigma1 sigma2 then nan
  else
    logSumExp (normalDensity x mean1 sigma1) (normalDensity x mean2 sigma2) weight (1.0 - weight)

def mixture (f g : α → α) (weight x : α) : α :=
  weight * f x + (1.0 - weight) * g x

def binormCumulative (x weight mean1 mean2 sigma1 sigma2 : α) : α :=
  if badMixture weight sigma1 sigma2 then nan
  else mixture (normalCumulative · mean1 sigma1) (normalCumulative · mean2 sigma2) weight x

structure Bracket (α : Type) where
  low : α
  high : α
  lowValue : α
  highValue : α

def Bracket.guess (b : Bracket α) (p : α) (count : Nat) : α :=
  if count % 2 == 0 then
    b.low + (b.high - b.low) * (p - b.lowValue) / (b.highValue - b.lowValue)
  else (b.low + b.high) / 2.0

def Bracket.narrow (b : Bracket α) (f : α → α) (p x : α) : Bracket α :=
  let value := f x
  if lt p value then { b with high := x, highValue := value }
  else { b with low := x, lowValue := value }

def Bracket.search (f : α → α) (p : α) : (fuel count : Nat) → Bracket α → α
  | 0, _, _ => nan
  | fuel + 1, count, b =>
    if lt 1e-12 (fabs (b.lowValue - b.highValue)) then
      if 100 < count + 1 then nan
      else search f p fuel (count + 1) (b.narrow f p (b.guess p (count + 1)))
    else (b.low + b.high) / 2.0

def mixtureQuantile (f g : α → α) (weight p a b : α) : α :=
  let (low, high) := if lt b a then (b, a) else (a, b)
  let value := mixture f g weight
  Bracket.search value p 101 0 ⟨low, high, value low, value high⟩

def binormQuantile (p weight mean1 mean2 sigma1 sigma2 : α) : α :=
  if lt p 0.0 || lt 1.0 p || badMixture weight sigma1 sigma2 then nan
  else
    mixtureQuantile (normalCumulative · mean1 sigma1) (normalCumulative · mean2 sigma2) weight p
      (normalQuantile p mean1 sigma1) (normalQuantile p mean2 sigma2)

/-! ## Truncated distributions -/

def badPower (k a b : α) : Bool :=
  (le a 0.0 && le k 0.0) || lt b 0.0 || lt a 0.0

def truncPowerDensity (x k a b : α) : α :=
  if badPower k a b then nan
  else if lt x a || lt b x then -infinity
  else if eq k (-1.0) then -log (x * log (b / a))
  else
    let power (x : α) := Power.of x (k + 1.0)
    (Power.under (k + 1.0) ((power b).minus (power a))).read fun norm => k * log x + log norm

def truncPowerQuantile (p k a b : α) : α :=
  if badPower k a b || lt 1.0 p || lt p 0.0 then nan
  else if eq k (-1.0) then ((Power.of (b / a) p).times a).read id
  else
    let k := k + 1.0
    let mixed := ((Power.of b k).times p).plus ((Power.of a k).times (1.0 - p))
    (mixed.raised (1.0 / k)).read id

def normalMass (bound mean sigma : α) : α :=
  erfc (-((bound - mean) / sigma) / sqrt 2.0) / 2.0

def truncNormalDensity (x mean sigma a b : α) : α :=
  if le b a then nan
  else if lt x a || lt b x then -infinity
  else
    logBell ((x - mean) / sigma) mean sigma - log (normalMass b mean sigma - normalMass a mean sigma)

def truncNormalQuantile (p mean sigma a b : α) : α :=
  if le b a || lt 1.0 p || lt p 0.0 then nan
  else
    let low := normalMass a mean sigma
    let high := normalMass b mean sigma
    normalQuantile (p * (high - low) + low) mean sigma

def truncExponentialDensity (x rate a b : α) : α :=
  if le rate 0.0 then nan
  else if lt x a || lt b x then -infinity
  else log rate - rate * x - logSumExp (-rate * a) (-rate * b) 1.0 (-1.0)

def truncExponentialQuantile (p rate a b : α) : α :=
  if lt 1.0 p || lt p 0.0 || lt rate 0.0 then nan
  else
    let low := exponentialCumulative a rate
    let high := exponentialCumulative b rate
    exponentialPoint (low + p * (high - low)) rate

/-! ## Initial mass function -/

def chabrierDensity (x switch mean sigma rate : α) : α :=
  let mass := normalCumulative switch mean sigma
  let left := normalDensity switch mean sigma
  let right := truncExponentialDensity switch rate switch 2.0
  let ratio := exp left / exp right
  if le x switch then normalDensity x mean sigma - log (mass + ratio)
  else truncExponentialDensity x rate switch 2.0 - log (1.0 + mass / ratio)

def chabrierQuantile (p switch mean sigma rate : α) : α :=
  let mass := normalCumulative switch mean sigma
  if le p mass then normalQuantile (p / mass) mean sigma
  else truncExponentialQuantile ((p - mass) / (1.0 - mass)) rate switch infinity

/-! ## Functions by name -/

def density (f : Family) (x : α) (params : List α) : Option α :=
  match f, params with
  | .normal, [m, s] => some (normalDensity x m s)
  | .uniform, [a, b] => some (uniformDensity x a b)
  | .beta, [a, b] => some (betaDensity x a b)
  | .gamma, [a, r] => some (gammaDensity x a r)
  | .exponential, [r] => some (exponentialDensity x r)
  | .truncPower, [k, a, b] => some (truncPowerDensity x k a b)
  | .truncNormal, [m, s, a, b] => some (truncNormalDensity x m s a b)
  | .truncExponential, [r, a, b] => some (truncExponentialDensity x r a b)
  | .chabrier, [c, m, s, r] => some (chabrierDensity x c m s r)
  | .binorm, [w, m, n, s, t] => some (binormDensity x w m n s t)
  | _, _ => none

def quantile (f : Family) (p : α) (params : List α) : Option α :=
  match f, params with
  | .normal, [m, s] => some (normalQuantile p m s)
  | .uniform, [a, b] => some (uniformQuantile p a b)
  | .beta, [a, b] => some (betaQuantile p a b)
  | .gamma, [a, r] => some (gammaQuantile p a r)
  | .exponential, [r] => some (exponentialQuantile p r)
  | .truncPower, [k, a, b] => some (truncPowerQuantile p k a b)
  | .truncNormal, [m, s, a, b] => some (truncNormalQuantile p m s a b)
  | .truncExponential, [r, a, b] => some (truncExponentialQuantile p r a b)
  | .chabrier, [c, m, s, r] => some (chabrierQuantile p c m s r)
  | .binorm, [w, m, n, s, t] => some (binormQuantile p w m n s t)
  | _, _ => none

def families : List Family :=
  [.normal, .uniform, .beta, .gamma, .exponential, .truncPower, .truncNormal, .truncExponential, .chabrier, .binorm]

def otherCall (name : String) (args : List α) : Option α :=
  match name, args with
  | "expit", [x] => some (expit x)
  | "logit", [x] => some (logit x)
  | "logddx_logit", [x] => some (logitSlope x)
  | "smootherstep", [x, a, b] => some (smootherstep x a b)
  | "logsumexp", [x, y] => some (logSumExp x y 1.0 1.0)
  | "logsumexp", [x, y, a] => some (logSumExp x y a 1.0)
  | "logsumexp", [x, y, a, b] => some (logSumExp x y a b)
  | "normal_cdf", [x, m, s] => some (normalCumulative x m s)
  | "exponential_cdf", [x, r] => some (exponentialCumulative x r)
  | "binorm_cdf", [x, w, m, n, s, t] => some (binormCumulative x w m n s t)
  | _, _ => none

def densityNames : List (String × Family) :=
  families.map fun f => (f.name ++ "_lpdf", f)

def quantileNames : List (String × Family) :=
  families.map fun f => (f.name ++ "_ppf", f)

def call (name : String) (args : List α) : Option α :=
  match args with
  | [] => none
  | x :: params =>
    match densityNames.lookup name with
    | some f => density f x params
    | none =>
      match quantileNames.lookup name with
      | some f => quantile f x params
      | none => otherCall name args

def otherNames : List String :=
  ["expit", "logit", "logddx_logit", "smootherstep", "logsumexp", "normal_cdf", "exponential_cdf", "binorm_cdf"]

def isKnown (name : String) : Bool :=
  (densityNames.lookup name).isSome || (quantileNames.lookup name).isSome
    || otherNames.contains name

def callNamed (name : String) (args : List α) : Except Fault α :=
  match call name args with
  | some x => .ok x
  | none => .error (if isKnown name then .badArgument else .missingPart)

end GridBayes.Distribution
