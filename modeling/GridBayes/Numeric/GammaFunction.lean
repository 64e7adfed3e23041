import GridBayes.Numeric.Polynomial

/-! The gamma function, its logarithm and the logarithm of the beta function, for doubles. Arguments are
brought to the range from two to three by their recurrence, or are large enough for Stirling's series. -/
namespace GridBayes.Numeric

def pi : Float := 3.14159265358979323846

def infinite : Float := 1.0 / 0.0

/-! ## The gamma function -/

def gammaLimit : Float := 171.624376956302725

def gammaStirling (x : Float) : Float :=
  if gammaLimit <= x then infinite
  else
    let w := 1.0 / x
    let w := 1.0 + w * horner w [7.87311395793093628397e-4, -2.29549961613378126380e-4,
      -2.68132617805781232825e-3, 3.47222221605458667310e-3, 8.33333333333482257126e-2]
    let y := Float.exp x
    let y :=
      if 143.01608 < x then
        let v := Float.pow x (0.5 * x - 0.25)
        v * (v / y)
      else Float.pow x (x - 0.5) / y
    2.50662827463100050242 * y * w

def gammaBase (x : Float) : Float × Float :=
  (horner x [1.60119522476751861407e-4, 1.19135147006586384913e-3, 1.04213797561761569935e-2,
    4.76367800457137231464e-2, 2.07448227648435975150e-1, 4.94214826801497100753e-1,
    9.99999999999999996796e-1],
   horner x [-2.31581873324120129819e-5, 5.39605580493303397842e-4, -4.45641913851797240494e-3,
    1.18139785222060435552e-2, 3.58236398605498653373e-2, -2.34591795718243348568e-1,
    7.14304917030273074085e-2, 1.00000000000000000320])

/-- The gamma function of `x` times `z`, for `x` below three, by dividing out factors. -/
def gammaRaised : (fuel : Nat) → (x z : Float) → Float
  | 0, _, z => z
  | fuel + 1, x, z =>
    if 2.0 <= x then
      if x == 2.0 then z
      else
        let (p, q) := gammaBase (x - 2.0)
        z * p / q
    else if -1e-9 < x && x < 1e-9 then
      if x == 0.0 then infinite else z / ((1.0 + 0.5772156649015329 * x) * x)
    else gammaRaised fuel (x + 1.0) (z / x)

def gammaLowered : (fuel : Nat) → (x z : Float) → Float
  | 0, x, z => gammaRaised 40 x z
  | fuel + 1, x, z =>
    if 3.0 <= x then gammaLowered fuel (x - 1.0) (z * (x - 1.0)) else gammaRaised 40 x z

def gamma (x : Float) : Float :=
  if x.isNaN || x.isInf then x
  else if x.abs <= 33.0 then gammaLowered 40 x 1.0
  else if 0.0 < x then gammaStirling x
  else
    let q := -x
    let p := q.floor
    if p == q then infinite
    else
      let sign : Float := if (p / 2.0).floor * 2.0 == p then -1.0 else 1.0
      let z := if 0.5 < q - p then q - (p + 1.0) else q - p
      let z := q * Float.sin (pi * z)
      sign * (if z == 0.0 then infinite else pi / (z.abs * gammaStirling q))

/-! ## Its logarithm -/

def lnGammaStirling (x : Float) : Float :=
  if 2.556348e305 < x then infinite
  else
    let q := (x - 0.5) * Float.log x - x + 0.91893853320467274178
    let p := 1.0 / (x * x)
    if 1e8 < x then q
    else if 1000.0 <= x then
      q + ((7.9365079365079365079365e-4 * p - 2.7777777777777777777778e-3) * p + 0.0833333333333333333333) / x
    else
      q + horner p [8.11614167470508450300e-4, -5.95061904284301438324e-4,
        7.93650340457716943945e-4, -2.77777777730099687205e-3, 8.33333333333331927722e-2] / x

def lnGammaBase (u z : Float) (shifted : Float) : Float :=
  let z := z.abs
  if u == 2.0 then Float.log z
  else
    let p := shifted * horner shifted [-1.37825152569120859100e3, -3.88016315134637840924e4,
        -3.31612992738871184744e5, -1.16237097492762307383e6, -1.72173700820839662146e6,
        -8.53555664245765465627e5]
      / horner shifted [1.0, -3.51815701436523470549e2, -1.70642106651881159223e4,
        -2.20528590553854454839e5, -1.13933444367982507207e6, -2.53252307177582951285e6,
        -2.01889141433532773231e6]
    Float.log z + p

def lnGammaRaised (x : Float) : (fuel : Nat) → (p z : Float) → Float
  | 0, _, z => Float.log z.abs
  | fuel + 1, p, z =>
    let u := x + p
    if 2.0 <= u then lnGammaBase u z (x + (p - 2.0))
    else if u == 0.0 then infinite
    else lnGammaRaised x fuel (p + 1.0) (z / u)

def lnGammaLowered (x : Float) : (fuel : Nat) → (p z : Float) → Float
  | 0, p, z => lnGammaRaised x 40 p z
  | fuel + 1, p, z =>
    if 3.0 <= x + p then lnGammaLowered x fuel (p - 1.0) (z * (x + (p - 1.0)))
    else lnGammaRaised x 40 p z

def lnGammaUpper (x : Float) : Float :=
  if x < 13.0 then lnGammaLowered x 40 0.0 1.0 else lnGammaStirling x

def lnGamma (x : Float) : Float :=
  if x.isNaN || x.isInf then x
  else if x < -34.0 then
    let q := -x
    let w := lnGammaUpper q
    let p := q.floor
    if p == q then infinite
    else
      let z := if 0.5 < q - p then p + 1.0 - q else q - p
      let z := q * Float.sin (pi * z)
      if z == 0.0 then infinite else 1.14472988584940017414 - Float.log z - w
  else lnGammaUpper x

def euler : Float := 0.577215664901532860606512090082402431

def zetaSum (s : Float) : (count : Nat) → (sum : Float) → Float
  | 0, sum => sum
  | count + 1, sum => zetaSum s count (sum + Float.pow (count + 1).toFloat (-s))

/-- The zeta function of `s` at least two: some terms, and the rest by an integral with corrections. -/
def zeta (s : Float) : Float :=
  let n := 20.0
  let power := Float.pow n (-s)
  let rest := n / (s - 1.0) + 0.5 + s / (12.0 * n)
    - s * (s + 1.0) * (s + 2.0) / (720.0 * n * n * n)
    + s * (s + 1.0) * (s + 2.0) * (s + 3.0) * (s + 4.0) / (30240.0 * n * n * n * n * n)
    - s * (s + 1.0) * (s + 2.0) * (s + 3.0) * (s + 4.0) * (s + 5.0) * (s + 6.0)
      / (1209600.0 * n * n * n * n * n * n * n)
  zetaSum s 19 (power * rest)

def lnGammaTaylor (x : Float) : (fuel : Nat) → (n power sum : Float) → Float
  | 0, _, _, sum => sum
  | fuel + 1, n, power, sum =>
    let power := power * -x
    let term := zeta n * power / n
    let sum := sum + term
    if term.abs < 1.11022302462515654042e-16 * sum.abs then sum
    else lnGammaTaylor x fuel (n + 1.0) power sum

def lnGamma1p (x : Float) : Float :=
  let near (x : Float) := if x == 0.0 then 0.0 else lnGammaTaylor x 40 2.0 (-x) (-euler * x)
  if x.abs <= 0.5 then near x
  else if (x - 1.0).abs < 0.5 then Float.log x + near (x - 1.0)
  else lnGamma (x + 1.0)

/-! ## The logarithm of the beta function -/

def lnBetaFar (a b : Float) : Float :=
  lnGamma b - b * Float.log a
    + b * (1.0 - b) / (2.0 * a)
    + b * (1.0 - b) * (1.0 - 2.0 * b) / (12.0 * a * a)
    + -b * b * (1.0 - b) * (1.0 - b) / (12.0 * a * a * a)

def lnBetaNear (a b : Float) : Float :=
  let y := gamma (a + b)
  let a := gamma a
  let b := gamma b
  if y == 0.0 then infinite
  else if (b.abs - y.abs).abs < (a.abs - y.abs).abs then Float.log (b / y * a).abs
  else Float.log (a / y * b).abs

def lnBetaRegular (a b : Float) : Float :=
  let (a, b) := if a.abs < b.abs then (b, a) else (a, b)
  if 1e6 * b.abs < a.abs && 1e6 < a then lnBetaFar a b
  else if gammaLimit < (a + b).abs || gammaLimit < a.abs || gammaLimit < b.abs then
    lnGamma a + (lnGamma b - lnGamma (a + b))
  else lnBetaNear a b

def isPole (x : Float) : Bool :=
  x <= 0.0 && x == x.floor

def isWord (x : Float) : Bool :=
  x == x.floor && -2147483648.0 <= x && x <= 2147483647.0

/-- The logarithm of the beta function's magnitude, finite at a pole only if the other argument cancels it. -/
def lnBeta (a b : Float) : Float :=
  let atPole (a b : Float) : Float :=
    if isWord a && isWord b && 0.0 < 1.0 - a - b then lnBetaRegular (1.0 - a - b) b else infinite
  if isPole a then atPole a b
  else if isPole b then atPole b a
  else lnBetaRegular a b

end GridBayes.Numeric
