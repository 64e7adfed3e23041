import GridBayes.Numeric.IncompleteGamma

/-! The beta function and the regularised incomplete beta function for doubles. By the size of its
arguments the latter is a series, a continued fraction, a finite sum or an expansion in incomplete gamma
functions; its slope comes with it. -/
namespace GridBayes.Numeric

def leastNormal : Float := 2.2250738585072014e-308

def largest : Float := 1.7976931348623157e308

def spacing : Float := 2.220446049250313e-16

inductive Breakdown where
  | overflow
  | stalled
deriving Repr, DecidableEq

def Breakdown.answer : Breakdown → Float
  | .overflow => infinite
  | .stalled => 0.0 / 0.0

def bounded (x : Float) : Except Breakdown Float :=
  if x.isInf then .error .overflow else .ok x

def isLogOfDouble (l : Float) : Bool :=
  -708.0 < l && l < 709.0

def smaller (x y : Float) : Float :=
  if y < x then y else x

def larger (x y : Float) : Float :=
  if x < y then y else x

/-! ## The beta function -/

def betaShift : Float := lanczosShift - 0.5

def baseE : Float := Float.exp 1.0

def betaOrdered (a b : Float) : Float :=
  let c := a + b
  let sa := a + betaShift
  let sb := b + betaShift
  let sc := c + betaShift
  let quotient := lanczosQuotient a * (lanczosQuotient b / lanczosQuotient c)
  let exponent := a - 0.5 - b
  let first := if (b * exponent).abs < sc * 100.0 && 100.0 < a then
      Float.exp (exponent * log1p (-b / sc))
    else Float.pow (sa / sc) exponent
  let second := if 1e10 < sc then Float.pow ((sa / sc) * (sb / sc)) b
    else Float.pow (sa * sb / (sc * sc)) b
  quotient * first * second * Float.sqrt (baseE / sb)

def beta (a b : Float) : Except Breakdown Float :=
  let c := a + b
  bounded <|
    if c == a && b < spacing then 1.0 / b
    else if c == b && a < spacing then 1.0 / a
    else if b == 1.0 then 1.0 / a
    else if a == 1.0 then 1.0 / b
    else if c < spacing then c / a / b
    else if a < b then betaOrdered b a
    else betaOrdered a b

def gammaQuotient (z d : Float) : Float :=
  if d == 1.0 then 1.0 / z
  else
    let s := z + betaShift
    let first :=
      if z + d == z then if (d / s).abs < spacing then Float.exp (-d) else 1.0
      else (if d.abs < 10.0 then Float.exp ((0.5 - z) * log1p (d / s))
          else Float.pow (s / (s + d)) (z - 0.5)) * (lanczosQuotient z / lanczosQuotient (z + d))
    first * Float.pow (baseE / (s + d)) d

/-! ## The front factor -/

def timesExp (factor l : Float) : Except Breakdown Float :=
  if isLogOfDouble l then .ok (factor * Float.exp l)
  else
    let l := l + Float.log factor
    if 709.0 <= l then .error .overflow else .ok (Float.exp l)

def opposedPowers (a b l₁ l₂ : Float) : Float :=
  let ratio := b / a
  let joined (exponent l r : Float) := Float.exp (exponent * log1p (l + r + r * l))
  if (a < b && ratio * l₂ < 0.1) || (!(a < b) && 0.1 < l₁ / ratio) then
    joined a l₁ (expm1 (ratio * log1p l₂))
  else joined b l₂ (expm1 (log1p l₁ / ratio))

def distantPowers (factor a b p₁ p₂ : Float) : Except Breakdown Float :=
  let l₁ := a * Float.log p₁
  let l₂ := b * Float.log p₂
  let byLogs : Except Breakdown Float :=
    let l := l₂ + (l₁ + Float.log factor)
    if 709.0 <= l then .error .overflow else .ok (Float.exp l)
  if isLogOfDouble l₁ && isLogOfDouble l₂ then .ok (factor * (Float.pow p₁ a * Float.pow p₂ b))
  else if a < b then
    let q := Float.pow p₂ (b / a)
    let l := if p₁ != 0.0 && q != 0.0 then a * (Float.log p₁ + Float.log q) else largest
    if isLogOfDouble l then .ok (factor * Float.pow (q * p₁) a) else byLogs
  else
    let q := if p₁ < 1.0 && b < 1.0 && largest * b < a then 0.0 else Float.pow p₁ (a / b)
    let l := if q != 0.0 && p₂ != 0.0 then (Float.log q + Float.log p₂) * b else largest
    if isLogOfDouble l then .ok (factor * Float.pow (q * p₂) b)
    else if factor == 0.0 then .ok factor
    else byLogs

/-- `xᵃ yᵇ / B(a, b)`, where `x + y = 1`, with care for powers near one and powers that are no doubles. -/
def betaFront (a b x y : Float) : Except Breakdown Float :=
  let c := a + b
  let sa := a + betaShift
  let sb := b + betaShift
  let sc := c + betaShift
  let quotient := if a < leastNormal || b < leastNormal then 0.0
    else lanczosQuotient c / (lanczosQuotient a * lanczosQuotient b)
  let factor := quotient * Float.sqrt (sb / baseE) * Float.sqrt (sa / sc)
  let l₁ := ((x * b - y * a) - y * betaShift) / sa
  let l₂ := ((y * a - x * b) - x * betaShift) / sb
  let p₁ := x * sc / sa
  let p₂ := y * sc / sb
  let power (exponent l p : Float) :=
    if l.abs < 0.1 then Float.exp (exponent * log1p l) else Float.pow p exponent
  if smaller l₁.abs l₂.abs < 0.2 then
    if 0.0 < l₁ * l₂ || smaller a b < 1.0 then .ok (factor * power a l₁ p₁ * power b l₂ p₂)
    else if larger l₁.abs l₂.abs < 0.5 then .ok (factor * opposedPowers a b l₁ l₂)
    else if l₁.abs < l₂.abs then timesExp factor (a * log1p l₁ + b * Float.log p₂)
    else timesExp factor (b * log1p l₂ + a * Float.log p₁)
  else distantPowers factor a b p₁ p₂

/-! ## Series -/

def sumTerms (x : Float) : (fuel : Nat) → (term apn poch n sum : Float) → Except Breakdown Float
  | 0, _, _, _, _, _ => .error .stalled
  | fuel + 1, term, apn, poch, n, sum =>
    let r := term / apn
    let sum := sum + r
    if (spacing * sum).abs < r.abs then
      sumTerms x fuel (term * (poch * x / n)) (apn + 1.0) (poch + 1.0) (n + 1.0) sum
    else .ok sum

def betaSeries (a b x y start : Float) : Except Breakdown (Float × Option Float) := do
  let c := a + b
  let sa := a + betaShift
  let sb := b + betaShift
  let sc := c + betaShift
  let quotient := if a < leastNormal || b < leastNormal then 0.0
    else lanczosQuotient c / (lanczosQuotient a * lanczosQuotient b)
  let quotient := if quotient.isFinite then quotient else 0.0
  let l₁ := Float.log (sc / sb) * (b - 0.5)
  let l₂ := Float.log (x * sc / sa) * a
  let (factor, front) :=
    if isLogOfDouble l₁ && isLogOfDouble l₂ then
      let first := if a * b < sb * 10.0 then Float.exp ((b - 0.5) * log1p (a / sb))
        else Float.pow (sc / sb) (b - 0.5)
      let factor := quotient * first * Float.pow (x * sc / sa) a * Float.sqrt (sa / baseE)
      (factor, some (factor * Float.pow y b))
    else if quotient == 0.0 then (0.0, none)
    else
      let l := Float.log quotient + l₁ + l₂ + (Float.log sa - 1.0) / 2.0
      (Float.exp l, some (Float.exp (l + b * Float.log y)))
  if factor < leastNormal then return (start, front)
  else return (← sumTerms x 1000000 factor a (1.0 - b) 1.0 start, front)

/-! ## Continued fraction -/

def betaParts (a b x y m : Float) : Float × Float :=
  let d := a + 2.0 * m - 1.0
  ((m * (a + m - 1.0) / d) * ((a + b + m - 1.0) / d) * (b - m) * x * x,
   m + m * (b - m) * x / d + (a + m) * (a * y - b * x + 1.0 + m * (2.0 - x)) / (a + 2.0 * m + 1.0))

def betaFractionFrom (a b x y : Float) : (fuel : Nat) → (m c d value : Float) → Float
  | 0, _, _, _, value => value
  | fuel + 1, m, c, d, value =>
    let nonzero (z : Float) := if z == 0.0 then leastNormal * 16.0 else z
    let (up, down) := betaParts a b x y m
    let d := 1.0 / nonzero (down + up * d)
    let c := nonzero (down + up / c)
    let step := c * d
    let value := value * step
    if spacing < (step - 1.0).abs then betaFractionFrom a b x y fuel (m + 1.0) c d value else value

def betaFraction (a b x y : Float) : Except Breakdown (Float × Option Float) := do
  let front ← betaFront a b x y
  if front == 0.0 then return (front, some front)
  else
    let first := (betaParts a b x y 0.0).2
    let first := if first == 0.0 then leastNormal * 16.0 else first
    return (front / betaFractionFrom a b x y 1000000 1.0 first 0.0 first, some front)

/-! ## Steps in one exponent -/

def stepTerms (a b x : Float) : (count : Nat) → (i term sum : Float) → Float
  | 0, _, _, sum => sum
  | count + 1, i, term, sum =>
    let term := term * ((a + b + i) * x / (a + i + 1.0))
    stepTerms a b x count (i + 1.0) term (sum + term)

def betaDrop (a b x y : Float) (k : Nat) : Except Breakdown (Float × Float) := do
  let front ← betaFront a b x y
  let first := front / a
  return (if first == 0.0 then first else first * stepTerms a b x (k - 1) 0.0 1.0 1.0, front)

/-! ## Small `b` and large `a` -/

def oddFactorial (n : Nat) : Float :=
  ((List.range (2 * n + 1)).foldl (fun product i => product * (i + 1)) 1).toFloat

def smallGammaFront (a z : Float) : Float :=
  if largest <= z then 0.0
  else if a < 1.0 then
    if a < 1.0 / largest then Float.exp (a * Float.log z - z - lnGamma a)
    else Float.pow z a * Float.exp (-z) / gamma a
  else z * Float.exp (-z)

def nextCoefficient (b n : Float) (count : Nat) (before : List Float) : Float :=
  let terms := before.zip (List.range count)
  let sum := terms.foldl (fun sum (p, m) => sum + (((m + 1).toFloat * b - n) * p) / oddFactorial (m + 1)) 0.0
  sum / n + (b - 1.0) / oddFactorial count

def gammaTerms (b u factor lx2 t4 : Float) : (fuel n : Nat) → (earlier : List Float) →
    (j lxp b2n sum : Float) → Float
  | 0, _, _, _, _, _, sum => sum
  | fuel + 1, n, earlier, j, lxp, b2n, sum =>
    let p := nextCoefficient b n.toFloat n earlier
    let j := (b2n * (b2n + 1.0) * j + (u + b2n + 1.0) * lxp) / t4
    let r := factor * p * j
    let sum := sum + r
    let small : Bool :=
      if 1.0 < r then r.abs < (spacing * sum).abs else (r / spacing).abs < sum.abs
    if small then sum
    else gammaTerms b u factor lx2 t4 fuel (n + 1) (p :: earlier) j (lxp * lx2) (b2n + 2.0) sum

def gammaSeries (a b x y start : Float) : Float :=
  let t := a + (b - 1.0) / 2.0
  let lx := if y < 0.35 then log1p (-y) else Float.log x
  let u := -t * lx
  let h := smallGammaFront b u
  if h <= leastNormal then start
  else
    let factor := h / gammaQuotient a b / Float.pow t b
    let j := gammaUpper b u / h
    gammaTerms b u factor ((lx / 2.0) * (lx / 2.0)) (4.0 * t * t) 29 1 [] j 1.0 b (start + factor * j)

/-! ## Whole exponents -/

def choose (n k : Float) : Except Breakdown Float := do
  let size ←
    if k == 0.0 || k == n then .ok 1.0
    else if k == 1.0 || k == n - 1.0 then .ok n
    else if n <= 170.0 then .ok (gamma (n + 1.0) / gamma (n - k + 1.0) / gamma (k + 1.0))
    else if k < n - k then (beta k (n - k + 1.0)).map fun z => 1.0 / (k * z)
    else (beta (k + 1.0) (n - k)).map fun z => 1.0 / ((n - k) * z)
  return (size - 0.5).ceil

def binomialDown (n k x y : Float) : (fuel : Nat) → (i term sum : Float) → Float
  | 0, _, _, sum => sum
  | fuel + 1, i, term, sum =>
    if k < i then
      let term := term * ((i + 1.0) * y / ((n - i) * x))
      binomialDown n k x y fuel (i - 1.0) term (sum + term)
    else sum

def binomialUp (n x y : Float) : (fuel : Nat) → (i term sum : Float) → Float
  | 0, _, _, sum => sum
  | fuel + 1, i, term, sum =>
    if i <= n then
      let term := term * ((n - i + 1.0) * x / (i * y))
      binomialUp n x y fuel (i + 1.0) term (sum + term)
    else sum

def binomialSum (n k x y : Float) : (fuel : Nat) → (i sum : Float) → Except Breakdown Float
  | 0, _, sum => .ok sum
  | fuel + 1, i, sum =>
    if k < i then do
      let term := Float.pow x i * Float.pow y (n - i) * (← choose n i)
      binomialSum n k x y fuel (i - 1.0) (sum + term)
    else .ok sum

def binomialAbove (n k x y : Float) : Except Breakdown Float := do
  let top := Float.pow x n
  if leastNormal < top then return binomialDown n k x y 50 (n - 1.0) top top
  else
    let start := (n * x).floor
    let start := if start <= k + 1.0 then k + 2.0 else start
    let first := Float.pow x start * Float.pow y (n - start) * (← choose n start)
    if first == 0.0 then binomialSum n k x y 50 (start - 1.0) first
    else
      let below := binomialDown n k x y 50 (start - 1.0) first first
      return binomialUp n x y 50 (start + 1.0) first below

/-! ## The function -/

/-- The arguments of the incomplete beta function, `x + y = 1`, and whether its complement is wanted. -/
structure BetaSide where
  a : Float
  b : Float
  x : Float
  y : Float
  upper : Bool

namespace BetaSide

def turn (s : BetaSide) : BetaSide :=
  ⟨s.b, s.a, s.y, s.x, !s.upper⟩

end BetaSide

structure BetaSum where
  side : BetaSide
  lower : Float
  front : Option Float := none

namespace BetaSum

def started (s : BetaSide) (sum : Float → Except Breakdown (Float × Option Float)) :
    Except Breakdown BetaSum := do
  let (value, front) ← sum (if s.upper then -1.0 else 0.0)
  return ⟨{ s with upper := false }, if s.upper then -value else value, front⟩

def series (s : BetaSide) : Except Breakdown BetaSum :=
  started s (betaSeries s.a s.b s.x s.y)

def large (s : BetaSide) : Except Breakdown BetaSum :=
  started s fun start => .ok (gammaSeries s.a s.b s.x s.y start, none)

def stepped (s : BetaSide) : Except Breakdown BetaSum :=
  started s fun start => do
    let (drop, front) ← betaDrop s.a s.b s.x s.y 20
    return (gammaSeries (s.a + 20.0) s.b s.x s.y (drop + start), some front)

def small (s : BetaSide) : Except Breakdown BetaSum :=
  let s := if 0.5 < s.x then s.turn else s
  if larger s.a s.b <= 1.0 then
    if smaller 0.2 s.b <= s.a || Float.pow s.x s.a <= 0.9 then series s
    else
      let s := s.turn
      if 0.3 <= s.y then series s else stepped s
  else if s.b <= 1.0 || (s.x < 0.1 && Float.pow (s.b * s.x) s.a <= 0.7) then series s
  else
    let s := s.turn
    if 0.3 <= s.y then series s else if 15.0 <= s.a then large s else stepped s

def splitExponent (b : Float) : Nat × Float :=
  let n := b.floor
  let n := if n == b then n - 1.0 else n
  (n.toUInt64.toNat, b - n)

def regular (s : BetaSide) : Except Breakdown BetaSum := do
  let fromMean := if s.a < s.b then s.a - (s.a + s.b) * s.x else (s.a + s.b) * s.y - s.b
  let s := if fromMean < 0.0 then s.turn else s
  let (a, b, x, y) := (s.a, s.b, s.x, s.y)
  let fraction : Except Breakdown BetaSum := do
    let (value, front) ← betaFraction a b x y
    return ⟨s, value, front⟩
  if b < 40.0 then
    let (n, rest) := splitExponent b
    if a.floor == a && b.floor == b && a < 2147483547.0 && y != 1.0 then
      return ⟨s, ← binomialAbove (b + (a - 1.0)) (a - 1.0) x y, none⟩
    else if b * x <= 0.7 then series s
    else if 15.0 < a then
      let (drop, _) ← betaDrop rest a y x n
      return ⟨s, gammaSeries a rest x y drop, none⟩
    else
      let (drop, _) ← betaDrop rest a y x n
      let (more, _) ← betaDrop a rest x y 20
      let start := if s.upper then drop + more - 1.0 else drop + more
      let value := gammaSeries (a + 20.0) rest x y start
      return ⟨{ s with upper := false }, if s.upper then -value else value, none⟩
  else fraction

def slope (k : BetaSum) : Except Breakdown Float := do
  let s := k.side
  let front ← match k.front with
    | some front => pure front
    | none => betaFront s.a s.b s.x s.y
  let d := s.y * s.x
  return if front == 0.0 then front
    else if largest * d < front then largest / 2.0 else front / d

def value (k : BetaSum) : Float :=
  if k.side.upper then 1.0 - k.lower else k.lower

end BetaSum

/-- The slope at an end with the exponent `a`; extreme numbers stand for infinity and zero. -/
def endSlope (a : Float) : Float :=
  if a == 1.0 then 1.0 else if a < 1.0 then largest / 2.0 else leastNormal * 2.0

def betaPower (a x y : Float) (upper : Bool) : Float :=
  if y < 0.5 then
    let l := a * log1p (-y)
    if upper then -expm1 l else Float.exp l
  else if upper then -expm1 (a * Float.log x)
  else Float.pow x a

/-- Closed forms, with their slopes: at the ends, for two halves and for an exponent one. -/
def betaClosed (a b x y : Float) (upper : Bool) : Option (Float × Float) :=
  let choice (lower : Bool) : Float := if lower == upper then 0.0 else 1.0
  if x == 0.0 then some (choice false, endSlope a)
  else if x == 1.0 then some (choice true, endSlope b)
  else if a == 0.5 && b == 0.5 then
    some (Float.asin (Float.sqrt (if upper then y else x)) / (pi / 2.0), 1.0 / (pi * Float.sqrt (y * x)))
  else if a == 1.0 && b == 1.0 then some (if upper then y else x, 1.0)
  else if b == 1.0 then some (betaPower a x y upper, a * Float.pow x (a - 1.0))
  else if a == 1.0 then some (betaPower b y x (!upper), b * Float.pow y (b - 1.0))
  else none

def betaSum (a b x : Float) (upper : Bool) : Except Breakdown BetaSum :=
  let s : BetaSide := ⟨a, b, x, 1.0 - x, upper⟩
  if smaller a b <= 1.0 then BetaSum.small s else BetaSum.regular s

def betaInc (a b x : Float) (upper : Bool) : Except Breakdown Float :=
  match betaClosed a b x (1.0 - x) upper with
  | some (value, _) => .ok value
  | none => (betaSum a b x upper).map BetaSum.value

def betaIncSlope (a b x : Float) (upper : Bool) : Except Breakdown (Float × Float) :=
  match betaClosed a b x (1.0 - x) upper with
  | some known => .ok known
  | none => do
    let sum ← betaSum a b x upper
    return (sum.value, ← sum.slope)

end GridBayes.Numeric
