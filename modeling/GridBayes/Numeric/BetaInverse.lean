import GridBayes.Numeric.GammaInverse
import GridBayes.Numeric.HalleyRoot

/-! The inverse of the regularised incomplete beta function: a first guess by the size of the arguments,
and Halley's method from there. The function of `x` with exponents `a` and `b` is the complement of that
of `1 - x` with `b` and `a`, so every guess may choose its side. -/
namespace GridBayes.Numeric

/-- To find where the incomplete beta function of `a` and `b` is `p` and its complement `q`; if `turned`, the
distance from one. -/
structure BetaTask where
  a : Float
  b : Float
  p : Float
  q : Float
  turned : Bool := false

namespace BetaTask

def turn (t : BetaTask) : BetaTask :=
  ⟨t.b, t.a, t.q, t.p, !t.turned⟩

def answer (t : BetaTask) (x y : Float) : Float :=
  if t.turned then y else x

end BetaTask

structure BetaStart where
  task : BetaTask
  x : Float
  y : Float
  low : Float := 0.0
  high : Float := 1.0

/-! ## Guesses for large exponents -/

def ascending (x : Float) (coefficients : List Float) : Float :=
  horner x coefficients.reverse

def mixedLog (level weight x : Float) : Float × Float :=
  let y := 1.0 - x
  let large := largest / 4.0
  if y == 0.0 then (-large, -large)
  else if x == 0.0 then (-large, large)
  else (Float.log x + weight * Float.log y + level, 1.0 / x - weight / y)

/-- Newton's method for `mixedLog` between bounds, halving where steps get no smaller. There is no root if the signs
at the bounds agree. -/
def mixedLogSearch (level weight : Float) : (fuel : Nat) →
    (low high lowValue highValue x step stepBefore : Float) → Except Breakdown Float
  | 0, _, _, _, _, x, _, _ => .ok x
  | fuel + 1, low, high, lowValue, highValue, x, step, stepBefore =>
    let (value, slope) := mixedLog level weight x
    if value == 0.0 then .ok x
    else
      let newton := value / slope
      let (stepBefore, step) :=
        if stepBefore.abs < (newton * 2.0).abs then
          let half := if 0.0 < newton then (x - low) / 2.0 else (x - high) / 2.0
          let half := if x != 0.0 && x.abs < half.abs then
              (if newton < 0.0 then -1.100000023841858 else 1.100000023841858) * x.abs
            else half
          (3.0 * half, half)
        else (step, newton)
      let next := x - step
      let bound := if next <= low then low else high
      let step := if next <= low || high <= next then 0.5 * (x - bound) else step
      let cut : Bool := next <= low || high <= next
      let next := x - step
      if cut && (next == low || next == high) then .ok next
      else
        let (low, lowValue) := if 0.0 < step then (low, lowValue) else (x, value)
        let (high, highValue) := if 0.0 < step then (x, value) else (high, highValue)
        if 0.0 < lowValue * highValue then .error .stalled
        else if (next * 2.9802322387695312e-08).abs < step.abs then
          mixedLogSearch level weight fuel low high lowValue highValue next step stepBefore
        else .ok next

def mixedLogRoot (level weight low high guess : Float) : Except Breakdown Float :=
  mixedLogSearch level weight 5000 low high 0.0 0.0 guess largest largest

def symmetricGuess (t : BetaTask) : Float :=
  let root := Float.sqrt 2.0
  let eta := erfcInv (2.0 * t.p) / -Float.sqrt (t.a / 2.0)
  let d := t.b - t.a
  let d2 := d * d
  let d3 := d2 * d
  let first := ascending eta [-d * root / 2.0, (1.0 - 2.0 * d) / 8.0, -(d * root / 48.0),
    -1.0 / 192.0, -d * root / 3840.0]
  let second := ascending eta [d * root * (3.0 * d - 2.0) / 12.0,
    (20.0 * d2 - 12.0 * d + 1.0) / 128.0, d * root * (20.0 * d - 1.0) / 960.0,
    (16.0 * d2 + 30.0 * d - 15.0) / 4608.0, d * root * (21.0 * d + 32.0) / 53760.0,
    (-32.0 * d2 + 63.0) / 368640.0, -d * root * (120.0 * d + 17.0) / 25804480.0]
  let third := ascending eta [d * root * (-75.0 * d2 + 80.0 * d - 16.0) / 480.0,
    (-1080.0 * d3 + 868.0 * d2 - 90.0 * d - 45.0) / 9216.0,
    d * root * (-1190.0 * d2 + 84.0 * d + 373.0) / 53760.0,
    (-2240.0 * d3 - 2508.0 * d2 + 2100.0 * d - 165.0) / 368640.0]
  let eta := ascending (1.0 / t.a) [eta, first, second, third]
  let square := eta * eta
  let x := if square == 0.0 then 0.5
    else (1.0 + eta * Float.sqrt ((1.0 - Float.exp (-square / 2.0)) / square)) / 2.0
  if x < 0.0 then 0.0 else if 1.0 < x then 1.0 else x

/-- The corrections of three orders to the normal quantile `eta`; `s` and `c` are the roots of the mean and its
complement. -/
def normalCorrections (s c eta : Float) : List Float :=
  let even := ascending (s * s)
  let z := s * c
  let z2 := z * z
  let z3 := z2 * z
  let z4 := z2 * z2
  let z5 := z2 * z3
  let z6 := z3 * z3
  let z7 := z4 * z3
  [ascending eta [(2.0 * s * s - 1.0) / (3.0 * s * c), -even [-1.0, -5.0, 5.0] / (36.0 * z2),
      even [1.0, 21.0, -69.0, 46.0] / (1620.0 * z3),
      -even [7.0, -2.0, 33.0, -62.0, 31.0] / (6480.0 * z4),
      even [25.0, -52.0, -17.0, 88.0, -115.0, 46.0] / (90720.0 * z5)],
    ascending eta [-even [7.0, 12.0, -78.0, 52.0] / (405.0 * z3),
      even [-7.0, 2.0, 183.0, -370.0, 185.0] / (2592.0 * z4),
      -even [-533.0, 776.0, -1835.0, 10240.0, -13525.0, 5410.0] / (204120.0 * z5),
      -even [-1579.0, 3747.0, -3372.0, -15821.0, 45588.0, -45213.0, 15071.0] / (2099520.0 * z6)],
    ascending eta [even [449.0, -1259.0, -769.0, 6686.0, -9260.0, 3704.0] / (102060.0 * z5),
      -even [63149.0, -151557.0, 140052.0, -727469.0, 2239932.0, -2251437.0, 750479.0] / (20995200.0 * z6),
      even [29233.0, -78755.0, 105222.0, 146879.0, -1602610.0, 3195183.0, -2554139.0, 729754.0] / (36741600.0 * z7)]]

def normalBetaGuess (t : BetaTask) : Except Breakdown Float :=
  let r := t.a + t.b
  let theta := Float.asin (Float.sqrt (t.a / r))
  let s := Float.sin theta
  let c := Float.cos theta
  let s2 := s * s
  let c2 := c * c
  let eta := erfcInv (2.0 * t.p) / -Float.sqrt (r / 2.0)
  let eta := ascending (1.0 / r) (eta :: normalCorrections s c eta)
  let weight := (c / s) * (c / s)
  let level := -(eta * eta) / (2.0 * s2) + Float.log s2 + c2 * Float.log c2 / s2
  let x :=
    if eta.abs < 0.7 then
      ascending eta [s2, s * c, (1.0 - 2.0 * s2) / 3.0, ascending s2 [1.0, -13.0, 13.0] / (36.0 * s * c),
        ascending s2 [1.0, 21.0, -69.0, 46.0] / (270.0 * s2 * c2)]
    else
      let u := Float.exp level
      let x := ascending u [u, weight, 0.0, 3.0 * weight * (3.0 * weight + 1.0) / 6.0,
        4.0 * weight * (4.0 * weight + 1.0) * (4.0 * weight + 2.0) / 24.0,
        5.0 * weight * (5.0 * weight + 1.0) * (5.0 * weight + 2.0) * (5.0 * weight + 3.0) / 120.0]
      if (x - s2) * eta < 0.0 then 1.0 - x else x
  let (low, high) := if eta < 0.0 then (0.0, s2) else (s2, 1.0)
  mixedLogRoot (-level) weight low high (if x < low || high < x then (low + high) / 2.0 else x)

def tenPowers (w : Float) : List Float :=
  let w2 := w * w
  let w3 := w2 * w
  let w4 := w2 * w2
  let w5 := w3 * w2
  [w5 * w5, w5 * w4, w4 * w4, w4 * w3, w3 * w3, w5, w4, w3, w2, w, 1.0]

def byPowers (powers coefficients : List Float) : Float :=
  match (powers.drop (powers.length - coefficients.length)).zip coefficients with
  | (w, c) :: rest => rest.foldl (fun sum (w, c) => sum + c * w) (c * w)
  | [] => 0.0

def gammaBetaCorrections (w d : Float) : Float × Float × Float :=
  let powers := tenPowers w
  let p := byPowers powers
  let power (n : Nat) : Float := powers.getD (10 - n) 1.0
  let v := w + 1.0
  let v2 := v * v
  let v3 := v * v2
  let v4 := v2 * v2
  let d2 := d * d
  let d3 := d2 * d
  let d4 := d2 * d2
  (((w + 2.0) * (w - 1.0) / (3.0 * w)
      + p [1.0, 9.0, 21.0, 5.0] * d / (36.0 * power 2 * v)
      - p [1.0, -13.0, 69.0, 167.0, 46.0] * d2 / (1620.0 * v2 * power 3)
      - p [7.0, 21.0, 70.0, 26.0, -93.0, -31.0] * d3 / (6480.0 * v3 * power 4)
      - p [75.0, 202.0, 188.0, -888.0, -1345.0, 118.0, 138.0] * d4 / (272160.0 * v4 * power 5)),
   (p [28.0, 131.0, 402.0, 581.0, 208.0] * (w - 1.0) / (1620.0 * v * power 3)
      - p [35.0, -154.0, -623.0, -1636.0, -3983.0, -3514.0, -925.0] * d / (12960.0 * v2 * power 4)
      - p [2132.0, 7915.0, 16821.0, 35066.0, 87490.0, 141183.0, 95993.0, 21640.0] * d2 / (816480.0 * power 5 * v3)
      - p [11053.0, 53308.0, 117010.0, 163924.0, 116188.0, -258428.0, -677042.0, -481940.0,
          -105497.0] * d3 / (14696640.0 * v4 * power 6)),
   -(p [3592.0, 8375.0, -1323.0, -29198.0, -89578.0, -154413.0, -116063.0, -29632.0]
        * (w - 1.0)) / (816480.0 * power 5 * v2)
      - p [442043.0, 2054169.0, 3803094.0, 3470754.0, 2141568.0, -2393568.0, -19904934.0,
          -34714674.0, -23128299.0, -5253353.0] * d / (146966400.0 * power 6 * v3)
      - p [116932.0, 819281.0, 2378172.0, 4341330.0, 6806004.0, 10622748.0, 18739500.0,
          30651894.0, 30869976.0, 15431867.0, 2919016.0] * d2 / (146966400.0 * v4 * power 7))

def gammaTailPoint (b p q : Float) : Except Breakdown Float :=
  if b.isInf || (b < 1.0 && (gamma b).isInf) then .error .overflow
  else
    let x := gammaGuess b q p
    .ok (if x <= leastNormal then 0.0
      else if p < q then gammaUpperRoot b p else gammaLowerRoot b q)

def gammaBetaGuess (t : BetaTask) : Except Breakdown Float := do
  let eta := (← gammaTailPoint t.b t.p t.q) / t.a
  let mu := t.b / t.a
  let w := Float.sqrt (1.0 + mu)
  let d := eta - mu
  let (first, second, third) := gammaBetaCorrections w d
  let eta := eta + first / t.a + second / (t.a * t.a) + third / (t.a * t.a * t.a)
  let eta := if eta <= 0.0 then leastNormal else eta
  let level := eta - mu * Float.log eta + (1.0 + mu) * Float.log (1.0 + mu) - mu
  let cross := 1.0 / (1.0 + mu)
  let (low, high) := if eta < mu then (cross, 1.0) else (0.0, cross)
  mixedLogRoot level mu low high ((low + high) / 2.0)

def largeStart (t : BetaTask) : Except Breakdown BetaStart := do
  let t := if 0.5 < t.p then t.turn else t
  let least := smaller t.a t.b
  let most := larger t.a t.b
  let r := t.a + t.b
  let from_ (t : BetaTask) (x : Float) : BetaStart := ⟨t, x, 1.0 - x, 0.0, 1.0⟩
  if most - least < Float.sqrt least && 5.0 < least then return from_ t (symmetricGuess t)
  else if 0.2 <= least / r && least / r <= 0.8 && 10.0 <= r then
    let root := Float.pow t.p (1.0 / t.a)
    if root < 0.0025 && r < 200.0 then
      return from_ t (root * Float.pow (t.a * (← beta t.a t.b)) (1.0 / t.a))
    else return from_ t (← normalBetaGuess t)
  else
    let t := if t.a < t.b then t.turn else t
    let size := if t.b < 2.0 then ((beta t.a t.b).toOption).getD largest else 0.0
    let y := if size == 0.0 then 1.0 else Float.pow (t.b * t.q * size) (1.0 / t.b)
    if 1e-5 < y then return from_ t (← gammaBetaGuess t) else return ⟨t, 1.0 - y, y, 0.0, 1.0⟩

/-! ## Guesses for small exponents -/

def lnGammaPositive (x : Float) : Float :=
  if 4.0 * x < spacing then Float.neg (Float.log x) else lnGamma x

def steepOdds (t : BetaTask) : Float :=
  match beta t.a t.b with
  | .ok size => Float.pow (t.a * t.p * size) (1.0 / t.a)
  | .error _ =>
    let odds := Float.exp
      ((lnGammaPositive (t.a + 1.0) + lnGammaPositive t.b - lnGammaPositive (t.a + t.b) + Float.log t.p) / t.a)
    if 2.0 / spacing < odds then 2.0 / spacing else odds

def halfStart (t : BetaTask) : BetaStart :=
  let w := erfcInv t.p
  let log := -(w * w) / t.a
  let x := Float.exp log
  ⟨t, if x < 1e-50 then steepOdds t else x, -expm1 log, 0.0, 1.0⟩

/-- The start for two exponents below one, on the root's side of the inflection; or an answer. -/
def steepStart (t : BetaTask) : Except Breakdown (BetaStart ⊕ Float) := do
  let bend := (1.0 - t.a) / (2.0 - t.a - t.b)
  let above := (← betaInc t.a t.b bend false) - t.p
  if above.abs / t.p < spacing * 3.0 then return .inr (t.answer bend (1.0 - bend))
  else
    let (t, bend) := if above < 0.0 then (t.turn, 1.0 - bend) else (t, bend)
    if t.a < leastNormal && leastNormal < t.b then return .inr (t.answer 0.0 1.0)
    else
      let odds := steepOdds t
      return .inl ⟨t, smaller (odds / (1.0 + odds)) bend, 1.0 / (1.0 + odds), 0.0, bend⟩

def humpStart (t : BetaTask) : Except Breakdown BetaStart := do
  let r := t.a + t.b - 2.0
  let isBelow : Bool := (← betaInc t.a t.b ((t.a - 1.0) / r) false) - t.p < 0.0
  let bend := (if isBelow then t.b - 1.0 else t.a - 1.0) / r
  let t := if isBelow then t.turn else t
  let log := Float.log (t.p * t.a * (← beta t.a t.b)) / t.a
  let x := Float.exp log
  let y := if x < 0.9 then 1.0 - x else -expm1 log
  return ⟨t, smaller x bend, y, 0.0, bend⟩

def mixedStart (t : BetaTask) : BetaStart :=
  let t := if t.b < t.a then t.turn else t
  let clamp (x : Except Breakdown Float) : Float :=
    match x with
    | .ok x => if 1.0 < x || !x.isFinite then 1.0 else if x == 0.0 then leastNormal else x
    | .error _ => 1.0
  if t.a < leastNormal then if t.p < 1.0 then ⟨t, 1.0, 0.0, 0.0, 1.0⟩ else ⟨t, 0.0, 1.0, 0.0, 1.0⟩
  else if Float.pow t.p (1.0 / t.a) < 0.5 then
    let x := clamp ((beta t.a t.b).map fun size => Float.pow (t.p * t.a * size) (1.0 / t.a))
    ⟨t, x, 1.0 - x, 0.0, 1.0⟩
  else
    let y := clamp ((beta t.a t.b).map fun size =>
      Float.pow (1.0 - Float.pow t.p (t.b * size)) (1.0 / t.b))
    ⟨t, 1.0 - y, y, 0.0, 1.0⟩

/-! ## The inverse -/

def powerAnswer (t : BetaTask) : Float :=
  if t.p < t.q then
    let x := Float.pow t.p (1.0 / t.a)
    t.answer x (if 1.0 < t.a then -expm1 (Float.log t.p / t.a) else 1.0 - x)
  else
    let log := log1p (-t.q) / t.a
    t.answer (Float.exp log) (-expm1 log)

def betaJet (a b target : Float) (upper : Bool) : JetFunction := fun x => do
  let (value, slope) ← betaIncSlope a b x upper
  let sign : Float := if upper then -1.0 else 1.0
  let slope := sign * slope
  let positive (z : Float) := if z == 0.0 then leastNormal * 64.0 else z
  let y := positive (1.0 - x)
  let x := positive x
  let bend := slope * (-y * a + (b - 2.0) * x + 1.0)
  let bend := if bend.abs < y * x * largest then bend / (y * x) else bend
  return ⟨value - target, if slope == 0.0 then sign * leastNormal * 64.0 else slope, sign * bend⟩

def BetaStart.solve (s : BetaStart) : Except Breakdown Float := do
  let s := if 0.5 < s.x then ⟨s.task.turn, s.y, s.x, 1.0 - s.high, 1.0 - s.low⟩ else s
  let t := s.task
  let low := if s.low == 0.0 then leastNormal else s.low
  let x := if s.low == 0.0 && s.x < low then low else s.x
  let digits := if x < 1e-50 && (t.a < 1.0 || t.b < 1.0) then 39 else 26
  let upper : Bool := !(t.p < t.q)
  let x ← halleyRoot (betaJet t.a t.b (if upper then t.q else t.p) upper) x low s.high digits
  let x := if x == low then 0.0 else x
  return t.answer x (1.0 - x)

def BetaTask.solve (t : BetaTask) : Except Breakdown Float := do
  if t.a == 1.0 && t.b == 1.0 then return t.p
  else if t.a == 0.5 && t.b == 0.5 then
    let s := Float.sin (t.p * (pi / 2.0))
    return s * s
  else
    let t := if t.a == 1.0 then t.turn else t
    let t := if t.a == 0.5 && 0.5 < t.b then t.turn else t
    if t.b == 0.5 && 0.5 <= t.a && t.p != 1.0 then (halfStart t).solve
    else if t.b == 1.0 then return powerAnswer t
    else if 5.0 < t.a + t.b then (← largeStart t).solve
    else if t.a < 1.0 && t.b < 1.0 then
      match ← steepStart t with
      | .inl s => s.solve
      | .inr x => return x
    else if 1.0 < t.a && 1.0 < t.b then (← humpStart t).solve
    else (mixedStart t).solve

def betaIncInv (a b p : Float) : Float :=
  if a.isNaN || b.isNaN || p.isNaN || a <= 0.0 || b <= 0.0 || p < 0.0 || 1.0 < p then 0.0 / 0.0
  else
    let q := 1.0 - p
    if q == 0.0 then 1.0
    else if p == 0.0 then 0.0
    else
      match BetaTask.solve ⟨a, b, p, q, false⟩ with
      | .ok x => x
      | .error e => e.answer

end GridBayes.Numeric
