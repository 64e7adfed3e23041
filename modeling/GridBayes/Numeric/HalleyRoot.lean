import GridBayes.Numeric.IncompleteBeta

/-! Roots between bounds by Halley's method. A step that leaves the bounds or does not get smaller is
replaced by a search for a change of sign. The number of evaluations is limited. -/
namespace GridBayes.Numeric

structure Jet where
  value : Float
  slope : Float
  bend : Float

abbrev JetFunction : Type := Float → Except Breakdown Jet

def nextUp (x : Float) : Float :=
  Float.ofBits (x.toBits + 1)

def nextDown (x : Float) : Float :=
  Float.ofBits (x.toBits - 1)

structure Bounds where
  low : Float
  high : Float
  left : Nat

namespace Bounds

def middle (b : Bounds) : Float :=
  (b.high + b.low) / 2.0

end Bounds

/-! ## The search for a change of sign -/

structure Walk where
  bounds : Bounds
  point : Float
  value : Float
  factor : Float

def walk (f : JetFunction) (down : Bool) (growth first : Float) :
    (left : Nat) → (low high point value factor : Float) → Except Breakdown Walk
  | 0, low, high, point, value, factor => .ok ⟨⟨low, high, 0⟩, point, value, factor⟩
  | left + 1, low, high, point, value, factor =>
    if left == 0 || (value < 0.0) != (first < 0.0) then
      .ok ⟨⟨low, high, left⟩, point, value, factor⟩
    else if down then
      let next := point / factor
      if next < low then .ok ⟨⟨low, point, left⟩, low, -value, factor⟩
      else do walk f down growth first left low point next (← f next).value (factor * growth)
    else
      let next := point * factor
      if high < next then .ok ⟨⟨point, high, left⟩, high, -value, factor⟩
      else do walk f down growth first left point high next (← f next).value (factor * growth)

def binaryExponent (x : Float) : Int :=
  x.frExp.2

def bracketStep (f : JetFunction) : (fuel : Nat) → (down : Bool) → (point value : Float) →
    Bounds → Except Breakdown (Float × Bounds)
  | 0, _, point, _, b => .ok (point - b.middle, b)
  | fuel + 1, down, point, value, b =>
    if b.left < 2 then .ok (point - b.middle, b)
    else do
      let e := (binaryExponent ((if down then b.low else b.high) / point)).natAbs
      let factor := if e < 64 then 2.0 else Float.scaleB 1.0 (e / 32 : Nat)
      let growth := if 1024 < e then 8.0 else 2.0
      let w ← if b.low < b.high then walk f down growth value b.left b.low b.high point value factor
        else pure ⟨b, point, value, factor⟩
      let b := w.bounds
      if b.left == 0 then return (point - b.middle, b)
      else
        let b := if down then { b with low := w.point } else { b with high := w.point }
        if 16.0 < w.factor then
          let (step, b) ← bracketStep f fuel (!down) w.point w.value b
          return ((point - w.point) + step, b)
        else return (point - b.middle, b)

/-! ## Steps -/

def halleyStep (x : Float) (j : Jet) : Float :=
  let newton := j.value / j.slope
  if j.bend == 0.0 then newton
  else
    let upper := 2.0 * j.value
    let lower := 2.0 * j.slope - j.value * (j.bend / j.slope)
    let step :=
      if lower.abs < 1.0 && lower.abs * largest <= upper.abs then newton else upper / lower
    if step * j.slope / j.value < 0.0 then
      if 2.0 * x.abs < newton.abs then (if newton < 0.0 then -2.0 else 2.0) * x.abs else newton
    else step

structure Progress where
  bounds : Bounds
  x : Float
  step : Float
  stepBefore : Float
  cut : Bool := false
  lowValue : Float := 0.0
  highValue : Float := 0.0

inductive Advance where
  | go (p : Progress)
  | found (x : Float)

/-- A step that got no smaller is replaced: far bounds are brought together, others halve the way. -/
def replaced (f : JetFunction) (x value step : Float) (b : Bounds) :
    Except Breakdown (Float × Bounds) :=
  let apart := if b.low.abs < 1.0 then (1000.0 * b.low).abs < b.high.abs
    else b.low.abs < (b.high / 1000.0).abs
  if apart then bracketStep f 400 (0.0 < step) x value b
  else
    let half := if 0.0 < step then (x - b.low) / 2.0 else (x - b.high) / 2.0
    let cut := (if half < 0.0 then -1.0 else 1.0) * x.abs * 0.8999999761581421
    .ok (if x < half.abs then cut else half, b)

def beyond (x bound : Float) : Float :=
  let quotient :=
    if bound.abs < 1.0 && 1.0 < x.abs && largest / x.abs < bound.abs then 1000.0 else x / bound
  if quotient.abs < 1.0 then 1.0 / quotient else quotient

/-- Takes a step from `p.x`. There is no root if the signs at the bounds agree. -/
def settle (f : JetFunction) (p : Progress) (value step stepBefore : Float) :
    Except Breakdown Advance :=
  let b := p.bounds
  let x := p.x - step
  let keep (x step : Float) (cut : Bool) : Except Breakdown Advance :=
    let q : Progress :=
      if 0.0 < step then { p with bounds := { b with high := p.x }, highValue := value }
      else { p with bounds := { b with low := p.x }, lowValue := value }
    if 0.0 < q.highValue * q.lowValue then .error .stalled
    else .ok (.go { q with x := x, step := step, stepBefore := stepBefore, cut := cut })
  if x < b.low || b.high < x then
    let down : Bool := x < b.low
    let bound := if down then b.low else b.high
    let quotient := beyond x bound
    if !p.cut && 0.0 < quotient && quotient < 3.0 then
      let step := 0.9900000095367432 * (p.x - bound)
      keep (p.x - step) step true
    else if b.high <= nextUp b.low then .ok (.found ((b.low + b.high) / 2.0))
    else do
      let (step, b) ← bracketStep f 400 down p.x value b
      let x := p.x - step
      let x := if x <= b.low then nextUp b.low else if b.high <= x then nextDown b.high else x
      return .go { p with bounds := b, x := x, step := step, stepBefore := stepBefore }
  else keep x step p.cut

def halleySearch (f : JetFunction) (tolerance : Float) :
    (fuel : Nat) → Progress → Except Breakdown Float
  | 0, _ => .error .stalled
  | fuel + 1, p => do
    let j ← f p.x
    let b := { p.bounds with left := p.bounds.left - 1 }
    let inTime (left : Nat) (x : Float) : Except Breakdown Float :=
      if left == 0 then .error .stalled else .ok x
    if j.value == 0.0 then inTime b.left p.x
    else
      let step := halleyStep p.x j
      let progress := (step / p.stepBefore).abs
      let (step, stepBefore, b) ←
        if 0.8 < progress && progress < 2.0 then do
          let (step, b) ← replaced f p.x j.value step b
          pure (step, step * 3.0, b)
        else pure (step, p.step, b)
      match ← settle f { p with bounds := b } j.value step stepBefore with
      | .found x => inTime b.left x
      | .go q =>
        if q.bounds.left != 0 && (q.x * tolerance).abs < q.step.abs then
          halleySearch f tolerance fuel q
        else inTime q.bounds.left q.x

/-- The root between bounds from a guess, in at most 400 evaluations, to about `digits` binary digits. -/
def halleyRoot (f : JetFunction) (guess low high : Float) (digits : Int) : Except Breakdown Float :=
  let first := if 1e7 * guess < 1e7 then 1e7 else 1e7 * guess
  halleySearch f (Float.scaleB 1.0 (1 - digits)) 401 ⟨⟨low, high, 400⟩, guess, first, first, false, 0.0, 0.0⟩

end GridBayes.Numeric
