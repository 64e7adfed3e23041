import GridBayes.Numeric.IncompleteGamma

/-! The inverse of the regularised incomplete gamma functions: a first guess by the size of the
arguments, and three steps of Halley's method. -/
namespace GridBayes.Numeric

/-! ## First guesses -/

def normalGuess (p q : Float) : Float :=
  let t := Float.sqrt (-2.0 * Float.log (if p < 0.5 then p else q))
  let s := t - horner t [0.213623493715853, 4.28342155967104, 11.6616720288968, 3.31125922108741]
    / horner t [0.3611708101884203e-1, 1.27364489782223, 6.40691597760039, 6.61053765625462, 1.0]
  if p < 0.5 then -s else s

def roughSum (a x : Float) : (fuel : Nat) → (i term sum : Float) → Float
  | 0, _, _, sum => sum
  | fuel + 1, i, term, sum =>
    let term := term * (x / (a + i))
    let sum := sum + term
    if term < 1e-4 then sum else roughSum a x fuel (i + 1.0) term sum

def farGuess (a y : Float) : Float :=
  let c1 := (a - 1.0) * Float.log y
  let c1sq := c1 * c1
  let c1cu := c1sq * c1
  let asq := a * a
  let acu := asq * a
  let c2 := (a - 1.0) * (1.0 + c1)
  let c3 := (a - 1.0) * (-(c1sq / 2.0) + (a - 2.0) * c1 + (3.0 * a - 5.0) / 2.0)
  let c4 := (a - 1.0) * (c1cu / 3.0 - (3.0 * a - 5.0) * c1sq / 2.0 + (asq - 6.0 * a + 7.0) * c1
    + (11.0 * asq - 46.0 * a + 47.0) / 6.0)
  let c5 := (a - 1.0) * (-(c1sq * c1sq / 4.0) + (11.0 * a - 17.0) * c1cu / 6.0
    + (-3.0 * asq + 13.0 * a - 13.0) * c1sq
    + (2.0 * acu - 25.0 * asq + 72.0 * a - 61.0) * c1 / 2.0
    + (25.0 * acu - 195.0 * asq + 477.0 * a - 379.0) / 12.0)
  let ysq := y * y
  y + c1 + c2 / y + c3 / ysq + c4 / (ysq * y) + c5 / (ysq * ysq)

def smallGuess (a p q : Float) : Float :=
  let g := gamma a
  let b := q * g
  let y := -Float.log b
  let u := y - (1.0 - a) * Float.log y
  if 0.6 < b || (0.45 <= b && 0.3 <= a) then
    let u := if 1e-8 < b * q && 1e-5 < q then Float.pow (p * g * a) (1.0 / a)
      else Float.exp (-q / a - euler)
    u / (1.0 - u / (a + 1.0))
  else if a < 0.3 && 0.35 <= b then
    let t := Float.exp (-euler - b)
    t * Float.exp (t * Float.exp t)
  else if 0.15 < b || 0.3 <= a then
    y - (1.0 - a) * Float.log u - Float.log (1.0 + (1.0 - a) / (1.0 + u))
  else if 0.1 < b then
    y - (1.0 - a) * Float.log u
      - Float.log ((u * u + 2.0 * (3.0 - a) * u + (2.0 - a) * (3.0 - a)) / (u * u + (5.0 - a) * u + 2.0))
  else farGuess a y

def lowerTailGuess (a p w : Float) : Float :=
  let v := Float.log p + lnGamma (a + 1.0)
  let z :=
    if w < 0.15 * (a + 1.0) then
      let two (z : Float) := log1p (z / (a + 1.0) * (1.0 + z / (a + 2.0)))
      let three (z : Float) :=
        log1p (z / (a + 1.0) * (1.0 + z / (a + 2.0) * (1.0 + z / (a + 3.0))))
      let z := Float.exp ((v + w) / a)
      let z := Float.exp ((v + z - two z) / a)
      let z := Float.exp ((v + z - two z) / a)
      Float.exp ((v + z - three z) / a)
    else w
  if z <= 0.01 * (a + 1.0) || 0.7 * (a + 1.0) < z then z
  else
    let first := z / (a + 1.0)
    let ls := Float.log (roughSum a z 99 2.0 first (1.0 + first))
    let z := Float.exp ((v + z - ls) / a)
    z * (1.0 - (a * Float.log z - z - v + ls) / (a - z))

def upperTailGuess (a q w : Float) : Float :=
  if w < 3.0 * a then w
  else
    let d := a * (a - 1.0)
    let d := if d < 2.0 then 2.0 else d
    let lb := Float.log q + lnGamma a
    if lb < -d * 2.3 then farGuess a (-lb)
    else
      let next (x : Float) :=
        -lb + (a - 1.0) * Float.log x - Float.log (1.0 + (1.0 - a) / (1.0 + x))
      next (next w)

def largeGuess (a p q : Float) : Float :=
  let s := normalGuess p q
  let s2 := s * s
  let s3 := s2 * s
  let s4 := s2 * s2
  let s5 := s4 * s
  let root := Float.sqrt a
  let w := a + s * root + (s2 - 1.0) / 3.0
  let w := w + (s3 - 7.0 * s) / (36.0 * root)
  let w := w - (3.0 * s4 + 7.0 * s2 - 16.0) / (810.0 * a)
  let w := w + (9.0 * s5 + 256.0 * s3 - 433.0 * s) / (38880.0 * a * root)
  if 500.0 <= a && (1.0 - w / a).abs < 1e-6 then w
  else if 0.5 < p then upperTailGuess a q w
  else lowerTailGuess a p w

def gammaGuess (a p q : Float) : Float :=
  if a == 1.0 then if 0.9 < q then -log1p (-p) else -Float.log q
  else if a < 1.0 then smallGuess a p q
  else largeGuess a p q

/-! ## Halley's method -/

def gammaSteps (a sign : Float) (f : Float → Float) : (steps : Nat) → (x : Float) → Float
  | 0, x => x
  | steps + 1, x =>
    let front := gammaFront a x
    if front == 0.0 then x
    else
      let newton := f x * x / (sign * front)
      let bend := -1.0 + (a - 1.0) / x
      let x := if bend.isInf then x - newton else x - newton / (1.0 - 0.5 * newton * bend)
      gammaSteps a sign f steps x

def gammaUpperRoot (a q : Float) : Float :=
  gammaSteps a (-1.0) (fun x => gammaUpper a x - q) 3 (gammaGuess a (1.0 - q) q)

def gammaLowerRoot (a p : Float) : Float :=
  gammaSteps a 1.0 (fun x => gammaLower a x - p) 3 (gammaGuess a p (1.0 - p))

def hasGammaInverse (a p : Float) : Bool :=
  !(a < 0.0 || p < 0.0 || 1.0 < p)

/-- Where the regularised lower incomplete gamma function of `a` is `p`. -/
def gammaIncInv (a p : Float) : Float :=
  if a.isNaN || p.isNaN then 0.0 / 0.0
  else if !hasGammaInverse a p then gammaLowerRoot a p
  else if p == 0.0 then 0.0
  else if p == 1.0 then infinite
  else if 0.9 < p then
    let q := 1.0 - p
    if q == 0.0 then infinite else gammaUpperRoot a q
  else gammaLowerRoot a p

end GridBayes.Numeric
