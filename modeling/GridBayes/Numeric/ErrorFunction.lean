import GridBayes.Numeric.Polynomial

/-! The error function, its complement and the inverse of the complement, for doubles. Each of four
ranges has its own quotient of polynomials, good to the last place. -/
namespace GridBayes.Numeric

/-! ## Quotients -/

def erfInner (x : Float) : Float :=
  let z := x * x
  pairwise z [1.28379167095512558561e-01, -3.25042107247001499370e-01, -2.84817495755985104766e-02,
    -5.77027029648944159157e-03, -2.37630166566501626084e-05]
  / pairwise z [1.0, 3.97917223959155352819e-01, 6.50222499887672944485e-02,
    5.08130628187576562776e-03, 1.32494738004321644526e-04, -3.96022827877536812320e-06]

def erfOne : Float := 8.45062911510467529297e-01

def erfMiddle (x : Float) : Float :=
  let s := x - 1.0
  pairwise s [-2.36211856075265944077e-03, 4.14856118683748331666e-01, -3.72207876035701323847e-01,
    3.18346619901161753674e-01, -1.10894694282396677476e-01, 3.54783043256182359371e-02,
    -2.16637559486879084300e-03]
  / pairwise s [1.0, 1.06420880400844228286e-01, 5.40397917702171048937e-01,
    7.18286544141962662868e-02, 1.26171219808761642112e-01, 1.36370839120290507362e-02,
    1.19844998467991074170e-02]

def erfcOuter (switch x : Float) : Float :=
  let s := 1.0 / (x * x)
  if x < switch then
    pairwise s [-9.86494403484714822705e-03, -6.93858572707181764372e-01,
      -1.05586262253232909814e+01, -6.23753324503260060396e+01, -1.62396669462573470355e+02,
      -1.84605092906711035994e+02, -8.12874355063065934246e+01, -9.81432934416914548592e+00]
    / pairwise s [1.0, 1.96512716674392571292e+01, 1.37657754143519042600e+02,
      4.34565877475229228821e+02, 6.45387271733267880336e+02, 4.29008140027567833386e+02,
      1.08635005541779435134e+02, 6.57024977031928170135e+00, -6.04244152148580987438e-02]
  else
    pairwise s [-9.86494292470009928597e-03, -7.99283237680523006574e-01,
      -1.77579549177547519889e+01, -1.60636384855821916062e+02, -6.37566443368389627722e+02,
      -1.02509513161107724954e+03, -4.83519191608651397019e+02]
    / pairwise s [1.0, 3.03380607434824582924e+01, 3.25792512996573918826e+02,
      1.53672958608443695994e+03, 3.19985821950859553908e+03, 2.55305040643316442583e+03,
      4.74528541206955367215e+02, -2.24409524465858183362e+01]

def coarse (x : Float) : Float :=
  Float.ofBits (x.toBits &&& 0xFFFFFFFF00000000)

def erfcTail (switch x : Float) : Float :=
  let z := coarse x
  Float.exp (-z * z - 0.5625) * Float.exp ((z - x) * (z + x) + erfcOuter switch x) / x

/-! ## The functions -/

def erf (x : Float) : Float :=
  let size := x.abs
  if x.isNaN then x
  else if size < 0.84375 then
    if size < 3.725290298461914e-09 then x + 1.28379167095512586316e-01 * x else x + x * erfInner x
  else
    let value :=
      if size < 1.25 then erfOne + erfMiddle size
      else if 6.0 <= size then 1.0
      else 1.0 - erfcTail 2.8571434020996094 size
    if x < 0.0 then -value else value

def erfc (x : Float) : Float :=
  let size := x.abs
  if x.isNaN then x
  else if size < 0.84375 then
    if size < 1.3877787807814457e-17 then 1.0 - x
    else
      let y := erfInner x
      if x < 0.25 then 1.0 - (x + x * y) else 0.5 - (x * y + (x - 0.5))
  else if size < 1.25 then
    if x < 0.0 then 1.0 + (erfOne + erfMiddle size) else 1.0 - erfOne - erfMiddle size
  else if x <= -6.0 then 2.0
  else if 28.0 <= x then 0.0
  else
    let tail := erfcTail 2.8571414947509766 size
    if x < 0.0 then 2.0 - tail else tail

/-! ## The inverse of the complement -/

def twoOverSqrtPi : Float := 1.1283791670955126

def erfRoot (z : Float) : (steps : Nat) → (x : Float) → Float
  | 0, x => x
  | steps + 1, x =>
    let next := x - (erf x - z) / (twoOverSqrtPi * Float.exp (-(x * x)))
    if next == x then x else erfRoot z steps next

def logErfc (x : Float) : Float × Float :=
  if x < 1.25 then
    let y := erfc x
    (Float.log y, -(twoOverSqrtPi * Float.exp (-(x * x)) / y))
  else
    let scaled := erfcOuter 2.8571414947509766 x - 0.5625
    (scaled - x * x - Float.log x, -(twoOverSqrtPi * x / Float.exp scaled))

def erfcRoot (target : Float) : (steps : Nat) → (x : Float) → Float
  | 0, x => x
  | steps + 1, x =>
    let (value, slope) := logErfc x
    let next := x - (value - target) / slope
    if next == x then x else erfcRoot target steps next

def tailGuess (y : Float) : Float :=
  let t := Float.sqrt (-2.0 * Float.log (y / 2.0))
  (t - (2.30753 + 0.27061 * t) / (1.0 + 0.99229 * t + 0.04481 * t * t)) / Float.sqrt 2.0

def erfcInv (y : Float) : Float :=
  if y.isNaN || y < 0.0 || 2.0 < y then 0.0 / 0.0
  else if y == 0.0 then 1.0 / 0.0
  else if y == 2.0 then -1.0 / 0.0
  else if y < 0.25 then erfcRoot (Float.log y) 8 (tailGuess y)
  else if 1.75 < y then -(erfcRoot (Float.log (2.0 - y)) 8 (tailGuess (2.0 - y)))
  else
    let z := 1.0 - y
    if z == 0.0 then 0.0 else erfRoot z 10 (z * 0.886226925452758 * (1.0 + 0.2618 * z * z))

end GridBayes.Numeric
