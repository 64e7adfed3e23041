import GridBayes.Decimal.Binary

/-! The fewest decimal digits that read back as a given double. A double stands for an interval of
reals that round to it; the first decimal grid with a point in that interval gives the digits, and
of two points the nearer one. -/
namespace GridBayes.Decimal

structure Number where
  digits : Nat
  exponent : Int
deriving Repr, DecidableEq

def Number.trim : (fuel : Nat) → Number → Number
  | 0, d => d
  | fuel + 1, d =>
    if d.digits != 0 && d.digits % 10 == 0 then trim fuel ⟨d.digits / 10, d.exponent + 1⟩ else d

/-- The neighbours of a double on the grid `10 ^ unit` that read back as it. With `a / b` a quarter of the last
binary place in units of the grid, the bounds are `(4 m + 2) · a / b` and two quarters below `4 m · a / b`, or one
at a power of two. They count when `m` is even. -/
def onGrid? (b : Binary) (unit : Int) : Option Number :=
  let m := b.mantissa
  let quarter := (Ratio.scale2 1 (b.exponent - 2)).shift10 unit
  let below := if m == Nat.pow 2 52 && b.exponent != -1074 then 1 else 2
  let value := 4 * m * quarter.num
  let low := (4 * m - below) * quarter.num
  let high := (4 * m + 2) * quarter.num
  let inside (c : Nat) : Bool :=
    let p := c * quarter.den
    if m % 2 == 0 then low ≤ p && p ≤ high else low < p && p < high
  let down := value / quarter.den
  let up := down + 1
  let downGap := value - down * quarter.den
  let upGap := up * quarter.den - value
  if inside down && down != 0 && (!inside up || downGap < upGap || (downGap == upGap && down % 2 == 0))
  then some ⟨down, unit⟩
  else if inside up then some ⟨up, unit⟩
  else none

def firstGrid (b : Binary) (leading : Int) : (fuel n : Nat) → Number
  | 0, n => ⟨b.magnitude.shift10 (leading - n + 1) |>.round, leading - n + 1⟩
  | fuel + 1, n =>
    match onGrid? b (leading - n + 1) with
    | some d => d
    | none => firstGrid b leading fuel (n + 1)

/-- The shortest decimal that reads back as the double, the nearest of that length. -/
def shortest (b : Binary) : Number :=
  if b.mantissa == 0 then ⟨0, 0⟩
  else (firstGrid b b.magnitude.leading 17 1).trim 20

def significant (n : Nat) (b : Binary) : Number :=
  if b.mantissa == 0 then ⟨0, 0⟩
  else
    let unit := b.magnitude.leading - n + 1
    let rounded := (b.magnitude.shift10 unit).round
    if rounded == Nat.pow 10 n then ⟨Nat.pow 10 (n - 1), unit + 1⟩ else ⟨rounded, unit⟩

def Number.toFloat (d : Number) : Float :=
  let top := (digitCount d.digits : Int) + d.exponent
  if d.digits == 0 then 0.0
  else if 400 < top then 1.0 / 0.0
  else if top < -400 then 0.0
  else if 0 ≤ d.exponent then Float.ofScientific (d.digits * Nat.pow 10 d.exponent.toNat) false 0
  else Float.ofScientific d.digits true (-d.exponent).toNat

def roundSignificant (n : Nat) (x : Float) : Float :=
  match Binary.ofFloat? x with
  | none => x
  | some b =>
    let y := (significant n b).toFloat
    if b.negative && b.mantissa != 0 then -y else y

end GridBayes.Decimal
