/-! Doubles as exact numbers: a finite double is a sign, a natural number and a power of two. -/
namespace GridBayes.Decimal

/-- A finite double: `mantissa · 2 ^ exponent`, negative or not. Zero keeps its sign. -/
structure Binary where
  negative : Bool
  mantissa : Nat
  exponent : Int
deriving Repr, DecidableEq

def Binary.ofBits? (bits : Nat) : Option Binary :=
  let negative := bits / Nat.pow 2 63 % 2 == 1
  let biased : Nat := bits / Nat.pow 2 52 % 2048
  let fraction : Nat := bits % Nat.pow 2 52
  if biased == 2047 then none
  else if biased == 0 then some ⟨negative, fraction, -1074⟩
  else some ⟨negative, fraction + Nat.pow 2 52, (biased : Int) - 1075⟩

def Binary.ofFloat? (x : Float) : Option Binary :=
  Binary.ofBits? x.toBits.toNat

structure Ratio where
  num : Nat
  den : Nat
deriving Repr, DecidableEq

def Ratio.scale2 (n : Nat) (e : Int) : Ratio :=
  if 0 ≤ e then ⟨n * Nat.pow 2 e.toNat, 1⟩ else ⟨n, Nat.pow 2 (-e).toNat⟩

def Ratio.shift10 (r : Ratio) (e : Int) : Ratio :=
  if 0 ≤ e then ⟨r.num, r.den * Nat.pow 10 e.toNat⟩ else ⟨r.num * Nat.pow 10 (-e).toNat, r.den⟩

def Binary.magnitude (b : Binary) : Ratio :=
  Ratio.scale2 b.mantissa b.exponent

def Ratio.round (r : Ratio) : Nat :=
  let q := r.num / r.den
  let twice := 2 * (r.num % r.den)
  if twice < r.den then q
  else if r.den < twice then q + 1
  else if q % 2 == 0 then q else q + 1

def digitCount (n : Nat) : Nat :=
  (Nat.toDigits 10 n).length

/-- The power of ten of the leading digit of a positive double, which exceeds `10 ^ (-400)`. -/
def Ratio.leading (r : Ratio) : Int :=
  (digitCount (r.num * Nat.pow 10 400 / r.den) : Int) - 401

end GridBayes.Decimal
