import GridBayes.Decimal.Shortest
import GridBayes.Text.Basic

/-! Number texts. Every format is one choice of digits and one layout: positional or with an
exponent of at least two digits and a sign. -/
namespace GridBayes.Decimal

structure Layout where
  digits : List Char
  point : Int
deriving Repr, DecidableEq

def Number.layout (d : Number) : Layout :=
  let digits := Nat.toDigits 10 d.digits
  ⟨digits, (digits.length : Int) + d.exponent⟩

def Layout.split (l : Layout) : List Char × List Char :=
  if l.point ≤ 0 then
    (['0'], List.replicate (-l.point).toNat '0' ++ l.digits)
  else
    let n := l.point.toNat
    (l.digits.take n ++ List.replicate (n - l.digits.length) '0', l.digits.drop n)

def trimZeros (cs : List Char) : List Char :=
  (cs.reverse.dropWhile (· == '0')).reverse

def withPoint (whole fraction : List Char) : List Char :=
  if fraction.isEmpty then whole else whole ++ '.' :: fraction

def exponentDigits (e : Int) : List Char :=
  let digits := Nat.toDigits 10 e.natAbs
  (if e < 0 then '-' else '+') :: List.replicate (2 - digits.length) '0' ++ digits

def Layout.scientific (l : Layout) : List Char :=
  withPoint (l.digits.take 1) (l.digits.drop 1) ++ 'e' :: exponentDigits (l.point - 1)

def withSign (x : Float) (body : Binary → List Char) : String :=
  match Binary.ofFloat? x with
  | some b => String.ofList (if b.negative then '-' :: body b else body b)
  | none => if x.isNaN then "nan" else if x < 0.0 then "-inf" else "inf"

/-- The shortest text that reads back: positional from `1e-04` to below `1e16`, with a digit after the point. -/
def shortText (x : Float) : String :=
  withSign x fun b =>
    let l := (shortest b).layout
    if b.mantissa == 0 then ['0', '.', '0']
    else if l.point ≤ -4 || 16 < l.point then l.scientific
    else
      let (whole, fraction) := l.split
      withPoint whole (if fraction.isEmpty then ['0'] else fraction)

def fixedDigits (places : Nat) (b : Binary) : List Char :=
  let n := (b.magnitude.shift10 (-(places : Int))).round
  let (whole, fraction) := (Layout.split ⟨Nat.toDigits 10 n, (digitCount n : Int) - places⟩)
  withPoint whole fraction

def fixedText (places : Nat) (x : Float) : String :=
  withSign x (fixedDigits places)

/-- At most `precision` significant digits without trailing zeros. With `pointed` a whole number keeps a zero after
the point, and the exponent is written from one power of ten lower. -/
def generalDigits (precision : Nat) (pointed : Bool) (b : Binary) : List Char :=
  let precision := max precision 1
  let l : Layout :=
    if b.mantissa == 0 then ⟨['0'], 1⟩
    else
      let l := (significant precision b).layout
      ⟨trimZeros l.digits, l.point⟩
  let limit : Int := if pointed then (precision : Int) - 1 else precision
  if l.point ≤ -4 || limit < l.point then l.scientific
  else
    let (whole, fraction) := l.split
    withPoint whole (if fraction.isEmpty && pointed then ['0'] else fraction)

def generalText (precision : Nat) (x : Float) : String :=
  withSign x (generalDigits precision false)

def pointedText (precision : Nat) (x : Float) : String :=
  withSign x (generalDigits precision true)

end GridBayes.Decimal
