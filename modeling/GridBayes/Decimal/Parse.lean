import GridBayes.Decimal.Shortest
import GridBayes.Text.Basic
import GridBayes.Text.Case

/-! Reading numbers from text. Blanks around the number are dropped, digits of every script count,
and single underscores may stand between digits. -/
namespace GridBayes.Decimal
open GridBayes.Text

def plainDigit (c : Char) : Char :=
  match digitValue? c with
  | some d => Char.ofNat (48 + d)
  | none => c

def dropUnderscores : (afterDigit : Bool) → List Char → Option (List Char)
  | _, [] => some []
  | true, '_' :: d :: rest =>
    if d.isDigit then (dropUnderscores true rest).map (d :: ·) else none
  | _, c :: rest =>
    if c == '_' then none
    else (dropUnderscores c.isDigit rest).map (c :: ·)

def natOfDigits (cs : List Char) : Nat :=
  cs.foldl (fun n c => 10 * n + (c.toNat - 48)) 0

def takeSign : List Char → Bool × List Char
  | '-' :: rest => (true, rest)
  | '+' :: rest => (false, rest)
  | cs => (false, cs)

def exponent? (cs : List Char) : Option Int :=
  match cs with
  | [] => some 0
  | mark :: rest =>
    if mark == 'e' || mark == 'E' then
      let (negative, digits) := takeSign rest
      if digits.isEmpty || !digits.all Char.isDigit then none
      else
        let n : Int := natOfDigits digits
        some (if negative then -n else n)
    else none

def unsigned? (cs : List Char) : Option Number :=
  let whole := cs.takeWhile Char.isDigit
  let rest := cs.dropWhile Char.isDigit
  let (fraction, tail) :=
    match rest with
    | '.' :: more => (more.takeWhile Char.isDigit, more.dropWhile Char.isDigit)
    | _ => ([], rest)
  if whole.isEmpty && fraction.isEmpty then none
  else (exponent? tail).map fun e => ⟨natOfDigits (whole ++ fraction), e - fraction.length⟩

def isPadding (c : Char) : Bool :=
  isBlank c && !(28 ≤ c.toNat && c.toNat ≤ 31)

def unsignedPrefix? (cs : List Char) : Option (Number × List Char) :=
  let whole := cs.takeWhile Char.isDigit
  let rest := cs.dropWhile Char.isDigit
  let (fraction, rest) :=
    match rest with
    | '.' :: more =>
      let fraction := more.takeWhile Char.isDigit
      if whole.isEmpty && fraction.isEmpty then ([], rest) else (fraction, more.dropWhile Char.isDigit)
    | _ => ([], rest)
  if whole.isEmpty && fraction.isEmpty then none
  else
    let (e, rest) : Int × List Char :=
      match rest with
      | mark :: more =>
        let (_, digits) := takeSign more
        let sign := more.take (more.length - digits.length)
        let exponent := digits.takeWhile Char.isDigit
        if (mark == 'e' || mark == 'E') && !exponent.isEmpty then
          ((exponent? (mark :: sign ++ exponent)).getD 0, digits.dropWhile Char.isDigit)
        else (0, rest)
      | [] => (0, rest)
    some (⟨natOfDigits (whole ++ fraction), e - fraction.length⟩, rest)

def afterWord? (word : String) (cs : List Char) : Option (List Char) :=
  if (cs.take word.length).map Char.toLower == word.toList then some (cs.drop word.length) else none

def floatPrefix? (cs : List Char) : Option (Float × List Char) := do
  let (negative, body) := takeSign cs
  let (x, rest) ←
    match afterWord? "infinity" body, afterWord? "inf" body, afterWord? "nan" body with
    | some rest, _, _ | none, some rest, _ => some (1.0 / 0.0, rest)
    | _, _, some rest => some (0.0 / 0.0, rest)
    | _, _, _ => (unsignedPrefix? body).map fun (n, rest) => (n.toFloat, rest)
  some (if negative then -x else x, rest)

def float? (s : String) : Option Float := do
  let cs := (trimChars isPadding s.toList).map plainDigit
  let cs ← dropUnderscores false cs
  let (negative, body) := takeSign cs
  let word := String.ofList (body.map Char.toLower)
  let x ←
    if word == "inf" || word == "infinity" then some (1.0 / 0.0)
    else if word == "nan" then some (0.0 / 0.0)
    else (unsigned? body).map Number.toFloat
  some (if negative then -x else x)

def int? (s : String) : Option Int := do
  let cs := (trimChars isPadding s.toList).map plainDigit
  let cs ← dropUnderscores false cs
  let (negative, body) := takeSign cs
  if body.isEmpty || !body.all Char.isDigit then none
  else
    let n : Int := natOfDigits body
    some (if negative then -n else n)

/-! ## Complex numbers -/

def afterUnit? : List Char → Option (List Char)
  | c :: rest => if c == 'j' || c == 'J' then some rest else none
  | [] => none

def signedUnit? : List Char → Option (Float × List Char)
  | '+' :: rest => (afterUnit? rest).map fun rest => (1.0, rest)
  | '-' :: rest => (afterUnit? rest).map fun rest => (-1.0, rest)
  | _ => none

def complexPrefix? (cs : List Char) : Option (Float × Float × List Char) :=
  match floatPrefix? cs with
  | none =>
    match signedUnit? cs with
    | some (y, rest) => some (0.0, y, rest)
    | none => (afterUnit? cs).map fun rest => (0.0, 1.0, rest)
  | some (z, rest) =>
    match rest with
    | sign :: _ =>
      if sign == '+' || sign == '-' then
        match floatPrefix? rest with
        | some (y, rest) => (afterUnit? rest).map fun rest => (z, y, rest)
        | none => (signedUnit? rest).map fun (y, rest) => (z, y, rest)
      else
        match afterUnit? rest with
        | some rest => some (0.0, z, rest)
        | none => some (z, 0.0, rest)
    | [] => some (z, 0.0, [])

def complex? (s : String) : Option (Float × Float) := do
  let cs := (trimChars isPadding s.toList).map plainDigit
  let cs ← dropUnderscores false cs
  let bracketed : Bool := cs.head? == some '('
  let body := if bracketed then (cs.drop 1).dropWhile isPadding else cs
  let (re, im, rest) ← complexPrefix? body
  let rest := rest.dropWhile isPadding
  if rest == (if bracketed then [')'] else []) then some (re, im) else none

/-! ## Hexadecimal numbers -/

def hexDigit? (c : Char) : Option Nat :=
  if c.isDigit then some (c.toNat - 48)
  else if 'a' ≤ c && c ≤ 'f' then some (c.toNat - 87)
  else if 'A' ≤ c && c ≤ 'F' then some (c.toNat - 55)
  else none

def binaryExponent? (cs : List Char) : Option Int :=
  match cs with
  | [] => some 0
  | mark :: rest => if mark == 'p' || mark == 'P' then exponent? ('e' :: rest) else none

def hexadecimal? (s : String) : Option Float := do
  let (negative, body) := takeSign s.toList
  let digits ← match body with
    | '0' :: mark :: rest => if mark == 'x' || mark == 'X' then some rest else none
    | _ => none
  let isHex (c : Char) := (hexDigit? c).isSome
  let whole := digits.takeWhile isHex
  let rest := digits.dropWhile isHex
  let (fraction, tail) :=
    match rest with
    | '.' :: more => (more.takeWhile isHex, more.dropWhile isHex)
    | _ => ([], rest)
  if whole.isEmpty && fraction.isEmpty then none
  else
    let n := (whole ++ fraction).foldl (fun n c => 16 * n + (hexDigit? c).getD 0) 0
    let x := (Number.toFloat ⟨n, 0⟩).scaleB ((← binaryExponent? tail) - 4 * fraction.length)
    some (if negative then -x else x)

def floatOfInt? (n : Int) : Option Float :=
  let x := Number.toFloat ⟨n.natAbs, 0⟩
  if x.isInf then none else some (if n < 0 then -x else x)

end GridBayes.Decimal
