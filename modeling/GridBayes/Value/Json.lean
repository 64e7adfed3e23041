import GridBayes.Value
import GridBayes.Decimal.Parse

/-! Values as JSON text: a reader that keeps whole numbers and doubles apart, and a writer that
uses ASCII only. The reader takes `NaN` and the two infinities as numbers, and the last of two
entries with one key wins. -/
namespace GridBayes.Value

/-! ## Reading -/

def skipBlanks (cs : List Char) : List Char :=
  cs.dropWhile fun c => c == ' ' || c == '\t' || c == '\n' || c == '\r'

def hexValue? (c : Char) : Option Nat :=
  if c.isDigit then some (c.toNat - 48)
  else if 'a' ≤ c && c ≤ 'f' then some (c.toNat - 87)
  else if 'A' ≤ c && c ≤ 'F' then some (c.toNat - 55)
  else none

def hex4? (a b c d : Char) : Option Nat := do
  let a ← hexValue? a
  let b ← hexValue? b
  let c ← hexValue? c
  let d ← hexValue? d
  some (((a * 16 + b) * 16 + c) * 16 + d)

def escape? : Char → Option Char
  | '"' => some '"'
  | '\\' => some '\\'
  | '/' => some '/'
  | 'b' => some (Char.ofNat 8)
  | 'f' => some (Char.ofNat 12)
  | 'n' => some '\n'
  | 'r' => some '\r'
  | 't' => some '\t'
  | _ => none

def isHighUnit (n : Nat) : Bool :=
  0xD800 ≤ n && n < 0xDC00

def pushUnit (high : Option Nat) (n : Nat) (done : List Char) : List Char :=
  match high with
  | some h =>
    if 0xDC00 ≤ n && n < 0xE000 then
      Char.ofNat (0x10000 + (h - 0xD800) * 0x400 + (n - 0xDC00)) :: done
    else Char.ofNat n :: Char.ofNat h :: done
  | none => Char.ofNat n :: done

def endPair (high : Option Nat) (done : List Char) : List Char :=
  (high.map Char.ofNat).toList ++ done

/-- The text after an opening quote, and what follows it; `high` is the first of a surrogate pair. -/
def readText? : (high : Option Nat) → (done : List Char) → List Char → Option (String × List Char)
  | _, _, [] => none
  | high, done, '"' :: rest => some (String.ofList (endPair high done).reverse, rest)
  | high, done, '\\' :: 'u' :: a :: b :: c :: d :: rest =>
    match hex4? a b c d with
    | some n =>
      if isHighUnit n then readText? (some n) (endPair high done) rest
      else readText? none (pushUnit high n done) rest
    | none => none
  | high, done, '\\' :: c :: rest =>
    match escape? c with
    | some e => readText? none (e :: endPair high done) rest
    | none => none
  | high, done, c :: rest =>
    if c.toNat < 32 then none else readText? none (c :: endPair high done) rest

def readNumber? (cs : List Char) : Option (Value × List Char) :=
  let (negative, body) :=
    match cs with
    | '-' :: rest => (true, rest)
    | _ => (false, cs)
  let whole := body.takeWhile Char.isDigit
  let rest := body.dropWhile Char.isDigit
  if whole.isEmpty || (1 < whole.length && whole.head? == some '0') then none
  else
    let (fraction, rest) :=
      match rest with
      | '.' :: d :: more =>
        if d.isDigit then
          ((d :: more).takeWhile Char.isDigit, (d :: more).dropWhile Char.isDigit)
        else ([], rest)
      | _ => ([], rest)
    let (mark, rest) :=
      match rest with
      | e :: more =>
        if e == 'e' || e == 'E' then
          let (sign, digits) :=
            match more with
            | '-' :: ds => (['-'], ds)
            | '+' :: ds => (['+'], ds)
            | ds => ([], ds)
          let exponent := digits.takeWhile Char.isDigit
          if exponent.isEmpty then ([], rest)
          else ('e' :: sign ++ exponent, digits.dropWhile Char.isDigit)
        else ([], rest)
      | [] => ([], rest)
    if fraction.isEmpty && mark.isEmpty then
      let n : Int := Decimal.natOfDigits whole
      some (.int (if negative then -n else n), rest)
    else
      match Decimal.unsigned? (whole ++ '.' :: fraction ++ mark) with
      | some d => some (.float (if negative then -d.toFloat else d.toFloat), rest)
      | none => none

def words : List (String × Value) :=
  [("null", .null), ("true", .bool true), ("false", .bool false), ("NaN", .float (0.0 / 0.0)),
   ("Infinity", .float (1.0 / 0.0)), ("-Infinity", .float (-1.0 / 0.0))]

def readWord? (cs : List Char) : Option (Value × List Char) :=
  words.findSome? fun w => (Text.afterStart? w.1.toList cs).map fun rest => (w.2, rest)

mutual

def readValue? : (fuel : Nat) → List Char → Option (Value × List Char)
  | 0, _ => none
  | fuel + 1, cs =>
    match skipBlanks cs with
    | '"' :: rest => (readText? none [] rest).map fun (s, rest) => (.str s, rest)
    | '[' :: rest =>
      match skipBlanks rest with
      | ']' :: rest => some (.list [], rest)
      | rest => readItems? fuel [] rest
    | '\x7b' :: rest =>
      match skipBlanks rest with
      | '\x7d' :: rest => some (.table [], rest)
      | rest => readEntries? fuel [] rest
    | cs => (readWord? cs).orElse fun _ => readNumber? cs

def readItems? : (fuel : Nat) → List Value → List Char → Option (Value × List Char)
  | 0, _, _ => none
  | fuel + 1, done, cs => do
    let (v, rest) ← readValue? fuel cs
    match skipBlanks rest with
    | ',' :: rest => readItems? fuel (v :: done) rest
    | ']' :: rest => some (.list (v :: done).reverse, rest)
    | _ => none

def readEntries? : (fuel : Nat) → List (String × Value) → List Char → Option (Value × List Char)
  | 0, _, _ => none
  | fuel + 1, done, cs =>
    match skipBlanks cs with
    | '"' :: rest => do
      let (key, rest) ← readText? none [] rest
      match skipBlanks rest with
      | ':' :: rest =>
        let (v, rest) ← readValue? fuel rest
        let done := setEntry done key v
        match skipBlanks rest with
        | ',' :: rest => readEntries? fuel done rest
        | '\x7d' :: rest => some (.table done, rest)
        | _ => none
      | _ => none
    | _ => none

end

def ofJson? (s : String) : Option Value := do
  let cs := s.toList
  let (v, rest) ← readValue? (cs.length + 1) cs
  if (skipBlanks rest).isEmpty then some v else none

/-! ## Writing -/

def unitEscape (n : Nat) : List Char :=
  '\\' :: 'u' :: Text.hexDigits 4 n

def jsonChar (c : Char) : List Char :=
  let n := c.toNat
  if c == '"' then ['\\', '"']
  else if c == '\\' then ['\\', '\\']
  else if c == '\n' then ['\\', 'n']
  else if c == '\r' then ['\\', 'r']
  else if c == '\t' then ['\\', 't']
  else if n == 8 then ['\\', 'b']
  else if n == 12 then ['\\', 'f']
  else if 32 ≤ n && n < 127 then [c]
  else if n < 65536 then unitEscape n
  else
    unitEscape (0xD800 + (n - 65536) / 1024) ++ unitEscape (0xDC00 + (n - 65536) % 1024)

def jsonText (s : String) : String :=
  String.ofList ('"' :: s.toList.flatMap jsonChar ++ ['"'])

def jsonFloat (x : Float) : String :=
  if x.isNaN then "NaN"
  else if x.isInf then (if x < 0.0 then "-Infinity" else "Infinity")
  else Decimal.shortText x

mutual

def toJson : Value → String
  | null => "null"
  | bool true => "true"
  | bool false => "false"
  | int n => toString n
  | float x => jsonFloat x
  | complex re im => jsonText (complexText re im)
  | str s => jsonText s
  | moment m => jsonText m.text
  | list items => "[" ++ Text.join ", " (jsonItems items) ++ "]"
  | table entries => "\x7b" ++ Text.join ", " (jsonEntries entries) ++ "\x7d"

def jsonItems : List Value → List String
  | [] => []
  | v :: rest => v.toJson :: jsonItems rest

def jsonEntries : List (String × Value) → List String
  | [] => []
  | (k, v) :: rest => (jsonText k ++ ": " ++ v.toJson) :: jsonEntries rest

end

end GridBayes.Value
