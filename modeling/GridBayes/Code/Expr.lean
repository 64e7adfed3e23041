import GridBayes.Decimal.Parse

/-! Arithmetic expressions in the code of a model: numbers, places, calls of functions, and the
operators `+ - * / // **` with their usual precedence. -/
namespace GridBayes.Code

inductive Expr where
  | whole (n : Nat)
  | decimal (m : Nat) (e : Int)
  | place (name : String)
  | entry (name : String) (i : Nat)
  | call (name : String) (args : List Expr)
  | negate (a : Expr)
  | add (a b : Expr)
  | sub (a b : Expr)
  | mul (a b : Expr)
  | div (a b : Expr)
  | floorDiv (a b : Expr)
  | power (a b : Expr)
deriving Repr

/-! ## Words -/

inductive Token where
  | whole (n : Nat)
  | decimal (m : Nat) (e : Int)
  | name (s : String)
  | mark (s : String)
deriving Repr, DecidableEq

def isDigit (c : Char) : Bool :=
  '0' ≤ c && c ≤ '9'

def exponentAt (cs : List Char) : Option (Int × Nat) :=
  match cs with
  | c :: rest =>
    if c == 'e' || c == 'E' then
      let (negative, sign, rest) := match rest with
        | '-' :: rest => (true, 1, rest)
        | '+' :: rest => (false, 1, rest)
        | _ => (false, 0, rest)
      let digits := rest.takeWhile isDigit
      if digits.isEmpty then none
      else
        let n : Int := Decimal.natOfDigits digits
        some (if negative then -n else n, 1 + sign + digits.length)
    else none
  | [] => none

def numberAt (cs : List Char) : Option (Token × Nat) :=
  let whole := cs.takeWhile isDigit
  let rest := cs.drop whole.length
  let (pointed, fraction) := match rest with
    | '.' :: after => (true, after.takeWhile isDigit)
    | _ => (false, [])
  let size := whole.length + (if pointed then 1 + fraction.length else 0)
  if whole.isEmpty && fraction.isEmpty then none
  else
    match exponentAt (cs.drop size) with
    | some (e, n) =>
      some (.decimal (Decimal.natOfDigits (whole ++ fraction)) (e - fraction.length), size + n)
    | none =>
      if pointed then
        some (.decimal (Decimal.natOfDigits (whole ++ fraction)) (-(fraction.length : Int)), size)
      else some (.whole (Decimal.natOfDigits whole), size)

def nameChars : (afterPoint : Bool) → List Char → List Char
  | afterPoint, c :: d :: rest =>
    if Text.isWord c && (!afterPoint || Text.isNameStart c || c == '_') then
      c :: nameChars false (d :: rest)
    else if c == '.' && (Text.isNameStart d || d == '_') then '.' :: nameChars true (d :: rest)
    else []
  | _, [c] => if Text.isWord c then [c] else []
  | _, [] => []

def tokenAt (cs : List Char) : Option (Token × Nat) :=
  match cs with
  | '*' :: '*' :: _ => some (.mark "**", 2)
  | '/' :: '/' :: _ => some (.mark "//", 2)
  | c :: _ =>
    if isDigit c || c == '.' then numberAt cs
    else if Text.isNameStart c || c == '_' then
      let name := nameChars false cs
      some (.name (String.ofList name), name.length)
    else if "+-*/(),[]".toList.contains c then some (.mark (String.singleton c), 1)
    else none
  | [] => none

def tokens : (fuel : Nat) → List Char → Option (List Token)
  | 0, cs => if cs.isEmpty then some [] else none
  | fuel + 1, cs =>
    match cs.dropWhile fun c => c == ' ' || c == '\t' with
    | [] => some []
    | cs =>
      match tokenAt cs with
      | none => none
      | some (t, n) => (tokens fuel (cs.drop n)).map (t :: ·)

/-! ## Reading -/

def after? (s : String) : List Token → Option (List Token)
  | t :: ts => if t = .mark s then some ts else none
  | [] => none

def index? : List Token → Option (Nat × List Token)
  | .mark "[" :: .whole i :: .mark "]" :: ts => some (i, ts)
  | _ => none

def ends : List Token → Bool
  | [] => true
  | t :: _ => t == .mark ")"

/-- Operators that stand in one chain, read from the left to the right. -/
inductive Level where
  | sum
  | product

def Level.operators : Level → List (String × (Expr → Expr → Expr))
  | sum => [("+", .add), ("-", .sub)]
  | product => [("*", .mul), ("/", .div), ("//", .floorDiv)]

def Level.operator? (l : Level) : List Token → Option ((Expr → Expr → Expr) × List Token)
  | .mark s :: ts => (l.operators.lookup s).map (·, ts)
  | _ => none

/-- What is to be read next, with what was read before it. -/
inductive Goal where
  | chain (l : Level)
  | rest (l : Level) (a : Expr)
  | factor
  | power (a : Expr)
  | atom
  | call (name : String) (args : List Expr)
  | comma (name : String) (args : List Expr)

def Level.operand : Level → Goal
  | sum => .chain product
  | product => .factor

/-- One step of reading, which leaves the parts to `read`. A comma may stand after the last argument. -/
def parse (read : Goal → List Token → Option (Expr × List Token)) : Goal → List Token → Option (Expr × List Token)
  | .chain l, ts => (read l.operand ts).bind fun (a, ts) => read (.rest l a) ts
  | .rest l a, ts =>
    match l.operator? ts with
    | some (op, ts) => (read l.operand ts).bind fun (b, ts) => read (.rest l (op a b)) ts
    | none => some (a, ts)
  | .factor, ts =>
    match after? "-" ts, after? "+" ts with
    | some ts, _ => (read .factor ts).map fun (a, ts) => (.negate a, ts)
    | none, some ts => read .factor ts
    | none, none => (read .atom ts).bind fun (a, ts) => read (.power a) ts
  | .power a, ts =>
    match after? "**" ts with
    | some ts => (read .factor ts).map fun (b, ts) => (.power a b, ts)
    | none => some (a, ts)
  | .atom, .whole n :: ts => some (.whole n, ts)
  | .atom, .decimal m e :: ts => some (.decimal m e, ts)
  | .atom, .name s :: ts =>
    match index? ts, after? "(" ts with
    | some (i, ts), _ => some (.entry s i, ts)
    | none, some ts => (read (.call s []) ts).bind fun (a, ts) => (after? ")" ts).map (a, ·)
    | none, none => some (.place s, ts)
  | .atom, .mark s :: ts =>
    if s = "(" then (read (.chain .sum) ts).bind fun (a, ts) => (after? ")" ts).map (a, ·) else none
  | .atom, [] => none
  | .call s args, ts =>
    if ends ts then some (.call s args, ts)
    else (read (.chain .sum) ts).bind fun (a, ts) => read (.comma s (args ++ [a])) ts
  | .comma s args, ts =>
    match after? "," ts with
    | some ts => read (.call s args) ts
    | none => some (.call s args, ts)

def read? : (fuel : Nat) → Goal → List Token → Option (Expr × List Token)
  | 0 => fun _ _ => none
  | fuel + 1 => parse (read? fuel)

def list? (ts : List Token) (left : List Token) : Option (List Expr) :=
  match read? (8 * (ts.length + 1)) (.call "" []) ts with
  | some (.call _ (e :: es), rest) => if rest = left then some (e :: es) else none
  | _ => none

def exprs? (cs : List Char) : Option (List Expr) := do
  let ts ← tokens cs.length cs
  (list? ts []).or ((after? "(" ts).bind fun ts => list? ts [.mark ")"])

end GridBayes.Code
