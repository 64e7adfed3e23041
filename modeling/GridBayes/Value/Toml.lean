import GridBayes.Decimal.Parse
import GridBayes.Value

/-! Reading configuration files: lines `key = value` under headings of tables. Keys may have several
parts, and no table or value may be defined twice. -/
namespace GridBayes.Toml

/-! ## Characters -/

def isGap (c : Char) : Bool :=
  c == ' ' || c == '\t'

def isControl (c : Char) : Bool :=
  (c.toNat < 32 && c != '\t') || c.toNat == 127

def isBare (c : Char) : Bool :=
  ('a' ≤ c && c ≤ 'z') || ('A' ≤ c && c ≤ 'Z') || ('0' ≤ c && c ≤ '9') || c == '-' || c == '_'

def skipGaps (cs : List Char) : List Char :=
  cs.dropWhile isGap

def skipComment? : List Char → Option (List Char)
  | '#' :: rest =>
    if (rest.takeWhile (· != '\n')).any isControl then none
    else some (rest.dropWhile (· != '\n'))
  | cs => some cs

def skipBetween? : (fuel : Nat) → List Char → Option (List Char)
  | 0, cs => some cs
  | fuel + 1, cs =>
    match cs.dropWhile fun c => isGap c || c == '\n' with
    | '#' :: rest => (skipComment? ('#' :: rest)).bind (skipBetween? fuel)
    | cs => some cs

/-! ## Texts -/

def hexDigit? (c : Char) : Option Nat :=
  if '0' ≤ c && c ≤ '9' then some (c.toNat - 48)
  else if 'a' ≤ c && c ≤ 'f' then some (c.toNat - 87)
  else if 'A' ≤ c && c ≤ 'F' then some (c.toNat - 55)
  else none

def hexChar? (count : Nat) (cs : List Char) : Option (Char × List Char) := do
  let digits ← (cs.take count).mapM hexDigit?
  if digits.length < count then none
  let n := digits.foldl (fun m d => m * 16 + d) 0
  if h : n.isValidChar then some (Char.ofNatAux n h, cs.drop count) else none

def escaped? : Char → Option Char
  | 'b' => some (Char.ofNat 8)
  | 't' => some '\t'
  | 'n' => some '\n'
  | 'f' => some (Char.ofNat 12)
  | 'r' => some '\r'
  | '"' => some '"'
  | '\\' => some '\\'
  | _ => none

def skipLineEnd? (cs : List Char) : Option (List Char) :=
  match skipGaps cs with
  | [] => some []
  | '\n' :: rest => some (rest.dropWhile fun c => isGap c || c == '\n')
  | _ => none

/-- A text between double quotes, three if `long`; the text so far is backwards. -/
def basic? (long : Bool) : (fuel : Nat) → (done : List Char) → List Char →
    Option (List Char × List Char)
  | 0, _, _ => none
  | fuel + 1, done, cs =>
    match cs with
    | [] => none
    | '"' :: rest =>
      if !long then some (done.reverse, rest)
      else
        match rest with
        | '"' :: '"' :: rest => some (done.reverse, rest)
        | _ => basic? long fuel ('"' :: done) rest
    | '\\' :: 'u' :: rest => (hexChar? 4 rest).bind fun (c, rest) => basic? long fuel (c :: done) rest
    | '\\' :: 'U' :: rest => (hexChar? 8 rest).bind fun (c, rest) => basic? long fuel (c :: done) rest
    | '\\' :: c :: rest =>
      if long && (isGap c || c == '\n') then
        (skipLineEnd? (c :: rest)).bind (basic? long fuel done)
      else (escaped? c).bind fun c => basic? long fuel (c :: done) rest
    | c :: rest =>
      if isControl c && !(long && c == '\n') then none else basic? long fuel (c :: done) rest

def literal? (long : Bool) : (done : List Char) → List Char → Option (List Char × List Char)
  | _, [] => none
  | done, '\'' :: '\'' :: '\'' :: rest =>
    if long then some (done.reverse, rest) else some (done.reverse, '\'' :: '\'' :: rest)
  | done, '\'' :: rest =>
    if long then literal? long ('\'' :: done) rest else some (done.reverse, rest)
  | done, c :: rest =>
    if isControl c && !(long && c == '\n') then none else literal? long (c :: done) rest

def dropLineEnd : List Char → List Char
  | '\n' :: rest => rest
  | cs => cs

def moreQuotes (q : Char) (text : List Char) (cs : List Char) : List Char × List Char :=
  let more := (cs.take 2).takeWhile (· == q)
  (text ++ more, cs.drop more.length)

def text? (cs : List Char) : Option (String × List Char) := do
  let (text, rest) ← match cs with
    | '"' :: '"' :: '"' :: rest =>
      (basic? true (rest.length + 1) [] (dropLineEnd rest)).map fun (t, r) => moreQuotes '"' t r
    | '"' :: rest => basic? false (rest.length + 1) [] rest
    | '\'' :: '\'' :: '\'' :: rest =>
      (literal? true [] (dropLineEnd rest)).map fun (t, r) => moreQuotes '\'' t r
    | '\'' :: rest => literal? false [] rest
    | _ => none
  return (String.ofList text, rest)

/-! ## Keys -/

def keyPart? (cs : List Char) : Option (String × List Char) :=
  match cs with
  | '"' :: rest => (basic? false (rest.length + 1) [] rest).map fun (t, r) => (String.ofList t, r)
  | '\'' :: rest => (literal? false [] rest).map fun (t, r) => (String.ofList t, r)
  | _ =>
    let bare := cs.takeWhile isBare
    if bare.isEmpty then none else some (String.ofList bare, cs.dropWhile isBare)

def key? : (fuel : Nat) → List Char → Option (List String × List Char)
  | 0, _ => none
  | fuel + 1, cs => do
    let (part, rest) ← keyPart? cs
    match skipGaps rest with
    | '.' :: rest =>
      let (parts, rest) ← key? fuel (skipGaps rest)
      return (part :: parts, rest)
    | rest => return ([part], rest)

/-! ## Numbers -/

def digitRun (ok : Char → Bool) : List Char → Nat
  | '_' :: c :: rest => if ok c then 2 + digitRun ok rest else 0
  | c :: rest => if ok c then 1 + digitRun ok rest else 0
  | [] => 0

def digits (ok : Char → Bool) (cs : List Char) : Nat :=
  match cs with
  | c :: _ => if ok c then digitRun ok cs else 0
  | [] => 0

def isDecimal (c : Char) : Bool :=
  '0' ≤ c && c ≤ '9'

def based? (base : Nat) (cs : List Char) : Option (Value × List Char) :=
  let ok (c : Char) : Bool := match hexDigit? c with
    | some d => d < base
    | none => false
  let n := digits ok cs
  if n == 0 then none
  else
    let value := ((cs.take n).filterMap hexDigit?).foldl (fun m d => m * base + d) 0
    some (.int value, cs.drop n)

def fractionLength (cs : List Char) : Nat :=
  let fraction := match cs with
    | '.' :: rest => if digits isDecimal rest == 0 then 0 else 1 + digits isDecimal rest
    | _ => 0
  let exponent := match cs.drop fraction with
    | e :: rest =>
      if e == 'e' || e == 'E' then
        let sign := match rest with
          | '+' :: _ | '-' :: _ => 1
          | _ => 0
        let n := digits isDecimal (rest.drop sign)
        if n == 0 then 0 else 1 + sign + n
      else 0
    | [] => 0
  fraction + exponent

def decimal? (cs : List Char) : Option (Value × List Char) :=
  let sign := match cs with
    | '+' :: _ | '-' :: _ => 1
    | _ => 0
  let whole := match cs.drop sign with
    | '0' :: _ => 1
    | rest => digits isDecimal rest
  if whole == 0 then none
  else
    let more := fractionLength (cs.drop (sign + whole))
    let text := String.ofList (cs.take (sign + whole + more))
    let rest := cs.drop (sign + whole + more)
    if more == 0 then (Decimal.int? text).map fun n => (.int n, rest)
    else (Decimal.float? text).map fun x => (.float x, rest)

def number? (cs : List Char) : Option (Value × List Char) :=
  let based := match cs with
    | '0' :: 'x' :: rest => based? 16 rest
    | '0' :: 'b' :: rest => based? 2 rest
    | '0' :: 'o' :: rest => based? 8 rest
    | _ => none
  match based with
  | some found => some found
  | none =>
    match decimal? cs with
    | some found => some found
    | none =>
      let sign := match cs with
        | '+' :: _ | '-' :: _ => 1
        | _ => 0
      let word := String.ofList ((cs.drop sign).take 3)
      if word == "inf" || word == "nan" then
        (Decimal.float? (String.ofList (cs.take (sign + 3)))).map fun x =>
          (.float x, cs.drop (sign + 3))
      else none

def moment? (cs : List Char) : Option (Option (Value × List Char)) :=
  match Moment.day? cs with
  | some (d, rest) =>
    let (m, rest) := Moment.withClock d rest
    some (if d.exists_ then some (.moment m, rest) else none)
  | none => (Moment.clock? cs).map fun (t, rest) => some (.moment (.clock t), rest)

/-! ## Tables -/

inductive Mark where
  | opened
  | frozen
deriving Repr, DecidableEq

abbrev Marks := List (List String × Mark)

def Marks.has (marks : Marks) (name : List String) (m : Mark) : Bool :=
  marks.any fun (n, k) => k == m && (n == name || (m == .frozen && n.isPrefixOf name))

/-- Changes the table at a path, made if missing; on the way a list may stand for its last item. -/
def inTable (lists : Bool) (change : List (String × Value) → Option (List (String × Value))) :
    List String → List (String × Value) → Option (List (String × Value))
  | [], entries => change entries
  | k :: path, entries =>
    match (entries.lookup k).getD (.table []) with
    | .table inner => (inTable lists change path inner).map fun t => setEntry entries k (.table t)
    | .list items =>
      match lists, items.getLast? with
      | true, some (.table inner) =>
        (inTable lists change path inner).map fun t =>
          setEntry entries k (.list (items.dropLast ++ [.table t]))
      | _, _ => none
    | _ => none

def putNew (k : String) (v : Value) (entries : List (String × Value)) :
    Option (List (String × Value)) :=
  if (entries.lookup k).isSome then none else some (entries ++ [(k, v)])

def putTable (k : String) (entries : List (String × Value)) : Option (List (String × Value)) :=
  match entries.lookup k with
  | none => some (entries ++ [(k, .list [.table []])])
  | some (.list items) => some (setEntry entries k (.list (items ++ [.table []])))
  | some _ => none

def isCompound : Value → Bool
  | .list _ | .table _ => true
  | _ => false

/-! ## Values -/

mutual

def value? : (fuel : Nat) → List Char → Option (Value × List Char)
  | 0, _ => none
  | fuel + 1, cs =>
    match cs with
    | '"' :: _ | '\'' :: _ => (text? cs).map fun (t, r) => (.str t, r)
    | '[' :: rest =>
      (skipBetween? cs.length rest).bind fun rest =>
        match rest with
        | ']' :: rest => some (.list [], rest)
        | rest => items? fuel [] rest
    | '\x7b' :: rest =>
      match skipGaps rest with
      | '\x7d' :: rest => some (.table [], rest)
      | rest => inline? fuel [] [] rest
    | 't' :: 'r' :: 'u' :: 'e' :: rest => some (.bool true, rest)
    | 'f' :: 'a' :: 'l' :: 's' :: 'e' :: rest => some (.bool false, rest)
    | _ => (moment? cs).getD (number? cs)

def items? : (fuel : Nat) → (done : List Value) → List Char → Option (Value × List Char)
  | 0, _, _ => none
  | fuel + 1, done, cs =>
    match value? fuel cs with
    | none => none
    | some (v, rest) =>
      match skipBetween? cs.length rest with
      | some (']' :: rest) => some (.list (done ++ [v]), rest)
      | some (',' :: rest) =>
        match skipBetween? cs.length rest with
        | some (']' :: rest) => some (.list (done ++ [v]), rest)
        | some rest => items? fuel (done ++ [v]) rest
        | none => none
      | _ => none

def inline? : (fuel : Nat) → (done : List (String × Value)) → Marks → List Char →
    Option (Value × List Char)
  | 0, _, _, _ => none
  | fuel + 1, done, marks, cs =>
    match key? (cs.length + 1) cs with
    | some (key, '=' :: rest) =>
      match value? fuel (skipGaps rest) with
      | none => none
      | some (v, rest) =>
        if marks.has key .frozen then none
        else
          match inTable false (putNew (key.getLastD "") v) key.dropLast done with
          | none => none
          | some done =>
            match skipGaps rest with
            | '\x7d' :: rest => some (.table done, rest)
            | ',' :: rest =>
              inline? fuel done (if isCompound v then (key, .frozen) :: marks else marks) (skipGaps rest)
            | _ => none
    | _ => none

end

/-! ## Documents -/

structure Document where
  entries : List (String × Value) := []
  marks : Marks := []
  pending : Marks := []
  heading : List String := []

namespace Document

def putLine (d : Document) (key : List String) (v : Value) : Option Document := do
  let path := d.heading ++ key.dropLast
  let nested := (List.range (key.length - 1)).map fun i => d.heading ++ key.take (i + 1)
  if nested.any fun n => d.marks.has n .opened then none
  if d.marks.has path .frozen then none
  let entries ← inTable true (putNew (key.getLastD "") v) path d.entries
  return { d with
    entries := entries
    marks := if isCompound v then (d.heading ++ key, .frozen) :: d.marks else d.marks
    pending := nested.map (fun n => (n, .opened)) ++ d.pending }

def openTable (d : Document) (key : List String) : Option Document := do
  let marks := d.pending ++ d.marks
  if marks.has key .opened || marks.has key .frozen then none
  let entries ← inTable true some key d.entries
  return {
    entries := entries
    marks := (key, .opened) :: marks
    pending := []
    heading := key }

def openItem (d : Document) (key : List String) : Option Document := do
  let marks := d.pending ++ d.marks
  if marks.has key .frozen then none
  let entries ← inTable true (putTable (key.getLastD "")) key.dropLast d.entries
  return {
    entries := entries
    marks := (key, .opened) :: marks.filter fun (n, _) => !key.isPrefixOf n
    pending := []
    heading := key }

def statement? (d : Document) (cs : List Char) : Option (Document × List Char) :=
  match cs with
  | '[' :: '[' :: rest =>
    match key? (cs.length + 1) (skipGaps rest) with
    | some (key, ']' :: ']' :: rest) => (d.openItem key).map fun d => (d, skipGaps rest)
    | _ => none
  | '[' :: rest =>
    match key? (cs.length + 1) (skipGaps rest) with
    | some (key, ']' :: rest) => (d.openTable key).map fun d => (d, skipGaps rest)
    | _ => none
  | '#' :: _ => some (d, cs)
  | _ =>
    match key? (cs.length + 1) cs with
    | some (key, '=' :: rest) =>
      match value? (cs.length + 1) (skipGaps rest) with
      | some (v, rest) => (d.putLine key v).map fun d => (d, skipGaps rest)
      | none => none
    | _ => none

def read? : (fuel : Nat) → Document → List Char → Option Document
  | 0, _, _ => none
  | fuel + 1, d, cs =>
    match skipGaps cs with
    | [] => some d
    | '\n' :: rest => read? fuel d rest
    | cs =>
      match d.statement? cs with
      | none => none
      | some (d, rest) =>
        match skipComment? rest with
        | some [] => some d
        | some ('\n' :: rest) => read? fuel d rest
        | _ => none

end Document

def parse? (source : String) : Option (List (String × Value)) :=
  let cs := (Text.replaceWord "\r\n" "\n" source).toList
  (Document.read? (cs.length + 1) {} cs).map (·.entries)

end GridBayes.Toml
