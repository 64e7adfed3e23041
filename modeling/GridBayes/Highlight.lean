import GridBayes.Symbol

/-! Highlighting for terminals: variables and numbers are put between colour codes. The passes run
one after another over the whole text, and with empty codes nothing changes. -/
namespace GridBayes

structure Palette where
  reset : String
  bold : String
  underline : String
  blue : String
  yellow : String
  red : String
  green : String
deriving Repr, DecidableEq

namespace Palette

def code (n : Nat) : String :=
  String.ofList (Char.ofNat 27 :: '[' :: Nat.toDigits 10 n ++ ['m'])

def terminal : Palette :=
  ⟨code 0, code 1, code 4, code 34, code 33, code 31, code 32⟩

def plain : Palette :=
  ⟨"", "", "", "", "", "", ""⟩

def choose (fancy : Bool) : Palette :=
  if fancy then terminal else plain

end Palette

namespace Highlight

/-- A word after a letter and a mark. -/
def nameRule (k mark : Char) (first : Char → Bool) : Text.Rule (List Char) :=
  .atWord fun
    | a :: b :: rest =>
      if a == k && b == mark then
        (Text.wordAt? first rest).map fun (word, rest) => (a :: b :: word, rest)
      else none
    | _ => none

def wholeAt? : Text.Reader (List Char) := fun cs =>
  if (cs.takeWhile Char.isDigit).isEmpty then none
  else some (cs.takeWhile Char.isDigit, cs.dropWhile Char.isDigit)

def digitsAt? : Text.Reader (List Char) := fun cs =>
  match cs.dropWhile Char.isDigit with
  | '.' :: rest =>
    match wholeAt? rest with
    | some (fraction, rest) => some (cs.takeWhile Char.isDigit ++ '.' :: fraction, rest)
    | none => wholeAt? cs
  | _ => wholeAt? cs

def numberRule : Text.Rule (List Char) := fun before after =>
  let inCode :=
    match before with
    | a :: b :: _ => a == '[' && b == Char.ofNat 27
    | _ => false
  if inCode || Text.afterWord before || before.head? == some '\\' then none
  else
    match after with
    | '+' :: rest => (digitsAt? rest).map fun (word, rest) => ('+' :: word, rest)
    | '-' :: rest => (digitsAt? rest).map fun (word, rest) => ('-' :: word, rest)
    | _ => digitsAt? after

def paint (rule : Text.Rule (List Char)) (on off : String) (cs : List Char) : List Char :=
  Text.substitute rule (fun word => on.toList ++ word ++ off.toList) cs

def apply (p : Palette) (source : String) : String :=
  let cs := source.toList
  let name k := nameRule k '.' Text.isNameStart
  let cs := paint (name 'g') (p.bold ++ p.red) p.reset cs
  let cs := paint (name 'p') (p.bold ++ p.yellow) p.reset cs
  let cs := paint (name 'c') (p.bold ++ p.blue) p.reset cs
  let cs := paint (name 'v') (p.bold ++ p.green) p.reset cs
  String.ofList (paint numberRule p.blue p.reset cs)

/-! ## Generated code -/

def subscript : List Char → List Char
  | '[' :: rest =>
    let digits := rest.takeWhile fun c => (Text.digitValue? c).isSome
    match rest.drop digits.length with
    | ']' :: _ => if digits.isEmpty then [] else '[' :: digits ++ [']']
    | _ => []
  | _ => []

def paramsRule : Text.Rule (List Char) :=
  .atWord fun after => (Text.afterStart? "params".toList after).map fun rest =>
    ("params".toList ++ subscript rest, rest.drop (subscript rest).length)

def wordsRule (words : List String) : Text.Rule (List Char) :=
  .atWord fun after => words.findSome? fun w => (Text.afterStart? w.toList after).map fun rest => (w.toList, rest)

def code (p : Palette) (source : String) : String :=
  let cs := source.toList
  let name k := nameRule k '_' fun c => 'A' ≤ c && c ≤ 'z'
  let cs := paint (name 'v') (p.bold ++ p.green) p.reset cs
  let cs := paint (name 'c') (p.bold ++ p.blue) p.reset cs
  let cs := paint paramsRule (p.bold ++ p.yellow) p.reset cs
  String.ofList (paint (wordsRule ["logL", "logP", "self"]) p.bold p.reset cs)

end Highlight

end GridBayes
