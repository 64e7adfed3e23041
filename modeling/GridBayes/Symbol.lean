import GridBayes.Decimal.Parse
import GridBayes.Fault
import GridBayes.Text.Scan
import GridBayes.Value

/-! Symbols: the variables of a model, and numbers that stand where a variable may. A variable has
one of three kinds, written as a letter before the name: `p.mass` is a parameter, `c.mass` a
constant and `v.mass` a local variable. -/
namespace GridBayes

/-- Parameters, constants and local variables. -/
inductive VarKind where
  | param
  | const
  | localVar
deriving Repr, DecidableEq

namespace VarKind

def letter : VarKind → Char
  | param => 'p'
  | const => 'c'
  | localVar => 'v'

def ofLetter? : Char → Option VarKind
  | 'p' => some param
  | 'c' => some const
  | 'v' => some localVar
  | _ => none

@[simp] theorem ofLetter?_letter (k : VarKind) : ofLetter? k.letter = some k := by
  cases k <;> rfl

end VarKind

/-- A variable, or the text of a number. -/
inductive Symbol where
  | var (kind : VarKind) (name : String)
  | literal (text : String)
deriving Repr, DecidableEq

namespace Symbol

def text : Symbol → String
  | var kind name => String.ofList [kind.letter, '.'] ++ name
  | literal t => t

def label (s : Symbol) : String :=
  Text.takeFirst 1 s.text

def name (s : Symbol) : String :=
  Text.dropFirst 2 s.text

/-- The name of a variable in code. -/
def ident (s : Symbol) : String :=
  s.label ++ "__" ++ s.name

def isLiteral : Symbol → Bool
  | var .. => false
  | literal _ => true

/-- A symbol as it stands in code that is not filled in yet. -/
def bracketed (s : Symbol) : String :=
  if s.isLiteral then s.text else "\x7b" ++ s.ident ++ "\x7d"

def isKind (k : VarKind) : Symbol → Bool
  | var l _ => k == l
  | literal _ => false

def ofFloat (x : Float) : Symbol :=
  literal (Decimal.shortText x)

/-! ## Variables in running text -/

/-- A variable is a letter of its kind, a dot and a name. -/
def variableAt? : Text.Reader (VarKind × List Char)
  | k :: '.' :: rest =>
    match VarKind.ofLetter? k, Text.wordAt? Text.isNameStart rest with
    | some kind, some (name, rest) => some ((kind, name), rest)
    | _, _ => none
  | _ => none

def symbolAt? : Text.Reader Symbol := fun cs =>
  (variableAt? cs).map fun ((kind, name), rest) => (var kind (String.ofList name), rest)

def variableRule : Text.Rule Symbol :=
  .atWord symbolAt?

/-! ## Reading one symbol -/

def ofVariable? (cs : List Char) : Option Symbol :=
  match symbolAt? cs with
  | some (s, []) => some s
  | _ => none

/-- A text is a number, or a variable with hyphens read as underscores. -/
def parse (source : String) : Except Fault Symbol :=
  match Decimal.float? source with
  | some x => .ok (ofFloat x)
  | none =>
    let body := Text.replaceChar '-' '_' (Text.stripOf ['\x7b', ' ', '\x7d'] source)
    match ofVariable? body.toList with
    | some s => .ok s
    | none => .error (.notASymbol body)

/-- Numbers stand for their shortest texts. -/
def ofValue : Value → Except Fault Symbol
  | .str s => parse s
  | .bool b => .ok (ofFloat (if b then 1.0 else 0.0))
  | .float x => .ok (ofFloat x)
  | .int n =>
    match Decimal.floatOfInt? n with
    | some x => .ok (ofFloat x)
    | none => .error .numberTooLarge
  | .null | .complex .. | .moment _ | .list _ | .table _ => .error .notANumber

end Symbol

/-! ## Sets of symbols -/

/-- Symbols in the order of their texts, each once. -/
abbrev SymbolSet := List Symbol

namespace SymbolSet

def insert (s : Symbol) : SymbolSet → SymbolSet
  | [] => [s]
  | t :: rest =>
    if s = t then t :: rest
    else if s.text < t.text then s :: t :: rest
    else t :: insert s rest

def ofList (xs : List Symbol) : SymbolSet :=
  xs.foldr insert []

def union (a b : SymbolSet) : SymbolSet :=
  a.foldr insert b

def diff (a b : SymbolSet) : SymbolSet :=
  a.filter fun s => !b.contains s

def texts (a : SymbolSet) : List String :=
  a.map Symbol.text

end SymbolSet

end GridBayes
