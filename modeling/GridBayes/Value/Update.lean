import GridBayes.Decimal.Parse
import GridBayes.Fault
import GridBayes.Value

/-! Values taken apart, and entries put over those of a table. The entries come as a table or as
pairs, and a pair is whatever has two parts. -/
namespace GridBayes.Value

def parts? : Value → Option (List Value)
  | list items => some items
  | table entries => some (entries.map fun e => .str e.1)
  | str s => some (s.toList.map fun c => .str (String.singleton c))
  | _ => none

def members (v : Value) : Except Fault (List Value) :=
  match v.parts? with
  | some parts => .ok parts
  | none => .error .notANumber

def size (v : Value) : Except Fault Nat :=
  v.members.map List.length

def toReal : Value → Except Fault Float
  | float x => .ok x
  | bool b => .ok (if b then 1.0 else 0.0)
  | int n =>
    match Decimal.floatOfInt? n with
    | some x => .ok x
    | none => .error .numberTooLarge
  | str s =>
    match Decimal.float? s with
    | some x => .ok x
    | none => .error .badNumberText
  | _ => .error .notANumber

def typeName : Value → String
  | null => "NoneType"
  | bool _ => "bool"
  | int _ => "int"
  | float _ => "float"
  | complex .. => "complex"
  | str _ => "str"
  | moment m => m.typeName
  | list _ => "list"
  | table _ => "dict"

def needText (v : Value) (otherwise : Fault) : Except Fault String :=
  match v with
  | str s => .ok s
  | _ => .error otherwise

def isKey : Value → Bool
  | list _ | table _ => false
  | _ => true

def keyText : Value → String
  | null => "null"
  | bool b => if b then "true" else "false"
  | v => v.text

def sameKey (a b : Value) : Bool :=
  match a, b with
  | .str s, .str t => s == t
  | .str _, _ | _, .str _ => false
  | a, b =>
    match a.number?, b.number? with
    | some x, some y => x == y
    | _, _ => a == b

def setKey (entries : List (Value × Value)) (key x : Value) : List (Value × Value) :=
  if entries.any fun e => sameKey key e.1 then
    entries.map fun e => if sameKey key e.1 then (e.1, x) else e
  else entries ++ [(key, x)]

def entryOfPair (v : Value) : Except Fault (Value × Value) :=
  match v.parts? with
  | none => .error .badArgument
  | some [k, x] => if k.isKey then .ok (k, x) else .error .badArgument
  | some _ => .error .badUnpacking

def pairs (v : Value) : Except Fault (List (Value × Value)) :=
  match v with
  | table entries => .ok (entries.map fun (k, x) => (.str k, x))
  | v =>
    match v.parts? with
    | some items => items.mapM entryOfPair
    | none => .error .badArgument

def updatedKeys (entries : List (Value × Value)) (v : Value) :
    Except Fault (List (Value × Value)) := do
  return (← v.pairs).foldl (fun es (k, x) => setKey es k x) entries

def updated (entries : List (String × Value)) (v : Value) :
    Except Fault (List (String × Value)) := do
  let all ← updatedKeys (entries.map fun (k, x) => (.str k, x)) v
  return all.map fun (k, x) => (k.keyText, x)

end GridBayes.Value
