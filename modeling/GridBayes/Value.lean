import GridBayes.Decimal.Format
import GridBayes.Text.Quoted
import GridBayes.Value.Moment

/-! The values of a model description: what a description file holds before any of it is given a
meaning. Whole numbers and doubles are kept apart because their texts differ. -/
namespace GridBayes

inductive Value where
  | null
  | bool (b : Bool)
  | int (n : Int)
  | float (x : Float)
  | complex (re im : Float)
  | str (s : String)
  | moment (m : Moment)
  | list (items : List Value)
  | table (entries : List (String × Value))
deriving Inhabited

namespace Value

/-! ## Text -/

def partText (x : Float) : String :=
  let t := Decimal.shortText x
  if Text.endsWith ".0" t then Text.takeFirst (t.length - 2) t else t

def complexText (re im : Float) : String :=
  if re.toBits == 0 then partText im ++ "j"
  else
    let rest := partText im
    "(" ++ partText re ++ (if Text.startsWith "-" rest then rest else "+" ++ rest) ++ "j)"

mutual

def display : Value → String
  | null => "None"
  | bool true => "True"
  | bool false => "False"
  | int n => toString n
  | float x => Decimal.shortText x
  | complex re im => complexText re im
  | str s => Text.quoted s
  | moment m => m.display
  | list items => "[" ++ Text.join ", " (displayItems items) ++ "]"
  | table entries => "\x7b" ++ Text.join ", " (displayEntries entries) ++ "\x7d"

def displayItems : List Value → List String
  | [] => []
  | v :: rest => v.display :: displayItems rest

def displayEntries : List (String × Value) → List String
  | [] => []
  | (k, v) :: rest => (Text.quoted k ++ ": " ++ v.display) :: displayEntries rest

end

def text : Value → String
  | str s => s
  | moment m => m.text
  | v => v.display

/-! ## Equality -/

mutual

def same : Value → Value → Bool
  | null, null => true
  | bool a, bool b => a == b
  | int a, int b => a == b
  | float a, float b => a.toBits == b.toBits
  | complex a b, complex c d => a.toBits == c.toBits && b.toBits == d.toBits
  | str a, str b => a == b
  | moment a, moment b => a == b
  | list a, list b => sameItems a b
  | table a, table b => sameEntries a b
  | _, _ => false

def sameItems : List Value → List Value → Bool
  | [], [] => true
  | a :: as, b :: bs => a.same b && sameItems as bs
  | _, _ => false

def sameEntries : List (String × Value) → List (String × Value) → Bool
  | [], [] => true
  | (k, a) :: as, (l, b) :: bs => k == l && a.same b && sameEntries as bs
  | _, _ => false

end

instance : BEq Value := ⟨same⟩

/-! ## Reading parts -/

def get? (v : Value) (key : String) : Option Value :=
  match v with
  | table entries => entries.lookup key
  | _ => none

def isOn : Value → Bool
  | null => false
  | bool b => b
  | int n => n != 0
  | float x => x != 0.0
  | complex re im => re != 0.0 || im != 0.0
  | str s => s != ""
  | moment _ => true
  | list items => !items.isEmpty
  | table entries => !entries.isEmpty

def items : Value → List Value
  | list xs => xs
  | _ => []

def entries : Value → List (String × Value)
  | table es => es
  | _ => []

def str? : Value → Option String
  | str s => some s
  | _ => none

/-- The number of a value. A truth value counts as one or zero, and three texts stand for doubles without literals.
-/
def number? : Value → Option Float
  | bool b => some (if b then 1.0 else 0.0)
  | int n => some (if n < 0 then -(Decimal.Number.toFloat ⟨n.natAbs, 0⟩)
      else Decimal.Number.toFloat ⟨n.natAbs, 0⟩)
  | float x => some x
  | str "nan" => some (0.0 / 0.0)
  | str "inf" => some (1.0 / 0.0)
  | str "-inf" => some (-1.0 / 0.0)
  | _ => none

end Value

def setEntry {α : Type} (entries : List (String × α)) (key : String) (value : α) :
    List (String × α) :=
  if entries.any (·.1 == key) then
    entries.map fun e => if e.1 == key then (key, value) else e
  else entries ++ [(key, value)]

end GridBayes
