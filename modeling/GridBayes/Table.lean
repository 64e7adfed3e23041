import GridBayes.Decimal.Parse
import GridBayes.Fault
import GridBayes.Value

/-! Tables of values separated by commas. The first line names the columns; what follows a hash sign
is a comment, but a hash sign in the first line only marks it. Each column has the narrowest type
that all its cells fit: truth values, whole numbers, numbers, complex numbers, numbers in hexadecimal
digits, or texts. -/
namespace GridBayes

/-- A table with a name and values for each column. -/
structure Table where
  names : List String
  rows : List (List Value)

namespace Table

/-! ## Lines -/

def linesOf (text : String) : List String :=
  Text.splitAt '\n' (Text.withNewlines text)

def cells (line : String) : List String :=
  let body := String.ofList (line.toList.takeWhile (· != '#'))
  let body := Text.stripOf [' ', '\r', '\n'] body
  if body.isEmpty then [] else (Text.splitAt ',' body).map Text.strip

/-- The first line that holds names, and the lines after it. Names may stand in a comment. -/
def heading : List String → List String × List String
  | [] => ([], [])
  | line :: rest =>
    let line := match Text.splitAt '#' line with
      | _ :: (marked :: more) => String.join (marked :: more)
      | _ => line
    let found := cells line
    if found.isEmpty then heading rest else (found, rest)

/-! ## Names -/

def dropped : List Char :=
  "~!@#$%^&*()-=+~\\|]\x7d[\x7b';: /?.>,<\"".toList

def freeName (names : List String) : (fuel n : Nat) → Nat
  | 0, n => n
  | fuel + 1, n => if names.contains ("f" ++ toString n) then freeName names fuel (n + 1) else n

/-- One more valid name; `seen` holds the names so far without numbers, `empty` counts those made
up. -/
def addName (names : List String) : List String × List String × Nat → String →
    List String × List String × Nat
  | (out, seen, empty), item =>
    let item := Text.replaceChar ' ' '_' (Text.strip item)
    let item := String.ofList (item.toList.filter fun c => !dropped.contains c)
    let (item, empty) :=
      if item.isEmpty then
        let n := freeName names (names.length + 1) empty
        ("f" ++ toString n, n + 1)
      else if ["return", "file", "print"].contains item then (item ++ "_", empty)
      else (item, empty)
    let count := seen.count item
    (out ++ [if 0 < count then item ++ "_" ++ toString count else item], seen ++ [item], empty)

def validNames (names : List String) : List String :=
  (names.foldl (addName names) ([], [], 0)).1

/-! ## Columns -/

def capital (c : Char) : Char :=
  if c == 'ſ' then 'S' else c.toUpper

def bool? (s : String) : Option Value :=
  match s.map capital with
  | "TRUE" => some (.bool true)
  | "FALSE" => some (.bool false)
  | _ => none

def whole? (s : String) : Option Value := do
  let n ← Decimal.int? s
  if -9223372036854775808 ≤ n && n ≤ 9223372036854775807 then some (.int n) else none

def number? (s : String) : Option Value :=
  (Decimal.float? s).map Value.float

def complex? (s : String) : Option Value :=
  (Decimal.complex? s).map fun (re, im) => Value.complex re im

def remarked? (s : String) : Option Float :=
  let (_, body) := Decimal.takeSign s.toList
  match body.map Char.toLower with
  | 'n' :: 'a' :: 'n' :: '(' :: rest =>
    let rest := rest.dropWhile fun c => c.isAlphanum || c == '_'
    if rest.isEmpty || rest == [')'] then some (0.0 / 0.0) else none
  | _ => none

def extended? (s : String) : Option Value :=
  ((Decimal.float? s).orElse fun _ => (Decimal.hexadecimal? s).orElse fun _ =>
    remarked? s).map Value.float

def readBy (read : String → Option Value) (blank : Value) (column : List String) :
    Option (List Value) :=
  column.mapM fun s =>
    match read s with
    | some v => some v
    | none => if s.isEmpty then some blank else none

/-- A column has the first kind that all its cells can be read as. -/
def columnValues (column : List String) : List Value :=
  ((readBy bool? (.bool false) column).orElse fun _ =>
    (readBy whole? (.int (-1)) column).orElse fun _ =>
    (readBy number? (.float (0.0 / 0.0)) column).orElse fun _ =>
    (readBy complex? (.complex (0.0 / 0.0) 0.0) column).orElse fun _ =>
    readBy extended? (.float (0.0 / 0.0)) column).getD (column.map Value.str)

def ofText (text : String) : Except Fault Table := do
  let (first, rest) := heading (linesOf text)
  let first ← match first with
    | [] => throw .partOutOfRange
    | name :: more => pure (if name.isEmpty then more else first)
  let rows := (rest.map cells).filter fun r => !r.isEmpty
  if rows.any fun r => r.length != first.length then throw .badUnpacking
  let columns := (List.range first.length).map fun i => columnValues (rows.map fun r => r.getD i "")
  let names := validNames first
  if (Text.dedup names).length != names.length then throw .badUnpacking
  return ⟨names, (List.range rows.length).map fun i => columns.map fun c => c.getD i .null⟩

def entries (t : Table) (row : List Value) : List (String × Value) :=
  t.names.zip row

end Table

end GridBayes
