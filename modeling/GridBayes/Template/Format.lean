import GridBayes.Fault

/-! Filling templates. A field stands between braces, doubled braces are braces, and a field may
ask for a character of its value, for a quoted form, and for padding. -/
namespace GridBayes.Template

/-- Values by name, where a numbered field is past the end of no values, or by name only, where it is an error. -/
inductive Naming where
  | open
  | strict
deriving Repr, DecidableEq

structure Fields where
  naming : Naming
  values : List (String × String)

/-! ## Padding -/

structure Padding where
  fill : Char := ' '
  align : Char := '<'
  width : Nat := 0
  limit : Option Nat := none

def isAlign (c : Char) : Bool :=
  c == '<' || c == '>' || c == '^' || c == '='

def leadingNat (cs : List Char) : Option Nat × List Char :=
  let digits := cs.takeWhile fun c => (Text.digitValue? c).isSome
  if digits.isEmpty then (none, cs)
  else
    (some (digits.foldl (fun n c => 10 * n + (Text.digitValue? c).getD 0) 0), cs.drop digits.length)

def largestNumber : Nat := Nat.pow 2 63 - 1

/-- The padding of a specification; signs, marks and types other than text are refused. -/
def padding? (spec : List Char) : Option Padding :=
  let (align, fill, rest) :=
    match spec with
    | f :: a :: rest =>
      if isAlign a then (some a, some f, rest)
      else if isAlign f then (some f, none, a :: rest)
      else (none, none, spec)
    | [a] => if isAlign a then (some a, none, []) else (none, none, spec)
    | [] => (none, none, [])
  let (fill, rest) :=
    match fill, rest with
    | none, '0' :: more => (some '0', more)
    | f, r => (f, r)
  let (width, rest) := leadingNat rest
  let (limit, rest) :=
    match rest with
    | '.' :: more =>
      match leadingNat more with
      | (some n, more) => (some (some n), more)
      | (none, more) => (none, more)
    | _ => (some none, rest)
  match limit with
  | none => none
  | some limit =>
    if align == some '=' || largestNumber < width.getD 0 || largestNumber < limit.getD 0 then none
    else if rest == [] || rest == ['s'] then
      some ⟨fill.getD ' ', align.getD '<', width.getD 0, limit⟩
    else none

def Padding.apply (p : Padding) (cs : List Char) : List Char :=
  let cs := match p.limit with
    | some n => cs.take n
    | none => cs
  let gap := p.width - cs.length
  let left := if p.align == '>' then gap else if p.align == '^' then gap / 2 else 0
  List.replicate left p.fill ++ cs ++ List.replicate (gap - left) p.fill

/-! ## Fields -/

inductive Subject where
  | text (cs : List Char)
  | kind (name : String)
  | kinds (names : List String)
deriving Repr, DecidableEq

namespace Subject

def classText (name : String) : String :=
  "<class '" ++ name ++ "'>"

def shown : Subject → List Char
  | text cs => cs
  | kind name => (classText name).toList
  | kinds [name] => ("(" ++ classText name ++ ",)").toList
  | kinds names => ("(" ++ Text.join ", " (names.map classText) ++ ")").toList

def quoted : Subject → List Char
  | text cs => (Text.quoted (String.ofList cs)).toList
  | v => v.shown

def ancestry (name : String) : List String :=
  if name == "object" then [name] else [name, "object"]

def named (name : String) : Subject → Except Fault Subject
  | text _ => if name == "__class__" then .ok (.kind "str") else .error .missingPart
  | kinds _ => if name == "__class__" then .ok (.kind "tuple") else .error .missingPart
  | kind c =>
    match name with
    | "__class__" => .ok (.kind "type")
    | "__name__" | "__qualname__" => .ok (text c.toList)
    | "__module__" => .ok (text "builtins".toList)
    | "__base__" =>
      .ok (((ancestry c)[1]?.map Subject.kind).getD (text "None".toList))
    | "__bases__" => .ok (if c == "object" then text "()".toList else kinds ["object"])
    | "__mro__" => .ok (kinds (ancestry c))
    | _ => .error .missingPart

def position (n : Nat) : Subject → Except Fault Subject
  | text cs =>
    match cs[n]? with
    | some c => .ok (text [c])
    | none => .error .partOutOfRange
  | kinds names =>
    match names[n]? with
    | some c => .ok (.kind c)
    | none => .error .partOutOfRange
  | kind _ => .error .partByName

def written (spec : List Char) : Subject → Except Fault (List Char)
  | text cs =>
    match padding? spec with
    | some p => .ok (p.apply cs)
    | none => .error .badTemplate
  | v => if spec.isEmpty then .ok v.shown else .error .badArgument

end Subject

def wholeNat (cs : List Char) : Except Fault (Option Nat) :=
  match leadingNat cs with
  | (some n, rest) =>
    if largestNumber < n then .error .badTemplate
    else .ok (if rest.isEmpty then some n else none)
  | (none, _) => .ok none

/-- Follows the parts of a field after its name: a point and a name, or brackets. -/
def follow : (fuel : Nat) → Subject → List Char → Except Fault Subject
  | _, value, [] => .ok value
  | 0, _, _ :: _ => .error .badTemplate
  | fuel + 1, value, '.' :: rest =>
    let name := rest.takeWhile fun c => c != '.' && c != '['
    if name.isEmpty then .error .badTemplate
    else do follow fuel (← value.named (String.ofList name)) (rest.drop name.length)
  | fuel + 1, value, '[' :: rest =>
    let key := rest.takeWhile (· != ']')
    match rest.drop key.length with
    | ']' :: rest => do
      match ← wholeNat key with
      | some n => follow fuel (← value.position n) rest
      | none => throw (if key.isEmpty then .badTemplate else .partByName)
    | _ => .error .badTemplate
  | _ + 1, _, _ :: _ => .error .badTemplate

def fieldValue (fields : Fields) (name : List Char) : Except Fault Subject := do
  let first := name.takeWhile fun c => c != '.' && c != '['
  let rest := name.drop first.length
  let number ← wholeNat first
  if first.isEmpty || number.isSome then
    throw (match fields.naming with
      | .open => .numberedField
      | .strict => .badTemplate)
  match fields.values.lookup (String.ofList first) with
  | none => throw .missingField
  | some value => follow (rest.length + 1) (.text value.toList) rest

def asciiChar (c : Char) : List Char :=
  if c.toNat < 128 then [c]
  else if c.toNat < 256 then '\\' :: 'x' :: Text.hexDigits 2 c.toNat
  else if c.toNat < 65536 then '\\' :: 'u' :: Text.hexDigits 4 c.toNat
  else '\\' :: 'U' :: Text.hexDigits 8 c.toNat

def convert (mark : Option Char) (value : Subject) : Except Fault Subject :=
  match mark with
  | none => .ok value
  | some 's' => .ok (.text value.shown)
  | some 'r' => .ok (.text value.quoted)
  | some 'a' => .ok (.text (value.quoted.flatMap asciiChar))
  | some _ => .error .badTemplate

structure Field where
  name : List Char
  conversion : Option Char
  spec : List Char

inductive Item where
  | char (c : Char)
  | field (f : Field)
  | broken

/-- Where in a template a scan is. What was read of a part of a field is kept in reverse order. -/
inductive Place where
  | text
  | opened
  | closing
  | name (inBracket : Bool) (done : List Char)
  | mark (name : List Char)
  | marked (name : List Char) (mark : Char)
  | spec (name : List Char) (mark : Option Char) (depth : Nat) (done : List Char)
  | nowhere

namespace Place

def nameStep (inBracket : Bool) (done : List Char) (c : Char) : List Item × Place :=
  if inBracket then ([], name (c != ']') (c :: done))
  else if c == '\x7b' then ([], nowhere)
  else if c == '\x7d' then ([.field ⟨done.reverse, none, []⟩], text)
  else if c == ':' then ([], spec done.reverse none 0 [])
  else if c == '!' then ([], mark done.reverse)
  else ([], name (c == '[') (c :: done))

def step : Place → Char → List Item × Place
  | text, c => if c == '\x7b' then ([], opened) else if c == '\x7d' then ([], closing) else ([.char c], text)
  | opened, c => if c == '\x7b' then ([.char c], text) else nameStep false [] c
  | closing, c => if c == '\x7d' then ([.char c], text) else ([], nowhere)
  | name inBracket done, c => nameStep inBracket done c
  | mark n, c => ([], marked n c)
  | marked n m, c =>
    if c == '\x7d' then ([.field ⟨n, some m, []⟩], text)
    else if c == ':' then ([], spec n (some m) 0 [])
    else ([], nowhere)
  | spec n m depth done, c =>
    if c == '\x7b' then ([], spec n m (depth + 1) (c :: done))
    else if c == '\x7d' then
      match depth with
      | 0 => ([.field ⟨n, m, done.reverse⟩], text)
      | depth + 1 => ([], spec n m depth (c :: done))
    else ([], spec n m depth (c :: done))
  | nowhere, _ => ([], nowhere)

/-- The items of a template; one that does not end in the text is broken at its end. -/
def scan : Place → List Char → List Item
  | text, [] => []
  | _, [] => [.broken]
  | p, c :: cs => (p.step c).1 ++ scan (p.step c).2 cs

end Place

/-! ## Templates -/

def Item.filled (fields : Fields) (inner : List Char → Except Fault (List Char)) : Item → Except Fault (List Char)
  | char c => .ok [c]
  | broken => .error .badTemplate
  | field f => do
    let value ← fieldValue fields f.name
    let value ← convert f.conversion value
    value.written (← if f.spec.contains '\x7b' then inner f.spec else .ok f.spec)

def fillItems (filled : Item → Except Fault (List Char)) : List Item → Except Fault (List Char)
  | [] => .ok []
  | i :: items => do
    let first ← filled i
    (first ++ ·) <$> fillItems filled items

/-- Fills a template, and the fields in its specifications with `inner`. -/
def fillChars (fields : Fields) (inner : List Char → Except Fault (List Char)) (cs : List Char) :
    Except Fault (List Char) :=
  fillItems (Item.filled fields inner) (Place.text.scan cs)

/-- Fills a specification, in which no field has fields in its own. -/
def fillSpec (fields : Fields) : List Char → Except Fault (List Char) :=
  fillChars fields fun _ => .error .badTemplate

def fill (fields : Fields) (template : String) : Except Fault String :=
  (fillChars fields (fillSpec fields) template.toList).map String.ofList

def fillNamed (values : List (String × String)) (template : String) : Except Fault String :=
  fill ⟨.open, values⟩ template

end GridBayes.Template
