import GridBayes.Symbol

/-! Variables whose definition is looked up later. In running text such a variable is written
`g.name` or `g.grid.name`, with an index after two hyphens if there are several copies of it. It is
replaced by a placeholder, a key between braces, and its definition is put there in the end. -/
namespace GridBayes.Deferred

/-- A value of a grid as code mentions it: `g.grid.name--index`. -/
structure Reference where
  grid : Option String
  name : String
  index : Option String
deriving Repr, DecidableEq

/-- A value of a grid as it is resolved. Without a grid, any that provides the name. -/
structure Key where
  grid : Option String
  name : String
  index : Option String
deriving Repr, DecidableEq

def Key.text (k : Key) : String :=
  (k.grid.map (· ++ "__")).getD "" ++ k.name ++ (k.index.map ("--" ++ ·)).getD ""

def startsGrid (c : Char) : Bool :=
  Text.isNameStart c

def startsName (c : Char) : Bool :=
  c.isAlpha || (c.isDigit && c != '0')

def isDigit (c : Char) : Bool :=
  (Text.digitValue? c).isSome

def isIndexChar (c : Char) : Bool :=
  c.isLower || isDigit c

/-- An index after two hyphens, and what follows it. -/
def indexAt (ok : Char → Bool) (cs : List Char) : Option (List Char) × List Char :=
  match cs with
  | '-' :: '-' :: rest =>
    if (rest.takeWhile ok).isEmpty then (none, cs) else (some (rest.takeWhile ok), rest.dropWhile ok)
  | _ => (none, cs)

/-- The name and the index of a reference. -/
def namedAt? (grid : Option (List Char)) : Text.Reader Reference := fun cs =>
  (Text.wordAt? startsName cs).map fun (name, rest) =>
    let index := indexAt isIndexChar rest
    (⟨grid.map String.ofList, String.ofList name, index.1.map String.ofList⟩, index.2)

/-- A reference that names its grid, which has more than one letter. -/
def griddedAt? : Text.Reader Reference := fun cs =>
  match Text.wordAt? startsGrid cs with
  | some (grid, '.' :: rest) => if 1 < grid.length then namedAt? (some grid) rest else none
  | _ => none

def referenceAt? : Text.Reader Reference
  | 'g' :: '.' :: rest => (griddedAt? rest).or (namedAt? none rest)
  | _ => none

def referenceRule : Text.Rule Reference :=
  .atWord referenceAt?

def references (source : String) : List Reference :=
  Text.hits (Text.pieces referenceRule source.toList)

/-- The grid in front of the first two underscores that have something on both sides. -/
def splitGrid : (done : List Char) → List Char → Option (List Char × List Char)
  | _, [] => none
  | done, c :: rest =>
    match c, rest with
    | '_', '_' :: name =>
      if done.isEmpty || name.isEmpty then splitGrid (done ++ ['_']) rest else some (done, name)
    | _, _ => splitGrid (done ++ [c]) rest

def keyOfWord (word : List Char) (index : Option (List Char)) : Key :=
  match splitGrid [] word with
  | some (grid, name) =>
    ⟨some (String.ofList grid), String.ofList name, index.map String.ofList⟩
  | none => ⟨none, String.ofList word, index.map String.ofList⟩

/-- A key in braces. -/
def keyAt? : Text.Reader Key
  | '\x7b' :: rest => (Text.wordAt? Text.isWord rest).bind fun (word, rest) =>
    match indexAt isIndexChar rest with
    | (index, '\x7d' :: rest) => some (keyOfWord word index, rest)
    | _ => none
  | _ => none

def keyRule : Text.Rule Key := fun _ => keyAt?

def Key.ofText? (s : String) : Option Key :=
  match keyAt? ('\x7b' :: s.toList ++ ['\x7d']) with
  | some (k, []) => some k
  | _ => none

def isPlaceholder (s : String) : Bool :=
  match keyAt? s.toList with
  | some (_, []) => true
  | _ => false

/-- A variable with an index. -/
structure Indexed where
  kind : Char
  name : String
  index : Option String
deriving Repr, DecidableEq

def indexedAt? : Text.Reader Indexed := fun cs =>
  (Symbol.variableAt? cs).map fun ((kind, name), rest) =>
    let index := indexAt Text.isWord rest
    (⟨kind.letter, String.ofList name, index.1.map String.ofList⟩, index.2)

def indexedRule : Text.Rule Indexed :=
  .atWord indexedAt?

/-- The index `i` stands for the current one. -/
def actualIndex (current mentioned : Option String) : Option String :=
  match mentioned with
  | none => none
  | some "i" =>
    match current with
    | none | some "" => none
    | some c => some c
  | some m => some m

def Reference.key (current : Option String) (r : Reference) : Key :=
  ⟨r.grid, r.name, actualIndex current r.index⟩

/-- What a mention is listed as: its key, but without the index if it names no grid. -/
def Reference.listed (current : Option String) (r : Reference) : String :=
  match r.grid with
  | some _ => (r.key current).text
  | none => r.name

def Indexed.text (current : Option String) (v : Indexed) : String :=
  String.ofList [v.kind, '.'] ++ v.name ++ ((actualIndex current v.index).map ("__" ++ ·)).getD ""

/-- Replaces mentions of deferred variables by placeholders, joins indices to other names, and lists the mentions.
-/
def extract (known : List String) (source : String) (current : Option String) :
    Except Fault (List String × String) :=
  let pieces := Text.pieces referenceRule source.toList
  let refs := Text.hits pieces
  match refs.findSome? fun r => r.grid.bind fun g => if known.contains g then none else some g with
  | some g => .error (.gridNotFound g)
  | none =>
    let placed := Text.fill (fun r => '\x7b' :: (r.key current).text.toList ++ ['\x7d']) pieces
    let joined := Text.substitute indexedRule (fun v => (v.text current).toList) placed
    .ok (refs.map (·.listed current), String.ofList joined)

end GridBayes.Deferred
