import GridBayes.Deferred.Definition

/-! Looking up deferred variables. The keys in a definition are looked up in turn, and the results
are put in their places. Values that need code of their own become local variables, and the code is
kept as a component to be generated. -/
namespace GridBayes.Deferred

/-- The course of a resolution: what is being resolved, and what has a value already. -/
structure Resolution extends Sources where
  log : List String := []
  graph : List (String × Node) := []
  stack : List String := []
  components : List Generated := []
  values : List (String × String) := []

/-- An order in which names are taken up; any will do. -/
structure Agenda where
  order : List String → List String
  perm : ∀ names, (order names).Perm names

def Agenda.sorted : Agenda :=
  ⟨Text.sort, Text.sortBy_perm id⟩

abbrev ResolutionM := ExceptT Fault (StateM Resolution)

namespace Resolution

/-- A name of a grid's value as a key: without its letter, and with underscores for dots. -/
def normalKey (s : String) : String :=
  Text.replaceWord "." "__" ((Text.dropStart? "g." s).getD s)

/-- A resolution before its first name. -/
def start (library : Except Fault Registry) (overrides : List (String × Value))
    (multiplicity : List (String × Value)) : Resolution where
  library := library
  overrides := overrides.foldl (fun m (k, v) => setEntry m (normalKey k) v) []
  multiplicity := multiplicity

def fillPieces (find : Key → ResolutionM String) : List (Text.Piece Key) → ResolutionM (List Char)
  | [] => return []
  | .char c :: rest => do return c :: (← fillPieces find rest)
  | .hit k :: rest => do
    let value ← find k
    return value.toList ++ (← fillPieces find rest)

/-- A text with a value in place of each key. -/
def fill (find : Key → ResolutionM String) (text : String) : ResolutionM String := do
  return String.ofList (← fillPieces find (Text.pieces keyRule text.toList))

def note (key : String) (node : Node) : ResolutionM Unit :=
  modify fun s => { s with graph := setEntry s.graph key node }

/-- The value of a key by its definition. A transform is noted once its base has a value. -/
def define (find : Key → ResolutionM String) (k : Key) : ResolutionM String := do
  let d ← ofExcept ((← get).definition k)
  note d.base.text d.node
  let filled ← fill find d.body
  modify fun s => { s with components := s.components ++ d.generated k filled }
  match d.transform with
  | none => pure ()
  | some f => note k.text ⟨[d.baseValue filled], localOf k.text, d.transformed f filled⟩
  return d.value k filled

/-- A key gets its value and leaves the stack. -/
def settled (s : Resolution) (key value : String) : Resolution :=
  { s with
    log := s.log ++ [Text.padRight 40
      (String.ofList (List.replicate (2 * (s.stack.length - 1)) ' ') ++ "g." ++ key ++ " ") ++ value]
    values := setEntry s.values key value
    stack := s.stack.erase key }

/-- The value of a key, after those of all keys that its code mentions. A key that is met below itself is circular. -/
def resolve : (fuel : Nat) → Key → ResolutionM String
  | 0, _ => throw .tooDeep
  | fuel + 1, k => do
    let key := k.text
    let s ← get
    match s.values.lookup key with
    | some value => return value
    | none =>
      if s.stack.contains key then throw (.circularDefinition key)
      set { s with stack := s.stack ++ [key] }
      let value ← define (resolve fuel) k
      modify fun s => s.settled key value
      return value

def requested (names : List String) : List String :=
  Text.dedup (names.map fun n => normalKey (Text.stripOf [' ', '\x7b', '\x7d'] n))

def resolveName (name : String) : ResolutionM Unit := do
  let s ← get
  if (s.values.lookup name).isNone then
    match Key.ofText? name with
    | none => throw (.notAKey name)
    | some k =>
      let _ ← resolve (s.depth name.length) k

def resolveEach : List String → ResolutionM Unit
  | [] => return ()
  | name :: rest => do
    resolveName name
    resolveEach rest

def nameOf : Value → Except Fault String
  | .str s => .ok s
  | .list _ | .table _ => .error .badArgument
  | _ => .error .missingPart

/-- All names, each once. -/
def resolveAll (names : List String) (agenda : Agenda := .sorted) : ResolutionM Unit :=
  resolveEach (agenda.order (requested names))

def logText (s : Resolution) (p : Palette) : String :=
  Highlight.apply p (Text.join "\n" s.log.reverse) ++ "\n"

end Resolution

end GridBayes.Deferred
