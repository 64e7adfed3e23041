import GridBayes.CommandLine.Switch
import GridBayes.Decimal.Parse
import GridBayes.Storage.Path
import GridBayes.Value

/-! Reading the command line. Every word is first recognized on its own: as a switch, which may be
shortened as long as it stays unique, or as a value. Then the words are taken from left to right. -/
namespace GridBayes.CommandLine

inductive Given where
  | text (s : String)
  | nothing
deriving Repr, DecidableEq

namespace Given

def ofText (s : String) : Given :=
  if s = "--" then .nothing else .text s

def toValue : Given → Value
  | .text s => .str s
  | .nothing => .list []

def text? : Given → Option String
  | .text "" | .nothing => none
  | .text s => some s

end Given

structure Arguments where
  input : Option String := none
  grids : Bool := false
  batch : Option Given := none
  batchSummary : Option Given := none
  batchThreads : Option Int := some 1
  setConst : List Given := []
  verbose : Bool := false
  plainText : Bool := false
  dryRun : Bool := false
  code : Bool := false
  output : Option Given := none
  depGraph : Bool := false
  analyze : Bool := false
  testCase : Option Given := none
  cornerPlot : Option Given := none
deriving Repr, DecidableEq

inductive Stop where
  | help
  | version
  | misuse
deriving Repr, DecidableEq

/-! ## Words -/

inductive Word where
  | value (text : String)
  | switch (s : Switch) (short : Bool) (attached : Option String)
  | unknown
  | separator
deriving Repr, DecidableEq

namespace Word

def splitEquals (s : String) : String × Option String :=
  let cs := s.toList
  let name := cs.takeWhile (· != '=')
  match cs.drop name.length with
  | _ :: rest => (String.ofList name, some (String.ofList rest))
  | [] => (s, none)

def isNegative (s : String) : Bool :=
  let isDigit (c : Char) := (Text.digitValue? c).isSome
  match s.toList with
  | '-' :: cs =>
    let rest := cs.dropWhile isDigit
    match rest with
    | [] | ['\n'] => !(cs.takeWhile isDigit).isEmpty
    | '.' :: fraction =>
      let tail := fraction.dropWhile isDigit
      !(fraction.takeWhile isDigit).isEmpty && (tail.isEmpty || tail == ['\n'])
    | _ => false
  | _ => false

def readings (s : String) : List Word :=
  match s.toList with
  | '-' :: '-' :: _ =>
    let (name, given) := splitEquals s
    (Switch.spellings.filter fun (n, _) => Text.startsWith name n).map fun (_, t) =>
      .switch t false given
  | '-' :: c :: rest =>
    ((Switch.ofName? (String.ofList ['-', c])).map fun t =>
      Word.switch t true (some (String.ofList rest))).toList
  | _ => []

def ofHyphened (s : String) : Except Stop Word :=
  let (name, given) := splitEquals s
  match Switch.ofName? name with
  | some t => .ok (.switch t (!Text.startsWith "--" name) given)
  | none =>
    match readings s with
    | [w] => .ok w
    | _ :: _ => .error .misuse
    | [] => .ok (if isNegative s || s.toList.contains ' ' then .value s else .unknown)

def ofText (s : String) : Except Stop Word :=
  if Text.startsWith "-" s && s != "-" then ofHyphened s else .ok (.value s)

def ofTexts : List String → Except Stop (List Word)
  | [] => .ok []
  | "--" :: rest => .ok (.separator :: rest.map .value)
  | s :: rest => do
    let w ← ofText s
    return w :: (← ofTexts rest)

end Word

/-! ## Uses of switches -/

structure Use where
  switch : Switch
  value : Option String := none
deriving Repr, DecidableEq

def cluster (s : Switch) : (attached : List Char) → Except Stop (List Use)
  | [] => .ok [⟨s, none⟩]
  | c :: rest =>
    if s.takesValue then .ok [⟨s, some (String.ofList (c :: rest))⟩]
    else
      match Switch.ofName? (String.ofList ['-', c]) with
      | some t => (cluster t rest).map (⟨s, none⟩ :: ·)
      | none => .error .misuse

def usesOf (s : Switch) (short : Bool) : (attached : Option String) → Except Stop (List Use)
  | none => .ok [⟨s, none⟩]
  | some text =>
    if s.takesValue then .ok [⟨s, some text⟩]
    else if !short || text.isEmpty then .error .misuse
    else cluster s text.toList

namespace Arguments

def apply (a : Arguments) (u : Use) : Except Stop Arguments :=
  match u.switch, u.value with
  | .help, _ => .error .help
  | .version, _ => .error .version
  | .grids, _ => .ok { a with grids := true }
  | .verbose, _ => .ok { a with verbose := true }
  | .plainText, _ => .ok { a with plainText := true }
  | .dryRun, _ => .ok { a with dryRun := true }
  | .code, _ => .ok { a with code := true }
  | .depGraph, _ => .ok { a with depGraph := true }
  | .analyze, _ => .ok { a with analyze := true }
  | .batch, some v => .ok { a with batch := some (.ofText v) }
  | .batchSummary, some v => .ok { a with batchSummary := some (.ofText v) }
  | .batchThreads, some v =>
    match Given.ofText v with
    | .nothing => .ok { a with batchThreads := none }
    | .text v =>
      match Decimal.int? v with
      | some n => .ok { a with batchThreads := some n }
      | none => .error .misuse
  | .setConst, some v => .ok { a with setConst := a.setConst ++ [.ofText v] }
  | .output, some v => .ok { a with output := some (.ofText v) }
  | .testCase, some v => .ok { a with testCase := some (.ofText v) }
  | .cornerPlot, some v => .ok { a with cornerPlot := some (.ofText v) }
  | _, none => .error .misuse

def applyAll (a : Arguments) (us : List Use) : Except Stop Arguments :=
  us.foldlM apply a

def needsValue (us : List Use) : Bool :=
  match us.getLast? with
  | some u => u.switch.takesValue && u.value.isNone
  | none => false

def giveLast (us : List Use) (v : String) : List Use :=
  us.dropLast ++ (us.getLast?.map fun u => { u with value := some v }).toList

def withInput (a : Arguments) (text : String) : Arguments :=
  { a with input := some (Path.shown text) }

/-- Takes words from left to right. `free` says whether the input is still to come; what is left over is a misuse.
-/
def takeWords : (free leftOver : Bool) → Arguments → List Word → Except Stop Arguments
  | _, leftOver, a, [] => if leftOver then .error .misuse else .ok a
  | true, leftOver, a, .value v :: .separator :: rest =>
    takeWords false leftOver (a.withInput v) rest
  | true, leftOver, a, .separator :: .value v :: rest =>
    takeWords false leftOver (a.withInput v) rest
  | true, leftOver, a, .value v :: rest => takeWords false leftOver (a.withInput v) rest
  | true, leftOver, a, .separator :: rest => takeWords false leftOver a rest
  | free, leftOver, a, .switch s short attached :: .value v :: rest => do
    let uses ← usesOf s short attached
    if needsValue uses then takeWords free leftOver (← a.applyAll (giveLast uses v)) rest
    else takeWords free leftOver (← a.applyAll uses) (.value v :: rest)
  | free, leftOver, a, .switch s short attached :: rest => do
    let uses ← usesOf s short attached
    if needsValue uses then throw .misuse
    takeWords free leftOver (← a.applyAll uses) rest
  | free, _, a, _ :: rest => takeWords free true a rest

def parse (words : List String) : Except Stop Arguments := do
  if words.isEmpty then throw .help
  takeWords true false {} (← Word.ofTexts words)

/-! ## Showing arguments -/

def flagText (b : Bool) : String :=
  if b then "True" else "False"

def optionText (given : Option Given) : String :=
  ((given.map Given.toValue).getD .null).display

def shown (a : Arguments) : String :=
  let input := (a.input.map fun p => "PosixPath(" ++ Text.quoted p ++ ")").getD "None"
  let entries := [
    ("input", input),
    ("grids", flagText a.grids),
    ("batch", optionText a.batch),
    ("batch_summary", optionText a.batchSummary),
    ("batch_threads", (a.batchThreads.map toString).getD "[]"),
    ("set_const", (Value.list (a.setConst.map Given.toValue)).display),
    ("verbose", flagText a.verbose),
    ("plain_text", flagText a.plainText),
    ("dry_run", flagText a.dryRun),
    ("code", flagText a.code),
    ("output", optionText a.output),
    ("dep_graph", flagText a.depGraph),
    ("analyze", flagText a.analyze),
    ("test_case", optionText a.testCase),
    ("corner_plot", optionText a.cornerPlot)]
  "Namespace(" ++ Text.join ", " (entries.map fun (k, v) => k ++ "=" ++ v) ++ ")"

end Arguments

end GridBayes.CommandLine
