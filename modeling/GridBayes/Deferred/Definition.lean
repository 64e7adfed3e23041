import GridBayes.Grid.Session
import GridBayes.Program.Prior

/-! What deferred variables stand for. Each key has a definition: an override, a combination of the
copies of a variable, or what its grid says. A definition is a text with placeholders for other
keys; some definitions are code that is assigned to a local variable. -/
namespace GridBayes.Deferred

/-- What a value can come from: grids, overrides and numbers of copies. -/
structure Sources where
  library : Except Fault Registry
  overrides : List (String × Value)
  multiplicity : List (String × Value)

structure Generated where
  grid : Option String
  index : Option String
  name : String
  code : String
deriving Repr, DecidableEq

/-- A value with what it mentions, as the graph shows it. -/
structure Node where
  mentions : List String
  value : String
  code : String
deriving Repr, DecidableEq

namespace Resolution

/-- Replaces mentions by placeholders; the grids are read only if one is mentioned. -/
def extract (library : Except Fault Registry) (source : String) (index : Option String) :
    Except Fault (List String × String) := do
  let known ← if (references source).any (·.grid.isSome) then library.map fun r => r.map (·.1) else .ok []
  Deferred.extract known source index

def localOf (key : String) : String :=
  "v." ++ Text.replaceWord "--" "__" key

def codeOf : Value → Except Fault String
  | .str s => .ok s
  | _ => .error .badArgument

/-! ## Combinations of copies -/

def copies : Value → Except Fault Nat
  | .int n => .ok n.toNat
  | .bool b => .ok (if b then 1 else 0)
  | _ => .error .notANumber

def sumOf (base : String) (n : Nat) (code : String → String) : String :=
  Text.join " + " ((List.range n).map fun i => code ("g." ++ base ++ "--" ++ toString (i + 1)))

/-- The sum, the mean or the blended magnitude of all copies of a value. -/
def combination (index key base : String) (multi : Value) : Except Fault String := do
  let lower := Text.lower index
  if lower == "sum" then return sumOf base (← copies multi) id
  else if lower == "mean" then
    return "(" ++ sumOf base (← copies multi) id ++ ") / " ++ multi.text
  else if (Text.splitWord lower "blend").length != 1 then
    return "-2.5*math.log10(" ++ sumOf base (← copies multi) (fun v => "10**(-" ++ v ++ "/2.5)") ++ ")"
  else throw (.unknownComposite index key)

/-! ## Variables of grids -/

/-- The code that looks a value of a grid up at its inputs. -/
def interpolation (grid : Grid) (name : String) : String :=
  "c.grid__" ++ grid.name ++ "__" ++ name ++ "._interp" ++ toString grid.ndim ++ "d("
    ++ Text.join ", " (grid.inputs.map fun i => "g." ++ grid.name ++ "__" ++ i ++ "--i") ++ ")"

def throughPrefix? (grid : Grid) (name : String) : Option (String × String) :=
  Transform.all.findSome? fun t =>
    if grid.names.contains (t.tag ++ name) then some (t.tag ++ name, t.inverse)
    else
      match Text.dropStart? t.tag name with
      | some rest => if grid.names.contains rest then some (rest, t.forward) else none
      | none => none

end Resolution

/-! ## The text of a definition -/

structure Wording where
  base : Key
  text : String
  isCode : Bool
  transform : Option String := none
deriving Repr, DecidableEq

namespace Sources

def override? (src : Sources) (k : Key) : Option Value :=
  src.overrides.lookup k.text <|> src.overrides.lookup (k.grid.getD "None" ++ "__" ++ k.name)

def composite (src : Sources) (k : Key) (index : String) : Except Fault Wording :=
  let owner := k.grid.getD k.name
  match src.multiplicity.lookup owner with
  | none => .error (.noMultiplicity owner)
  | some multi => do
    let base := (k.grid.map (· ++ ".")).getD "" ++ k.name
    return { base := k, text := ← Resolution.combination index k.text base multi, isCode := true }

/-- A name of the grid: an input stands for its mapping, an output is interpolated, a derived value has its code. -/
def ofGridName (grid : Grid) (name : String) (index : Option String) : Except Fault Wording := do
  let base : Key := ⟨some grid.name, name, index⟩
  if grid.inputs.contains name then
    return { base := base, text := ← Resolution.codeOf (grid.mapping name), isCode := false }
  else if grid.outputs.contains name then
    return { base := base, text := Resolution.interpolation grid name, isCode := true }
  else
    let code ← Resolution.codeOf ((grid.derived.lookup name).getD .null)
    return { base := base, text := code, isCode := true }

def ofGrid (grid : Grid) (k : Key) : Except Fault Wording :=
  if grid.names.contains k.name then ofGridName grid k.name k.index
  else
    match Resolution.throughPrefix? grid k.name with
    | none => .error (.unresolved k.text)
    | some (name, function) => do
      return { ← ofGridName grid name k.index with transform := some function }

/-- The text that defines a key: an override, then a combination of copies, then what the grid
says. -/
def wording (src : Sources) (k : Key) : Except Fault Wording :=
  match src.override? k with
  | some v => do return { base := k, text := ← Resolution.codeOf v, isCode := false }
  | none =>
    match k.index.filter fun i => !i.toList.all isDigit with
    | some index => src.composite k index
    | none => do
      let grids ← src.library
      match k.grid.bind fun g => grids.lookup g with
      | none => throw (.unresolved k.text)
      | some grid => ofGrid grid k

end Sources

/-! ## Definitions -/

/-- A wording with the values that it mentions. -/
structure Definition extends Wording where
  mentions : List String
  body : String
deriving Repr, DecidableEq

namespace Definition

def keys (d : Definition) : List Key :=
  Text.hits (Text.pieces keyRule d.body.toList)

def node (d : Definition) : Node :=
  if d.isCode then ⟨d.mentions, Resolution.localOf d.base.text, d.body⟩
  else ⟨d.mentions, d.body, ""⟩

def baseValue (d : Definition) (filled : String) : String :=
  if d.isCode then Resolution.localOf d.base.text else filled

def transformed (d : Definition) (function filled : String) : String :=
  function ++ "(" ++ d.baseValue filled ++ ")"

def value (d : Definition) (k : Key) (filled : String) : String :=
  match d.transform with
  | none => d.baseValue filled
  | some _ => Resolution.localOf k.text

def generated (d : Definition) (k : Key) (filled : String) : List Generated :=
  (if d.isCode then [⟨d.base.grid, d.base.index, d.base.name, filled⟩] else [])
    ++ match d.transform with
      | none => []
      | some f => [⟨k.grid, k.index, k.name, d.transformed f filled⟩]

end Definition

namespace Sources

/-- What a key stands for. -/
def definition (src : Sources) (k : Key) : Except Fault Definition := do
  let w ← src.wording k
  let (mentions, body) ← Resolution.extract src.library w.text k.index
  return { w with mentions := mentions, body := body }

/-! ## How many keys there can be -/

def greatest (ns : List Nat) : Nat :=
  ns.foldr max 0

def codeLength : Value → Nat
  | .str s => s.length
  | _ => 0

def gridLength (g : Grid) : Nat :=
  greatest (g.mappings.map fun e => codeLength e.2)
    + greatest (g.derived.map fun e => codeLength e.2)
    + greatest (g.outputs.map fun name => (Resolution.interpolation g name).length)

def copyLength (v : Value) : Nat :=
  match Resolution.copies v with
  | .ok n => n + v.text.length
  | .error _ => 0

/-- A length that no key's word exceeds, if the key is met from one of at most the length `n`. -/
def wordLength (src : Sources) (n : Nat) : Nat :=
  greatest (src.overrides.map fun e => codeLength e.2)
    + 2 * greatest (src.multiplicity.map fun e => copyLength e.2)
    + (match src.library with
      | .ok grids => greatest (grids.map fun e => gridLength e.2)
      | .error _ => 0)
    + n + 40

/-- More than the number of texts as long as keys can be, so more than keys are nested. -/
def depth (src : Sources) (n : Nat) : Nat :=
  Nat.pow (0x110000 + 1) (2 * src.wordLength n + 5) + 1

end Sources

end GridBayes.Deferred
