import GridBayes.Highlight
import GridBayes.Program.Order

/-! A model as a program: components, priors and settings. The variables of a program and their
places are worked out when they are first needed and stay as they are from then on. -/
namespace GridBayes

/-- The variables of a program by their kinds; those of its priors also apart. -/
structure Variables where
  params : SymbolSet
  priorParams : SymbolSet
  constants : SymbolSet
  locals : SymbolSet
deriving Repr, DecidableEq

namespace Variables

/-- Every symbol of a program has to be a variable. -/
def collect (components : List Component) (priors : List Prior) : Except Fault Variables :=
  match Order.badSymbol? components with
  | some s => .error (.notAVariable s.text)
  | none =>
    match Order.badSymbol? priors with
    | some s => .error (.notAVariable s.text)
    | none =>
      let like := Order.symbols components
      let prior := Order.symbols priors
      let both := SymbolSet.union like prior
      .ok {
        params := like.filter (·.isKind .param)
        priorParams := prior.filter (·.isKind .param)
        constants := both.filter (·.isKind .const)
        locals := both.filter (·.isKind .localVar) }

/-- Constants and local variables are attributes of the model, parameters entries of `params`. -/
def places (vars : Variables) (opening : String) : List (String × String) :=
  let own (s : Symbol) := (s.ident, "self." ++ s.ident)
  vars.constants.map own ++ vars.locals.map own
    ++ vars.params.zipIdx.map fun (s, i) => (s.ident, opening ++ toString i ++ "]")

/-- Where each variable stands in a single point. -/
def mapping (vars : Variables) : List (String × String) :=
  vars.places "params["

/-- Where each variable stands in a row of many points. -/
def rowMapping (vars : Variables) : List (String × String) :=
  vars.places "params[i,"

end Variables

/-- Lists of a program that do not have the form that printing expects, with the fault that this brings. -/
structure ProgramDefects where
  imports : Option Fault := none
  outputs : Option Fault := none
  outputNames : Option Fault := none
  autoConstants : Option Fault := none
  constantTypes : Option Fault := none

/-- The parts of a model's code, in the order in which they were given. -/
structure Program where
  components : List Component := []
  priors : List Prior := []
  imports : List String := ["from starlord.cy_tools cimport *", "from starlord import GridGenerator"]
  autoConstants : List String := []
  constantTypes : List (String × String) := []
  outputs : List String := []
  optionalTerms : Value := .bool false
  verbose : Bool := false
  fancy : Bool := false
  frozen : Option Variables := none
  defects : ProgramDefects := {}

abbrev ProgramM := ExceptT Fault (StateM Program)

namespace Program

def palette (p : Program) : Palette :=
  Palette.choose p.fancy

/-- The variables, as they were frozen or as they are now. -/
def classified (p : Program) : Except Fault Variables :=
  match p.frozen with
  | some vars => .ok vars
  | none => Variables.collect p.components p.priors

def frozenVariables : ProgramM Variables := do
  let p ← get
  let vars ← ofExcept p.classified
  set { p with frozen := some vars }
  return vars

/-! ## Setting parts -/

/-- The texts of a list up to the first entry that is none, and the fault if there is such an entry. -/
def textParts (v : Value) : List String × Option Fault :=
  match v.parts? with
  | none => ([], some .badArgument)
  | some parts =>
    let texts := (parts.takeWhile fun x => x.str?.isSome).filterMap Value.str?
    (texts, if texts.length < parts.length then some .badArgument else none)

def setImports (p : Program) (v : Value) : Program :=
  let (texts, defect) := textParts v
  { p with imports := texts, defects := { p.defects with imports := defect } }

def isCuttable : Value → Bool
  | .str _ | .list _ => true
  | _ => false

def setOutputs (p : Program) (v : Value) : Program :=
  let (texts, defect) := textParts v
  let hasNames := v.parts?.any fun parts => parts.all isCuttable
  { p with
    outputs := texts
    defects := { p.defects with
      outputs := defect
      outputNames := if hasNames then none else some .badArgument } }

def setAutoConstants (p : Program) : Value → Program
  | .table entries => { p with
      autoConstants := entries.map (·.1)
      defects := { p.defects with autoConstants := none } }
  | _ => { p with defects := { p.defects with autoConstants := some .missingPart } }

def setConstantTypes (p : Program) : Value → Program
  | .table entries => { p with
      constantTypes := entries.map fun (k, v) => (k, v.text)
      defects := { p.defects with constantTypes := none } }
  | _ => { p with defects := { p.defects with constantTypes := some .missingPart } }

/-! ## Adding parts -/

def paintedSet (paint : String → String) (items : SymbolSet) : String :=
  if items.isEmpty then "set()"
  else
    let shown := items.map fun s => paint (Text.quoted s.text)
    "\x7b" ++ Text.join ", " (Text.sort shown) ++ "\x7d"

def announceExpression (paint : String → String) (c : Component) : String :=
  "Component(requires=" ++ paintedSet paint c.requires ++ ", provides="
    ++ paintedSet paint c.provides ++ ", code=" ++ paint (Text.quoted c.code) ++ ")\n"

/-- What a verbose program says of a part that is added. -/
def announce (p : Program) (c : Component) : Except Fault String :=
  if !p.verbose then .ok ""
  else
    let paint := Highlight.apply p.palette
    match c with
    | .expression .. => .ok (announceExpression paint c)
    | _ => c.display.map fun s => paint s ++ "\n"

/-- Adds a component at the end, unless its announcement fails. -/
def addComponent (p : Program) (c : Component) : Except Fault (Program × String) := do
  let said ← p.announce c
  return ({ p with components := p.components ++ [c] }, said)

def addPrior (p : Program) (prior : Prior) : Except Fault (Program × String) := do
  let said ← if p.verbose then prior.display.map fun s => Highlight.apply p.palette s ++ "\n" else .ok ""
  return ({ p with priors := p.priors ++ [prior] }, said)

end Program

end GridBayes
