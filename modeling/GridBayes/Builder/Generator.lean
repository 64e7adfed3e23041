import GridBayes.Builder.Basic

/-! From a collected model to its program. The program is made when it is first asked for; from
then on it is the same one, also if making it was broken off. -/
namespace GridBayes.Builder

/-! ## Looking up deferred variables -/

def outputTexts (b : Builder) : Except Fault (List String) :=
  b.outputs.mapM fun v => v.needText .missingPart

def mentioned (b : Builder) : Except Fault (List String) := do
  return b.expressions.flatMap (·.mentions) ++ b.assignments.flatMap (·.mentions)
    ++ b.constraints.flatMap (·.mentions) ++ (← b.outputTexts).filter (Text.startsWith "\x7b")

def useGrid (used : List (Option String × List String)) (grid : Option String) (name : String) :
    List (Option String × List String) :=
  if used.any fun e => e.1 == grid then
    used.map fun e => if e.1 == grid then (e.1, e.2 ++ [name]) else e
  else used ++ [(grid, [name])]

def push (c : Deferred.Generated) : BuilderM Unit := do
  let grid := c.grid.getD "None"
  let stem := grid ++ "__" ++ c.name
  let a ← assignment (.str (stem ++ (c.index.map ("__" ++ ·)).getD "")) (.str c.code)
  modify fun b => { b with generated := b.generated ++ [a] }
  if Text.startsWith "c.grid__" c.code then
    let constant := "grid__" ++ stem
    modify fun b => { b with
      autoConstants := setEntry b.autoConstants constant
        ("GridGenerator.get_grid('" ++ grid ++ "').build_grid('" ++ c.name ++ "')")
      constantTypes := setEntry b.constantTypes constant "GridInterpolator" }
  modify fun b => { b with gridsUsed := useGrid b.gridsUsed c.grid c.name }

def resolve (agenda : Deferred.Agenda := .sorted) : BuilderM Deferred.Resolution := do
  remarkHeading "\n" "Variable Resolution"
  let b ← get
  let mentioned ← ofExcept b.mentioned
  let start := Deferred.Resolution.start b.library b.overrides b.multiplicity
  let (result, r) := (Deferred.Resolution.resolveAll mentioned agenda).run.run start
  ofExcept result
  if b.verbose then say (r.logText b.palette)
  modify fun b => { b with generated := [] }
  remarkHeading "\n" "Generated Components"
  r.components.forM push
  return r

/-! ## The program -/

def changeProgram (f : Program → Except Fault (Program × String)) : BuilderM Unit := do
  let b ← get
  let (p, said) ← ofExcept (f (b.program.getD {}))
  set { b with
    program := some p
    said := b.said ++ said }

def checkMentions (values : List (String × String)) (mentions : List String) : BuilderM Unit := do
  if !mentions.all fun m => (values.lookup m).isSome then throw .notLookedUp

def filled (values : List (String × String)) (text : String) : BuilderM String :=
  ofExcept (Template.fill ⟨.strict, values⟩ text)

def addExpression (values : List (String × String)) (e : DeferredExpression) : BuilderM Unit := do
  checkMentions values e.mentions
  let c ← ofExcept (Component.ofExpression (← filled values e.code))
  changeProgram (·.addComponent c)

def addAssignment (values : List (String × String)) (a : DeferredAssignment) : BuilderM Unit := do
  checkMentions values a.mentions
  let var ← filled values a.var
  let c ← ofExcept (Component.ofAssignment var (← filled values a.code))
  changeProgram (·.addComponent c)

/-- Adds the distribution of a measured variable. The kept list gets the numbers that a preset adds. -/
def addConstraint (values : List (String × String)) (c : DeferredConstraint) (i : Nat) :
    BuilderM Unit := do
  checkMentions values c.mentions
  let var := Value.str (← filled values c.var)
  let dist ← filled values (← ofExcept (c.dist.needText .missingPart))
  let params := DistributionCall.valuesAfter var dist c.params
  modify fun b => { b with constraints := b.constraints.set i { c with params := params } }
  let component ← ofExcept (Component.ofConstraint var (.str dist) c.params)
  changeProgram (·.addComponent component)

def addPrior (s : PriorSpec) (i : Nat) : BuilderM Unit := do
  let var := Value.str s.param
  let dist ← ofExcept (s.dist.needText .missingPart)
  let params := DistributionCall.valuesAfter var (Transform.split dist).2 s.params
  modify fun b => { b with priors := b.priors.set i { s with params := params } }
  let prior ← ofExcept (Prior.ofValues var s.dist s.params)
  changeProgram (·.addPrior prior)

def makeProgram (agenda : Deferred.Agenda := .sorted) : BuilderM Unit := do
  modify fun b => { b with gridsUsed := [] }
  let r ← resolve agenda
  remarkHeading "\n" "Code Generation"
  modify fun b => { b with program := some {
    optionalTerms := .bool b.optionalTerms
    verbose := b.verbose
    fancy := b.fancy } }
  let b ← get
  b.expressions.forM (addExpression r.values)
  (b.assignments ++ b.generated).forM (addAssignment r.values)
  b.constraints.zipIdx.forM fun (c, i) => addConstraint r.values c i
  b.priors.zipIdx.forM fun (p, i) => addPrior p i
  let b ← get
  changeProgram fun p => .ok ({ p with
    autoConstants := b.autoConstants.map (·.1)
    constantTypes := b.constantTypes }, "")
  let outputs ← (← ofExcept b.outputTexts).mapM fun o => ofExcept (Template.fillNamed r.values o)
  changeProgram fun p => .ok ({ p with
    outputs := outputs
    imports := p.imports ++ b.imports }, "")
  remark ""

def answer {α : Type} (question : ProgramM α) : BuilderM α := do
  let b ← get
  let (result, p) := question.run.run (b.program.getD {})
  set { b with program := some p }
  ofExcept result

def ask {α : Type} (question : ProgramM α) (agenda : Deferred.Agenda := .sorted) : BuilderM α := do
  if (← get).program.isNone then makeProgram agenda
  answer question

def code (agenda : Deferred.Agenda := .sorted) : BuilderM String :=
  ask Program.text agenda

/-! ## Reports -/

def gridLine : Option String × List String → Except Fault String
  | (some grid, names) => .ok (grid ++ " " ++ Text.join ", " (Text.sort names))
  | (none, _) => .error .notANumber

def summary : BuilderM String := do
  let fancy := (← get).fancy
  let text ← ask (Program.summary fancy)
  let b ← get
  let used := Text.sortBy (·.1.getD "") b.gridsUsed
  let lines ← ofExcept (used.mapM gridLine)
  return Text.join "\n" (Program.heading b.palette "Grids" :: if lines.isEmpty then ["None"] else lines)
    ++ "\n\n" ++ text

def constantText : Value → Except Fault String
  | .float x => .ok (Decimal.generalText 4 x)
  | .bool _ | .int _ | .str _ => .error .badNumberFormat
  | _ => .error .notANumber

def constantLines (p : Palette) (expected extra : List String) :
    List (String × Value) → BuilderM Unit
  | [] => return ()
  | (k, v) :: rest => do
    let name := p.blue ++ p.bold ++ "c." ++ k ++ p.reset
    if extra.contains k then say (name ++ " is set but not used\n")
    else if expected.contains k then
      say (name ++ " = " ++ p.blue ++ (← ofExcept (constantText v)) ++ p.reset ++ "\n")
    constantLines p expected extra rest

def checkConstants (constants : List (String × Value)) (report : Bool) :
    BuilderM (List String × List String) := do
  let vars ← ask Program.frozenVariables
  let expected := vars.constants.map (·.name)
  let auto ← ask (do return (← get).autoConstants)
  let given := constants.map (·.1)
  let missing := Text.sort ((Text.dedup expected).filter fun k =>
    !given.contains k && !auto.contains k)
  let extra := Text.sort (given.filter fun k => !expected.contains k)
  if report then
    let p := (← get).palette
    say ("\n    " ++ p.underline ++ "Constant Values" ++ p.reset ++ "\n")
    if missing.isEmpty && constants.isEmpty then say "[None]\n"
    missing.forM fun k => say (p.blue ++ p.bold ++ "c." ++ k ++ p.reset ++ " is " ++ p.red
      ++ "not set" ++ p.reset ++ "\n")
    constantLines p expected extra constants
    say "\n"
  return (missing, extra)

end GridBayes.Builder
