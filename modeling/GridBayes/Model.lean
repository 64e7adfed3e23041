import GridBayes.Code.Eval
import GridBayes.Grid.Basic
import GridBayes.Program.Render
import GridBayes.Target

/-! Models: the code of a program, ready to run, and its constants. A model maps uniform numbers to
draws from the prior, and parameters to the prior, the likelihood and the local variables. -/
namespace GridBayes
open Scalar Code

/-- The statements of a model, as they are read back from its text. -/
structure ModelCode where
  paramNames : List String
  outputNames : List String
  localNames : List String
  constantNames : List String
  optionalConstants : List String
  optionalTerms : Value
  transform : List Statement
  logPrior : List Statement
  forward : List Statement
  likelihood : List Statement
  outputs : List Expr

namespace ModelCode

def statementsOf (ms : List Method) (name : String) : Except Fault (List Statement) :=
  match (method? name ms).bind Method.statements? with
  | some s => .ok s
  | none => .error .compilationFailed

def outputExpr (line : Line) : Except Fault Expr :=
  match (splitEquals line.text).bind fun (_, right) => exprs? right with
  | some [e] => .ok e
  | _ => .error .compilationFailed

def outputExprs (ms : List Method) : Except Fault (List Expr) := do
  match method? "postprocess" ms with
  | none => throw .compilationFailed
  | some m =>
    let lines := m.body.filter fun l => Text.startsWith "out[" (String.ofList l.text)
    (lines.drop 2).mapM outputExpr

/-- The text of a program is read like a file. -/
def ofProgram : ProgramM ModelCode := do
  let text ← Program.text
  let vars ← Program.frozenVariables
  let p ← get
  let ms := methods (linesOf text)
  return {
    paramNames := vars.params.map (·.name)
    outputNames := Program.outputNames p.outputs
    localNames := vars.locals.map (·.name)
    constantNames := vars.constants.map (·.name)
    optionalConstants := Text.sort p.autoConstants
    optionalTerms := p.optionalTerms
    transform := ← ofExcept (statementsOf ms "prior_transform")
    logPrior := ← ofExcept (statementsOf ms "log_prior")
    forward := ← ofExcept (statementsOf ms "_forward_model")
    likelihood := ← ofExcept (statementsOf ms "_log_like")
    outputs := ← ofExcept (outputExprs ms) }

def ndim (c : ModelCode) : Nat :=
  c.paramNames.length

end ModelCode

/-- Code with the values of its constants, and the grids that it interpolates. -/
structure Model (α : Type) where
  code : ModelCode
  constants : List (String × α)
  interpolators : List (String × Interpolator α)

namespace Model

variable {α : Type} [Scalar α]

def constantPlace (name : String) : String :=
  "self.c__" ++ name

def localPlace (name : String) : String :=
  "self.v__" ++ name

def env (m : Model α) (params : Array α) : Env α where
  params := params
  places := m.constants.map (fun (k, x) => (constantPlace k, x)) ++ m.code.localNames.map (fun v => (localPlace v, 0.0))
  methods := m.interpolators.flatMap fun (k, g) => methodsOf (constantPlace k) g

/-- Statements that add to a sum which begins at zero. -/
def total (name : String) (statements : List Statement) (env : Env α) : Except Fault α := do
  let env ← Statement.runAll statements { env with places := setEntry env.places name 0.0 }
  return (env.places.lookup name).getD nan

def transformAt (m : Model α) (env : Env α) : Except Fault (Array α) := do
  return (← Statement.runAll m.code.transform env).params

def priorAt (m : Model α) (env : Env α) : Except Fault α :=
  total "logP" m.code.logPrior env

def forwardAt (m : Model α) (env : Env α) : Except Fault (Env α) :=
  Statement.runAll m.code.forward env

/-- A likelihood that is not finite is none. -/
def likelihoodAt (m : Model α) (env : Env α) : Except Fault α := do
  let sum ← total "logL" m.code.likelihood env
  return if isFinite sum then sum else -infinity

def transform (m : Model α) (u : Array α) : Except Fault (Array α) :=
  m.transformAt (m.env u)

def logPrior (m : Model α) (params : Array α) : Except Fault α :=
  m.priorAt (m.env params)

def forward (m : Model α) (params : Array α) : Except Fault (Env α) :=
  m.forwardAt (m.env params)

def logLike (m : Model α) (params : Array α) : Except Fault α := do
  m.likelihoodAt (← m.forward params)

/-- A model as samplers see it. -/
def target (m : Model α) : Target α :=
  let start := m.env #[]
  { transform := fun u => m.transformAt { start with params := u }
    logPrior := fun params => m.priorAt { start with params := params }
    logLike := fun params => do m.likelihoodAt (← m.forwardAt { start with params := params }) }

def logProb (m : Model α) (params : Array α) : Except Fault α :=
  m.target.logProb params

def locals (m : Model α) (params : Array α) : Except Fault (List (String × α)) := do
  let env ← m.forward params
  return m.code.localNames.map fun v => (v, (env.places.lookup (localPlace v)).getD nan)

/-- The likelihood, the prior and the outputs. -/
def outputsAt (m : Model α) (start : Env α) : Except Fault (List α) := do
  let env ← m.forwardAt start
  let like ← m.likelihoodAt env
  let prior ← m.priorAt start
  return like :: prior :: (← Expr.evalAll env m.code.outputs)

def outputs (m : Model α) (params : Array α) : Except Fault (List α) :=
  m.outputsAt (m.env params)

/-- The outputs at each of some points. -/
def outputRows (m : Model α) (points : List (List α)) : Except Fault (List (List α)) :=
  let start := m.env #[]
  points.mapM fun p => m.outputsAt { start with params := p.toArray }

def impossible : Model α where
  code := {
    paramNames := []
    outputNames := []
    localNames := []
    constantNames := []
    optionalConstants := []
    optionalTerms := .bool false
    transform := []
    logPrior := []
    forward := []
    likelihood := [.increase (.place "logL") (.place "math.INFINITY")]
    outputs := [] }
  constants := []
  interpolators := []

/-! ## Constants -/

def gridColumn (name : String) : Except Fault (String × String) :=
  match Text.splitWord "__" name with
  | [_, grid, output] => .ok (grid, output)
  | _ => .error .badUnpacking

def constant (m : Model α) (name : String) : Except Fault α :=
  match m.constants.lookup name with
  | some x => .ok x
  | none => .error .missingPart

def setConstant (m : Model α) (name : String) (x : α) : Except Fault (Model α) :=
  if (m.constants.lookup name).isSome then .ok { m with constants := setEntry m.constants name x }
  else .error .missingPart

end Model

/-- Constants are taken in the order of the code. Those that hold grids are read from the library. -/
def Model.load (library : Except Fault (List (String × Grid))) (given : List (String × Float)) :
    List String → Model Float → Except Fault (Model Float)
  | [], m => .ok m
  | c :: rest, m => do
    match given.lookup c with
    | some x =>
      if Text.startsWith "grid__" c then throw .notANumber
      Model.load library given rest { m with constants := m.constants ++ [(c, x)] }
    | none =>
      if Text.startsWith "grid__" c then
        let (grid, output) ← gridColumn c
        match (← library).lookup grid with
        | none => throw .missingField
        | some g =>
          let built ← g.build output [] id
          Model.load library given rest { m with interpolators := m.interpolators ++ [(c, built)] }
      else throw (.constantMissing c)

def Model.create (code : ModelCode) (library : Except Fault (List (String × Grid)))
    (given : List (String × Float)) : Except Fault (Model Float) :=
  Model.load library given code.constantNames ⟨code, [], []⟩

end GridBayes
