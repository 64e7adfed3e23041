import GridBayes.Program.Basic

/-! The text of a program: a class with metadata, constants, local variables and five methods. Each
component's template is filled with the places of its variables. -/
namespace GridBayes

namespace Program

/-! ## Layout -/

def indentLines (indent code : String) : String :=
  Text.join "\n" ((Text.lines code).map (indent ++ ·))

def method (blocks : List String) : String :=
  Text.join "\n" (blocks.map ("    " ++ ·))

def block (places : List (String × String)) (indent template : String) : Except Fault String :=
  (Template.fillNamed places template).map (indentLines indent)

/-! ## Priors -/

def checkPriors (vars : Variables) : Except Fault Unit :=
  let missing := SymbolSet.diff vars.params vars.priorParams
  let unused := SymbolSet.diff vars.priorParams vars.params
  if !missing.isEmpty then .error (.priorsMissing missing.texts)
  else if !unused.isEmpty then .error (.priorsUnused unused.texts)
  else .ok ()

def sortedPriors (priors : List Prior) : List Prior :=
  Text.sortBy (·.call.var.text) priors

def orderedPriors (priors : List Prior) : Except Fault (List Prior) :=
  Order.sort .param (sortedPriors priors)

def renderQuantile (vars : Variables) (priors : List Prior) : Except Fault String := do
  checkPriors vars
  let ordered ← orderedPriors priors
  let blocks ← ordered.mapM fun p => block vars.mapping "    " p.quantile
  return method (["cpdef double[:] prior_transform(self, double[:] params):"] ++ blocks ++ ["    return params\n"])

def renderLogPrior (vars : Variables) (priors : List Prior) : Except Fault String := do
  checkPriors vars
  let ordered ← orderedPriors priors
  let blocks ← ordered.mapM fun p => block vars.mapping "    " p.density
  return method (["cpdef double log_prior(self, double[:] params):",
    "    cdef double logP = 0."] ++ blocks ++ ["    return logP\n"])

/-! ## Forward model -/

def sortedComponents (components : List Component) : List Component :=
  Text.sortBy Component.sortKey components

def orderedForward (components : List Component) : Except Fault (List Component) :=
  Order.sort .localVar (sortedComponents (components.filter (!·.isLikelihood)))

def outputLines (vars : Variables) (outputs : List String) : Except Fault (List String) :=
  outputs.zipIdx.mapM fun (output, i) =>
    Template.fillNamed vars.rowMapping ("        out[i, " ++ toString (i + 2) ++ "] = " ++ Template.ofSource output)

def postprocessLines (outs : List String) : List String :=
  ["cpdef postprocess(self, double[:,:] params, double[:,:] out):",
    "    for i in range(params.shape[0]):",
    "        self._forward_model(params[i])",
    "        out[i, 0] = self._log_like(params[i])",
    "        out[i, 1] = self.log_prior(params[i])"] ++ outs ++ ["    return\n"]

def renderForward (vars : Variables) (ordered : List Component) (outputs : List String) :
    Except Fault String := do
  let blocks ← ordered.mapM fun c => block vars.mapping "    " c.code
  let outs ← outputLines vars outputs
  return method (["cdef void _forward_model(self, double[:] params):"] ++ blocks
    ++ ["    return\n"] ++ postprocessLines outs)

/-! ## Likelihood -/

def guards (c : Component) : SymbolSet :=
  c.requires.filter (·.isKind .const)

def likelihoodBlocks (vars : Variables) (optionalTerms : Bool) (c : Component) :
    Except Fault (List String) := do
  let code ← Template.fillNamed vars.mapping c.code
  let checked := guards c
  if optionalTerms && !checked.isEmpty then
    let tests := checked.map fun s => "math.isfinite(" ++ s.bracketed ++ ")"
    let test ← Template.fillNamed vars.mapping ("    if " ++ Text.join " and " tests ++ ":")
    return [test, indentLines "        " code]
  else return [indentLines "    " code]

def renderLogLike (vars : Variables) (optionalTerms : Bool) (components : List Component) :
    Except Fault String := do
  let blocks ← (components.filter (·.isLikelihood)).mapM (likelihoodBlocks vars optionalTerms)
  return method (["cdef double _log_like(self, double[:] params):",
    "    cdef double logL = 0."] ++ blocks.flatten
    ++ ["    return logL if math.isfinite(logL) else -math.INFINITY\n"])

/-! ## The whole program -/

def nameList (names : List String) : String :=
  "[" ++ Text.join ", " (names.map Text.quoted) ++ "]"

def outputNames (outputs : List String) : List String :=
  ["log_like", "log_prior"] ++ outputs.map (Text.dropFirst 2)

def renderHeader (p : Program) (vars : Variables) : List String :=
  let typeOf (name : String) := (p.constantTypes.lookup name).getD "double"
  ["# Generated by Starlord.  Versions:", Text.join "\n" p.imports ++ "\n",
   "cdef class Model(BaseModel):",
   "    # Static metadata",
   "    ndim = " ++ toString vars.params.length,
   "    param_names = " ++ nameList (vars.params.map Symbol.name),
   "    output_names = " ++ nameList (outputNames p.outputs),
   "    var_names = " ++ nameList (vars.locals.map Symbol.name),
   "    const_names = " ++ nameList (vars.constants.map Symbol.name),
   "    optional_consts = " ++ nameList (Text.sort p.autoConstants),
   "    optional_likelihood_terms = " ++ p.optionalTerms.text,
   "    code_hash = []", "    code = []", "\n    # Constants"]
  ++ vars.constants.map (fun c => "    cdef public " ++ typeOf c.name ++ " " ++ c.ident)
  ++ ["\n    # Local variables"]
  ++ vars.locals.map (fun v => "    cdef public double " ++ v.ident)
  ++ [""]

/-! ## With the variables fixed on the way -/

def quantileText : ProgramM String := do
  let vars ← frozenVariables
  ofExcept (renderQuantile vars (← get).priors)

def logPriorText : ProgramM String := do
  let vars ← frozenVariables
  ofExcept (renderLogPrior vars (← get).priors)

def forwardText : ProgramM String := do
  let p ← get
  let ordered ← ofExcept (orderedForward p.components)
  let vars ← frozenVariables
  let text ← ofExcept (renderForward vars ordered p.outputs)
  p.defects.outputs.forM throw
  return text

def logLikeText : ProgramM String := do
  let p ← get
  if p.components.any (·.isLikelihood) then
    let vars ← frozenVariables
    ofExcept (renderLogLike vars p.optionalTerms.isOn p.components)
  else
    ofExcept (renderLogLike ⟨[], [], [], []⟩ false [])

def text : ProgramM String := do
  (← get).defects.imports.forM throw
  let vars ← frozenVariables
  let p ← get
  p.defects.outputNames.forM throw
  p.defects.autoConstants.forM throw
  if !vars.constants.isEmpty then p.defects.constantTypes.forM throw
  let header := renderHeader p vars
  let quantile ← quantileText
  let logPrior ← logPriorText
  let forward ← forwardText
  let logLike ← logLikeText
  return Text.join "\n" (header ++ [quantile, logPrior, forward, logLike]) ++ "\n"

end Program

end GridBayes
