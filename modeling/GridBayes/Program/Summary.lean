import GridBayes.Program.Render

/-! A program as a reader sees it: the forward model, the likelihood, the priors with warnings, and
the variables. -/
namespace GridBayes.Program

def heading (p : Palette) (s : String) : String :=
  "    " ++ p.underline ++ s ++ p.reset

def summaryComponents : List Component → ProgramM (List String × List String)
  | [] => pure ([], [])
  | c :: rest => do
    let shown ← ofExcept c.display
    if c.isLikelihood then
      let (forward, like) ← summaryComponents rest
      return (forward, shown :: like)
    else
      let vars ← frozenVariables
      let line ← ofExcept (Template.fillNamed vars.mapping shown)
      let (forward, like) ← summaryComponents rest
      return (line :: forward, like)

def priorWarnings (p : Palette) (vars : Variables) : List String :=
  let warn (s : String) := p.red ++ s ++ p.reset
  (SymbolSet.diff vars.priorParams vars.params).map (fun s =>
    warn ("Warning: Prior set for unused parameter " ++ s.text))
  ++ (SymbolSet.diff vars.params vars.priorParams).map (fun s =>
    warn ("Warning: Prior not set for " ++ s.text))

def variableLine (title : String) (group : SymbolSet) : List String :=
  if group.isEmpty then [] else [Text.padRight 12 title ++ Text.join ", " group.texts]

def summary (fancy : Bool) : ProgramM String := do
  let p ← get
  let ordered ← ofExcept (Order.sort .localVar p.components)
  let (forward, like) ← summaryComponents ordered
  let priors ← ofExcept ((sortedPriors p.priors).mapM Prior.display)
  let vars ← frozenVariables
  let lines := [heading p.palette "Forward Model"] ++ forward
    ++ ["\n" ++ heading p.palette "Likelihood"] ++ like
    ++ ["\n" ++ heading p.palette "Prior"] ++ priors ++ priorWarnings p.palette vars
    ++ ["\n" ++ heading p.palette "Variables"]
    ++ variableLine "Params:" vars.params ++ variableLine "Constants:" vars.constants
    ++ variableLine "Locals:" vars.locals
  let result := Text.join "\n" lines
  return if fancy then Highlight.apply p.palette result else result

end GridBayes.Program
