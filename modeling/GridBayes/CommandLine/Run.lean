import GridBayes.Builder.Description
import GridBayes.CommandLine.Help
import GridBayes.CommandLine.Settings
import GridBayes.Deferred.Graph
import GridBayes.Posterior
import GridBayes.Sampler.Batch
import GridBayes.Sampler.Build

/-! What the program does: it lists grids, shows files, and fits the models that files describe. -/
namespace GridBayes.CommandLine

structure Console where
  session : Session := {}
  graph : Option (String × Deferred.Drawing) := none

abbrev ConsoleM := ExceptT Fault (StateM Console)

namespace Console

def inSession {β : Type} (m : SessionM β) : ConsoleM β := do
  let c ← get
  let (r, w) := m.run.run c.session
  set { c with session := w }
  ofExcept r

def say (text : String) : ConsoleM Unit :=
  inSession (Session.say text)

def inBuilder {β : Type} (b : Builder) (m : BuilderM β) : ConsoleM (β × Builder) := do
  let (r, b) := m.run.run b
  say b.said
  return (← ofExcept r, { b with said := "" })

variable [EnsembleLibrary]

def inFit {β : Type} (s : Sampler) (m : FitM β) : ConsoleM (β × Sampler) := do
  let c ← get
  let (r, f) := m.run.run ⟨c.session, s⟩
  set { c with session := f.session }
  return (← ofExcept r, f.sampler)

def heading (p : Palette) (title : String) : String :=
  "    " ++ p.underline ++ title ++ p.reset ++ "\n"

/-! ## Grids -/

def findGrid (name : String) : ConsoleM Grid := do
  if Text.endsWith ".npz" name then
    ofExcept ((← get).session.openGrid name)
  else
    match (← inSession Session.grids).lookup name with
    | some g => return g
    | none => throw (.unknownGrid name)

def listGrids : ConsoleM Unit := do
  say "Available grids:\n"
  let grids := (← inSession Session.grids).map (·.2)
  (Text.sortBy Grid.name grids).forM fun g =>
    say ("    " ++ Text.dropFirst 5 g.display ++ "\n")

def showGrids (a : Arguments) : ConsoleM Unit := do
  match a.input with
  | none => listGrids
  | some name =>
    let g ← findGrid name
    inSession (Session.sayAll (g.report true (Palette.choose !a.plainText)))

/-! ## Results -/

def entryLine (key value : String) : String :=
  "    " ++ Text.padRight 16 key ++ " " ++ value ++ "\n"

def showEntries (p : Posterior) : ConsoleM Unit := do
  let list (xs : List String) := Text.join ", " xs
  say "Posterior file with contents:\n"
  say (entryLine "output_names" (list p.outputNames))
  say (entryLine "param_names" (list p.paramNames))
  say (entryLine "constants" (list (← ofExcept p.constants.texts)))
  say (entryLine "const_names" (list p.constantNames))
  say (entryLine "code_hash" p.codeHash)
  say (entryLine "grids" (list p.grids))
  say (entryLine "grid_vars" (list p.gridVariables))
  say (entryLine "time" p.time)
  say (entryLine "starlord_version" p.version)
  say (entryLine "python_version" p.runtime)

def showPosterior (a : Arguments) (file : String) : ConsoleM Unit := do
  let plot := a.cornerPlot >>= Given.text?
  let p ← ofExcept (Posterior.load (← get).session.store file plot.isNone true)
  showEntries p
  if p.citations != "" then
    say ("\nGrid Citations:\n    " ++ Text.replaceWord "\n" "\n    " p.citations ++ "\n")
  match p.stats with
  | some s =>
    say "\nResults Summary:\n"
    say ((← ofExcept (s.namedTable (Cell.generalText 4) p.paramNames p.outputNames)) ++ "\n")
  | none => pure ()
  plot.forM fun target => do
    if a.verbose then say "Generating corner plot.\n"
    let samples ← ofExcept ((p.samples.getD .empty).firstColumns p.paramNames.length)
    inSession (Session.plotCorner samples (.str target) [("labels", .list (p.paramNames.map Value.str))])

/-! ## Models -/

def readSections (file : String) : ConsoleM (Option (List (String × Value))) := do
  match (← get).session.store.content (Path.ofText file) with
  | .error .nulInName | .ok (.archive _) => return none
  | .error e => throw e
  | .ok (.text text) =>
    match Toml.parse? text with
    | none => return none
    | some entries =>
      say (Builder.unusedSections file entries)
      return some entries

def describe (a : Arguments) (s : Settings) : ConsoleM Builder := do
  let start : Builder := {
    library := (← get).session.library
    verbose := a.verbose
    fancy := !a.plainText }
  match s.lookup "model" with
  | none => throw .noModel
  | some v =>
    let (_, b) ← inBuilder start (Builder.describe v)
    return b

def analyze (b : Builder) (constants : List (String × Value)) : ConsoleM Builder := do
  let (text, b) ← inBuilder b Builder.summary
  say (text ++ "\n")
  let (_, b) ← inBuilder b (Builder.checkConstants constants true)
  return b

def drawGraph (b : Builder) (file : String) : ConsoleM Builder := do
  let (r, b) ← inBuilder b Builder.resolve
  let d ← ofExcept (Deferred.Drawing.ofResolution r)
  modify fun c => { c with graph := some (Path.stem file ++ "_graph", d) }
  return b

def showCode (a : Arguments) (b : Builder) : ConsoleM Builder := do
  let (code, b) ← inBuilder b Builder.code
  say ((if a.plainText then code else Highlight.code Palette.terminal code) ++ "\n")
  return b

def inspect (a : Arguments) (file : String) (constants : List (String × Value)) (b : Builder) :
    ConsoleM Builder := do
  let b ← if a.analyze then analyze b constants else pure b
  let b ← if a.depGraph then drawGraph b file else pure b
  if a.code then showCode a b else return b

/-! ## Samplers -/

def sampler (b : Builder) (s : Settings) (constants : List (String × Value)) (source : Source) :
    ConsoleM (Sampler × Value) := do
  let sampling ← ofExcept (Settings.looked (s.part "sampling"))
  let (kind, entries) ← ofExcept (Settings.samplerEntries sampling)
  (Settings.unusedEntries sampling).forM fun k =>
    say ("Warning: sampling argument '" ++ k ++ "' was not used.\n")
  let entries ← ofExcept (Settings.looked entries)
  let (init, run) ← ofExcept (Settings.samplerSections entries)
  let init ← ofExcept (Settings.named init)
  let (sampler, _) ← inBuilder b (Builder.sampler kind constants init source)
  return (sampler, run)

def testPoint (text : String) : Except Fault (List Float) :=
  (Text.splitAt ',' (Text.replaceWord "\"" "" text)).mapM fun t => (Value.str t).toReal

def tryCase (p : Palette) (s : Sampler) (text : String) : ConsoleM Sampler := do
  let point ← ofExcept (testPoint text)
  if point.length != s.code.paramNames.length then throw .testCaseLength
  let (m, s) ← inFit s Fit.model
  let locals ← ofExcept (m.locals point.toArray)
  let names := s.code.paramNames ++ locals.map (·.1)
  if names.isEmpty then throw .emptyReduction
  let width := names.foldl (fun n name => max n name.length) 0
  let line (lead name : String) (x : Float) :=
    lead ++ Text.padRight width name ++ "  " ++ Decimal.pointedText 6 x ++ "\n"
  say (heading p "Test Case")
  say (String.join ((s.code.paramNames.zip point).map fun (name, x) => line "p." name x))
  say (String.join (locals.map fun (name, x) => line "v." name x))
  let logLike ← ofExcept (m.logLike point.toArray)
  say (Text.padRight width "log_like" ++ "    " ++ Decimal.pointedText 6 logLike ++ "\n")
  let logPrior ← ofExcept (m.logPrior point.toArray)
  say (Text.padRight width "log_prior" ++ "    " ++ Decimal.pointedText 6 logPrior ++ "\n")
  return s

def fit (out : Settings.OutputPlan) (run : Value) : FitM Unit := do
  Fit.run (← ofExcept (Settings.named run)) none
  if out.terminal then
    let text ← Fit.summary
    Fit.say (text ++ "\n")
  match out.file with
  | .null => pure ()
  | file => Fit.save file
  match out.cornerPlot with
  | .null => pure ()
  | file => Fit.plotCorner file (← ofExcept (Settings.named out.cornerOptions))

def fitBatch (a : Arguments) (out : Settings.OutputPlan) (run : Value) (table : Given) :
    FitM Unit := do
  let _ ← Fit.batch {
    settings := run
    input := table.toValue
    terminal := out.terminal
    output := out.file
    summaryFile := (a.batchSummary.map Given.toValue).getD .null
    workers := (a.batchThreads.map Value.int).getD (.list []) }

/-! ## The program -/

def fitModel (source : Source) (a : Arguments) (file : String) (s : Settings) :
    ConsoleM Unit := do
  let palette := Palette.choose !a.plainText
  let (s, constants) ← ofExcept (s.withArguments a)
  if a.verbose then say (heading palette "Settings" ++ s.shown ++ "\n")
  let b ← describe a s
  let b ← inspect a file constants b
  let case := a.testCase >>= Given.text?
  if a.dryRun && case.isNone then return
  let (sampler, run) ← sampler b s constants source
  let sampler ← match case with
    | some text => tryCase palette sampler text
    | none => pure sampler
  if a.dryRun then return
  let out ← ofExcept s.outputPlan
  let _ ← match a.batch with
    | some table => inFit sampler (fitBatch a out run table)
    | none => inFit sampler (fit out run)

def openFile (source : Source) (a : Arguments) (file : String) : ConsoleM (Option Int) := do
  match ← ofExcept (FileKind.ofFile (← get).session.store file) with
  | .grid =>
    let g ← ofExcept ((← get).session.openGrid file)
    inSession (Session.sayAll (g.report false Palette.terminal))
    return none
  | .posterior =>
    showPosterior a file
    return none
  | .unknown => throw (.unknownInput file)
  | .model =>
    match ← readSections file with
    | none =>
      say ("Error: can't parse '" ++ file ++ "':\n")
      return some 1
    | some entries =>
      fitModel source a file (Settings.defaults.updated entries)
      return none

def execute (source : Source) (a : Arguments) : ConsoleM (Option Int) := do
  if a.verbose then
    say (heading (Palette.choose !a.plainText) "CLI Arguments" ++ a.shown ++ "\n\n")
  if a.grids then
    showGrids a
    return none
  match a.input with
  | none => throw .badArgument
  | some file => openFile source a file

def run (source : Source) (words : List String) : ConsoleM (Option Int) :=
  match Arguments.parse words with
  | .error .help => do
    say Help.text
    return some 0
  | .error .version => do
    say (programName ++ " " ++ Fit.version ++ "\n")
    return some 0
  | .error .misuse => return some 2
  | .ok a => execute source a

end Console

end GridBayes.CommandLine
