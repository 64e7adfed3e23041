import GridBayes.Grid.Session
import GridBayes.Hash.Shake
import GridBayes.Model
import GridBayes.Sampler.EnsembleLibrary
import GridBayes.Sampler.Initial
import GridBayes.Sampler.Settings
import GridBayes.Stats

/-! Fitting a model: a sampler holds the code of a model, its constants and the settings, and after a
run the samples, their statistics and what the run was made with. -/
namespace GridBayes

/-- The ways of sampling; the abstract one has no run of its own. -/
inductive SamplerKind where
  | abstract
  | builtin
  | ensemble
  | nested
deriving Repr, DecidableEq

def SamplerKind.runnerName : SamplerKind → String
  | .abstract => "_Sampler"
  | .builtin => "SamplerBuiltin"
  | .ensemble => "SamplerEnsemble"
  | .nested => "SamplerNested"

/-- Rows of one width: the parameters and then the outputs. -/
structure Samples where
  width : Nat
  rows : List (List Float)
  rows_width : ∀ r ∈ rows, r.length = width

/-- Points with their outputs beside them. -/
def Samples.beside (ndim count : Nat) (points outputs : List (List Float)) : Samples where
  width := ndim + count
  rows := (points.zip outputs).map fun (p, o) =>
    (List.range ndim).map (p.getD · 0.0) ++ (List.range count).map (o.getD · 0.0)
  rows_width r hr := by
    obtain ⟨⟨p, o⟩, -, rfl⟩ := List.mem_map.mp hr
    simp

/-- What the last run was told. -/
structure LastRun where
  init : List (String × Value) := []
  settings : List (String × Value) := []
  start : Option (Tensor Float) := none
  constants : List Float := []

variable [EnsembleLibrary]

/-- A model with its constants, the settings of a sampler, and the results of its runs. -/
structure Sampler [EnsembleLibrary] where
  kind : SamplerKind
  code : ModelCode
  text : String := ""
  constants : List (String × Value) := []
  refresh : Bool := false
  model : Option (Model Float) := none
  init : List (String × Value) := []
  burnIn : Value := .int 500
  thin : Value := .int 1
  source : Source
  chain : Option (Chain Float) := none
  ensemble : Option EnsembleLibrary.Ensemble := none
  posterior : Option Samples := none
  stats : Option (Stats Float) := none
  last : LastRun := {}

namespace Sampler

open Settings

/-- A sampler before its first run, with the default settings of its kind. -/
def create (kind : SamplerKind) (code : ModelCode) (text : String)
    (constants init : List (String × Value)) (source : Source) : Sampler :=
  let s : Sampler := {
    kind := kind
    code := code
    text := text
    constants := constants
    source := source }
  match kind with
  | .builtin =>
    let init := withDefault init "nwalkers" (.int (max 40 (3 * code.ndim) : Nat))
    { s with init := withDefault init "ndim" (.int code.ndim) }
  | .ensemble =>
    { s with
      init := init.filter fun (k, _) => k != "burn_in" && k != "thin"
      burnIn := (init.lookup "burn_in").getD (.int 500)
      thin := (init.lookup "thin").getD (.int 1) }
  | _ => { s with init := init }

/-- The constants that a user gives: all but those that hold grids. -/
def constantNames (s : Sampler) : List String :=
  s.code.constantNames.filter fun c => !Text.startsWith "grid__" c

/-- The grids that the model reads, with their columns. -/
def gridsUsed (s : Sampler) : Except Fault (List (String × List String)) := do
  let columns ← (s.code.constantNames.filter (Text.startsWith "grid__")).mapM Model.gridColumn
  return columns.foldl (fun used (grid, name) =>
    setEntry used grid ((used.lookup grid).getD [] ++ [name])) []

end Sampler

/-- A sampler and the session that its grids and files belong to. -/
structure Fit [EnsembleLibrary] where
  session : Session
  sampler : Sampler

abbrev FitM := ExceptT Fault (StateM Fit)

namespace Fit

open Settings

def inSession {β : Type} (m : SessionM β) : FitM β := do
  let f ← get
  let (r, w) := m.run.run f.session
  set { f with session := w }
  ofExcept r

def change (f : Sampler → Sampler) : FitM Unit :=
  modify fun w => { w with sampler := f w.sampler }

def changeLast (f : LastRun → LastRun) : FitM Unit :=
  change fun s => { s with last := f s.last }

def say (text : String) : FitM Unit :=
  inSession (Session.say text)

def current : FitM Sampler := do
  return (← get).sampler

/-! ## Constants and model -/

/-- Constants are set or replaced; the model takes them over when it is used next. -/
def setConstants (entries : List (String × Value)) : FitM Unit :=
  change fun s => { s with
    constants := entries.foldl (fun es (k, v) => setEntry es k v) s.constants
    refresh := true }

def constantReal : Value → Except Fault Float
  | .complex re _ => .ok re
  | .str _ => .error (.notReal "numpy.str_")
  | v => real v

/-- Constants that were changed are handed to the model one by one, and those before a refused one stay. -/
def takeOver (m : Model Float) : List (String × Value) → FitM (Model Float)
  | [] => return m
  | (name, v) :: rest => do
    let x ← ofExcept (constantReal v)
    let m ← ofExcept (m.setConstant name x)
    change fun s => { s with model := some m }
    takeOver m rest

/-- The model is made when it is first needed, and refreshed if constants have changed since. -/
def model : FitM (Model Float) := do
  let s ← current
  match s.model with
  | none =>
    let given := s.constants.filter fun (k, _) => s.code.constantNames.contains k
    let given ← ofExcept (given.mapM fun (k, v) => do return (k, ← constantReal v))
    let m ← ofExcept (Model.create s.code (← get).session.library given)
    change fun s => { s with model := some m }
    return m
  | some m => if s.refresh then takeOver m s.constants else return m

/-- A constant is refused if it is not finite, or if that cannot be told. -/
def checkFinite (name : String) (v : Value) : Except Fault Unit :=
  let parts : Except Fault (List Float) := match v with
    | .complex re im => .ok [re, im]
    | v => (real v).map fun x => [x]
  match parts with
  | .ok xs => if xs.all Float.isFinite then .ok () else .error (.constantNotFinite name v.text)
  | .error _ => .error .finitenessUnknown

/-- The constants of the model have to be given, and to be finite unless that is waived. Others get a warning. -/
def validate (allowNaN : Bool) : FitM Unit := do
  let s ← current
  let expected := Text.sort (Text.dedup (s.constantNames.filter fun c => !s.code.optionalConstants.contains c))
  let given := s.constants.map (·.1)
  let missing := expected.filter fun c => !given.contains c
  if !missing.isEmpty then throw (.constantsMissing missing)
  let extra := Text.sort (given.filter fun c => !expected.contains c)
  if !extra.isEmpty then say ("Warning, unused constants: " ++ Text.join ", " extra ++ "\n")
  if !allowNaN then
    expected.forM fun c => ofExcept (checkFinite c ((s.constants.lookup c).getD .null))

/-! ## Results -/

def stats : FitM (Stats Float) := do
  match (← current).stats with
  | some s => return s
  | none => throw .noStats

def posterior : FitM Samples := do
  match (← current).posterior with
  | some p => return p
  | none => throw .noResults

def ensemble : FitM EnsembleLibrary.Ensemble := do
  match (← current).ensemble with
  | some e => return e
  | none => throw .notStarted

def keptRows : FitM (List (List Float)) := do
  let s ← current
  ofExcept (EnsembleLibrary.chain (← ensemble) s.burnIn s.thin)

/-- The shown results: a chain leaves out the last two outputs, an ensemble shows the points. -/
def results : FitM (List (List Float)) := do
  match (← current).kind with
  | .abstract => return (← posterior).rows
  | .builtin => return (← posterior).rows.map fun r => r.take (r.length - 2)
  | .ensemble => keptRows
  | .nested => throw .notStarted

/-- Every grid that is used, with what it asks to cite. -/
def citations : FitM (List String) := do
  let used ← ofExcept (← current).gridsUsed
  used.mapM fun (name, _) => do
    return name ++ ": " ++ (← inSession (Session.grid name)).citations

def convergence : FitM String := do
  let s ← current
  let times ← ofExcept (EnsembleLibrary.times (← ensemble) s.burnIn s.thin)
  match times with
  | none => return "Too few samples to estimate convergence.\n"
  | some [] => throw .emptyReduction
  | some (t :: rest) =>
    let time := rest.foldl (fun t x => if t < x then x else t) t
    let steps ← ofExcept (real ((s.last.settings.lookup "nsteps").getD .null))
    return "Convergence: Tau = " ++ Decimal.fixedText 2 time ++ "; N/Tau = "
      ++ Decimal.fixedText 2 (steps / time) ++ "\n"

/-- The text that a run shows: its convergence, the citations and a table of the results. -/
def summary : FitM String := do
  let s ← current
  let lead ← if s.kind = .ensemble then convergence else pure ""
  let cited ← citations
  if !cited.isEmpty then
    say ("Grid Citations:\n    " ++ Text.join "\n    " cited ++ "\n")
  return lead ++ (← ofExcept ((← stats).summary s.code.paramNames s.code.outputNames))

/-! ## Runs -/

/-- A start at random points that have a probability. -/
def searchStart (count : Value) : FitM (List (Array Float)) := do
  let count ← ofExcept (whole count)
  if count < 0 then throw (.unusablePoint "negative dimensions are not allowed")
  let m ← model
  ofExcept (Tensor.checkRoom [count.toNat, m.code.ndim])
  let (rows, source) ← ofExcept (Initial.state m.target m.code.ndim 100 count.toNat (← current).source)
  change fun s => { s with source := source }
  if !rows.all (·.all Float.isFinite) then throw .noStart
  return rows

def givenStart (t : Tensor Float) : Except Fault (List (Array Float)) :=
  if t.rank = 2 then .ok (t.rows.map (·.toArray))
  else .error (.unusablePoint ("Buffer has wrong number of dimensions (expected 2, got " ++ toString t.rank ++ ")"))

/-- The values of the constants as the model has them. -/
def constantValues : FitM (List Float) := do
  let s ← current
  (s.constantNames.filter fun c => !Text.startsWith "grid" c).mapM fun c => do
    ofExcept ((← model).constant c)

/-- The end of a run: the outputs are put beside the points, and the statistics are taken. -/
def conclude (ndim : Nat) (points : List (List Float)) : FitM Unit := do
  let outputs ← ofExcept ((← model).outputRows points)
  let p := Samples.beside ndim (← current).code.outputNames.length points outputs
  change fun s => { s with posterior := some p }
  let stats ← ofExcept (Stats.ofSamples p.width p.rows)
  change fun s => { s with stats := some stats }

/-- A run that is about to sample, with the target it will explore. -/
inductive Launch where
  | chain (c : Chain Float) (settings : RunSettings Float) (points : List (Array Float))
  | ensemble (e : EnsembleLibrary.Ensemble) (settings : List (String × Value)) (start : Option (Tensor Float))

/-- A run of the built-in ensemble. What it says and its state stay, also if it is refused. -/
def runChain (c : Chain Float) (settings : RunSettings Float) (start : List (Array Float)) : FitM Unit := do
  let (r, d) := (Chain.run settings start).run.run { c with source := (← current).source }
  change fun s => { s with chain := some { d with said := "" }, source := d.source }
  say d.said
  ofExcept r
  conclude c.ndim (Chain.rows (← ofExcept d.records))

/-- Where walkers start: at given points, which are looked at later, or at points that are searched for. -/
def chainStart (settings : List (String × Value)) (start : Option (Tensor Float)) (size : Value) :
    FitM (Except Fault (List (Array Float))) :=
  match start, settings.lookup "initial_state" with
  | some t, _ => return givenStart t
  | none, some v => return .error (.notAnArray v.typeName)
  | none, none => do return .ok (← searchStart size)

def launchBuiltin (settings : List (String × Value)) (start : Option (Tensor Float)) : FitM Launch := do
  let s ← current
  validate s.code.optionalTerms.isOn
  changeLast fun l => { l with init := s.init }
  let m ← model
  let ndim ← ofExcept (counted ((s.init.lookup "ndim").getD .null))
  let size := (s.init.lookup "nwalkers").getD .null
  let chain ← ofExcept (Chain.create m.target ndim (← ofExcept (counted size)) none s.source)
  change fun s => { s with chain := some chain }
  let settings := withDefault settings "n_samples" (.int 4000)
  let settings := withDefault settings "burn_in" (.int 500)
  let settings := withDefault settings "thin" (.int 5)
  let settings := withDefault settings "alpha" (.float 2.0)
  changeLast fun l => { l with settings := settings, start := start }
  let constants ← constantValues
  changeLast fun l => { l with constants := constants }
  let points ← chainStart settings start size
  let (settings, points) ← ofExcept (RunSettings.withStart (settings.filter fun (k, _) => k != "initial_state") points)
  return .chain chain settings points

def sum (a b : Value) : Except Fault Value := do
  match whole a, whole b with
  | .ok m, .ok n => return .int (m + n)
  | _, _ => return .float ((← real a) + (← real b))

/-- Whether a run asks for more than one worker. -/
def isParallel (settings : List (String × Value)) : Except Fault Bool :=
  match settings.lookup "threads" with
  | none => .ok false
  | some (.float x) => if 1.0 < x then .error (.notAnIndex "float") else .ok false
  | some v => (whole v).map fun n => decide (1 < n)

def ensembleStart (settings : List (String × Value)) (start : Option (Tensor Float)) (size : Value) :
    FitM (Option (Tensor Float)) :=
  match start, settings.lookup "initial_state" with
  | none, none => do
    let rows ← searchStart size
    return some ⟨[rows.length, (← current).code.ndim], (rows.map (·.toList)).flatten.toArray⟩
  | given, _ => return given

def launchEnsemble (settings : List (String × Value)) (start : Option (Tensor Float)) : FitM Launch := do
  let s ← current
  let parallel := isParallel settings
  let settings := settings.filter fun (k, _) => k != "threads"
  validate s.code.optionalTerms.isOn
  let m ← model
  let init := withDefault s.init "nwalkers" (.int (max 100 (5 * s.code.ndim) : Nat))
  let init := withDefault init "ndim" (.int s.code.ndim)
  changeLast fun l => { l with init := init }
  let settings := withDefault settings "nsteps" (.int 5000)
  let settings := withDefault settings "progress" (.bool true)
  changeLast fun l => { l with settings := settings, start := start }
  let constants ← constantValues
  changeLast fun l => { l with constants := constants }
  let start ← ensembleStart settings start ((init.lookup "nwalkers").getD .null)
  let count ← ofExcept (sum ((settings.lookup "nsteps").getD .null) s.burnIn)
  let parallel ← ofExcept parallel
  if parallel && (init.lookup "pool").isSome then throw .badArgument
  let e ← ofExcept (EnsembleLibrary.create init parallel m.target (← current).source)
  return .ensemble e (setEntry settings "nsteps" count) start

/-- All that is checked and made before the steps of a run. -/
def launch (settings : List (String × Value)) (start : Option (Tensor Float)) : FitM Launch := do
  if (settings.lookup "self").isSome then throw .badArgument
  let s ← current
  match s.kind with
  | .abstract => throw .abstractSampler
  | .builtin => launchBuiltin settings start
  | .ensemble => launchEnsemble settings start
  | .nested =>
    validate s.code.optionalTerms.isOn
    throw .missingPart

/-- The steps of a run, and its results. -/
def sample : Launch → FitM Unit
  | .chain c settings points => runChain c settings points
  | .ensemble e settings start => do
    let (r, e) := EnsembleLibrary.run settings start e
    change fun s => { s with ensemble := some e, source := EnsembleLibrary.source e }
    say (EnsembleLibrary.said e)
    ofExcept r
    conclude (EnsembleLibrary.ndim e) (← keptRows)

def run (settings : List (String × Value)) (start : Option (Tensor Float)) : FitM Unit := do
  sample (← launch settings start)

/-! ## Saving -/

def version : String :=
  "0.2.5"

def matrix (width : Nat) (rows : List (List Float)) : Item :=
  .reals ⟨[rows.length, width], rows.flatten.toArray⟩

/-- The entries of the file that a sampler is saved to. -/
def archiveOf (s : Sampler) (session : Session) (p : Samples) (stats : Stats Float)
    (used : List (String × List String)) (cited : List String) : Archive :=
  let ndim := s.code.ndim
  let table := stats.toRows true
  [("params", matrix (min ndim p.width) (p.rows.map (·.take ndim))),
    ("outputs", matrix (p.width - ndim) (p.rows.map (·.drop ndim))),
    ("consts", .reals (Tensor.ofList s.last.constants)),
    ("output_names", .texts s.code.outputNames),
    ("param_names", .texts s.code.paramNames),
    ("const_names", .texts s.constantNames),
    ("code", .text s.text),
    ("code_hash", .text (Hash.ofText s.text)),
    ("grids", .texts (used.map (·.1))),
    ("grid_vars", .texts (used.flatMap fun (g, keys) => keys.map fun k => g ++ "__" ++ k)),
    ("stats", matrix (5 + table.length) table),
    ("citations", .text (Text.join "\n" cited)),
    ("time", .text session.time),
    ("starlord_version", .text version),
    ("python_version", .text session.runtime)]

def toArchive : FitM Archive := do
  let s ← current
  let session := (← get).session
  let used ← ofExcept s.gridsUsed
  let p ← posterior
  let _ ← model
  let stats ← stats
  return archiveOf s session p stats used (← citations)

def save (file : Value) : FitM Unit := do
  let a ← toArchive
  let file ← ofExcept (file.needText .badArgument)
  let f ← get
  let store ← ofExcept (f.session.store.write (Path.ofText (Path.withExtension ".npz" file)) (.archive a))
  set { f with session := { f.session with store := store } }

/-- A plot of the parameters against each other. -/
def plotCorner (file : Value) (options : List (String × Value)) : FitM Unit := do
  if ["self", "filename"].any fun k => (options.lookup k).isSome then throw .badArgument
  let s ← current
  let options := withDefault options "labels" (.list (s.code.paramNames.map Value.str))
  let p ← posterior
  let ndim := s.code.ndim
  let samples := ⟨[p.rows.length, min ndim p.width], (p.rows.flatMap (·.take ndim)).toArray⟩
  inSession (Session.plotCorner (.ofReals samples) file options)

end Fit

end GridBayes
