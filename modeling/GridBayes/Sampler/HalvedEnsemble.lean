import GridBayes.Sampler.EnsembleLibrary
import GridBayes.Sampler.EnsembleSetup

/-! A library of ensembles whose walkers are stretched towards those of the other half. Settings that it cannot use
are refused when the ensemble is made or when it is run, each in its own way. -/
namespace GridBayes

namespace EnsembleSetup

open Settings

def names : List String :=
  ["nwalkers", "ndim", "log_prob_fn", "pool", "moves", "args", "kwargs", "backend", "vectorize",
    "blobs_dtype", "parameter_names", "a", "postargs", "threads", "live_dangerously",
    "runtime_sortingfn"]

def runNames : List String :=
  ["nsteps", "initial_state", "progress", "skip_initial_state_check", "tune", "thin_by", "thin",
    "store", "log_prob0", "rstate0", "blobs0", "progress_kwargs"]

def create (init : List (String × Value)) (pooled : Bool) : Except Fault EnsembleSetup := do
  checkNames "EnsembleSampler.__init__" names init
  let noStep ← moveFault ((init.lookup "moves").getD .null)
  (lacks init "backend" "initialized").forM throw
  let size ← Count.ofValue ((init.lookup "nwalkers").getD .null)
  let dimension := (init.lookup "ndim").getD .null
  let ndim ← Count.ofValue dimension
  Tensor.checkRoom [size.whole]
  Tensor.checkRoom [0, size.whole, ndim.whole]
  let atOnce := ((init.lookup "vectorize").map Value.isOn).getD false
  let places ← match (init.lookup "parameter_names").getD .null with
    | .null => pure none
    | v => do pure (some (← namedPlaces dimension ndim atOnce v))
  return {
    size := size
    ndim := ndim
    noStep := noStep
    places := places
    noCall := callFault init places.isSome
    noWorker := lacks init "pool" "map"
    atOnce := atOnce
    quiet := pooled
    args := shownOr "[]" (init.lookup "args")
    kwargs := shownOr "\x7b\x7d" (init.lookup "kwargs") }

def startRows (s : EnsembleSetup) (t : Tensor Float) : Except Fault (List (Array Float)) :=
  let t : Tensor Float := if t.rank < 2 then ⟨[1, t.data.size], t.data⟩ else t
  if t.shape = [s.size.whole, s.ndim.whole] && s.size.isWhole && s.ndim.isWhole then .ok (t.rows.map (·.toArray))
  else .error (.unusablePoint ("incompatible input dimensions " ++ t.shapeText))

structure Pace where
  steps : Nat
  every : Nat

def distance (v : Value) : Except Fault Nat := do
  let n ← wholeNumber v
  if n ≤ 0 then throw .wrongRank
  return n.toNat

/-- The pace of `count` rounds: `thin` rounds of one step make a record, or one round of `thin_by` steps does. -/
def paceOf (size ndim : Nat) (settings : List (String × Value)) (count : Value) :
    Except Fault Pace := do
  let (each, every) ← match (settings.lookup "thin").getD .null with
    | .null =>
      let n ← distance ((settings.lookup "thin_by").getD (.int 1))
      pure (n, n)
    | v => pure (1, ← distance v)
  let count ← whole count
  if !((settings.lookup "store").map Value.isOn).getD true then return ⟨count.toNat * each, 0⟩
  if count < 0 then throw (.unusablePoint "negative dimensions are not allowed")
  Tensor.checkRoom [count.toNat * each / every, size, ndim]
  return ⟨count.toNat * each, every⟩

def checkGiven (size : Count) (v : Value) : Except Fault Unit := do
  let items ← match v with
    | .list items => pure items
    | _ => throw .wrongRank
  let isList (v : Value) : Bool := match v with
    | .list _ => true
    | _ => false
  if !size.isExactly items.length || items.any isList then throw .wrongRank
  let xs ← items.mapM fun v => if v.str?.isSome then .error .badArgument else real v
  if xs.any Float.isNaN then throw (.unusablePoint "The initial log_prob was NaN")

def checkDisplay (v : Value) : Except Fault Unit :=
  match v with
  | .null => .ok ()
  | .table entries =>
    if entries.any fun (k, _) => k == "display" || k == "total" then .error .badArgument else .ok ()
  | _ => .error .badArgument

end EnsembleSetup

/-- An ensemble, and what was said while it ran. -/
structure Progress where
  ensemble : Ensemble Float
  said : String := ""

abbrev ProgressM := ExceptT Fault (StateM Progress)

namespace Progress

def say (text : String) : ProgressM Unit :=
  modify fun p => { p with said := p.said ++ text }

/-- An operation of the ensemble. The point that its target failed at is said, unless workers evaluate it. -/
def inEnsemble (setup : EnsembleSetup) (m : EnsembleM Float Unit) : ProgressM Unit := do
  let (r, e) := m.run.run (← get).ensemble
  modify fun p => { p with ensemble := { e with failed := none } }
  if !setup.quiet then
    e.failed.toList.forM fun point => do say (setup.failureText (← ofExcept (setup.pointText point)))
  ofExcept r

def evaluateStart (setup : EnsembleSetup) (points : List (Array Float)) : ProgressM Unit := do
  ofExcept (Ensemble.checkPoints points)
  let shown ← ofExcept (points.mapM setup.pointText)
  if setup.atOnce then
    say (setup.failureText (EnsembleSetup.matrixText setup.ndim.whole points))
    throw (setup.noCall.getD (.unusablePoint "Buffer has wrong number of dimensions (expected 1, got 2)"))
  setup.noWorker.forM throw
  match setup.noCall, shown with
  | some f, text :: _ =>
    if !setup.quiet then say (setup.failureText text)
    throw f
  | _, _ => inEnsemble setup (Ensemble.place points)

def run (setup : EnsembleSetup) (settings : List (String × Value)) (start : Option (Tensor Float)) : ProgressM Unit := do
  ofExcept (Settings.checkNames "EnsembleSampler.sample" EnsembleSetup.runNames settings)
  let setting (key : String) := (settings.lookup key).getD .null
  let points ← ofExcept (match start with
    | some t => setup.startRows t
    | none => Tensor.ofNested (setting "initial_state") >>= setup.startRows)
  let unchecked := ((settings.lookup "skip_initial_state_check").map Value.isOn).getD false
  inEnsemble setup (Ensemble.checkStart points unchecked)
  let isGiven : Bool := match setting "log_prob0" with
    | .null => false
    | _ => true
  if isGiven then ofExcept (EnsembleSetup.checkGiven setup.size (setting "log_prob0"))
  else evaluateStart setup points
  let (size, ndim) := (setup.size.whole, setup.ndim.whole)
  let pace ← ofExcept (EnsembleSetup.paceOf size ndim settings (setting "nsteps"))
  if isGiven && 0 < pace.every then
    (EnsembleSetup.lacks settings "blobs0" "dtype").forM throw
  setup.noWorker.forM throw
  ofExcept (EnsembleSetup.checkDisplay (setting "progress_kwargs"))
  if 0 < pace.steps then
    setup.noStep.forM throw
    if isGiven then throw (if size < 2 * ndim then .tooFewWalkers else .badArgument)
  inEnsemble setup (Ensemble.steps pace.every pace.steps 0)

end Progress

namespace EnsembleSetup

theorem ndim_create {init : List (String × Value)} {pooled : Bool} {s : EnsembleSetup} {n : Nat}
    (h : create init pooled = .ok s) (hn : init.lookup "ndim" = some (.int n)) : s.ndim.whole = n := by
  have hcount : Count.ofValue (.int n) = .ok ⟨n, true⟩ := by
    simp [Count.ofValue, Settings.wholeNumber, Settings.wholePart, bind, Except.bind, pure, Except.pure]
  unfold create at h
  simp only [hn, Option.getD_some, hcount, bind, Except.bind, pure, Except.pure] at h
  repeat' split at h
  all_goals cases h
  all_goals rfl

end EnsembleSetup

instance : EnsembleLibrary where
  Ensemble := EnsembleSetup × Progress
  create init pooled target source := do
    let setup ← EnsembleSetup.create init pooled
    return (setup, { ensemble := { target, ndim := setup.ndim.whole, size := setup.size.whole, source } })
  run settings start e :=
    let (r, p) := (Progress.run e.1 settings start).run.run { e.2 with said := "" }
    (r, e.1, p)
  chain e discard thin := do
    let _ ← e.2.ensemble.records
    return Ensemble.rows (← e.2.ensemble.kept (← Settings.whole discard) (← Settings.whole thin))
  times e discard thin := do
    let _ ← e.2.ensemble.records
    e.2.ensemble.autocorrelation (← Settings.whole discard) (← Settings.whole thin)
  ndim e := e.1.ndim.whole
  source e := e.2.ensemble.source
  said e := e.2.said
  ndim_create {init pooled _ _ _ _} h hn := by
    cases hs : EnsembleSetup.create init pooled with
    | error =>
      rw [hs] at h
      cases h
    | ok setup =>
      rw [hs] at h
      cases h
      exact EnsembleSetup.ndim_create hs hn
  ndim_run _ _ _ := rfl

end GridBayes
