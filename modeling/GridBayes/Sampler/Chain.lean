import GridBayes.Numeric.Double
import GridBayes.Numeric.Statistics
import GridBayes.Sampler.Walker
import GridBayes.Target

/-! An ensemble of walkers that explores a target by stretch moves and jumps. A run records the
walkers at regular steps; while the first and the second half of the recording differ too much,
every second record is kept and sampling goes on with twice the thinning. -/
namespace GridBayes
open Scalar

/-- How many moves were offered, and how many of them were taken. -/
structure Tally where
  trials : Nat := 0
  accepted : Nat := 0
deriving Repr, DecidableEq

def Tally.count (t : Tally) (success : Bool) : Tally :=
  ⟨t.trials + 1, if success then t.accepted + 1 else t.accepted⟩

/-- The walkers at one step of a run. -/
abbrev Record (α : Type) := Array (Walker α)

/-- An ensemble: its target, its random numbers, its walkers and what was recorded of them. -/
structure Chain (α : Type) where
  target : Target α
  ndim : Nat
  size : Nat
  factor : List (List α)
  source : Source
  walkers : Record α := #[]
  recording : Option (Array (Record α)) := none
  jumps : Tally := {}
  stretches : Tally := {}
  said : String := ""

abbrev ChainM (α : Type) := ExceptT Fault (StateM (Chain α))

/-- The settings of a run. With `presamples` below zero a tenth of the samples is used for the first look. -/
structure RunSettings (α : Type) where
  samples : Int
  burnIn : Int
  thin : Int := 4
  progress : Bool := false
  scale : α
  jumpFraction : α
  presamples : Int := -1
  threshold : α
  rounds : Int := 6

namespace Chain

variable {α : Type} [Scalar α]

/-! ## Making an ensemble -/

/-- The first covariance of jumps: each parameter has the scale of a small step mid-prior. -/
def priorFactor (t : Target α) (ndim : Nat) : Except Fault (List (List α)) := do
  let middle ← t.transform (Array.replicate ndim 0.5)
  let aside ← t.transform (Array.replicate ndim 0.55)
  let scales := (List.range ndim).map fun i => sqrt (fabs (aside.getD i nan - middle.getD i nan))
  return scales.zipIdx.map fun (x, i) => (List.range ndim).map fun j => if i == j then x else 0.0

/-- The factor of a covariance that the user gives, which has to be square and positive. -/
def givenFactor (ndim : Nat) (cov : List (List α)) : Except Fault (List (List α)) := do
  if cov.length != ndim || !cov.all (fun row => row.length == ndim) then throw .covarianceShape
  match Statistics.cholesky cov with
  | some l => return l
  | none => throw .notPositive

/-- An ensemble has more than twice as many walkers as coordinates, and its memory has to fit. -/
def create (t : Target α) (ndim size : Int) (cov : Option (List (List α))) (source : Source) :
    Except Fault (Chain α) := do
  if !(0 < ndim && inWord (2 * ndim) < size) then throw .badRunSetting
  if Int.pow 2 31 ≤ size + 2 + ndim then throw .wrongRank
  Tensor.checkRoom [(size + 2 + ndim).toNat, (ndim + 1).toNat]
  let factor ← match cov with
    | some cov => givenFactor ndim.toNat cov
    | none => priorFactor t ndim.toNat
  return {
    target := t
    ndim := ndim.toNat
    size := size.toNat
    factor := factor
    source := source }

/-! ## Steps -/

/-- The next random number of the source. -/
def draw : ChainM α Nat := do
  let c ← get
  let (n, source) := c.source.next
  set { c with source := source }
  return n

def drawUnit : ChainM α α := do
  return Source.toUnit (← draw)

def drawUnits : (count : Nat) → ChainM α (List α)
  | 0 => return []
  | count + 1 => do
    let u ← drawUnit
    return u :: (← drawUnits count)

/-- A walker moves along the line through another one, or stays. -/
def stretch (scale : α) (i : Nat) : ChainM α Unit := do
  let j := Walker.partner i ((← draw) % ((← get).size - 1))
  let z := Walker.stretchFactor scale (← drawUnit)
  let c ← get
  match c.walkers[i]?, c.walkers[j]? with
  | some w, some other =>
    let point := w.stretched other z
    let logProb ← ofExcept (c.target.logProb point)
    let gain := Walker.stretchGain c.ndim z logProb
    let threshold := log (← drawUnit)
    modify fun c => { c with
      walkers := c.walkers.setIfInBounds i (w.offered ⟨point, logProb⟩ gain threshold)
      stretches := c.stretches.count (w.accepts gain threshold) }
  | _, _ => return ()

/-- A walker moves by a normal step with the covariance of the ensemble, or stays. -/
def jump (i : Nat) : ChainM α Unit := do
  let us ← drawUnits (← get).ndim
  let c ← get
  match c.walkers[i]? with
  | some w =>
    let point := w.jumped c.factor us
    let logProb ← ofExcept (c.target.logProb point)
    let threshold := log (← drawUnit)
    modify fun c => { c with
      walkers := c.walkers.setIfInBounds i (w.offered ⟨point, logProb⟩ logProb threshold)
      jumps := c.jumps.count (w.accepts logProb threshold) }
  | none => return ()

def forWalkers (f : Nat → ChainM α Unit) : (left i : Nat) → ChainM α Unit
  | 0, _ => return ()
  | left + 1, i => do
    f i
    forWalkers f left (i + 1)

/-- All walkers move once, in one of the two ways. -/
def step (scale jumpFraction : α) : ChainM α Unit := do
  let u : α ← drawUnit
  let c ← get
  if lt u jumpFraction then forWalkers jump c.size 0 else forWalkers (stretch scale) c.size 0

/-- The walkers are written at a place of the recording, if there is one. -/
def record (k : Nat) : ChainM α Unit :=
  modify fun c => { c with recording := c.recording.map fun r => r.setIfInBounds k c.walkers }

/-- A step, with a record if it is one of those to keep. Thinning that is doubled beyond a word may be negative. -/
def stepAt (scale jumpFraction : α) (thin : Int) (recorded : Bool) (i : Nat) : ChainM α Unit := do
  step scale jumpFraction
  if recorded && Int.tmod i thin == 0 then
    record (placeOf ((← get).recording.getD #[]).size (Int.tdiv i thin)).toNat

def steps (scale jumpFraction : α) (thin : Int) (recorded : Bool) :
    (left i : Nat) → ChainM α Unit
  | 0, _ => return ()
  | left + 1, i => do
    stepAt scale jumpFraction thin recorded i
    steps scale jumpFraction thin recorded left (i + 1)

/-- Steps from `start` on; `count` records of `thin` steps each are counted in a word. -/
def advance (scale jumpFraction : α) (thin : Int) (recorded : Bool) (count start : Nat) :
    ChainM α Unit := do
  if recorded then
    match (← get).recording with
    | some r => if r.size < count then throw .badRunSetting
    | none => throw .badRunSetting
  steps scale jumpFraction thin recorded ((inWord (count * thin)).toNat - start) start

/-! ## Recordings -/

/-- One walker of a record, copied within the memory. -/
def copyWalker (memory : Array (Record α)) (source dest i : Nat) : Array (Record α) :=
  match (memory[source]?).bind (·[i]?) with
  | some w => memory.modify dest fun r => r.setIfInBounds i w
  | none => memory

def copyRecord (size : Nat) (memory : Array (Record α)) (source dest : Nat) : Array (Record α) :=
  (List.range size).foldl (fun m i => copyWalker m source dest i) memory

/-- Every second record from `burn` on, `count` of them, written to the front of the same memory in
order. -/
def compact (size burn count : Nat) (memory : Array (Record α)) : Array (Record α) :=
  (List.range count).foldl (fun m k => copyRecord size m (burn + 2 * k) k) memory

/-- How many records stand at every second place from `burn` on. -/
def everySecond (total burn : Nat) : Nat :=
  (total - burn + 1) / 2

/-- Every second record comes to the front, if they are as many as are to be kept. -/
def thinOut (burn keep : Nat) : ChainM α Unit := do
  let c ← get
  match c.recording with
  | some r =>
    if everySecond r.size burn != keep then throw .shapesDiffer
    set { c with recording := some (compact c.size burn keep r) }
  | none => return ()

/-- The points of all walkers, record by record. -/
def rows (records : List (Record α)) : List (List α) :=
  records.flatMap fun r => r.toList.map fun w => w.point.toList

/-! ## Convergence -/

/-- One coordinate of one walker through the records. -/
def trace (records : List (Record α)) (w k : Nat) : List α :=
  records.map fun r => ((r[w]?).bind (·.point[k]?)).getD nan

/-- How much the two halves of a trace differ, compared with the variance within them. -/
def disagreement (first second : List α) : α :=
  let within := Statistics.mean [Statistics.variance first, Statistics.variance second]
  let across := Statistics.variance [Statistics.mean first, Statistics.mean second]
  sqrt ((1.0 - 1.0 / ofNat first.length) + across / within)

/-- The greater of two numbers; what is not a number is the worst. -/
def worse (x y : α) : α :=
  if isNaN x then x else if isNaN y then y else if lt x y then y else x

/-- The mean disagreement of the walkers between the halves of the recording, at the worst coordinate. -/
def convergence (c : Chain α) : Except Fault α :=
  match c.recording with
  | none => .error .nothingToCompare
  | some r =>
    let half := r.size / 2
    if half = 0 then .error .noHalves
    else
      let first := (r.toList).take half
      let second := (r.toList.drop half).take half
      let ofCoordinate (k : Nat) : α := Statistics.mean <| (List.range c.size).map fun w =>
        disagreement (trace first w k) (trace second w k)
      .ok (((List.range c.ndim).map ofCoordinate).foldl worse (-infinity))

/-! ## Runs -/

def say (s : String) : ChainM α Unit :=
  modify fun c => { c with said := c.said ++ s }

def tell (progress : Bool) (s : String) : ChainM α Unit :=
  if progress then say s else return ()

/-- The walkers are put at the points of the start, with their probabilities. -/
def place : List (Array α) → ChainM α Unit
  | [] => return ()
  | point :: rest => do
    let logProb ← ofExcept ((← get).target.logProb point)
    modify fun c => { c with walkers := c.walkers.push ⟨point, logProb⟩ }
    place rest

/-- Jumps take over the covariance of the first records. -/
def learnFactor (count : Nat) : ChainM α Unit := do
  let c ← get
  if c.ndim == 1 then throw .noMatrix
  let cov := Statistics.covariance c.ndim (rows ((c.recording.getD #[]).toList.take count))
  match Statistics.cholesky cov with
  | some l => set { c with factor := l }
  | none => throw .notPositive

/-- While the halves disagree, every second record is kept and the others are made anew with twice the thinning. -/
def adapt (s : RunSettings α) (samples burn keep : Nat) : (rounds : Nat) → (thin : Int) → ChainM α Unit
  | 0, _ => return ()
  | rounds + 1, thin => do
    let c ← get
    if lt s.threshold (← ofExcept c.convergence) then
      tell s.progress "."
      thinOut burn keep
      advance s.scale s.jumpFraction (inWord (2 * thin)) true samples keep
      adapt s samples burn keep rounds (inWord (2 * thin))

/-- What a run asserts of its settings and its start. -/
def fits (c : Chain α) (s : RunSettings α) (start : List (Array α)) : Bool :=
  0 < s.samples && 0 ≤ s.burnIn && 0 ≤ s.thin && lt 1.0 s.scale
    && start.length == c.size && start.all fun p => p.size == c.ndim

/-- What stands in the recording before a walker is written there. -/
def blank (ndim : Nat) : Walker α :=
  ⟨Array.replicate ndim 0.0, 0.0⟩

/-- A run begins with a blank recording. -/
def begun (s : RunSettings α) (c : Chain α) (ws : List (Walker α)) : Chain α :=
  { c with
    recording := some (Array.replicate s.samples.toNat (Array.replicate c.size (blank c.ndim)))
    walkers := ws.toArray }

/-- The steps before those that are sampled: a first look at how the samples vary together, and the burn-in. -/
def prepare (s : RunSettings α) : ChainM α Unit := do
  tell s.progress "Pre-run and burn-in "
  let presamples := if s.presamples < 0 then s.samples.toNat / 10 else s.presamples.toNat
  if lt 0.0 s.jumpFraction && 0 < presamples then
    advance s.scale s.jumpFraction s.thin true presamples 0
    learnFactor presamples
  tell s.progress "done.\n"
  advance s.scale s.jumpFraction s.thin false s.burnIn.toNat 0
  tell s.progress "Sampling."

/-- All that a run does until it has its samples once. -/
def gather (s : RunSettings α) (start : List (Array α)) : ChainM α Unit := do
  let c ← get
  if !c.fits s start then throw .badRunSetting
  ofExcept (Tensor.checkRoom [s.samples.toNat, c.size, c.ndim + 1])
  set (begun s c [])
  place start
  prepare s
  advance s.scale s.jumpFraction s.thin true s.samples.toNat 0

/-- The rounds of a run in which its halves are compared, if the threshold allows any. -/
def finish (s : RunSettings α) : ChainM α Unit := do
  let burn := s.samples.toNat / 10
  if lt 1.0 s.threshold then
    adapt s s.samples.toNat burn ((s.samples.toNat - burn) / 2) s.rounds.toNat s.thin
  tell s.progress " done.\n"

def run (s : RunSettings α) (start : List (Array α)) : ChainM α Unit := do
  gather s start
  finish s

/-! ## Results -/

def records (c : Chain α) : Except Fault (List (Record α)) :=
  match c.recording with
  | some r => .ok r.toList
  | none => .error .notSampled

/-- The part of the moves that was taken. -/
def rate (t : Tally) : α :=
  if t.trials == 0 then nan else ofNat t.accepted / ofNat t.trials

end Chain

def Chain.acceptance (c : Chain Float) : Float × Float :=
  ((rate c.jumps : Float).toFloat32.toFloat, (rate c.stretches : Float).toFloat32.toFloat)

end GridBayes
