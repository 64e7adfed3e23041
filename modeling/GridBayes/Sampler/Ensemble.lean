import GridBayes.Numeric.Conditioning
import GridBayes.Sampler.Walker
import GridBayes.Target

/-! An ensemble that is split into two random halves at each step; the walkers of each half are
stretched towards walkers of the other. Every step is recorded. -/
namespace GridBayes
open Scalar

structure Ensemble (α : Type) where
  target : Target α
  ndim : Nat
  size : Nat
  source : Source
  walkers : Array (Walker α) := #[]
  recording : Array (Array (Walker α)) := #[]
  failed : Option (Array α) := none

abbrev EnsembleM (α : Type) := ExceptT Fault (StateM (Ensemble α))

namespace Ensemble

variable {α : Type} [Scalar α]

/-! ## Steps -/

def draw : EnsembleM α Nat := do
  let e ← get
  let (n, source) := e.source.next
  set { e with source := source }
  return n

def drawUnit : EnsembleM α α := do
  return Source.toUnit (← draw)

def checkPoints (points : List (Array α)) : Except Fault Unit := do
  if points.any fun p => p.any fun x => !isFinite x && !isNaN x then
    throw (.unusablePoint "At least one parameter value was infinite")
  if points.any fun p => p.any isNaN then
    throw (.unusablePoint "At least one parameter value was NaN")

def walkerAt (point : Array α) : EnsembleM α (Walker α) := do
  match (← get).target.logProb point with
  | .ok x => return ⟨point, x⟩
  | .error f =>
    modify fun e => { e with failed := some point }
    throw f

def walkersAt : List (Array α) → EnsembleM α (List (Walker α))
  | [] => return []
  | point :: rest => do
    let w ← walkerAt point
    return w :: (← walkersAt rest)

def evaluated (points : List (Array α)) : EnsembleM α (List (Walker α)) := do
  ofExcept (checkPoints points)
  let walkers ← walkersAt points
  if walkers.any fun w => isNaN w.logProb then
    throw (.unusablePoint "Probability function returned NaN")
  return walkers

def stretch (others : Array Nat) (i : Nat) : EnsembleM α Unit := do
  let z := Walker.stretchFactor 2.0 (← drawUnit)
  let n ← draw
  let e ← get
  match e.walkers[i]?, (others[n % others.size]?).bind (e.walkers[·]?) with
  | some w, some other =>
    (← evaluated [w.stretched other z]).forM fun offer => do
      let gain := Walker.stretchGain e.ndim z offer.logProb
      let threshold := log (← drawUnit)
      modify fun e => { e with
        walkers := e.walkers.setIfInBounds i (w.offered offer gain threshold) }
  | _, _ => return ()

def stretchAll (others : Array Nat) : List Nat → EnsembleM α Unit
  | [] => return ()
  | i :: rest => do
    stretch others i
    stretchAll others rest

def keyed : List Nat → EnsembleM α (List (Nat × Nat))
  | [] => return []
  | i :: rest => do
    let key ← draw
    return (key, i) :: (← keyed rest)

def shuffled (size : Nat) : EnsembleM α (List Nat) := do
  let pairs ← keyed (List.range size)
  return (pairs.mergeSort fun a b => decide (a.1 ≤ b.1)).map (·.2)

def step : EnsembleM α Unit := do
  let e ← get
  if e.size < 2 * e.ndim then throw .tooFewWalkers
  let order ← shuffled e.size
  let half := (e.size + 1) / 2
  stretchAll (order.drop half).toArray (order.take half)
  stretchAll (order.take half).toArray (order.drop half)

def record : EnsembleM α Unit :=
  modify fun e => { e with recording := e.recording.push e.walkers }

/-- Some steps after `taken` others, with a record after every `every`-th one, if that is not zero. -/
def steps (every : Nat) : (count taken : Nat) → EnsembleM α Unit
  | 0, _ => return ()
  | count + 1, taken => do
    step
    if (taken + 1) % every == 0 then record
    steps every count (taken + 1)

def place (points : List (Array α)) : EnsembleM α Unit := do
  let walkers ← evaluated points
  modify fun e => { e with walkers := walkers.toArray }

/-- Refuses points that are not one for each walker or, unless `unchecked`, do not span the space. -/
def checkStart (points : List (Array α)) (unchecked : Bool) : EnsembleM α Unit := do
  let e ← get
  if points.length != e.size || !points.all (fun p => p.size == e.ndim) then throw .wrongRank
  if !unchecked && e.ndim == 0 then throw .notPositive
  if !unchecked && !Conditioning.spans e.ndim (points.map (·.toList)) then throw .dependentWalkers

/-! ## Results -/

def records (e : Ensemble α) : Except Fault (Array (Array (Walker α))) :=
  if e.recording.isEmpty then .error .missingPart else .ok e.recording

/-- Every `thin`-th record after the first `discard`, which if negative counts from the end. -/
def kept (e : Ensemble α) (discard thin : Int) : Except Fault (List (Array (Walker α))) := do
  let recorded ← e.records
  if thin == 0 then throw .wrongRank
  if thin < 0 then return []
  let first := discard + thin - 1
  let first := if first < 0 then first + recorded.size else first
  return (recorded.toList.drop first.toNat).zipIdx.filterMap fun (r, i) =>
    if i % thin.toNat == 0 then some r else none

def rows (records : List (Array (Walker α))) : List (List α) :=
  records.flatMap fun r => r.toList.map fun w => w.point.toList

/-! ## Autocorrelation -/

def correlation (deviations : List α) (lag : Nat) : α :=
  Statistics.dot deviations (deviations.drop lag)

def averaged (series : List (List α)) (lag : Nat) : α :=
  Statistics.mean (series.map fun xs => correlation xs lag / correlation xs 0)

/-- Twice the sum of autocorrelations up to the first lag that is five times the result so far, less one. -/
def window (series : List (List α)) (soFar : α) : (left lag : Nat) → α
  | 0, _ => if isNaN soFar then soFar else 1.0
  | left + 1, lag =>
    let next := soFar + 2.0 * averaged series lag
    if isNaN next then next
    else if lt (ofNat lag) (5.0 * next) then window series next left (lag + 1)
    else next

def deviations (records : List (Array (Walker α))) (size k : Nat) : List (List α) :=
  (List.range size).map fun w =>
    let xs := records.map fun r => ((r[w]?).bind (·.point[k]?)).getD nan
    let m := Statistics.seriesMean xs
    xs.map (· - m)

def autocorrelation (e : Ensemble α) (discard thin : Int) : Except Fault (Option (List α)) := do
  let records ← e.kept discard thin
  if records.isEmpty then throw .partOutOfRange
  let times := (List.range e.ndim).map fun k =>
    let series := deviations records e.size k
    window series (2.0 * averaged series 0 - 1.0) (records.length - 1) 1
  if times.any fun t => lt (ofNat records.length) (50.0 * t) then return none
  return some (times.map (ofNat thin.toNat * ·))

end Ensemble

end GridBayes
