import GridBayes.Sampler.Source
import GridBayes.Target

/-! Starting points for walkers: each is found by a short chain that proposes draws from the prior and
accepts them by their likelihood. -/
namespace GridBayes.Initial
open Scalar

variable {α : Type} [Scalar α]

structure Place (α : Type) where
  point : Option (Array α) := none
  logLike : α

def Place.offer (p : Place α) (point : Array α) (logLike threshold : α) : Place α :=
  if lt threshold (logLike - p.logLike) then ⟨some point, logLike⟩ else p

def step (t : Target α) (ndim : Nat) (p : Place α) (source : Source) :
    Except Fault (Place α × Source) := do
  let (us, source) := (source.units ndim : List α × Source)
  let point ← t.transform us.toArray
  let logLike ← t.logLike point
  let (u, source) := (source.unit : α × Source)
  return (p.offer point logLike (log u), source)

def search (t : Target α) (ndim : Nat) : (steps : Nat) → Place α → Source →
    Except Fault (Place α × Source)
  | 0, p, source => .ok (p, source)
  | steps + 1, p, source => do
    let (p, source) ← step t ndim p source
    search t ndim steps p source

def Place.row (p : Place α) (ndim : Nat) : Array α :=
  p.point.getD (Array.replicate ndim nan)

def state (t : Target α) (ndim steps : Nat) : (count : Nat) → Source →
    Except Fault (List (Array α) × Source)
  | 0, source => .ok ([], source)
  | count + 1, source => do
    let (p, source) ← search t ndim steps ⟨none, -infinity⟩ source
    let (rows, source) ← state t ndim steps count source
    return (p.row ndim :: rows, source)

end GridBayes.Initial
