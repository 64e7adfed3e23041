import GridBayes.Fault
import GridBayes.Numeric.Scalar

/-! What samplers see of a model: a prior to draw from, its density and the likelihood. -/
namespace GridBayes
open Scalar

structure Target (α : Type) where
  transform : Array α → Except Fault (Array α)
  logPrior : Array α → Except Fault α
  logLike : Array α → Except Fault α

namespace Target

variable {α : Type} [Scalar α]

def logProb (t : Target α) (params : Array α) : Except Fault α := do
  let prior ← t.logPrior params
  if !isFinite prior then return -infinity
  return prior + (← t.logLike params)

def impossible : Target α where
  transform := .ok
  logPrior := fun _ => .ok 0.0
  logLike := fun _ => .ok (-infinity)

end Target

end GridBayes
