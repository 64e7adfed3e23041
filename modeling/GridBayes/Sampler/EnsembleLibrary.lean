import GridBayes.Numeric.Tensor
import GridBayes.Sampler.Source
import GridBayes.Target
import GridBayes.Value

/-! What is asked of a library of ensemble samplers: an ensemble is made for a target, is run, and has a chain to
read. How it moves its walkers is its own affair. -/
namespace GridBayes

/-- A library of ensembles. Settings have names and values, and random numbers come from a source. -/
class EnsembleLibrary where
  Ensemble : Type
  /-- An ensemble with such settings; `pooled` says that several workers evaluate its target. -/
  create (init : List (String × Value)) (pooled : Bool) (target : Target Float) (source : Source) :
    Except Fault Ensemble
  /-- A run from given points, or from those in the settings. -/
  run (settings : List (String × Value)) (start : Option (Tensor Float)) (e : Ensemble) : Except Fault Unit × Ensemble
  /-- The points of all walkers at every `thin`-th record after the first `discard`. -/
  chain (e : Ensemble) (discard thin : Value) : Except Fault (List (List Float))
  /-- The times of autocorrelation, unless the chain is too short for them. -/
  times (e : Ensemble) (discard thin : Value) : Except Fault (Option (List Float))
  /-- The number of coordinates of a point. -/
  ndim : Ensemble → Nat
  source : Ensemble → Source
  /-- What was said in the last run. -/
  said : Ensemble → String
  ndim_create {init : List (String × Value)} {pooled : Bool} {target : Target Float} {start : Source} {e : Ensemble}
    {n : Nat} : create init pooled target start = .ok e → init.lookup "ndim" = some (.int n) → ndim e = n
  ndim_run (settings : List (String × Value)) (start : Option (Tensor Float)) (e : Ensemble) :
    ndim (run settings start e).2 = ndim e

end GridBayes
