import GridBayes.Sampler.Source
import GridBayes.Numeric.Tensor
import GridBayes.Distribution.Function

/-! Walkers and their moves. A walker stands at a point and knows the logarithm of its probability;
it is offered a point and goes there or stays. -/
namespace GridBayes
open Scalar

structure Walker (α : Type) where
  point : Array α
  logProb : α

namespace Walker

variable {α : Type} [Scalar α]

/-- Whether a walker goes to an offered point: the threshold must be below the gain. -/
def accepts (w : Walker α) (gain threshold : α) : Bool :=
  lt threshold (gain - w.logProb)

def offered (w other : Walker α) (gain threshold : α) : Walker α :=
  if w.accepts gain threshold then other else w

/-! ## Stretch moves -/

def stretchFactor (scale u : α) : α :=
  let root := sqrt scale
  let z := u * root + (1.0 - u) / root
  z * z

def stretched (w towards : Walker α) (z : α) : Array α :=
  Array.zipWith (fun x y => y + z * (x - y)) w.point towards.point

def stretchGain (ndim : Nat) (z logProb : α) : α :=
  log z * ofNat (ndim - 1) + logProb

def partner (i j : Nat) : Nat :=
  if i ≤ j then j + 1 else j

/-! ## Jumps -/

def jumped (w : Walker α) (factor : List (List α)) (us : List α) : Array α :=
  let z := us.map fun u => Distribution.normalQuantile u 0.0 1.0
  (Numeric.lowerProduct factor z w.point.toList).toArray

end Walker

end GridBayes
