import GridBayes.Numeric.Scalar

/-! Random numbers as data: a source is an endless stream of whole numbers together with the count
of those used up, so that a run of a sampler is a function of its stream. -/
namespace GridBayes
open Scalar

structure Source where
  stream : Nat → Nat
  used : Nat := 0

namespace Source

def top : Nat :=
  2147483647

def next (s : Source) : Nat × Source :=
  (s.stream s.used, { s with used := s.used + 1 })

variable {α : Type} [Scalar α]

def toUnit (n : Nat) : α :=
  ofNat n / ofNat top

def unit (s : Source) : α × Source :=
  let (n, s) := s.next
  (toUnit n, s)

def units : (count : Nat) → Source → List α × Source
  | 0, s => ([], s)
  | count + 1, s =>
    let (u, s) := (s.unit : α × Source)
    let (us, s) := units count s
    (u :: us, s)

def mix (z : UInt64) : UInt64 :=
  let z := (z ^^^ (z >>> 30)) * 0xBF58476D1CE4E5B9
  let z := (z ^^^ (z >>> 27)) * 0x94D049BB133111EB
  z ^^^ (z >>> 31)

def seeded (seed : UInt64) : Source where
  stream := fun i => (mix (seed + (UInt64.ofNat i + 1) * 0x9E3779B97F4A7C15) >>> 33).toNat

end Source

end GridBayes
