/-! The permutation of 25 words of 64 bits that the sponge in `Hash.Shake` is built on. The word at
column `x` and row `y` has the index `x + 5 * y`. -/
namespace GridBayes.Hash

abbrev State := Array UInt64

namespace State

def lane (s : State) (x y : Nat) : UInt64 :=
  s.getD (x % 5 + 5 * (y % 5)) 0

def ofLanes (f : Nat → Nat → UInt64) : State :=
  ((List.range 25).map fun i => f (i % 5) (i / 5)).toArray

def rotate (w : UInt64) (n : Nat) : UInt64 :=
  if n % 64 = 0 then w
  else (w <<< UInt64.ofNat (n % 64)) ||| (w >>> UInt64.ofNat (64 - n % 64))

def rotations : List Nat :=
  [0, 1, 62, 28, 27, 36, 44, 6, 55, 20, 3, 10, 43, 25, 39, 41, 45, 15, 21, 8, 18, 2, 61, 56, 14]

def theta (s : State) : State :=
  let parity := (List.range 5).map fun x =>
    s.lane x 0 ^^^ s.lane x 1 ^^^ s.lane x 2 ^^^ s.lane x 3 ^^^ s.lane x 4
  ofLanes fun x y =>
    s.lane x y ^^^ parity.getD ((x + 4) % 5) 0 ^^^ rotate (parity.getD ((x + 1) % 5) 0) 1

def rhoPi (s : State) : State :=
  ofLanes fun x y =>
    let column := (x + 3 * y) % 5
    rotate (s.lane column x) (rotations.getD (column + 5 * x) 0)

def chi (s : State) : State :=
  ofLanes fun x y => s.lane x y ^^^ (~~~s.lane (x + 1) y &&& s.lane (x + 2) y)

def roundConstants : List UInt64 :=
  [0x0000000000000001, 0x0000000000008082, 0x800000000000808a, 0x8000000080008000,
    0x000000000000808b, 0x0000000080000001, 0x8000000080008081, 0x8000000000008009,
    0x000000000000008a, 0x0000000000000088, 0x0000000080008009, 0x000000008000000a,
    0x000000008000808b, 0x800000000000008b, 0x8000000000008089, 0x8000000000008003,
    0x8000000000008002, 0x8000000000000080, 0x000000000000800a, 0x800000008000000a,
    0x8000000080008081, 0x8000000000008080, 0x0000000080000001, 0x8000000080008008]

def round (s : State) (constant : UInt64) : State :=
  (chi (rhoPi (theta s))).modify 0 (· ^^^ constant)

def permute (s : State) : State :=
  roundConstants.foldl round s

end State

end GridBayes.Hash
