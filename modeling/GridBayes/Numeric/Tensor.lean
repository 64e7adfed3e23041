import GridBayes.Numeric.Scalar
import GridBayes.Value.Update

/-! Rectangular arrays of numbers, stored row after row. -/
namespace GridBayes

/-- A whole number in 32 bits: what goes beyond them is lost, and the last bit is the sign. -/
def inWord (n : Int) : Int :=
  n.bmod (Nat.pow 2 32)

theorem inWord_eq {n : Int} (h : 0 ≤ n) (h' : n < 2147483648) : inWord n = n := by
  unfold inWord
  rw [show Nat.pow 2 32 = 4294967296 from rfl]
  exact Int.bmod_eq_of_le (by omega) (by omega)

/-- The place of an index: below zero it counts from the end. -/
def placeOf (size : Nat) (i : Int) : Int :=
  if i < 0 then i + size else i

theorem placeOf_natCast (size i : Nat) : placeOf size i = i :=
  if_neg (by omega)

structure Tensor (α : Type) where
  shape : List Nat
  data : Array α

namespace Tensor

variable {α : Type}

def volume (shape : List Nat) : Nat :=
  shape.foldr (· * ·) 1

/-- Whether there is room for doubles in a shape: sizes are signed words, and there are at most 2^36 bytes. -/
def checkRoom (shape : List Nat) : Except Fault Unit :=
  let bytes := 8 * volume (shape.filter (· != 0))
  if shape.any (Nat.pow 2 63 ≤ ·) || Nat.pow 2 63 ≤ bytes then .error .wrongRank
  else if shape.all (· != 0) && Nat.pow 2 36 < bytes then .error .outOfMemory
  else .ok ()

def ofList (xs : List α) : Tensor α :=
  ⟨[xs.length], xs.toArray⟩

def rank (t : Tensor α) : Nat :=
  t.shape.length

def textOfShape (shape : List Nat) : String :=
  match shape with
  | [n] => "(" ++ toString n ++ ",)"
  | _ => "(" ++ Text.join ", " (shape.map toString) ++ ")"

def shapeText (t : Tensor α) : String :=
  textOfShape t.shape

def map {β : Type} (f : α → β) (t : Tensor α) : Tensor β :=
  ⟨t.shape, t.data.map f⟩

def copyInto (source dest : Tensor α) : Except Fault (Tensor α) :=
  if source.rank ≠ dest.rank then .error .wrongRank
  else if source.shape = dest.shape then .ok source
  else .error .shapesDiffer

def chunks (size : Nat) : (count : Nat) → List α → List (List α)
  | 0, _ => []
  | count + 1, xs => xs.take size :: chunks size count (xs.drop size)

def rows (t : Tensor α) : List (List α) :=
  match t.shape with
  | [n, m] => chunks m n t.data.toList
  | _ => []

def turnedEntries : List Nat → List α → List α
  | [], xs => xs
  | n :: shape, xs =>
    let parts := (chunks (volume shape) n xs).map fun part => (turnedEntries shape part).toArray
    (List.range (volume shape)).flatMap fun j => parts.filterMap fun part => part[j]?

def turned (t : Tensor α) : Tensor α :=
  ⟨t.shape.reverse, (turnedEntries t.shape t.data.toList).toArray⟩

/-! ## Nested lists -/

mutual

def shapeOf? : Value → Option (List Nat)
  | .list items => (commonShape? items).map (items.length :: ·)
  | _ => some []

def commonShape? : List Value → Option (List Nat)
  | [] => some []
  | v :: rest => do
    let shape ← shapeOf? v
    if rest.isEmpty then return shape
    if (← commonShape? rest) = shape then return shape else none

end

mutual

def leaves : Value → List Value
  | .list items => itemLeaves items
  | v => [v]

def itemLeaves : List Value → List Value
  | [] => []
  | v :: rest => leaves v ++ itemLeaves rest

end

def ofNested (v : Value) : Except Fault (Tensor Float) := do
  let entries ← (leaves v).mapM Value.toReal
  match shapeOf? v with
  | some shape => return ⟨shape, entries.toArray⟩
  | none => throw .unevenLists

def nest (f : α → Value) : List Nat → List α → Value
  | [], xs => (xs.head?.map f).getD .null
  | n :: shape, xs => .list ((chunks (volume shape) n xs).map (nest f shape))

def toNested (f : α → Value) (t : Tensor α) : Value :=
  nest f t.shape t.data.toList

end Tensor

namespace Numeric

variable {α : Type} [Scalar α]

def lowerProduct (matrix : List (List α)) (z mean : List α) : List α :=
  (matrix.zip mean).zipIdx.map fun ((row, m), i) =>
    m + ((row.zip z).take (i + 1)).foldl (fun s (a, b) => s + a * b) 0.0

/-- A normal vector from independent standard ones, given the factor of its covariance and its mean. -/
def normalVector (factor : List (List α)) (z : List α) (mean : Option (List α)) :
    Except Fault (List α) :=
  let mean := mean.getD (factor.map fun _ => 0.0)
  if mean.length = factor.length then .ok (lowerProduct factor z mean)
  else .error .shapesDiffer

end Numeric

end GridBayes
