import GridBayes.Numeric.Tensor

/-! From a table of points to a grid. Each row of the table is a point; some columns are the inputs,
others the outputs. -/
namespace GridBayes.Restructure
open Scalar

variable {α : Type} [Scalar α]

def before (a b : α) : Bool :=
  lt a b || (!le b b && le a a)

def same (a b : α) : Bool :=
  eq a b || (!le a a && !le b b)

def insert (k x : α) : List (α × α) → List (α × α)
  | [] => [(k, x)]
  | (l, y) :: rest =>
    if same k l then (l, y) :: rest
    else if before k l then (k, x) :: (l, y) :: rest
    else (l, y) :: insert k x rest

def axis (key : α → α) (column : List α) : List (α × α) :=
  column.foldl (fun points x => insert (key x) x points) []

def place (key : α → α) (points : List (α × α)) (x : α) : Nat :=
  points.findIdx fun p => same (key x) p.1

def offset (places counts : List Nat) : Nat :=
  (places.zip counts).foldl (fun s (i, n) => s * n + i) 0

def column (table : List (List α)) (width : Nat) (i : Int) : Except Fault (List α) :=
  let j := if i < 0 then i + width else i
  if j < 0 || (width : Int) ≤ j then .error .partOutOfRange
  else .ok (table.map fun row => row.getD j.toNat nan)

/-- The outputs on the grid; points without a row are not-a-number, and of two rows the later wins. -/
def output (counts : List Nat) (offsets : List Nat) (values : List α) : Tensor α :=
  ⟨counts, (offsets.zip values).foldl (fun a (i, v) => a.setIfInBounds i v)
    (Array.replicate (Tensor.volume counts) nan)⟩

def ofTable (key : α → α) (table : List (List α)) (width : Nat) (inputs outputs : List Int) :
    Except Fault (List (List α) × List (Tensor α)) := do
  let columns ← inputs.mapM (column table width)
  let axes := columns.map (axis key)
  let counts := axes.map List.length
  let places := (columns.zip axes).map fun (c, a) => c.map (place key a)
  let offsets := (List.range table.length).map fun i =>
    offset (places.map fun p => p.getD i 0) counts
  let values ← outputs.mapM (column table width)
  return (axes.map fun a => a.map (·.2), values.map (output counts offsets))

def run (key : α → α) (t : Tensor α) (inputs outputs : List Int) :
    Except Fault (List (List α) × List (Tensor α)) :=
  match t.shape with
  | [_, width] => ofTable key t.rows width inputs outputs
  | _ => .error .partOutOfRange

end GridBayes.Restructure

namespace GridBayes

def Numeric.roundEven (x : Float) : Float :=
  let down := x.floor
  let rest := x - down
  if rest < 0.5 then down
  else if 0.5 < rest then down + 1.0
  else if (down / 2.0).floor * 2.0 == down then down
  else down + 1.0

def Numeric.tenPlaces (x : Float) : Float :=
  if x.isNaN || x.isInf then x else roundEven (x * 1e10) / 1e10

end GridBayes
