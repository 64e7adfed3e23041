import GridBayes.Numeric.Statistics

/-! The singular values of a matrix, by rotating pairs of columns until all are orthogonal, and how
far apart they are. -/
namespace GridBayes.Conditioning
open Scalar

variable {α : Type} [Scalar α]

def rotate (p q : List α) : List α × List α :=
  let product := Statistics.dot p q
  if eq product 0.0 then (p, q)
  else
    let slope := (Statistics.dot q q - Statistics.dot p p) / (2.0 * product)
    let t := copysign (1.0 / (fabs slope + sqrt (1.0 + slope * slope))) slope
    let c := 1.0 / sqrt (1.0 + t * t)
    let s := c * t
    (List.zipWith (fun x y => c * x - s * y) p q, List.zipWith (fun x y => s * x + c * y) p q)

def rotateAgainst (p : List α) : List (List α) → List α × List (List α)
  | [] => (p, [])
  | q :: rest =>
    let (p, q) := rotate p q
    let (p, rest) := rotateAgainst p rest
    (p, q :: rest)

def sweep : (count : Nat) → List (List α) → List (List α)
  | 0, columns => columns
  | _, [] => []
  | count + 1, p :: rest =>
    let (p, rest) := rotateAgainst p rest
    p :: sweep count rest

def sweeps : (times : Nat) → List (List α) → List (List α)
  | 0, columns => columns
  | times + 1, columns => sweeps times (sweep columns.length columns)

def singularValues (columns : List (List α)) : List α :=
  (sweeps 40 columns).map fun p => sqrt (Statistics.dot p p)

def standardized (columns : List (List α)) : Option (List (List α)) :=
  columns.mapM fun xs =>
    let m := Statistics.mean xs
    let deviations := xs.map (· - m)
    let top := deviations.foldl (fun t x => fmax t (fabs x)) 0.0
    if eq top 0.0 then none
    else
      let scaled := deviations.map (· / top)
      let length := sqrt (Statistics.dot scaled scaled)
      some (scaled.map (· / length))

def spans (width : Nat) (points : List (List α)) : Bool :=
  if !points.all (·.all isFinite) then false
  else
    match standardized (Statistics.columns width points) with
    | none => false
    | some columns =>
      let columns := if points.length < width
        then Statistics.columns points.length columns else columns
      let values := singularValues columns
      let greatest := values.foldl fmax 0.0
      let least := values.foldl fmin infinity
      le greatest (1e8 * least)

end GridBayes.Conditioning
