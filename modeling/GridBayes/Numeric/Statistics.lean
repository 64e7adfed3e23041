import GridBayes.Numeric.Scalar

/-! Means, covariances, quantiles and triangular factors. Samples are rows, variables are columns;
sums run from the first row to the last. -/
namespace GridBayes.Statistics
open Scalar

variable {α : Type} [Scalar α]

/-! ## Sums and products -/

def sum (xs : List α) : α :=
  xs.foldl (· + ·) 0.0

/-- The sum of at most 128 numbers: eight running sums in pairs, then the rest. -/
def blockSum (xs : List α) : α :=
  if xs.length < 8 then sum xs
  else
    let whole := xs.length / 8 * 8
    let lane (k : Nat) : α :=
      let ys := (xs.take whole).zipIdx.filterMap fun (x, i) => if i % 8 == k then some x else none
      (ys.drop 1).foldl (· + ·) (ys.head?.getD 0.0)
    (xs.drop whole).foldl (· + ·) (((lane 0 + lane 1) + (lane 2 + lane 3)) + ((lane 4 + lane 5) + (lane 6 + lane 7)))

def pairwiseSum : (depth : Nat) → List α → α
  | 0, xs => sum xs
  | depth + 1, xs =>
    if xs.length ≤ 128 then blockSum xs
    else
      let half := xs.length / 2 / 8 * 8
      pairwiseSum depth (xs.take half) + pairwiseSum depth (xs.drop half)

def dot (xs ys : List α) : α :=
  (xs.zip ys).foldl (fun s (x, y) => s + x * y) 0.0

def outer (xs ys : List α) : List (List α) :=
  xs.map fun x => ys.map (x * ·)

def addRows (xs ys : List α) : List α :=
  List.zipWith (· + ·) xs ys

def columnSums (width : Nat) (rows : List (List α)) : List α :=
  rows.foldl addRows (List.replicate width 0.0)

def columns (width : Nat) (rows : List (List α)) : List (List α) :=
  (List.range width).map fun i => rows.map fun r => r.getD i nan

/-! ## Moments -/

def mean (xs : List α) : α :=
  sum xs / ofNat xs.length

def seriesMean (xs : List α) : α :=
  pairwiseSum 64 xs / ofNat xs.length

def columnMeans (width : Nat) (rows : List (List α)) : List α :=
  (columnSums width rows).map (· / ofNat rows.length)

def variance (xs : List α) : α :=
  let m := mean xs
  sum (xs.map fun x => (x - m) * (x - m)) / ofNat (xs.length - 1)

def scatter (center : List α) (rows : List (List α)) : List (List α) :=
  let zero := center.map fun _ => center.map fun _ => (0.0 : α)
  rows.foldl (fun acc r =>
    let d := List.zipWith (· - ·) r center
    List.zipWith addRows acc (outer d d)) zero

def covariance (width : Nat) (rows : List (List α)) : List (List α) :=
  let weight : α := 1.0 / ofNat (rows.length - 1)
  (scatter (columnMeans width rows) rows).map (·.map (· * weight))

/-! ## Quantiles -/

def between (a b t : α) : α :=
  if le 0.5 t then b - (b - a) * (1.0 - t) else a + (b - a) * t

def sorted (xs : List α) : List α :=
  xs.mergeSort fun a b => le a b

def quantileOf (ordered : Array α) (q : α) : α :=
  let position := ofNat (ordered.size - 1) * q
  let i := (truncate position).toNat
  if ordered.size ≤ i + 1 then
    let top := ordered.back?.getD nan
    between top top 1.0
  else between (ordered.getD i nan) (ordered.getD (i + 1) nan) (position - ofNat i)

def quantiles (qs : List α) (xs : List α) : List α :=
  if xs.any isNaN then qs.map fun _ => nan
  else
    let ordered := (sorted xs).toArray
    qs.map (quantileOf ordered)

/-! ## Weights -/

def weightedMeans (width : Nat) (weights : List α) (rows : List (List α)) : List α :=
  let scaled := List.zipWith (fun w r => r.map (w * ·)) weights rows
  (columnSums width scaled).map (· / sum weights)

def weightedCovariance (center weights : List α) (rows : List (List α)) : List (List α) :=
  let total := sum weights
  let squares := sum (weights.map fun w => w * w)
  let scale := total / (total * total - squares)
  let zero := center.map fun _ => center.map fun _ => (0.0 : α)
  let moments := (weights.zip rows).foldl (fun acc (w, r) =>
    let d := List.zipWith (· - ·) r center
    List.zipWith addRows acc (outer (d.map (w * ·)) d)) zero
  moments.map (·.map (scale * ·))

def runningSums (xs : List α) : List α :=
  (xs.foldl (fun (s, out) x => (s + x, (s + x) :: out)) ((0.0 : α), [])).2.reverse

/-- The height at `x` on the line through two points, reckoned from the other one if that gives no number. -/
def onLine (x0 y0 x1 y1 x : α) : α :=
  let slope := (y1 - y0) / (x1 - x0)
  let y := slope * (x - x0) + y0
  if !isNaN y then y
  else
    let y := slope * (x - x1) + y1
    if isNaN y && eq y0 y1 then y0 else y

def piecewise (x : α) : List (α × α) → α
  | [] => nan
  | [(_, y)] => y
  | (x0, y0) :: (x1, y1) :: rest =>
    if le x1 x then piecewise x ((x1, y1) :: rest)
    else if eq x0 x then y0
    else onLine x0 y0 x1 y1 x

def interpolate (points : List (α × α)) (x : α) : α :=
  match points.head?, points.getLast? with
  | some first, some last =>
    if lt last.1 x then last.2
    else if lt x first.1 then first.2
    else piecewise x points
  | _, _ => nan

def weightedQuantiles (qs weights xs : List α) : List α :=
  let pairs := (xs.zip weights).mergeSort fun a b => le a.1 b.1 || isNaN b.1
  let sums := (runningSums (pairs.map (·.2))).dropLast
  let top := sums.getLast?.getD nan
  let steps := 0.0 :: sums.map (· / top)
  qs.map (interpolate (steps.zip (pairs.map (·.1))))

/-! ## Factors -/

def factorEntries (above : List (List α)) (row : List α) : List α :=
  (above.zip row).foldl (fun l (r, a) => l ++ [(a - dot l r) / r.getLast?.getD nan]) []

def factorRow (above : List (List α)) (row : List α) : Option (List α) :=
  let l := factorEntries above row
  let d := row.getD above.length nan - dot l l
  if le d 0.0 then none else some (l ++ [sqrt d])

/-- The lower triangular factor of a positive definite matrix, of which entries up to the diagonal are read. -/
def cholesky (m : List (List α)) : Option (List (List α)) := do
  let rows ← m.foldlM (fun above row => do return above ++ [← factorRow above row]) []
  return rows.map fun r => r ++ List.replicate (m.length - r.length) 0.0

end GridBayes.Statistics
