import GridBayes.Numeric.Tensor

/-! Interpolation on rectangular grids of one to five dimensions. Values between grid points are
weighted by the distances to the neighbours along every axis; outside the grid there is no value.
An evenly spaced axis is stored as its first point and its density, so that a point is located by
arithmetic; on any other axis it is searched for. -/
namespace GridBayes
open Scalar

/-- The points of an axis, or the first one and their density if they are even. -/
structure StoredAxis (α : Type) where
  points : Array α
  count : Nat
  /-- What is stored right after the axis; an axis with fewer than three entries is read on into it. -/
  after : Array α := #[]

namespace StoredAxis

variable {α : Type} [Scalar α]

/-- An entry of the axis itself. -/
def get? (a : StoredAxis α) (i : Int) : Option α :=
  if i < 0 then none else a.points[i.toNat]?

/-- An entry by its index, also from the end or into what is stored after the axis. Of what is stored before it
nothing is known. -/
def get (a : StoredAxis α) (i : Int) : α :=
  let i := placeOf a.points.size i
  match a.get? i with
  | some x => x
  | none => if i < 0 then nan else a.after.getD (i.toNat - a.points.size) nan

def spread (first last : α) (n : Nat) : List α :=
  let step := if n = 1 then last - first else (last - first) / ofNat (n - 1)
  (List.range n).map fun i => if i + 1 == n && 1 < n then last else ofNat i * step + first

/-- Each point is less than the next. -/
def increasing : List α → Bool
  | a :: b :: rest => lt a b && increasing (b :: rest)
  | _ => true

/-- The points are close to as many points at equal distances. -/
def isEven (tol : α) (xs : List α) (first last : α) : Bool :=
  (xs.zip (spread first last xs.length)).all fun (x, y) => le (fabs (x - y)) (tol + tol * fabs y)

/-- An axis of increasing points is stored as even if it is close to it. -/
def ofPoints (tol : α) (xs : List α) : Except Fault (StoredAxis α) :=
  if !increasing xs then .error .axisNotIncreasing
  else
    match xs.head?, xs.getLast? with
    | some first, some last =>
      if isEven tol xs first last then
        .ok { points := #[first, (ofNat xs.length - 1.0) / (last - first), 0.0], count := xs.length }
      else .ok { points := xs.toArray, count := xs.length }
    | _, _ => .error .emptyAxis

/-- The position at the end of an axis: before the last grid point, with weight one. -/
def atEnd (count : Nat) : Option (Int × α) :=
  if count < 2 then none else some ((count : Int) - 2, 1.0)

/-- Between two indices, whose sum is taken in a word. -/
def middle (low high : Int) : Int :=
  (inWord (low + high)).tdiv 2

/-! Entries are read by their indices; how they are read is left open. -/

section

variable {m : Type → Type} [Monad m] (read : Int → m α)

def isInCell (point : α) (i : Int) : m Bool := do
  if le (← read i) point then return lt point (← read (i + 1)) else return false

/-- The grid point before a point, by halving a range; there is none if that takes too many looks. -/
def bisect (point : α) : (looks : Nat) → (low high i : Int) → m (Option Int)
  | 0, _, _, _ => return none
  | looks + 1, low, high, i => do
    if ← isInCell read point i then return some i
    let i := middle low high
    if lt (← read i) point then bisect point looks i high i else bisect point looks low i i

/-- An evenly spaced axis ends with zero, so this tells that all points are stored. -/
def isListed : m Bool :=
  return lt (← read 1) (← read 2)

/-- The position of a point on an axis: the grid point before it and the weight of the one after it, if it is
covered. The ends of the range are words, so a search that goes on for 2^64 looks never ends. -/
def locateWith (size count : Nat) (point : α) : m (Option (Int × α)) := do
  if !isFinite point then return none
  if ← isListed read then
    let high := inWord (size - 1)
    let last ← read (size - 1)
    if eq point last then return atEnd count
    if lt point (← read 0) || lt last point then return none
    match ← bisect read point (Nat.pow 2 64) 0 high (middle 0 high) with
    | none => return none
    | some i =>
      if i < 0 then return none
      let here ← read i
      return some (i, (point - here) / ((← read (i + 1)) - here))
  else
    let first ← read 0
    let density ← read 1
    let finish := first + ofNat (count - 1) / density
    if eq point finish then return atEnd count
    if lt point first || le finish point then return none
    let weight := (point - first) * density
    let i := truncate weight
    if !isFinite weight || i < 0 then return none
    return some (i, weight - (if i < 0 then -ofNat i.natAbs else ofNat i.natAbs))

end

def locate (a : StoredAxis α) (point : α) : Option (Int × α) :=
  Id.run (locateWith (fun i => pure (a.get i)) a.points.size a.count point)

def hasIncreasingRows (t : Tensor α) : Except Fault Bool :=
  match t.shape.reverse with
  | [] => .error .wrongRank
  | width :: others =>
    .ok ((Tensor.chunks width (Tensor.volume others) t.data.toList).all increasing)

def hasEvenParts (tol : α) (n width : Nat) (t : Tensor α) : Bool :=
  let rows := Tensor.chunks width n t.data.toList
  (List.range width).all fun j =>
    let column := rows.map fun r => r.getD j nan
    isEven tol column (column.headD nan) (column.getLastD nan)

/-- Stores an axis given as an array. With several dimensions it is none, which shows late if it is not evenly
spaced. -/
def ofArray (tol : α) (t : Tensor α) : Except Fault (Option (StoredAxis α)) :=
  match t.shape with
  | [_] => (ofPoints tol t.data.toList).map some
  | n :: others => do
    if !(← hasIncreasingRows t) then throw .axisNotIncreasing
    if hasEvenParts tol n (Tensor.volume others) t then throw .wrongRank
    return none
  | [] => .error .wrongRank

end StoredAxis

/-- How far apart neighbours along the first four axes are stored, in words; along a fifth they are adjacent. -/
structure Strides where
  x : Int
  y : Int
  z : Int
  u : Int
deriving Repr, DecidableEq

/-- The strides for the numbers of points along the axes; a missing axis has a single point. -/
def Strides.ofShape (shape : List Nat) : Strides :=
  let u : Int := shape.getD 4 1
  let z := inWord (u * shape.getD 3 1)
  let y := inWord (z * shape.getD 2 1)
  let x := inWord (y * shape.getD 1 1)
  ⟨x, y, z, u⟩

/-- How many values there should be. -/
def Strides.total (shape : List Nat) : Int :=
  inWord ((ofShape shape).x * shape.getD 0 1)

def between {α : Type} [Scalar α] (w a b : α) : α :=
  (1.0 - w) * a + w * b

/-! ## Weighted sums over the corners of a cell

Values are read by their positions in storage, which are words; how they are read is left open. -/

namespace Cell

variable {α : Type} [Scalar α] {m : Type → Type} [Monad m] (read : Int → m α)

def edge (s stride : Int) (w : α) : m α := do
  let a ← read (inWord s)
  let b ← read (inWord (s + stride))
  return between w a b

/-- Between the eight corners along three axes, by the four edges along the last. -/
def cube (s xs ys zs : Int) (xw yw zw : α) : m α := do
  let a ← edge read s zs zw
  let s := s + ys
  let b ← edge read s zs zw
  let c := between yw a b
  let s := s + xs
  let b ← edge read s zs zw
  let s := s - ys
  let a ← edge read s zs zw
  return between xw c (between yw a b)

/-- Between the corners of a cell, with a weight along each axis. A single index runs through the values as stored.
-/
def blend (t : Strides) : List (Int × α) → m α
  | [(i, w)] => edge read i 1 w
  | [(i, xw), (j, yw)] => do
    let s := i * t.x + j * t.y
    let a ← edge read s t.y yw
    let s := s + t.x
    let b ← edge read s t.y yw
    return between xw a b
  | [(i, xw), (j, yw), (k, zw)] =>
    cube read (i * t.x + j * t.y + k * t.z) t.x t.y t.z xw yw zw
  | [(i, xw), (j, yw), (k, zw), (l, uw)] => do
    let s := i * t.x + j * t.y + k * t.z + l * t.u
    let a ← cube read s t.y t.z t.u yw zw uw
    let s := s + t.x
    let b ← cube read s t.y t.z t.u yw zw uw
    return between xw a b
  | [(i, xw), (j, yw), (k, zw), (l, uw), (n, vw)] => do
    let s := i * t.x + j * t.y + k * t.z + l * t.u + n
    let a ← cube read s t.z t.u 1 zw uw vw
    let s := s + t.y
    let b ← cube read s t.z t.u 1 zw uw vw
    let c := between yw a b
    let s := s + t.x
    let b ← cube read s t.z t.u 1 zw uw vw
    let s := s - t.y
    let a ← cube read s t.z t.u 1 zw uw vw
    return between xw c (between yw a b)
  | _ => pure nan

end Cell

/-- Axes, with a value at each combination of their points. -/
structure Interpolator (α : Type) where
  axes : List (StoredAxis α)
  values : Array α
  bounds : List (α × α)

namespace Interpolator

variable {α : Type} [Scalar α]

def shape (g : Interpolator α) : List Nat :=
  g.axes.map (·.count)

def ndim (g : Interpolator α) : Nat :=
  g.axes.length

/-- All data in a row: the axes and then the values. -/
def joined (axes : List (StoredAxis α)) (values : List α) : List α :=
  axes.flatMap (·.points.toList) ++ values

def linked (values : List α) : List (StoredAxis α) → List (StoredAxis α)
  | [] => []
  | a :: rest => { a with after := ((joined rest values).take 3).toArray } :: linked values rest

/-- Cuts data into axes, by their given lengths and numbers of points, and values. -/
def cut : (ndim : Nat) → (lengths counts : List Nat) → List α → List (StoredAxis α) × List α
  | ndim + 1, n :: lengths, k :: counts, xs =>
    let (axes, values) := cut ndim lengths counts (xs.drop n)
    ({ points := (xs.take n).toArray, count := k } :: axes, values)
  | _, _, _, xs => ([], xs)

/-- Axes and values are cut out of one array, if their numbers fit into words. -/
def ofData (ndim : Nat) (lengths counts : List Nat) (data : List α) (bounds : List (α × α)) :
    Except Fault (Interpolator α) :=
  let (axes, values) := cut ndim lengths counts data
  let shape := axes.map (·.count)
  if shape.any (Nat.pow 2 31 ≤ ·) then .error .numberTooLarge
  else if (values.length : Int) ≠ Strides.total shape then .error .badValueCount
  else .ok ⟨linked values axes, values.toArray, bounds⟩

def create (axes : List (List α)) (values : Array α) (tol : α) : Except Fault (Interpolator α) := do
  if axes.isEmpty || 5 < axes.length then throw .badDimension
  let stored ← axes.mapM (StoredAxis.ofPoints tol)
  ofData axes.length (stored.map (·.points.size) ++ [values.size]) (axes.map (·.length)) (joined stored values.toList)
    (axes.map fun xs => (xs.head?.getD nan, xs.getLast?.getD nan))

def ofArrays (axes : List (Tensor α)) (values : Tensor α) (tol : α) :
    Except Fault (Interpolator α) := do
  if axes.isEmpty || 5 < axes.length then throw .badDimension
  let stored ← axes.mapM (StoredAxis.ofArray tol)
  if stored.any Option.isNone then throw .wrongRank
  create (axes.map (·.data.toList)) values.data tol

def read? (g : Interpolator α) (i : Int) : Option α :=
  if i < 0 then none else g.values[i.toNat]?

def read (g : Interpolator α) (i : Int) : α :=
  (g.read? (placeOf g.values.size i)).getD 0.0

/-- The value at coordinates along the leading axes; the others stay at their first points. Outside it is
not-a-number. -/
def evaluateWith {m : Type → Type} [Monad m] (read : Int → m α) (g : Interpolator α)
    (point : List α) : m α :=
  if g.axes.length < point.length then pure nan
  else
    match (g.axes.zip point).mapM fun (a, x) => a.locate x with
    | none => pure nan
    | some places => Cell.blend read (Strides.ofShape g.shape) places

/-- The interpolated value at a point with a coordinate for each axis. -/
def evaluate (g : Interpolator α) (point : List α) : α :=
  Id.run (g.evaluateWith (fun i => pure (g.read i)) point)

def interp (g : Interpolator α) (point : List α) : α :=
  g.evaluate (point.take g.ndim)

def evaluateBy (method : String) (g : Interpolator α) (point : List α) : Except Fault α :=
  let nameOf (n : Nat) := "_interp" ++ toString n ++ "d"
  if !([1, 2, 3, 4, 5].map nameOf).contains method then .error .missingPart
  else if method == nameOf point.length then .ok (g.evaluate point)
  else .error .badArgument

/-- The values at many points: numbers on a single axis, rows otherwise. A single point gives a number. -/
def evaluateAll (g : Interpolator α) (points : Tensor α) : Except Fault (Tensor α) :=
  if g.ndim = 1 then .ok (.ofList (points.data.toList.map fun x => g.interp [x]))
  else
    let rows := match points.shape with
      | [n, m] => some (Tensor.chunks m n points.data.toList)
      | [_] | [] => some [points.data.toList]
      | _ => none
    match rows with
    | none => .error .wrongRank
    | some [row] => .ok ⟨[], #[g.interp row]⟩
    | some rows => .ok (.ofList (rows.map g.interp))

/-! ## Saving -/

/-- An interpolator as it is written to a file. -/
structure Saved (α : Type) where
  ndim : Nat
  data : Array α
  bounds : List (α × α)
  shape : List Nat
  axisCounts : List Nat
  axisLengths : List Nat

def save (g : Interpolator α) : Saved α where
  ndim := g.ndim
  data := (joined g.axes g.values.toList).toArray
  bounds := g.bounds
  shape := g.shape
  axisCounts := g.shape ++ List.replicate (5 - g.ndim) 1
  axisLengths := g.axes.map (·.points.size)

def restore (s : Saved α) : Except Fault (Interpolator α) :=
  ofData s.ndim s.axisLengths s.axisCounts s.data.toList s.bounds

end Interpolator

end GridBayes
