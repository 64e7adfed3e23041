import GridBayes.Numeric.Double
import GridBayes.Numeric.Statistics
import GridBayes.Numeric.Tensor

/-! Statistics of samples: means, covariances, deviations and three quantiles of each variable, as a
table of numbers and as a text. -/
namespace GridBayes
open Scalar

structure Stats (α : Type) where
  mean : List α
  cov : List (List α)
  std : List α
  p16 : List α
  p50 : List α
  p84 : List α
deriving Repr

namespace Stats

variable {α : Type} [Scalar α]

/-! ## Computing -/

def parts : List α :=
  [0.16, 0.5, 0.84]

def assemble (mean : List α) (cov : List (List α)) (qs : List (List α)) : Stats α where
  mean := mean
  cov := cov
  std := cov.zipIdx.map fun (row, i) => sqrt (row.getD i nan)
  p16 := qs.map fun q => q.getD 0 nan
  p50 := qs.map fun q => q.getD 1 nan
  p84 := qs.map fun q => q.getD 2 nan

def ofSamples (width : Nat) (rows : List (List α)) : Except Fault (Stats α) := do
  if rows.isEmpty then throw .partOutOfRange
  if width = 1 then throw .wrongRank
  return assemble (Statistics.columnMeans width rows) (Statistics.covariance width rows)
    ((Statistics.columns width rows).map (Statistics.quantiles parts))

def ofWeighted (width : Nat) (weights : List α) (rows : List (List α)) :
    Except Fault (Stats α) := do
  if weights.length != rows.length then throw .wrongRank
  if eq (Statistics.sum weights) 0.0 then throw .dividedByZero
  if rows.length < 2 || width = 0 then throw .partOutOfRange
  let mean := Statistics.weightedMeans width weights rows
  return assemble mean (Statistics.weightedCovariance mean weights rows)
    ((Statistics.columns width rows).map (Statistics.weightedQuantiles parts weights))

def ofArray (t : Tensor α) : Except Fault (Stats α) :=
  match t.shape with
  | [] => .error .noSuchAxis
  | [0] => .error .partOutOfRange
  | [_, width] => ofSamples width t.rows
  | _ => .error .wrongRank

/-- Statistics of weighted samples. Weights in the shape of the samples are summed but go no further. -/
def ofWeightedArray (t weights : Tensor α) : Except Fault (Stats α) := do
  let w := weights.data.toList
  if t.shape != weights.shape then
    if weights.rank != 1 then throw .badArgument
    if t.shape.isEmpty then throw .partOutOfRange
    if t.shape.head? != weights.shape.head? then throw .wrongRank
  else
    if t.shape.isEmpty then throw .noSuchAxis
    let sums := match weights.shape with
      | [_, width] => (Statistics.columns width weights.rows).map Statistics.sum
      | _ => [Statistics.sum w]
    if sums.any fun s => eq s 0.0 then throw .dividedByZero
    throw .wrongRank
  match t.shape with
  | [_, width] => ofWeighted width w t.rows
  | _ => if eq (Statistics.sum w) 0.0 then throw .dividedByZero else throw .wrongRank

def ofPosterior (t : Tensor α) (weights : Option (Tensor α)) : Except Fault (Stats α) :=
  match weights with
  | some w => ofWeightedArray t w
  | none => ofArray t

/-! ## Tables -/

def toRows (s : Stats α) (covariances : Bool) : List (List α) :=
  (List.range s.mean.length).map fun i =>
    [s.mean, s.std, s.p16, s.p50, s.p84].map (fun xs => xs.getD i nan)
      ++ if covariances then s.cov.map (fun row => row.getD i nan) else []

end Stats

namespace Stats

variable {α : Type}

def ofTable (t : Tensor α) : Except Fault (Stats α) :=
  match t.shape with
  | [n, width] =>
    let rows := t.rows
    let column (i : Nat) := rows.filterMap fun r => r[i]?
    if width = 5 + n then
      .ok ⟨column 0, rows.map (·.drop 5), column 1, column 2, column 3, column 4⟩
    else .error .shapesDiffer
  | _ => .error .shapesDiffer

end Stats

/-! ## Text -/

namespace Stats

variable {α : Type}

def entry (xs : List α) (i : Int) : Except Fault α :=
  match xs[(if i < 0 then i + xs.length else i).toNat]? with
  | some x => if i < -(xs.length : Int) then .error .partOutOfRange else .ok x
  | none => .error .partOutOfRange

def nameCell : Value → Except Fault String
  | .str s => .ok (Text.padRight 24 s)
  | .bool b => .ok (Text.padLeft 24 (if b then "1" else "0"))
  | .int i => .ok (Text.padLeft 24 (toString i))
  | .float x => .ok (Text.padLeft 24 (Decimal.shortText x))
  | _ => .error .badArgument

def line (write : α → Except Fault String) (s : Stats α) (i : Int) (name : Value) :
    Except Fault String := do
  let name ← nameCell name
  let cells ← [s.mean, s.std, s.p16, s.p50, s.p84].mapM fun xs => do
    return " " ++ Text.padLeft 11 (← write (← entry xs i))
  return Text.padLeft 4 (toString i) ++ " " ++ name ++ String.join cells

def heading : String :=
  Text.padRight 29 "     Name" ++ String.join (["Mean", "Std", "16%", "50%", "84%"].map (Text.padLeft 12))

def table (write : α → Except Fault String) (s : Stats α) (params : Option (List Value))
    (outputs : List Value) : Except Fault String := do
  let count : Int := match params with
    | some names => names.length
    | none => s.mean.length - outputs.length
  let names := params.getD (List.replicate count.toNat (.str ""))
  let first ← names.zipIdx.mapM fun (name, i) => s.line write i name
  let rest ← outputs.zipIdx.mapM fun (name, i) => s.line write (i + count) name
  let rule := if outputs.isEmpty then [] else [String.ofList (List.replicate 89 '-')]
  return Text.join "\n" (heading :: first ++ rule ++ rest)

def namedTable (write : α → Except Fault String) (s : Stats α) (params outputs : List String) :
    Except Fault String :=
  s.table write (some (params.map .str)) (outputs.map .str)

def paramNames : Value → Except Fault (Option (List Value))
  | .null => .ok none
  | .table (_ :: _) => .error .missingField
  | v => v.members.map some

def outputNames : Value → Except Fault (List Value)
  | .null => .ok []
  | v => v.members

def summary (s : Stats Float) (params outputs : List String) : Except Fault String :=
  s.namedTable (fun x => .ok (Decimal.generalText 4 x)) params outputs

def summaryWith (s : Stats Float) (params outputs : Value) : Except Fault String := do
  let outputs ← outputNames outputs
  s.table (fun x => .ok (Decimal.generalText 4 x)) (← paramNames params) outputs

end Stats

end GridBayes
