import GridBayes.Sampler.Ensemble
import GridBayes.Sampler.Settings
import GridBayes.Storage.Printed

/-! What an ensemble is told besides its size: the moves it makes, names for the coordinates, arguments for
the target, and who evaluates it. Nothing of this can be given as a plain value and work, so the module says
when each of them fails and how. -/
namespace GridBayes

structure Count where
  whole : Nat
  isWhole : Bool

namespace Count

open Settings

def ofValue (v : Value) : Except Fault Count := do
  let n ← wholeNumber v
  if n < 0 then throw (.unusablePoint "negative dimensions are not allowed")
  match v with
  | .float x => return ⟨n.toNat, x == x.floor⟩
  | .str _ => return ⟨n.toNat, false⟩
  | _ => return ⟨n.toNat, true⟩

def isExactly (c : Count) (n : Nat) : Bool :=
  c.isWhole && c.whole == n

end Count

namespace EnsembleSetup

/-! ## Moves -/

def itemTypeName (items : List Value) : String :=
  let isText (v : Value) : Bool := match v with
    | .str _ => true
    | _ => false
  let isNumber (v : Value) : Bool := v.number?.isSome && !isText v
  let isTruth (v : Value) : Bool := match v with
    | .bool _ => true
    | _ => false
  let isWhole (v : Value) : Bool := match v with
    | .int _ | .bool _ => true
    | _ => false
  if items.all isTruth then "numpy.bool"
  else if items.all isWhole then "numpy.int64"
  else if items.all isNumber then "numpy.float64"
  else if items.all fun v => isText v || isNumber v then "numpy.str_"
  else ((items.find? fun v => !isText v && !isNumber v).map Value.typeName).getD "object"

def weight : Value → Except Fault Float
  | .null => .ok (0.0 / 0.0)
  | .list _ => .ok (0.0 / 0.0)
  | v => v.toReal

def stepFault (moves : List Value) (weights : List Float) : Fault :=
  let shares := weights.map (· / weights.foldl (· + ·) 0.0)
  let isList (v : Value) : Bool := match v with
    | .list _ => true
    | _ => false
  if moves.any isList then .unusablePoint "a must be 1-dimensional"
  else if shares.any Float.isNaN then .unusablePoint "probabilities contain NaN"
  else if shares.any fun p => p < 0.0 then .unusablePoint "probabilities are not non-negative"
  else .noAttribute (itemTypeName moves) "propose"

def columns (rows : List (List Value)) : List (List Value) :=
  let width := (rows.map List.length).min?.getD 0
  (List.range width).map fun i => rows.map fun r => r.getD i .null

def moveFault (v : Value) : Except Fault (Option Fault) :=
  match v, v.parts? with
  | .null, _ => .ok none
  | v, none => .ok (some (stepFault [v] [1.0]))
  | _, some items =>
    match items.mapM Value.parts? with
    | none => .ok (some (stepFault items (items.map fun _ => 1.0)))
    | some rows =>
      match columns rows with
      | [moves, weights] => do return some (stepFault moves (← weights.mapM weight))
      | other => .error (.unpacked other.length)

/-! ## Names of coordinates -/

def distinctKeys (keys : List Value) : List Value :=
  keys.foldl (fun found k => if found.any k.sameKey then found else found ++ [k]) []

def keySet (keys : List Value) : String :=
  match keys.mapM Value.str? with
  | some texts => showSet (Text.sort texts)
  | none => "\x7b" ++ Text.join ", " (keys.map Value.display) ++ "\x7d"

def namedPlaces (ndim : Value) (count : Count) (isWhole : Bool) (v : Value) :
    Except Fault (List (Value × Value)) := do
  let keys ← match v with
    | .list items => pure items
    | .table entries => pure (entries.map fun e => .str e.1)
    | _ => throw (.namesRefused "")
  if isWhole then throw (.namesRefused "named parameters with vectorization unsupported for now")
  if !keys.all Value.isKey then throw .badArgument
  let distinct := distinctKeys keys
  if distinct.length != keys.length then
    throw (.namesRefused ("duplicate paramters: " ++ keySet distinct))
  let entries ← match v with
    | .table entries => pure (entries.map fun (k, x) => (Value.str k, x))
    | _ =>
      if !count.isExactly keys.length then
        throw (.namesRefused "name all parameters or set \x60parameter_names\x60 to \x60None\x60")
      pure (keys.zipIdx.map fun (k, i) => (k, Value.int i))
  if count.whole < entries.length then throw (.namesRefused "too many names")
  let values := entries.flatMap fun (_, x) => match x with
    | .list items => items
    | x => [x]
  if !values.all Value.isKey then throw .badArgument
  let wanted := (List.range count.whole).map fun (i : Nat) => Value.int i
  if !(values.all fun x => wanted.any x.sameKey) || !(wanted.all fun i => values.any i.sameKey) then
    let last := match ndim with
      | .float x => Decimal.shortText (x - 1.0)
      | _ => toString ((count.whole : Int) - 1)
    throw (.namesRefused ("not all values appear -- set should be 0 to " ++ last))
  return entries

def coordinate (point : Array Float) : Value → Except Fault Float
  | .int i => .ok (point.getD i.toNat (0.0 / 0.0))
  | _ => .error .partOutOfRange

def coordinateText (point : Array Float) : Value → Except Fault String
  | .list items => do
    let xs ← items.mapM (coordinate point)
    return "array([" ++ Text.join ", " (xs.map fun x => Value.partText x ++ ".") ++ "])"
  | v => do
    return "np.float64(" ++ Decimal.shortText (← coordinate point v) ++ ")"

def namedText (entries : List (Value × Value)) (point : Array Float) : Except Fault String := do
  let shown ← entries.mapM fun (k, place) => do
    return k.display ++ ": " ++ (← coordinateText point place)
  return "\x7b" ++ Text.join ", " shown ++ "\x7d"

/-! ## Calls of the target -/

def callFault (init : List (String × Value)) (named : Bool) : Option Fault :=
  let given (key : String) : Option Value := (init.lookup key).filter Value.isOn
  match init.lookup "log_prob_fn", given "args", given "kwargs" with
  | some v, _, _ => some (.badCall ("'" ++ v.typeName ++ "' object is not callable"))
  | none, some args, _ =>
    match args.parts? with
    | some parts => some (.badCall ("log_prob() takes exactly 1 positional argument ("
        ++ toString (parts.length + 1) ++ " given)"))
    | none => some (.badCall ("Value after * must be an iterable, not " ++ args.typeName))
  | none, none, some (.table ((key, _) :: _)) =>
    some (.badCall ("log_prob() got an unexpected keyword argument '" ++ key ++ "'"))
  | none, none, some kwargs =>
    some (.badCall ("log_prob() argument after ** must be a mapping, not " ++ kwargs.typeName))
  | none, none, none => if named then some (.notAnArray "dict") else none

def shownOr (empty : String) (v : Option Value) : String :=
  ((v.filter Value.isOn).map Value.text).getD empty

end EnsembleSetup

structure EnsembleSetup where
  size : Count
  ndim : Count
  noStep : Option Fault := none
  places : Option (List (Value × Value)) := none
  noCall : Option Fault := none
  noWorker : Option Fault := none
  atOnce : Bool := false
  quiet : Bool := false
  args : String := "[]"
  kwargs : String := "\x7b\x7d"

namespace EnsembleSetup

def lacks (init : List (String × Value)) (key operation : String) : Option Fault :=
  match (init.lookup key).getD .null with
  | .null => none
  | v => some (.noAttribute v.typeName operation)

def failureText (s : EnsembleSetup) (params : String) : String :=
  "emcee: Exception while calling your likelihood function:\n  params: " ++ params
    ++ "\n  args: " ++ s.args ++ "\n  kwargs: " ++ s.kwargs ++ "\n  exception:\n"

def pointText (s : EnsembleSetup) (point : Array Float) : Except Fault String :=
  match s.places with
  | some entries => namedText entries point
  | none => .ok (StoredArray.ofReals (Tensor.ofList point.toList)).text

def matrixText (width : Nat) (points : List (Array Float)) : String :=
  (StoredArray.ofReals ⟨[points.length, width], (points.map (·.toList)).flatten.toArray⟩).text

end EnsembleSetup

end GridBayes
