import GridBayes.Program.Render
import GridBayes.Sampler.Chain

/-! The settings of runs as they stand in descriptions: names with values. A name that is not known
and a value of the wrong type are refused. -/
namespace GridBayes

namespace Settings

def word (n : Int) : Except Fault Int :=
  if -2147483648 ≤ n && n ≤ 2147483647 then .ok n else .error .numberTooLarge

def whole : Value → Except Fault Int
  | .int n => .ok n
  | .bool b => .ok (if b then 1 else 0)
  | v => .error (.notAnIndex v.typeName)

def wholePart : Value → Except Fault Int
  | .float x =>
    if x.isNaN then .error .badNumberText
    else if x.isInf then .error .numberTooLarge
    else .ok (Numeric.truncate x)
  | .int n => .ok n
  | .bool b => .ok (if b then 1 else 0)
  | _ => .error .notWhole

def counted (v : Value) : Except Fault Int :=
  wholePart v >>= word

def wholeNumber : Value → Except Fault Int
  | .str s =>
    match Decimal.int? s with
    | some n => .ok n
    | none => .error .badNumberText
  | v => wholePart v

def real (v : Value) : Except Fault Float :=
  match v with
  | .int _ =>
    match v.number? with
    | some x => if x.isFinite then .ok x else .error .numberTooLarge
    | none => .error .numberTooLarge
  | .bool b => .ok (if b then 1.0 else 0.0)
  | .float x => .ok x
  | v => .error (.notReal v.typeName)

def withDefault (entries : List (String × Value)) (key : String) (value : Value) :
    List (String × Value) :=
  if (entries.lookup key).isSome then entries else entries ++ [(key, value)]

def checkNames (owner : String) (known : List String) (entries : List (String × Value)) :
    Except Fault Unit :=
  match entries.find? fun (k, _) => !known.contains k with
  | some (k, _) => .error (.unknownSetting owner k)
  | none => .ok ()

def required (entries : List (String × Value)) (key : String) : Except Fault Value :=
  match entries.lookup key with
  | some v => .ok v
  | none => .error .badArgument

end Settings

namespace RunSettings

open Settings

def names : List String :=
  ["n_samples", "burn_in", "thin", "progress", "alpha", "metropolis_frac", "metropolis_presamples",
    "adaptive_pgr_thresh", "max_adapt_iter"]

def checkEntries (es : List (String × Value)) : Except Fault Unit := do
  checkNames "run" names es
  let _ ← required es "n_samples"
  let _ ← required es "burn_in"

def ofEntries (es : List (String × Value)) : Except Fault (RunSettings Float) := do
  let wholeOr (key : String) (n : Int) := ((es.lookup key).map counted).getD (.ok n)
  let realOr (key : String) (x : Float) := ((es.lookup key).map real).getD (.ok x)
  return {
    samples := ← counted (← required es "n_samples")
    burnIn := ← counted (← required es "burn_in")
    thin := ← wholeOr "thin" 4
    progress := ((es.lookup "progress").map Value.isOn).getD false
    scale := ← realOr "alpha" 2.0
    jumpFraction := ← realOr "metropolis_frac" 0.2
    presamples := ← wholeOr "metropolis_presamples" (-1)
    threshold := ← realOr "adaptive_pgr_thresh" 1.1
    rounds := ← wholeOr "max_adapt_iter" 6 }

def withStart {β : Type} (es : List (String × Value)) (start : Except Fault β) :
    Except Fault (RunSettings Float × β) := do
  checkEntries es
  let start ← start
  return (← ofEntries es, start)

end RunSettings

end GridBayes
