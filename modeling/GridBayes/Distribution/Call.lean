import GridBayes.Distribution.Family
import GridBayes.Template
import GridBayes.Value.Update

/-! A use of a distribution: a variable, a distribution by name and its parameters, checked and
with the parameters turned into templates. -/
namespace GridBayes

structure DistributionCall where
  var : Symbol
  family : Family
  params : List String
  requires : SymbolSet
deriving Repr, DecidableEq

namespace DistributionCall

def preset (var : Value) (name : String) (params : List Value) : Except Fault Preset :=
  let name := Text.lower name
  match Preset.ofName? name with
  | none => .error (.unknownDistribution name var.text)
  | some p =>
    if p.arity == params.length then .ok p
    else .error (.parameterCount name p.arity params.length)

def create (var : Value) (name : String) (params : List Value) :
    Except Fault DistributionCall := do
  let p ← preset var name params
  let texts := (p.parameters params).map Value.text
  let symbol ← Symbol.ofValue var
  return {
    var := symbol
    family := p.base
    params := texts.map Template.ofSource
    requires := texts.foldr (fun t set => SymbolSet.union (Template.symbols t) set) [] }

/-- The list of parameters after the use: numbers of a preset are added also if the variable is refused later. -/
def paramsAfter (var : Value) (name : String) (params : List Value) : List Value :=
  match preset var name params with
  | .ok p => params ++ p.added
  | .error _ => params

/-! ## Uses as they are written -/

/-- The parameters of a value under a name. Only a list takes the numbers of a preset. -/
def writtenParams (var : Value) (name : String) (params : Value) : Except Fault (List Value) :=
  match params, params.parts?, Preset.ofName? (Text.lower name) with
  | .list items, _, _ => .ok items
  | _, _, none => .error (.unknownDistribution (Text.lower name) var.text)
  | _, none, _ => .error .notANumber
  | v, some items, _ => do
    let p ← preset var name items
    if !p.added.isEmpty then throw .badArgument
    match v, p with
    | .table _, .apogeeAlpha | .table _, .galahAlpha => throw .missingField
    | _, _ => return items

def ofValues (var name params : Value) : Except Fault DistributionCall := do
  let name ← name.needText .missingPart
  create var name (← writtenParams var name params)

def valuesAfter (var : Value) (name : String) (params : Value) : Value :=
  match params with
  | .list items => .list (paramsAfter var name items)
  | v => v

def paramText (d : DistributionCall) : String :=
  Text.join ", " d.params

end DistributionCall

end GridBayes
