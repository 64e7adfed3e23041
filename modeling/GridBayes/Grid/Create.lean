import GridBayes.Deferred.Reference
import GridBayes.Grid.Basic

/-! Making a grid from arrays. Everything that a reader relies on is checked first. -/
namespace GridBayes

/-- A grid that is to be made. -/
structure GridDefinition where
  name : String
  ordered : Bool := true
  inputs : List (String × Tensor Float)
  outputs : List (String × Tensor Float)
  derived : List (String × Value) := []
  mappings : List (String × Value) := []
  citations : Option Value := none
  notes : Option Value := none
  version : Option Value := none

namespace GridDefinition

def ofValues (d : GridDefinition) (name derived mappings : Value) :
    Except Fault GridDefinition := do
  let name ← name.needText .notText
  if !d.ordered then throw .inputsUnordered
  match derived, mappings with
  | .table derived, .table mappings =>
    return { d with name := name, derived := derived, mappings := mappings }
  | _, _ => throw .notText

def overlap {α β : Type} (a : List (String × α)) (b : List (String × β)) : Bool :=
  a.any fun (k, _) => b.any fun (l, _) => k == l

def sorted {α : Type} (entries : List (String × α)) : List (String × α) :=
  Text.sortBy (fun e => Text.lower e.1) entries

def isValidName (name : String) : Bool :=
  match name.toList with
  | c :: rest => Deferred.startsName c && rest.all Text.isWord
  | [] => false

/-- An input has increasing points along one axis. -/
def checkInput (name : String) (t : Tensor Float) : Except Fault Unit := do
  if !isValidName name then throw (.badGridName "Input" name)
  if t.shape.length != 1 then throw (.inputNotFlat name)
  if !StoredAxis.increasing t.data.toList then throw (.inputNotIncreasing name)

def checkOutput (shape : List Nat) (name : String) (t : Tensor Float) : Except Fault Unit := do
  if !isValidName name then throw (.badGridName "Output" name)
  if t.shape != shape then throw (.outputShape name t.shapeText (Tensor.textOfShape shape))
  if !t.data.any Float.isFinite then throw (.outputNotFinite name)

def shape (d : GridDefinition) : List Nat :=
  d.inputs.map fun (_, t) => t.shape.headD 0

def defined (d : GridDefinition) : List String :=
  d.inputs.map (·.1) ++ d.outputs.map (·.1) ++ d.derived.map (·.1)

/-- A check that is refused, or says something. -/
structure Check where
  result : Except Fault String
  /-- Whether the folder of grids is read for it. -/
  reads : Bool := false

def checkMention (d : GridDefinition) (library : Except Fault (List (String × Grid)))
    (derived : String) (r : Deferred.Reference) : Except Fault String :=
  match r.grid with
  | none => .ok ""
  | some g =>
    if g == d.name then
      if d.defined.contains r.name then .ok "" else .error .missingPart
    else
      match library with
      | .error e => .error e
      | .ok grids =>
        match grids.lookup g with
        | some grid => if grid.names.contains r.name then .ok "" else .error .missingPart
        | none => .ok ("Warning: derived value " ++ derived ++ " refers to an undefined grid "
            ++ g ++ ".\n")

def mentionCheck (d : GridDefinition) (library : Except Fault (List (String × Grid))) (derived : String)
    (r : Deferred.Reference) : Check :=
  ⟨d.checkMention library derived r, r.grid.any (· != d.name)⟩

def needText : Value → Except Fault String
  | .str s => .ok s
  | _ => .error .notText

def checkDerived (d : GridDefinition) (library : Except Fault (List (String × Grid)))
    (name : String) (code : Value) : List Check :=
  if !isValidName name then [⟨.error (.badGridName "Derived value" name), false⟩]
  else
    match needText code with
    | .error e => [⟨.error e, false⟩]
    | .ok code => (Deferred.references code).map (d.mentionCheck library name)

/-- Only inputs have mappings, and these are texts. -/
def checkMapping (d : GridDefinition) (name : String) (code : Value) : Except Fault Unit := do
  if (d.inputs.lookup name).isNone then throw (.mappingWithoutInput name)
  let _ ← needText code

def check (d : GridDefinition) (library : Except Fault (List (String × Grid))) : List Check :=
  let quiet (e : Except Fault Unit) : Check := ⟨e.map fun _ => "", false⟩
  let refuse (bad : Bool) (f : Fault) : Check := ⟨if bad then .error f else .ok "", false⟩
  [refuse (!d.ordered) .inputsUnordered, refuse (overlap d.outputs d.inputs) (.namesOverlap "Outputs" "inputs")]
    ++ d.inputs.map (fun (k, t) => quiet (checkInput k t))
    ++ (sorted d.outputs).map (fun (k, t) => quiet (checkOutput d.shape k t))
    ++ [refuse (overlap d.derived d.inputs) (.namesOverlap "Derived" "inputs"),
      refuse (overlap d.derived d.outputs) (.namesOverlap "Derived" "outputs")]
    ++ ((sorted d.derived).map fun (k, v) => d.checkDerived library k v).flatten
    ++ (sorted d.mappings).map (fun (k, v) => quiet (d.checkMapping k v))

def extremes : List Float → Except Fault (List Float)
  | [] => .error .emptyReduction
  | x :: rest =>
    .ok [rest.foldl (fun m y => if y < m then y else m) x, rest.foldl (fun m y => if m < y then y else m) x]

def inputBounds (t : Tensor Float) : Except Fault (List Float) :=
  match t.data.toList.find? Float.isNaN with
  | some x => .ok [x, x]
  | none => extremes t.data.toList

def outputBounds (t : Tensor Float) : Except Fault (List Float) :=
  extremes (t.data.toList.filter fun x => !x.isNaN)

def specText (d : GridDefinition) : String :=
  Text.join ", " (d.inputs.map (·.1)) ++ " -> "
    ++ Text.join ", " ((sorted d.outputs).map (·.1))
    ++ if d.derived.isEmpty then "" else "; " ++ Text.join ", " ((sorted d.derived).map (·.1))

/-- The archive of a grid that has passed the checks, with the bounds in the order of the names. -/
def toArchive (d : GridDefinition) : Except Fault Archive := do
  let outputs := sorted d.outputs
  let byName := Text.sortBy (·.1) d.outputs
  let inputBounds ← d.inputs.mapM fun (_, t) => inputBounds t
  let bounds := inputBounds ++ (← byName.mapM fun (_, t) => outputBounds t)
  let columns := d.inputs ++ outputs
  let note (key : String) (v : Option Value) : Except Fault Archive :=
    v.toList.mapM fun v => do return (key, ← Item.ofValue v)
  let notes := (← note "_citations" d.citations) ++ (← note "_notes" d.notes) ++ (← note "_version" d.version)
  if columns.any fun (k, _) => k == "file" then throw .reservedName
  return [("_grid_spec", .text d.specText),
      ("_input_mappings", .text (Value.table (sorted d.mappings)).toJson),
      ("_derived", .text (Value.table (sorted d.derived)).toJson),
      ("_bounds", .reals ⟨[bounds.length, 2], bounds.flatten.toArray⟩),
      ("_shape", .array (.ofCounts d.shape))]
    ++ columns.map (fun (k, t) => (k, Item.reals t)) ++ notes

end GridDefinition

end GridBayes
