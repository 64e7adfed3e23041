import GridBayes.Stats
import GridBayes.Storage.Store

/-! Files with results: telling kinds of files apart, reading samples back, and naming their
columns. -/
namespace GridBayes

/-! ## Kinds of files -/

inductive FileKind where
  | model
  | posterior
  | grid
  | unknown
deriving Repr, DecidableEq

namespace FileKind

def name : FileKind → String
  | model => "model"
  | posterior => "posterior"
  | grid => "grid"
  | unknown => "unknown"

def posteriorKeys : List String :=
  ["params", "param_names", "outputs", "output_names"]

def gridKeys : List String :=
  ["_grid_spec", "_input_mappings", "_derived", "_bounds", "_shape"]

def ofArchive (a : Archive) : FileKind :=
  if posteriorKeys.all a.has then posterior
  else if gridKeys.all a.has then grid
  else unknown

def ofFile (s : Store) (file : String) : Except Fault FileKind :=
  match Path.extension file with
  | ".toml" => .ok model
  | ".npz" => (s.archive (Path.ofText file)).map ofArchive
  | _ => .ok unknown

end FileKind

/-! ## Results -/

structure Posterior where
  outputNames : List String
  paramNames : List String
  constants : StoredArray
  constantNames : List String
  code : String
  codeHash : String
  grids : List String
  gridVariables : List String
  stats : Option (Stats Cell)
  time : String
  version : String
  runtime : String
  citations : String
  samples : Option StoredArray := none

namespace Posterior

def textsOf (a : Archive) (key : String) : Except Fault (List String) := do
  match ← a.array? key with
  | some x => x.texts
  | none => return []

def statsOf (a : Archive) : Except Fault (Option (Stats Cell)) := do
  match ← a.array? "stats" with
  | some x => (Stats.ofTable x.cells).map some
  | none => return none

def samplesOf (a : Archive) (outputs : Bool) : Except Fault StoredArray := do
  let params ← a.array "params"
  let samples ← if outputs then params.beside (← a.array "outputs") else pure params
  match ← a.array? "weights" with
  | some w => samples.beside (← w.asColumn)
  | none => return samples

def ofArchive (file : String) (a : Archive) (metadataOnly includeOutputs : Bool) :
    Except Fault Posterior := do
  if !FileKind.posteriorKeys.all a.has then throw (.notResults file)
  let outputNames ← (← a.array "output_names").texts
  let p : Posterior := {
    outputNames := outputNames
    paramNames := ← (← a.array "param_names").texts
    constants := (← a.array? "consts").getD .empty
    constantNames := outputNames
    code := ← a.textOf "code"
    codeHash := ← a.textOf "code_hash"
    grids := ← textsOf a "grids"
    gridVariables := ← textsOf a "grid_vars"
    stats := ← statsOf a
    time := ← a.textOf "time"
    version := ← a.textOf "starlord_version"
    runtime := ← a.textOf "python_version"
    citations := ← a.textOf "citations" }
  if metadataOnly then return p
  let samples ← samplesOf a includeOutputs
  return { p with
    outputNames := if a.has "weights" then outputNames ++ ["weights"] else outputNames
    samples := some samples }

def load (s : Store) (file : String) (metadataOnly includeOutputs : Bool) :
    Except Fault Posterior := do
  ofArchive file (← s.archive (Path.ofText file)) metadataOnly includeOutputs

/-! ## Frames -/

def simplified (grids : List String) (name : String) : String :=
  match Text.splitWord "__" name with
  | grid :: part :: parts =>
    Text.join "_" (if grids.contains grid then part :: parts else grid :: part :: parts)
  | parts => Text.join "_" parts

def addColumn (grids : List String) (names : List String) (name : String) : List String :=
  let short := simplified grids name
  names ++ [if names.contains short then name else short]

def columnNames (p : Posterior) (simplify : Bool) : List String :=
  if simplify then p.outputNames.foldl (addColumn p.grids) p.paramNames
  else p.paramNames ++ p.outputNames

def frame (s : Store) (file : String) (simplify : Bool) :
    Except Fault (List String × StoredArray) := do
  let p ← load s file false true
  let names := p.columnNames simplify
  let samples := p.samples.getD .empty
  let samples ← if samples.shape.length = 1 then samples.asColumn else pure samples
  match samples.shape with
  | [_, width] => if width = names.length then return (names, samples) else throw .wrongRank
  | _ => throw .wrongRank

end Posterior

end GridBayes
