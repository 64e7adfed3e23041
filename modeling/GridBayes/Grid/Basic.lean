import GridBayes.Highlight
import GridBayes.Interpolator
import GridBayes.Numeric.Double
import GridBayes.Storage.Store
import GridBayes.Value.Json

/-! Grids: named inputs that span a rectangular grid, outputs with a value at each point, and
derived values with the code that computes them. A grid is kept as an archive, whose entry
`_grid_spec` lists the names. -/
namespace GridBayes

/-- Tabulated functions: inputs with axes, outputs with values, and code for what is derived from them. -/
structure Grid where
  name : String
  spec : String
  inputs : List String
  outputs : List String
  derived : List (String × Value)
  bounds : StoredArray
  shape : StoredArray
  citations : String
  notes : String
  version : String
  /-- What each input is taken from, unless a model says otherwise. -/
  mappings : List (Value × Value)
  data : Archive

namespace Grid

/-- All that a grid can be asked for. -/
def provides (g : Grid) : List String :=
  g.outputs ++ g.derived.map (·.1)

def names (g : Grid) : List String :=
  g.inputs ++ g.provides

def ndim (g : Grid) : Nat :=
  g.inputs.length

def nameList (s : String) : List String :=
  (Text.splitAt ',' s).map Text.strip

def writtenValue (x : StoredArray) : Except Fault Value :=
  match Value.ofJson? x.text with
  | some v => .ok v
  | none => .error .badJson

/-- What the inputs are read from: a parameter of the same name, unless the file says something else. -/
def mappingsOf (a : Archive) (inputs : List String) : Except Fault (List (Value × Value)) := do
  let standard := inputs.foldl (fun m k => Value.setKey m (.str k) (.str ("p." ++ k ++ "--i"))) []
  match ← a.array? "_input_mappings" with
  | some x => Value.updatedKeys standard (← writtenValue x)
  | none => return standard

/-- A grid is read from the entries of its file, which have to fit each other. -/
def ofArchive (file : String) (a : Archive) : Except Fault Grid := do
  if !a.has "_grid_spec" then throw (.notAGrid file)
  let spec := (← a.array "_grid_spec").text
  let bounds ← a.array "_bounds"
  let shape ← a.array "_shape"
  if shape.shape.isEmpty then throw .badArgument
  let parts := Text.splitWord "->" spec
  let inputs := nameList (parts.headD "")
  let some right := parts[1]? | throw .partOutOfRange
  let outputs := nameList ((Text.splitAt ';' right).headD "")
  let derived ← match ← a.array? "_derived" with
    | some x => writtenValue x
    | none => pure (.table [])
  let citations ← a.textOf "_citations"
  let notes ← a.textOf "_notes"
  let version ← a.textOf "_version"
  let .table derived := derived | throw .missingPart
  match (inputs ++ outputs).find? fun k => !a.has k with
  | some k => throw (.columnMissing k)
  | none => pure ()
  return {
    name := Path.stem file
    spec := spec
    inputs := inputs
    outputs := outputs
    derived := derived
    bounds := bounds
    shape := shape
    citations := citations
    notes := notes
    version := version
    mappings := ← mappingsOf a inputs
    data := a }

def shortList (names : List String) : String :=
  Text.join ", " (names.take 4) ++ if 4 < names.length then ", +" ++ toString (names.length - 4) else ""

def display (g : Grid) : String :=
  "Grid_" ++ g.name ++ "(" ++ Text.join ", " g.inputs ++ " -> " ++ shortList g.outputs
    ++ (if g.derived.isEmpty then "" else "; " ++ shortList (g.derived.map (·.1))) ++ ")"

def mapping (g : Grid) (name : String) : Value :=
  (g.mappings.lookup (.str name)).getD .null

/-- The mappings of the inputs, after overrides. -/
def inputMap (g : Grid) (overrides : List (String × Value)) : List (Value × Value) :=
  let own := overrides.filter fun o => g.inputs.contains o.1
  own.foldl (fun m (k, v) => Value.setKey m (.str k) v) g.mappings

/-! ## Interpolators -/

/-- The points of an axis, transformed if the input is. -/
def axis (g : Grid) (f : Option (Float → Float)) (key : String) : Except Fault StoredArray := do
  let a ← g.data.array key
  match f, a.numbers? with
  | none, _ => return a
  | some f, some t => return .ofReals (t.map f)
  | some _, none => throw .noArithmetic

/-- Whether the points of an axis grow; for truth values, whether they change. -/
def isIncreasing (a : StoredArray) : Except Fault Bool :=
  match a.numbers? with
  | none => .error .noArithmetic
  | some t =>
    let changes := (t.data.toList.zip (t.data.toList.drop 1)).all fun (x, y) => x != y
    if a.kind == .flag && t.rank == 1 then .ok changes else StoredAxis.hasIncreasingRows t

def pointsOf (a : StoredArray) : Except Fault (Tensor Float) :=
  match a.kind, a.numbers? with
  | .flag, _ => .error .badArgument
  | _, some t => .ok t
  | _, none => .error .noArithmetic

/-- The values of an output, transformed. -/
def values (g : Grid) (f : Float → Float) (key : String) : Except Fault (Array Float) := do
  match (← g.data.array key).numbers? with
  | some t => return t.data.map f
  | none => throw .badArgument

/-- The interpolator of an output, with functions applied to inputs and output. The inputs must still increase. -/
def build (g : Grid) (output : String) (inputFunctions : List (String × (Float → Float)))
    (outputFunction : Float → Float) : Except Fault (Interpolator Float) := do
  if !g.provides.contains output then throw .notAnOutput
  if !inputFunctions.all fun (k, _) => g.inputs.contains k then throw .notAnInput
  if (g.derived.lookup output).isSome then throw .derivedColumn
  let axes ← g.inputs.mapM fun k => g.axis (inputFunctions.lookup k) k
  if !(← axes.mapM isIncreasing).all id then throw .axisNotIncreasing
  let axes ← axes.mapM pointsOf
  Interpolator.ofArrays axes (.ofList (← g.values outputFunction output).toList) 1e-6

/-! ## Report -/

/-- A bound of an input or output as the summary shows it. -/
def boundText (g : Grid) (row col : Nat) : Except Fault String :=
  match g.bounds.shape with
  | n :: width :: rest =>
    if row < n && col < width then
      if !rest.isEmpty then .error .badArgument
      else
        match g.bounds.cells.data[row * width + col]? with
        | some (.real x) => .ok (Text.padLeft 10 (Decimal.generalText 4 x))
        | _ => .error .badNumberFormat
    else .error .partOutOfRange
  | _ => .error .partOutOfRange

def lengthText (g : Grid) (i : Nat) : Except Fault String :=
  match g.shape.shape with
  | n :: rest =>
    if n ≤ i then .error .partOutOfRange
    else if !rest.isEmpty then .error .badArgument
    else
      match g.shape.cells.data[i]? with
      | some (.whole n) => .ok (Text.padLeft 10 (toString n))
      | some c => (c.generalText 6).map (Text.padLeft 10)
      | none => .error .partOutOfRange
  | [] => .error .partOutOfRange

def inputLine (g : Grid) (p : Palette) (i : Nat) (name : String) : Except Fault String := do
  let low ← g.boundText i 0
  let high ← g.boundText i 1
  let length ← g.lengthText i
  return Text.padLeft 3 (toString i) ++ " " ++ p.bold ++ Text.padRight 20 name ++ p.reset ++ " "
    ++ low ++ " " ++ high ++ " " ++ length ++ "     " ++ (g.mapping name).text ++ "\n"

def outputLine (g : Grid) (i : Nat) (name : String) : Except Fault String := do
  let low ← g.boundText i 0
  let high ← g.boundText i 1
  return Text.padLeft 3 (toString i) ++ " " ++ Text.padRight 20 name ++ " " ++ low ++ " " ++ high ++ "\n"

def derivedLine (i : Nat) (name : String) (code : Value) : Except Fault String := do
  let .str code := code | throw .missingPart
  let code := (Text.splitAt '\n' code).headD ""
  let code := if code.length < 80 then code else Text.takeFirst 80 code ++ " ..."
  return Text.padLeft 3 (toString i) ++ " " ++ Text.padRight 20 name ++ " " ++ code ++ "\n"

def manyNames (names : List String) : String :=
  String.join ((names.take 12).map fun n => "    " ++ n ++ "\n")
    ++ "    [+" ++ toString (names.length - 12) ++ " more]\n"

def titled (p : Palette) (title gap text : String) : List (Except Fault String) :=
  if text == "" then [] else [.ok (p.bold ++ title ++ p.reset ++ ":" ++ gap ++ text ++ "\n")]

/-- The report on a grid, in pieces; one that cannot be written ends it. Long lists are cut unless all is wanted. -/
def report (g : Grid) (full : Bool) (p : Palette) : List (Except Fault String) :=
  let head (s : String) := p.bold ++ p.underline ++ s ++ p.reset
  [.ok (head ("Grid " ++ g.name) ++ "\n")]
    ++ titled p "Version" "   " g.version
    ++ titled p "Citations" " " g.citations
    ++ titled p "Notes" "     " g.notes
    ++ [.ok ("\n" ++ p.bold ++ "Contents" ++ p.reset ++ ":\n"),
      .ok ("    " ++ head "Input" ++ "                       Min        Max     Length     Default Mapping\n")]
    ++ g.inputs.zipIdx.map (fun (name, i) => g.inputLine p i name)
    ++ (if g.outputs.length < 12 || full then
        .ok ("    " ++ head "Output" ++ "                      Min        Max\n")
          :: g.outputs.zipIdx.map fun (name, i) => g.outputLine (i + g.inputs.length) name
      else [.ok (manyNames g.outputs)])
    ++ (if g.derived.length < 12 || full then
        .ok ("    " ++ head "Derived" ++ "              Code\n")
          :: g.derived.zipIdx.map fun ((name, code), i) =>
            derivedLine (i + g.inputs.length + g.outputs.length) name code
      else [.ok (manyNames (g.derived.map (·.1)))])

def written : List (Except Fault String) → String × Option Fault
  | [] => ("", none)
  | .error e :: _ => ("", some e)
  | .ok s :: rest =>
    let (text, fault) := written rest
    (s ++ text, fault)

/-- What a reader takes who stops after some lines, and does not see why the report ended. -/
def cut (lines : Nat) (report : List (Except Fault String)) : String × Option Fault :=
  let (text, fault) := written report
  let all := (Text.splitAt '\n' text).dropLast
  if lines < all.length then (String.join ((all.take lines).map (· ++ "\n")), none)
  else (text, fault)

end Grid

end GridBayes
