import GridBayes.Builder.Basic
import GridBayes.Value.Toml

/-! Reading a model from its description, a table with a section for each kind of part and one for
each grid. Reading takes the code and the name of the distribution off the lists it reads, so what
is left of the description is part of the result. -/
namespace GridBayes.Builder

def sections : List String :=
  ["multiplicity", "expr", "var", "prior", "override", "outputs", "options", "imports"]

def tableEntries : Value → Except Fault (List (String × Value))
  | .table entries => .ok entries
  | _ => .error .missingPart

def looksLikeName (s : String) : Bool :=
  !s.isEmpty && s.toList.all fun c => ('A' ≤ c && c ≤ 'z')

def namesDistribution (s : String) : Bool :=
  Preset.all.any fun p => Text.endsWith p.name (Text.lower s)

def distribution (var : String) (spec : Value) : Except Fault (Value × Value) :=
  match spec with
  | .list (.str s :: rest) =>
    if namesDistribution s then .ok (.str s, .list rest)
    else if looksLikeName s then .error (.looksLikeDistribution spec.text var)
    else .ok (.str "normal", spec)
  | .list (_ :: _) => .ok (.str "normal", spec)
  | _ => .error .notADistribution

def readExpression (name : String) (code : Value) : BuilderM Unit := do
  remark ("expr." ++ name ++ " = '" ++ code.text ++ "'")
  expression code

def readVariable (name : String) (value : Value) : BuilderM Value := do
  remark ("var." ++ name ++ " = " ++ value.text)
  match value with
  | .str _ | .float _ | .int _ =>
    assign (.str name) (.str value.text)
    return value
  | .list [] => throw .partOutOfRange
  | .list (code :: rest) =>
    let code ← ofExcept (code.needText .notText)
    if ((← grids).lookup code).isSome then throw .notText
    assign (.str name) (.str code)
    if rest.isEmpty then return .list []
    let (dist, params) ← ofExcept (distribution ("v." ++ name) (.list rest))
    constraint (.str ("v." ++ name)) dist params
    return params
  | _ => return value

def readPrior (name : String) (value : Value) : BuilderM Value := do
  remark ("prior." ++ name ++ " = " ++ value.text)
  let (dist, params) ← ofExcept (distribution ("p." ++ name) value)
  prior (.str ("p." ++ name)) dist params
  return params

/-- The entry of a measured variable of a grid, with an index exactly if there are several copies. -/
def readGridEntry (grid name : String) (value : Value) : BuilderM Value := do
  let n ← ofExcept value.size
  if n != 2 && n != 3 then throw .notText
  let hasIndex := 1 < (Text.splitWord "--" name).length
  if ((← get).multiplicity.lookup grid).isSome then
    if !hasIndex then throw (.indexMissing grid name)
  else if hasIndex then throw (.indexUnexpected grid name)
  remark ("d." ++ grid ++ "." ++ name ++ " = " ++ value.text)
  let var := "g." ++ grid ++ "." ++ name
  let (dist, params) ← ofExcept (distribution var value)
  constraint (.str var) dist params
  return params

def typeText (v : Value) : String :=
  "<class '" ++ v.typeName ++ "'>"

def readOverrides (key : String) : List (String × Value) → BuilderM Unit
  | [] => return ()
  | (input, value) :: rest => do
    match value with
    | .float _ | .int _ | .str _ => override (.str (key ++ "." ++ input)) (.str value.text)
    | _ => throw (.badOverrideType (key ++ "." ++ input) value.text (typeText value))
    readOverrides key rest

def readOverride (key : String) (value : Value) : BuilderM Unit := do
  remark ("override." ++ key ++ " = " ++ value.text)
  match value with
  | .table entries => readOverrides key entries
  | .str s => override (.str key) (.str s)
  | _ => throw .notText

def readOutput (value : Value) : BuilderM Unit := do
  let name := Text.strip (← ofExcept (value.needText .missingPart))
  let (_, shown) ← extract name
  if !isOutputName name then throw (.badOutput shown)
  modify fun b => { b with outputs := b.outputs ++ [.str shown] }

def readEntries (read : String → Value → BuilderM Value) :
    List (String × Value) → BuilderM (List (String × Value))
  | [] => return []
  | (k, v) :: rest => do
    let left ← read k v
    return (k, left) :: (← readEntries read rest)

def readSection (model : List (String × Value)) (name : String)
    (read : String → Value → BuilderM Value) : BuilderM (List (String × Value)) := do
  match model.lookup name with
  | none => return model
  | some v =>
    let left ← readEntries read (← ofExcept (tableEntries v))
    return setEntry model name (.table left)

def leaving (read : String → Value → BuilderM Unit) (name : String) (value : Value) :
    BuilderM Value := do
  read name value
  return value

def readGrids : List String → List (String × Value) → BuilderM (List (String × Value))
  | [], model => return model
  | grid :: rest, model => do
    let model ← readSection model grid (readGridEntry grid)
    readGrids rest model

def readImports (value : Value) : BuilderM Unit :=
  match value with
  | .list items =>
    match items.mapM Value.str? with
    | some names => modify fun b => { b with imports := names }
    | none => throw .badImports
  | _ => throw .badImports

def readOptions (value : Value) : BuilderM Unit := do
  let options ← ofExcept (tableEntries value)
  let on := ((options.lookup "optional_likelihood_terms").getD (.bool false)).isOn
  modify fun b => { b with optionalTerms := on }

def whenGiven (read : Value → BuilderM Unit) : Option Value → BuilderM Unit
  | some value => read value
  | none => return ()

def checkSections (known : List String) (model : List (String × Value)) : BuilderM Unit :=
  match model.find? fun (k, _) => !(sections.contains k || known.contains k) with
  | some (k, _) => throw (.unknownSection k known sections)
  | none => return ()

def describe (description : Value) : BuilderM (List (String × Value)) := do
  remarkHeading "" "Model Processing"
  let known := (← grids).map (·.1)
  let model ← ofExcept (tableEntries description)
  checkSections known model
  let model ← readSection model "multiplicity" (leaving fun key count => do
    remark ("multiplicity." ++ key ++ " = " ++ count.text)
    modify fun b => { b with multiplicity := setEntry b.multiplicity key count })
  let model ← readSection model "expr" (leaving readExpression)
  whenGiven readImports (model.lookup "imports")
  let model ← readSection model "var" readVariable
  let model ← readSection model "prior" readPrior
  let model ← readGrids known model
  let model ← readSection model "override" (leaving readOverride)
  whenGiven (fun v => do (← ofExcept v.members).forM readOutput) (model.lookup "outputs")
  whenGiven readOptions (model.lookup "options")
  return model

/-! ## Files -/

def fileSections : List String :=
  ["model", "sampling", "output"]

def unusedSections (file : String) (entries : List (String × Value)) : String :=
  String.join ((entries.filter fun (k, _) => !fileSections.contains k).map fun (k, _) =>
    "Warning, section " ++ k ++ " in input file " ++ file ++ " is not used.\n")

def describeFile (file text : String) : BuilderM Unit := do
  match Toml.parse? text with
  | none => throw .badToml
  | some entries =>
    say (unusedSections file entries)
    match entries.lookup "model" with
    | none => throw .missingField
    | some v =>
      let _ ← describe v

end GridBayes.Builder
