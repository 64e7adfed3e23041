import GridBayes.CommandLine.Arguments
import GridBayes.Value.Update

/-! The settings of a run: those of a file over defaults, and those of the command line over both. -/
namespace GridBayes.CommandLine

abbrev Settings := List (String × Value)

namespace Settings

def defaults : Settings :=
  [("output", .table [("terminal", .bool true), ("file", .str ""), ("corner_plot", .null)]), ("sampling", .table [])]

def updated (s : Settings) (sections : List (String × Value)) : Settings :=
  sections.foldl (fun s (k, v) => setEntry s k v) s

def part (s : Settings) (name : String) : Value :=
  (s.lookup name).getD .null

def looked : Value → Except Fault (List (String × Value))
  | .table es => .ok es
  | _ => .error .missingPart

def named : Value → Except Fault (List (String × Value))
  | .table es => .ok es
  | _ => .error .badArgument

def setOutput (s : Settings) (key : String) (value : Option Given) : Except Fault Settings :=
  match value >>= Given.text? with
  | none => .ok s
  | some text => do
    let entries ← named (s.part "output")
    return setEntry s "output" (.table (setEntry entries key (.str text)))

/-! ## Constants -/

def assignment (text : String) : Except Fault (String × Float) :=
  match Text.splitAt '=' text with
  | [name, value] => do
    let x ← (Value.str value).toReal
    return ((Text.dropStart? "c." name).getD name, x)
  | _ => .error .badUnpacking

def constants (sampling : List (String × Value)) (assignments : List Given) :
    Except Fault (List (String × Value)) := do
  let given ← looked ((sampling.lookup "const").getD (.table []))
  let given ← given.mapM fun (k, v) => do return (k, Value.float (← v.toReal))
  assignments.foldlM (fun es a => do
    let (name, x) ← assignment (← a.toValue.needText .missingPart)
    return setEntry es name (.float x)) given

def withArguments (s : Settings) (a : Arguments) :
    Except Fault (Settings × List (String × Value)) := do
  let s ← s.setOutput "file" a.output
  let s ← s.setOutput "corner_plot" a.cornerPlot
  let sampling ← looked (s.part "sampling")
  let consts ← constants sampling a.setConst
  return (setEntry s "sampling" (.table (setEntry sampling "const" (.table consts))), consts)

def shown (s : Settings) : String :=
  String.join (s.map fun (k, v) => k ++ ": " ++ v.text ++ "\n")

/-! ## Samplers -/

def samplerEntries (sampling : List (String × Value)) : Except Fault (Value × Value) :=
  let kind := (sampling.lookup "sampler").getD (.str "builtin")
  match kind with
  | .str name => .ok (kind, (sampling.lookup name).getD (.table []))
  | .list _ | .table _ => .error .badArgument
  | _ => .ok (kind, .table [])

def unusedEntries (sampling : List (String × Value)) : List String :=
  let kind := (sampling.lookup "sampler").getD (.str "builtin")
  (sampling.map (·.1)).filter fun k =>
    !(["sampler", "const"] ++ kind.str?.toList).contains k

def samplerSections (entries : List (String × Value)) : Except Fault (Value × Value) :=
  if entries.all fun (k, _) => k == "run" || k == "init" then
    .ok ((entries.lookup "init").getD (.table []), (entries.lookup "run").getD (.table []))
  else .error .badSamplerSection

/-! ## Output -/

structure OutputPlan where
  terminal : Bool
  file : Value
  cornerPlot : Value
  cornerOptions : Value

def outputPlan (s : Settings) : Except Fault OutputPlan := do
  let entries ← Value.updated [("terminal", .bool false), ("file", .null), ("corner_plot", .null)] (s.part "output")
  return {
    terminal := ((entries.lookup "terminal").map Value.isOn).getD false
    file := (entries.lookup "file").getD .null
    cornerPlot := (entries.lookup "corner_plot").getD .null
    cornerOptions := (entries.lookup "corner_args").getD (.table []) }

end Settings

end GridBayes.CommandLine
