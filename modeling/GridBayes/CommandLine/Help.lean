import GridBayes.CommandLine.Switch
import GridBayes.Text.Wrap

/-! The text about the command line, for a terminal of 80 columns. -/
namespace GridBayes.CommandLine

def programName : String :=
  "starlord"

namespace Help

def width : Nat :=
  78

def column : Nat :=
  24

def blanks (n : Nat) : String :=
  String.ofList (List.replicate n ' ')

/-! ## Usage -/

def usagePart (s : Switch) : String :=
  let name := s.names.head?.getD ""
  match s.value? with
  | some v => "[" ++ name ++ " " ++ v ++ "]"
  | none => "[" ++ name ++ "]"

def usageLines (limit : Nat) : (line : String) → List String → List String
  | line, [] => [line]
  | line, part :: rest =>
    if line.length + 1 + part.length ≤ limit then usageLines limit (line ++ " " ++ part) rest
    else line :: usageLines limit part rest

def usage : String :=
  let lead := "usage: "
  let indent := lead.length + programName.length + 1
  let parts := Switch.all.map usagePart
  match usageLines (width - indent) (parts.head?.getD "") (parts.drop 1) ++ ["[input]"] with
  | [] => ""
  | first :: rest =>
    lead ++ programName ++ " " ++ first ++ "\n" ++ String.join (rest.map fun line => blanks indent ++ line ++ "\n")

/-! ## Descriptions -/

def entry (header description : String) : String :=
  let lines := Text.wrap (width - column) description
  let lead := "  " ++ header
  let first :=
    if lead.length + 2 ≤ column then Text.padRight column lead else lead ++ "\n" ++ blanks column
  first ++ Text.join ("\n" ++ blanks column) lines ++ "\n"

def header (s : Switch) : String :=
  Text.join ", " (s.names.map fun n =>
    match s.value? with
    | some v => n ++ " " ++ v
    | none => n)

def groupText (g : Group) : String :=
  let about := if g.description == "" then "" else "  " ++ g.description ++ "\n\n"
  g.title ++ ":\n" ++ about
    ++ String.join ((Switch.all.filter fun s => s.group == g).map fun s =>
      entry (header s) s.description)

def text : String :=
  Text.join "\n" [
    usage,
    "Fit stellar observations with starlord from the command line.\n",
    "positional arguments:\n" ++ entry "input" "An input model toml, grid npz, or posterior npz file.",
    groupText .general,
    groupText .model,
    groupText .output]

end Help

end GridBayes.CommandLine
