import GridBayes.Deferred.Resolution

/-! The graph of the deferred variables of a look-up, for drawing. -/
namespace GridBayes.Deferred

structure Box where
  key : String
  label : String
  color : String
deriving Repr, DecidableEq

structure Drawing where
  boxes : List Box
  arrows : List (String × String)
deriving Repr, DecidableEq

namespace Drawing

def interpolationEnd? : List Char → Option Nat
  | c :: rest =>
    if c == '\n' then none
    else
      match Text.afterStart? "_interp".toList rest with
      | some (n :: 'd' :: _) => if isDigit n then some 10 else none
      | _ => none
  | [] => none

def longest? {α : Type} (finish : List Char → Option α) : (done : List Char) → List Char →
    Option (List Char × α)
  | done, c :: rest =>
    match if Text.isWord c then longest? finish (done ++ [c]) rest else none with
    | some found => some found
    | none => (finish (c :: rest)).map fun a => (done, a)
  | done, [] => (finish []).map fun a => (done, a)

def interpolationRule : Text.Rule (List Char) := fun _ after =>
  match after with
  | 'c' :: sep :: rest =>
    if sep == '\n' then none
    else
      match Text.afterStart? "grid__".toList rest with
      | none => none
      | some rest =>
        let output (cs : List Char) : Option (List Char × Nat) :=
          (Text.afterStart? ['_', '_'] cs).bind (longest? interpolationEnd? [])
        (longest? output [] rest).map fun (grid, name, n) =>
          ("c.".toList ++ grid ++ ['_', '_'] ++ name, rest.drop (grid.length + 2 + name.length + n))
  | _ => none

def variableRule (kind : Char) (first : Char → Bool) : Text.Rule (List Char) :=
  .atWord fun
    | k :: rest =>
      if k != kind then none
      else
        let sep := if rest.take 1 == ['.'] then ['.'] else ['_', '_']
        (Text.afterStart? sep rest).bind fun rest =>
          (Text.wordAt? first rest).map fun (word, rest) => (k :: sep ++ word, rest)
    | [] => none

def startsLabel (c : Char) : Bool :=
  'A' ≤ c && c ≤ 'z'

def colored (color : String) (rule : Text.Rule (List Char)) (cs : List Char) : List Char :=
  Text.substitute rule (fun found => ("<FONT COLOR=\"" ++ color ++ "\">").toList ++ found ++ "</FONT>".toList) cs

def label (key : String) (node : Node) : String :=
  let body := if node.code == "" then node.value else node.code
  let text := "< <B>g." ++ key ++ "</B><BR/>" ++ body ++ " >"
  let text := Text.replaceWord "\x7d" "" (Text.replaceWord "\x7b" "g." text)
  let cs := Text.substitute interpolationRule id text.toList
  let cs := colored "green" (variableRule 'v' startsLabel) cs
  let cs := colored "blue" (variableRule 'c' startsLabel) cs
  let cs := colored "#E1712B" (variableRule 'p' startsLabel) cs
  let cs := colored "red" (variableRule 'g' fun c => startsLabel c || c == '.') cs
  Text.replaceWord "__" "." (String.ofList cs)

def ofResolution (r : Resolution) : Except Fault Drawing :=
  let keys := r.graph.map (·.1)
  if r.values.all (fun (k, _) => keys.contains k) && keys.all fun k => (r.values.lookup k).isSome then
    .ok {
      boxes := r.graph.map fun (key, node) =>
        ⟨key, label key node, if node.code == "" then "white" else "#E5E5E5"⟩
      arrows := r.graph.flatMap fun (key, node) => node.mentions.map fun m => (key, m) }
  else .error .graphMismatch

def source (d : Drawing) : String :=
  let box (b : Box) := "  " ++ Value.jsonText b.key ++ " [shape=box style=filled label=<" ++ b.label
    ++ "> fillcolor=" ++ Value.jsonText b.color ++ "]\n"
  let arrow (a : String × String) :=
    "  " ++ Value.jsonText a.1 ++ " -> " ++ Value.jsonText a.2 ++ "\n"
  "digraph \x7b\n" ++ String.join (d.boxes.map box) ++ String.join (d.arrows.map arrow) ++ "\x7d\n"

end Drawing

end GridBayes.Deferred
