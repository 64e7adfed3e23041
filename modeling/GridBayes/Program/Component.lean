import GridBayes.Distribution.Call

/-! The components of a model: free expressions, assignments to one local variable, and likelihood
terms. Each requires some variables and provides others. -/
namespace GridBayes

/-- A part of the likelihood: code, the assignment of a local variable, or a distribution. -/
inductive Component where
  | expression (requires provides : SymbolSet) (code : String)
  | assignment (target : Symbol) (requires : SymbolSet) (code : String)
  | likelihood (call : DistributionCall)
deriving Repr, DecidableEq

namespace Component

/-- The variables that must have values before, with the one that a likelihood term constrains. -/
def requires : Component → SymbolSet
  | expression r _ _ => r
  | assignment _ r _ => r
  | likelihood d => SymbolSet.insert d.var d.requires

def provides : Component → SymbolSet
  | expression _ p _ => p
  | assignment t _ _ => [t]
  | likelihood _ => []

def code : Component → String
  | expression _ _ c => c
  | assignment t _ c => t.bracketed ++ " = " ++ c
  | likelihood d =>
    "logL += " ++ d.family.name ++ "_lpdf(" ++ d.var.bracketed ++ ", " ++ d.paramText ++ ")"

def isLikelihood : Component → Bool
  | likelihood _ => true
  | _ => false

def display (c : Component) : Except Fault String :=
  let own := Template.valuesOf Symbol.text (SymbolSet.union c.requires c.provides)
  match c with
  | expression _ _ code => do return (← Template.fillNamed own code) ++ " [Expr]"
  | assignment t _ code => do return t.text ++ " = " ++ (← Template.fillNamed own code)
  | likelihood d =>
    .ok (Text.title d.family.name ++ "(" ++ d.var.text ++ " | " ++ d.paramText ++ ")")

def sortKey (c : Component) : String :=
  Text.join ", " c.provides.texts

/-! ## Making components -/

def dropBlanks (cs : List Char) : List Char :=
  cs.dropWhile Text.isBlank

def afterTargets : (fuel : Nat) → List Char → List Char
  | 0, cs => cs
  | fuel + 1, cs =>
    match cs with
    | ',' :: rest =>
      let rest := dropBlanks rest
      match Symbol.variableAt? rest with
      | some (_, rest) => afterTargets fuel rest
      | none => cs
    | _ => cs

def targets? (cs : List Char) : Option (List Char) :=
  (Symbol.variableAt? cs).map fun (_, rest) =>
    let rest := dropBlanks rest
    dropBlanks (afterTargets rest.length rest)

def afterEquals? : List Char → Option (List Char)
  | '=' :: '=' :: _ => none
  | '=' :: rest => some rest
  | _ => none

/-- Targets of an assignment at the start of a line, with parentheses or without, up to the equals sign. -/
def targetRule (paren : Bool) : Text.Rule (List Char) := fun before after =>
  if before.head?.all (· == '\n') then
    let body := dropBlanks after
    let tail : Option (List Char) :=
      if paren then
        match body with
        | '(' :: rest =>
          match targets? (dropBlanks rest) with
          | some (')' :: rest) => afterEquals? (dropBlanks rest)
          | _ => none
        | _ => none
      else (targets? body).bind afterEquals?
    tail.map fun rest => (after.take (after.length - rest.length - 1), rest)
  else none

def assignedTexts (source : String) : List String :=
  let blocks := Text.hits (Text.pieces (targetRule false) source.toList)
    ++ Text.hits (Text.pieces (targetRule true) source.toList)
  blocks.flatMap fun block =>
    (Text.splitAt ',' (Text.stripOf [' ', '(', ')'] (String.ofList block))).map Text.strip

/-- The variables that code sets, which have to be local. -/
def assigned (source : String) : Except Fault SymbolSet := do
  let symbols ← (assignedTexts source).mapM fun t =>
    if Text.startsWith "v." t then Symbol.parse t else .error (.assignedNonLocal t)
  return SymbolSet.ofList symbols

def ofExpression (source : String) : Except Fault Component := do
  let provides ← assigned source
  return expression (SymbolSet.diff (Template.symbols source) provides) provides (Template.ofSource source)

def ofAssignment (target source : String) : Except Fault Component := do
  let target := if Text.startsWith "v." target then target else "v." ++ target
  let symbol ← Symbol.parse target
  return assignment symbol (SymbolSet.diff (Template.symbols source) [symbol]) (Template.ofSource source)

def ofConstraint (var name params : Value) : Except Fault Component :=
  (DistributionCall.ofValues var name params).map likelihood

/-! ## Components as they are written -/

def expressionOf (source : Value) : Except Fault Component := do
  ofExpression (← source.needText .badArgument)

def assignmentOf (target source : Value) : Except Fault Component := do
  let target ← target.needText .badArgument
  let _ ← ofAssignment target ""
  ofAssignment target (← source.needText .badArgument)

end Component

end GridBayes
