import GridBayes.Deferred.Resolution
import GridBayes.Program.Summary

/-! Collecting the parts of a model. The parts may mention deferred variables; these are looked up
only when the program is asked for. -/
namespace GridBayes

/-- Code of a user, and the names of grids in it that are not resolved yet. -/
structure DeferredExpression where
  mentions : List String
  code : String
deriving Repr, DecidableEq

/-- A local variable with the code that it is set to. -/
structure DeferredAssignment where
  mentions : List String
  var : String
  code : String
deriving Repr, DecidableEq

/-- A distribution that a variable of the likelihood has. -/
structure DeferredConstraint where
  mentions : List String
  var : String
  dist : Value
  params : Value

/-- A distribution that a parameter has before the data. -/
structure PriorSpec where
  param : String
  dist : Value
  params : Value

/-- A model as it is described, before the names of its grids are resolved. -/
structure Builder where
  library : Except Fault Registry
  verbose : Bool := false
  fancy : Bool := true
  overrides : List (String × Value) := []
  multiplicity : List (String × Value) := []
  autoConstants : List (String × String) := []
  constantTypes : List (String × String) := []
  outputs : List Value := []
  imports : List String := []
  optionalTerms : Bool := false
  expressions : List DeferredExpression := []
  assignments : List DeferredAssignment := []
  constraints : List DeferredConstraint := []
  priors : List PriorSpec := []
  generated : List DeferredAssignment := []
  program : Option Program := none
  gridsUsed : List (Option String × List String) := []
  said : String := ""

abbrev BuilderM := ExceptT Fault (StateM Builder)

namespace Builder

def palette (b : Builder) : Palette :=
  Palette.choose b.fancy

def say (s : String) : BuilderM Unit :=
  modify fun b => { b with said := b.said ++ s }

/-- Said only if the builder is verbose. -/
def remark (s : String) : BuilderM Unit := do
  if (← get).verbose then say (s ++ "\n")

def remarkHeading (lead title : String) : BuilderM Unit := do
  let p := (← get).palette
  remark (lead ++ "    " ++ p.underline ++ title ++ p.reset)

/-- The names of grids that a text mentions, and the text with them in braces. -/
def extract (source : String) : BuilderM (List String × String) := do
  ofExcept (Deferred.Resolution.extract (← get).library source (some ""))

def grids : BuilderM Registry := do
  ofExcept (← get).library

/-! ## Names -/

/-- The rest of a name: word characters, and an index after two hyphens. -/
def isNameEnd (cs : List Char) : Bool :=
  match cs.dropWhile Text.isWord with
  | [] => true
  | '-' :: '-' :: index => !index.isEmpty && index.all Char.isAlphanum
  | _ => false

def isSeparatedName : List Char → Bool
  | sep :: c :: rest => sep != '\n' && Deferred.startsName c && isNameEnd rest
  | _ => false

/-- Whether a text can stand for a variable: a placeholder, or kind, separator and name. -/
def isValidName (s : String) : Bool :=
  Deferred.isPlaceholder s
    || match s.toList with
      | k :: rest => (k == 'p' || k == 'c' || k == 'v' || k == 'g') && isSeparatedName rest
      | [] => false

def splitsAsGridName : List Char → Bool
  | c :: rest => Text.isWord c && (isSeparatedName rest || splitsAsGridName rest)
  | [] => false

/-- Whether a text can name an output: a local variable or a value of a grid. -/
def isOutputName (s : String) : Bool :=
  match s.toList with
  | 'v' :: rest => isSeparatedName rest
  | 'g' :: sep :: c :: rest => sep != '\n' && c.isAlpha && splitsAsGridName rest
  | _ => false

def isLongWord : List Char → Bool
  | c :: rest => c.isAlpha && !rest.isEmpty && rest.all Text.isWord
  | [] => false

/-- The last place where two underscores stand between two words. -/
def lastSplit? : (before after : List Char) → Option (List Char × List Char)
  | _, [] => none
  | before, c :: rest =>
    match lastSplit? (before ++ [c]) rest with
    | some found => some found
    | none =>
      match c :: rest with
      | '_' :: '_' :: name => if isLongWord before && isLongWord name then some (before, name) else none
      | _ => none

/-- The grid and the input that the key of an override names. -/
def overrideKey? (key : String) : Option (Option String × String) :=
  let cs := key.toList
  let word := cs.takeWhile Text.isWord
  if !isNameEnd cs then none
  else
    match lastSplit? [] word with
    | some (grid, name) => some (some (String.ofList grid), String.ofList name)
    | none => if isLongWord word then some (none, String.ofList word) else none

/-! ## Parts -/

/-- An input of a grid gets a value of its own, in place of its mapping. -/
def override (key value : Value) : BuilderM Unit := do
  remark ("  ModelBuilder.override_input('" ++ key.text ++ "', '" ++ value.text ++ "')")
  let key := Text.replaceWord "." "__" (← ofExcept (key.needText .missingPart))
  match overrideKey? key with
  | none => throw (.badOverride key)
  | some (none, _) => pure ()
  | some (some g, name) =>
    match (← grids).lookup g with
    | none => throw (.unknownOverrideGrid g key)
    | some grid => if !(grid.provides ++ grid.inputs).contains name then throw (.unknownOverrideName name key)
  modify fun b => { b with overrides := setEntry b.overrides key value }

def announceExpression (shown : String) : BuilderM Unit :=
  remark ("  ModelBuilder.expression('" ++ shown ++ "')")

/-- Adds a statement, with tabulators as four blanks. A builder that talks measures and shows its text first. -/
def expression (code : Value) : BuilderM Unit := do
  match code with
  | .str code =>
    announceExpression (if 50 < code.length then Text.dropFirst 50 code ++ "..." else code)
    let (mentions, code) ← extract (Text.replaceWord "\t" "    " code)
    modify fun b => { b with expressions := b.expressions ++ [⟨mentions, code⟩] }
  | _ =>
    if (← get).verbose then
      if 50 < (← ofExcept code.size) then throw .badArgument
      announceExpression code.text
    throw .missingPart

/-- Names without a kind are local variables; other kinds are refused. -/
def assignment (var code : Value) : BuilderM DeferredAssignment := do
  remark ("  ModelBuilder.assignment('" ++ var.text ++ "', " ++ code.text ++ ")")
  let var ← ofExcept (var.needText .missingPart)
  let isLocal := Text.startsWith "v." var
  if !isLocal && var.toList.contains '.' then throw .notALocal
  let var := if isLocal then var else "v." ++ Text.stripOf [' ', '\x7b', '\x7d'] var
  let (mentions, code) ← extract (← ofExcept (code.needText .badArgument))
  return ⟨mentions, var, code⟩

def assign (var code : Value) : BuilderM Unit := do
  let a ← assignment var code
  modify fun b => { b with assignments := b.assignments ++ [a] }

def constraint (var dist params : Value) : BuilderM Unit := do
  remark ("  ModelBuilder.constraint('" ++ var.text ++ "', '" ++ dist.text ++ "', " ++ params.text ++ ")")
  let (mentions, var) ← extract (← ofExcept (var.needText .badArgument))
  if !isValidName var then throw (.badVariableName var)
  modify fun b => { b with constraints := b.constraints ++ [⟨mentions, var, dist, params⟩] }

def prior (param dist params : Value) : BuilderM Unit := do
  let param ← ofExcept (param.needText .missingPart)
  let isParam := Text.startsWith "p." param
  if !isParam && param.toList.contains '.' then throw .notALocal
  let param := if isParam then param else "p." ++ param
  if !isValidName param then throw (.badParameterName param)
  remark ("  ModelBuilder.prior('" ++ param ++ "', '" ++ dist.text ++ "', " ++ params.text ++ ")")
  modify fun b => { b with priors := b.priors ++ [⟨param, dist, params⟩] }

end Builder

end GridBayes
