import GridBayes.Distribution.Call

/-! Priors. A prior names a distribution, possibly of a transformed variable: the prefix of the
name says which transform. -/
namespace GridBayes

/-- Functions of a parameter that a prior can be on. -/
inductive Transform where
  | log10
  | exp10
  | ln
  | exp
  | expit
  | logit
deriving Repr, DecidableEq

namespace Transform

def tag : Transform → String
  | log10 => "log_"
  | exp10 => "exp10_"
  | ln => "ln_"
  | exp => "expn_"
  | expit => "expit_"
  | logit => "logit_"

def forward : Transform → String
  | log10 => "math.log10"
  | exp10 => "10**"
  | ln => "math.log"
  | exp => "math.exp"
  | expit => "expit"
  | logit => "logit"

def inverse : Transform → String
  | log10 => "10**"
  | exp10 => "math.log10"
  | ln => "math.exp"
  | exp => "math.log"
  | expit => "logit"
  | logit => "expit"

def logJacobian : Transform → String
  | log10 => "-math.log(10)-"
  | exp10 => "-math.log(10)-"
  | ln => "-"
  | exp => "+"
  | expit => "-logddx_logit"
  | logit => "logddx_logit"

def all : List Transform :=
  [log10, exp10, ln, exp, expit, logit]

def split (name : String) : Option Transform × String :=
  match all.findSome? fun t => (Text.dropStart? t.tag name).map fun rest => (t, rest) with
  | some (t, rest) => (some t, rest)
  | none => (none, name)

end Transform

/-- A distribution of a parameter, or of a function of it. -/
structure Prior where
  transform : Option Transform
  written : String
  call : DistributionCall
deriving Repr, DecidableEq

namespace Prior

def requires (p : Prior) : SymbolSet :=
  p.call.requires

def provides (p : Prior) : SymbolSet :=
  [p.call.var]

def distribution (p : Prior) : String :=
  ((p.transform.map Transform.tag).getD "") ++ p.call.family.name

def create (var : Value) (name : String) (params : List Value) : Except Fault Prior := do
  let (transform, written) := Transform.split name
  let call ← DistributionCall.create var written params
  match call.requires.find? (·.isKind .localVar) with
  | some s => .error (.priorOnLocal s.text)
  | none => return ⟨transform, written, call⟩

def ofValues (var name params : Value) : Except Fault Prior := do
  let name ← name.needText .missingPart
  create var name (← DistributionCall.writtenParams var (Transform.split name).2 params)

def quantileCode (p : Prior) (var params : String) : String :=
  let draw := p.written ++ "_ppf(" ++ var ++ ", " ++ params ++ ")"
  match p.transform with
  | none => var ++ " = " ++ draw
  | some t => var ++ " = " ++ t.inverse ++ "(" ++ draw ++ ")"

/-- A density on a function of the parameter comes with a term for the derivative of the function. -/
def densityCode (p : Prior) (var params : String) : String :=
  match p.transform with
  | none => "logP += " ++ p.written ++ "_lpdf(" ++ var ++ ", " ++ params ++ ")"
  | some t =>
    "logP += " ++ p.written ++ "_lpdf(" ++ t.forward ++ "(" ++ var ++ "), " ++ params ++ ") + "
      ++ t.logJacobian ++ "(" ++ var ++ ")"

def quantile (p : Prior) : String :=
  p.quantileCode p.call.var.bracketed p.call.paramText

def density (p : Prior) : String :=
  p.densityCode p.call.var.bracketed p.call.paramText

def display (p : Prior) : Except Fault String := do
  let own := Template.valuesOf Symbol.text (SymbolSet.union p.requires p.provides)
  let params ← Template.fillNamed own p.call.paramText
  return Text.title p.distribution ++ "(" ++ p.call.var.text ++ " | " ++ params ++ ")"

end Prior

end GridBayes
