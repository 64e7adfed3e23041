import GridBayes.Builder.Generator
import GridBayes.Sampler.Fit

/-! From a description to a sampler. -/
namespace GridBayes

def SamplerKind.ofName (name : String) : Except Fault SamplerKind :=
  match Text.strip (Text.lower name) with
  | "builtin" => .ok .builtin
  | "dynesty" => .ok .nested
  | "emcee" => .ok .ensemble
  | other => .error (.unknownSampler other)

def SamplerKind.ofValue : Value → Except Fault SamplerKind
  | .str name => ofName name
  | _ => .error .missingPart

namespace Builder

variable [EnsembleLibrary]

def compiled : BuilderM (ModelCode × String) := do
  let text ← code
  return (← ask ModelCode.ofProgram, text)

def samplerOf (kind : SamplerKind) (code : ModelCode) (text : String)
    (constants init : List (String × Value)) (source : Source) : Except Fault Sampler :=
  if init.any fun (k, _) => ["self", "model_class", "constants"].contains k then
    .error .badArgument
  else .ok (Sampler.create kind code text constants init source)

def sampler (kind : Value) (constants init : List (String × Value)) (source : Source) :
    BuilderM Sampler := do
  if init.any fun (k, _) => ["self", "sampler_type", "constants"].contains k then
    throw .badArgument
  let (code, text) ← compiled
  let verbose := (← get).verbose
  let (missing, _) ← checkConstants constants verbose
  if verbose && !missing.isEmpty then
    say ("Warning: Missing values for constant(s) " ++ Text.join ", " missing ++ "\n")
  let kind ← ofExcept (SamplerKind.ofValue kind)
  ofExcept (samplerOf kind code text constants init source)

end Builder

end GridBayes
