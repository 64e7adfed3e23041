import GridBayes.Distribution.Function
import GridBayes.Program.Prior
import GridBayes.Proofs.Operation

/-! The functions that the code of a prior calls. The code is made of the name as it was written, before
it is looked up among the distributions. So the functions exist, and are those of the family that the
name stands for, exactly if the name is that of the family in lower case; presets and names with
capitals are accepted, but nothing can be called by their names. The number of parameters is right in
every case. -/
namespace GridBayes
open Operation List Except

/-! ## Names of functions -/

namespace Distribution

lemma lookup_name_isSome (ending name : String) :
    ((families.map fun f => (f.name ++ ending, f)).lookup name).isSome = true ↔
      ∃ f : Family, name = f.name ++ ending := by
  have hall (f : Family) : f ∈ families := by cases f <;> decide
  simp [hall]

def ending (name : String) : List Char :=
  name.toList.reverse.take 3

lemma ending_append (a : String) {b : String} (hb : 3 ≤ b.toList.length) : ending (a ++ b) = ending b := by
  rw [ending, String.toList_append, reverse_append, take_append_of_le_length]
  · rfl
  · rwa [length_reverse]

lemma ending_quantile (name : String) : ending (name ++ "_ppf") = ['f', 'p', 'p'] := ending_append name (by decide)

lemma ending_density (name : String) : ending (name ++ "_lpdf") = ['f', 'd', 'p'] := ending_append name (by decide)

lemma not_mem_otherNames {name : String} (h : ending name = ['f', 'p', 'p'] ∨ ending name = ['f', 'd', 'p']) :
    otherNames.contains name = false := by
  have ho : ∀ other ∈ otherNames, ¬(ending other = ['f', 'p', 'p'] ∨ ending other = ['f', 'd', 'p']) := by decide
  rw [← Bool.not_eq_true, contains_iff_mem]
  exact fun hmem => ho name hmem h

lemma quantile_ne_density (name other : String) : name ++ "_ppf" ≠ other ++ "_lpdf" := by
  intro h
  have he := congrArg ending h
  rw [ending_quantile, ending_density] at he
  exact absurd he (by decide)

lemma isKnown_quantile_iff (name : String) : isKnown (name ++ "_ppf") = true ↔ ∃ f : Family, name = f.name := by
  rw [isKnown, not_mem_otherNames (.inl (ending_quantile name)), Bool.or_false, Bool.or_eq_true,
    densityNames, quantileNames, lookup_name_isSome, lookup_name_isSome]
  simp only [quantile_ne_density, exists_false, false_or, String.append_left_inj]

lemma isKnown_density_iff (name : String) : isKnown (name ++ "_lpdf") = true ↔ ∃ f : Family, name = f.name := by
  rw [isKnown, not_mem_otherNames (.inr (ending_density name)), Bool.or_false, Bool.or_eq_true,
    densityNames, quantileNames, lookup_name_isSome, lookup_name_isSome]
  simp only [(quantile_ne_density _ _).symm, exists_false, or_false, String.append_left_inj]

end Distribution

/-! ## Distributions by name -/

lemma Preset.length_parameters (p : Preset) {given : List Value} (h : p.arity = given.length) :
    (p.parameters given).length = p.base.arity := by
  cases p <;> simp [parameters, added, base, Family.arity, ← h, arity]

lemma Preset.ofName?_family (f : Family) : ofName? (Text.lower f.name) = some (family f) := by cases f <;> rfl

namespace DistributionCall

lemma create_eq_ok {var : Value} {name : String} {params : List Value} {d : DistributionCall}
    (h : create var name params = .ok d) :
    ∃ p, Preset.ofName? (Text.lower name) = some p ∧ d.family = p.base ∧
      d.params.length = d.family.arity ∧ Symbol.ofValue var = .ok d.var := by
  obtain ⟨p, hp, h⟩ := bind_eq_ok.mp h
  obtain ⟨symbol, hs, h⟩ := bind_eq_ok.mp h
  cases h
  unfold preset at hp
  dsimp only at hp
  split at hp
  · cases hp
  · rename_i q hq
    split at hp
    · rename_i ha
      obtain rfl := ok.inj hp
      refine ⟨q, hq, rfl, ?_, hs⟩
      rw [length_map, length_map]
      exact q.length_parameters (beq_iff_eq.mp ha)
    · cases hp

end DistributionCall

namespace Prior

/-! ## The code -/

def callText (function arg : String) (params : List String) : String :=
  function ++ "(" ++ arg ++ ", " ++ Text.join ", " params ++ ")"

def drawBy (p : Prior) (function : String) : String :=
  let draw := callText function p.call.var.bracketed p.call.params
  match p.transform with
  | none => p.call.var.bracketed ++ " = " ++ draw
  | some t => p.call.var.bracketed ++ " = " ++ t.inverse ++ "(" ++ draw ++ ")"

/-- The statement that adds the log-density by a function, taken of the transformed variable. -/
def scoreBy (p : Prior) (function : String) : String :=
  let var := p.call.var.bracketed
  match p.transform with
  | none => "logP += " ++ callText function var p.call.params
  | some t =>
    "logP += " ++ callText function (t.forward ++ "(" ++ var ++ ")") p.call.params ++ " + " ++ t.logJacobian
      ++ "(" ++ var ++ ")"

lemma quantile_eq (p : Prior) : p.quantile = p.drawBy (p.written ++ "_ppf") := by
  unfold quantile quantileCode drawBy callText DistributionCall.paramText
  cases p.transform <;> simp only [String.append_assoc] <;> rfl

lemma density_eq (p : Prior) : p.density = p.scoreBy (p.written ++ "_lpdf") := by
  unfold density densityCode scoreBy callText DistributionCall.paramText
  cases p.transform <;> simp only [String.append_assoc] <;> rfl

variable {p : Prior}

lemma drawBy_inj {f g : String} : p.drawBy f = p.drawBy g ↔ f = g := by
  unfold drawBy callText
  cases p.transform <;> simp only [String.append_right_inj, String.append_left_inj]

/-- The family's functions are called, with the (transformed) variable and as many parameters as it takes. -/
structure CallsFamily (p : Prior) : Prop where
  quantile : p.quantile = p.drawBy (p.call.family.name ++ "_ppf")
  density : p.density = p.scoreBy (p.call.family.name ++ "_lpdf")
  length_params : p.call.params.length = p.call.family.arity

def CallsKnown (p : Prior) : Prop :=
  ∃ f g, p.quantile = p.drawBy f ∧ p.density = p.scoreBy g ∧ Distribution.isKnown f = true ∧
    Distribution.isKnown g = true

lemma callsFamily_iff (h : p.call.params.length = p.call.family.arity) :
    p.CallsFamily ↔ p.written = p.call.family.name := by
  constructor
  · intro hp
    have hdraw := hp.quantile
    rwa [quantile_eq, drawBy_inj, String.append_left_inj] at hdraw
  · intro hp
    exact ⟨by rw [quantile_eq, hp], by rw [density_eq, hp], h⟩

lemma callsKnown_iff (p : Prior) : p.CallsKnown ↔ ∃ f : Family, p.written = f.name := by
  constructor
  · rintro ⟨f, -, hf, -, hk, -⟩
    rw [quantile_eq, drawBy_inj] at hf
    rwa [← hf, Distribution.isKnown_quantile_iff] at hk
  · intro h
    exact ⟨_, _, p.quantile_eq, p.density_eq, (Distribution.isKnown_quantile_iff _).mpr h,
      (Distribution.isKnown_density_iff _).mpr h⟩

lemma create_eq_ok {var : Value} {name : String} {params : List Value} (h : create var name params = .ok p) :
    p.written = (Transform.split name).2 ∧
      DistributionCall.create var (Transform.split name).2 params = .ok p.call := by
  obtain ⟨call, hcall, h⟩ := bind_eq_ok.mp h
  split at h
  · cases h
  · obtain rfl := ok.inj h
    exact ⟨rfl, hcall⟩

/-- The name stands for a preset of some family, with as many parameters as the family takes. Its functions are
called exactly if the name is the family's own; otherwise the functions do not exist. -/
theorem calls_iff_written {var : Value} {name : String} {params : List Value} {p : Prior}
    (h : create var name params = .ok p) :
    (∃ preset, Preset.ofName? (Text.lower (Transform.split name).2) = some preset ∧ p.call.family = preset.base) ∧
    p.call.params.length = p.call.family.arity ∧
    (p.CallsFamily ↔ (Transform.split name).2 = p.call.family.name) ∧
    (p.CallsKnown ↔ (Transform.split name).2 = p.call.family.name) := by
  obtain ⟨hw, hcall⟩ := create_eq_ok h
  obtain ⟨preset, hpr, hfa, hl, -⟩ := DistributionCall.create_eq_ok hcall
  rw [← hw] at hpr ⊢
  refine ⟨⟨preset, hpr, hfa⟩, hl, callsFamily_iff hl, ?_⟩
  rw [callsKnown_iff]
  refine ⟨?_, fun hp => ⟨_, hp⟩⟩
  -- a family's name stands for the family itself
  rintro ⟨f, hf⟩
  rw [hf, Preset.ofName?_family, Option.some.injEq] at hpr
  rw [hf, hfa, ← hpr]
  rfl

/-- The common logarithm of a variable is normal. -/
theorem calls_iff_written_log_normal :
    ∃ p, create (.str "p.x") "log_normal" [.str "p.m", .str "0.1"] = .ok p ∧ p.CallsFamily ∧ p.CallsKnown := by
  have hc : ∃ p, create (.str "p.x") "log_normal" [.str "p.m", .str "0.1"] = .ok p ∧
      p.call.family = .normal := ⟨_, rfl, rfl⟩
  obtain ⟨p, hp, hf⟩ := hc
  have hname : (Transform.split "log_normal").2 = p.call.family.name := by
    rw [hf]
    decide
  obtain ⟨-, -, hca, hk⟩ := calls_iff_written hp
  exact ⟨p, hp, hca.mpr hname, hk.mpr hname⟩

/-- A preset of a normal distribution: its name is called, and there is no such function. -/
theorem preset_calls_unknown :
    ∃ p, create (.str "p.afe") "galah_dr4_afe" [.str "p.feh"] = .ok p ∧ p.call.family = .normal ∧
      p.quantile = p.drawBy "galah_dr4_afe_ppf" ∧ Distribution.isKnown "galah_dr4_afe_ppf" = false ∧
      ¬p.CallsFamily ∧ ¬p.CallsKnown := by
  have hc : ∃ p, create (.str "p.afe") "galah_dr4_afe" [.str "p.feh"] = .ok p ∧
      p.call.family = .normal ∧ p.written = "galah_dr4_afe" := ⟨_, rfl, rfl, rfl⟩
  obtain ⟨p, hp, hfa, hw⟩ := hc
  have ho (f : Family) : "galah_dr4_afe" ≠ f.name := by cases f <;> decide
  refine ⟨p, hp, hfa, by rw [quantile_eq, hw]; rfl, rfl, fun h => ?_, fun h => ?_⟩
  · have hdraw := (callsFamily_iff h.length_params).mp h
    exact ho _ (hw ▸ hdraw)
  · obtain ⟨f, hf⟩ := (callsKnown_iff p).mp h
    exact ho f (hw ▸ hf)

end Prior

end GridBayes
