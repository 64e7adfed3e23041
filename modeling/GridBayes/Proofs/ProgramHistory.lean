import GridBayes.Program.Summary
import GridBayes.Proofs.ProgramText
import Mathlib.Data.List.Induction

/-! Programs in the course of their making. Parts are added, settings are changed and questions are asked, in any
order. Components and priors only ever join; the variables of a program are fixed by the first question that needs
them, and they are then those of the program as it was at that moment. -/
namespace GridBayes.Program
open List Operation Option Except

/-! ## Questions -/

/-- The second program is the first, perhaps with its variables fixed. -/
def Settled (p q : Program) : Prop :=
  q = p ∨ ∃ vars, p.classified = .ok vars ∧ q = { p with frozen := some vars }

instance : Std.Refl Settled where
  refl _ := .inl rfl

instance : Trans Settled Settled Settled where
  trans {p q r} hpq hqr := by
    rcases hpq with rfl | ⟨vars, hvars, rfl⟩
    · exact hqr
    · rcases hqr with rfl | ⟨vars', hvars', rfl⟩
      · exact .inr ⟨vars, hvars, rfl⟩
      · obtain rfl := ok.inj ((classified_frozen rfl).symm.trans hvars')
        exact .inr ⟨vars, hvars, rfl⟩

variable {p q : Program} {vars : Variables}

lemma Settled.text (h : Settled p q) : (outcome Program.text q).1 = (outcome Program.text p).1 := by
  rcases h with rfl | ⟨vars, hvars, rfl⟩
  · rfl
  · rw [outcome_text, outcome_text, hvars]
    rfl

lemma settles_frozenVariables : Moves Settled frozenVariables := by
  intro p
  rw [outcome_frozenVariables]
  cases hvars : p.classified with
  | error e => exact .inl rfl
  | ok vars => exact .inr ⟨vars, hvars, rfl⟩

lemma settles_forM_throw (defect : Option Fault) : Moves Settled (defect.forM throw : ProgramM Unit) :=
  moves_same fun p => by rw [outcome_forM_throw]

lemma settles_quantileText : Moves Settled quantileText :=
  settles_frozenVariables.bind fun _ => moves_get.bind fun _ => moves_ofExcept _

lemma settles_logPriorText : Moves Settled logPriorText :=
  settles_frozenVariables.bind fun _ => moves_get.bind fun _ => moves_ofExcept _

lemma settles_forwardText : Moves Settled forwardText := by
  refine moves_get.bind fun p => (moves_ofExcept _).bind fun ordered => ?_
  refine settles_frozenVariables.bind fun vars => (moves_ofExcept _).bind fun text => ?_
  exact (settles_forM_throw _).bind fun _ => moves_pure _

lemma settles_logLikeText : Moves Settled logLikeText := by
  refine moves_get.bind fun p => ?_
  split
  · exact settles_frozenVariables.bind fun _ => moves_ofExcept _
  · exact moves_ofExcept _

lemma settles_text : Moves Settled text := by
  have hm : ∀ header : List String, Moves Settled (do
      let quantile ← quantileText
      let logPrior ← logPriorText
      let forward ← forwardText
      let logLike ← logLikeText
      return Text.join "\n" (header ++ [quantile, logPrior, forward, logLike]) ++ "\n") := by
    intro header
    refine settles_quantileText.bind fun _ => settles_logPriorText.bind fun _ => ?_
    exact settles_forwardText.bind fun _ => settles_logLikeText.bind fun _ => moves_pure _
  refine moves_get.bind fun p => (settles_forM_throw _).bind fun _ => ?_
  refine settles_frozenVariables.bind fun vars => moves_get.bind fun p => ?_
  refine (settles_forM_throw _).bind fun _ => (settles_forM_throw _).bind fun _ => ?_
  split
  · exact (settles_forM_throw _).bind fun _ => hm _
  · exact hm _

lemma settles_summaryComponents (components : List Component) : Moves Settled (summaryComponents components) := by
  induction components with
  | nil => exact moves_pure _
  | cons c rest ih =>
    refine (moves_ofExcept _).bind fun shown => ?_
    split
    · exact ih.bind fun _ => moves_pure _
    · refine settles_frozenVariables.bind fun vars => (moves_ofExcept _).bind fun line => ?_
      exact ih.bind fun _ => moves_pure _

lemma settles_summary (fancy : Bool) : Moves Settled (summary fancy) := by
  refine moves_get.bind fun p => (moves_ofExcept _).bind fun ordered => ?_
  refine (settles_summaryComponents ordered).bind fun lines => (moves_ofExcept _).bind fun priors => ?_
  exact settles_frozenVariables.bind fun vars => moves_pure _

/-! ## Steps -/

inductive Entry where
  | expression (source : Value)
  | assign (target source : Value)
  | constraint (var name params : Value)
  | prior (var name params : Value)

def enter (p : Program) : Entry → Except Fault Program
  | .expression source => p.withPart (Component.expressionOf source)
  | .assign target source => p.withPart (Component.assignmentOf target source)
  | .constraint var name params => p.withPart (Component.ofConstraint var name params)
  | .prior var name params => p.withPrior (Prior.ofValues var name params)

inductive Setting where
  | outputs (v : Value)
  | imports (v : Value)
  | autoConstants (v : Value)
  | constantTypes (v : Value)
  | optionalTerms (v : Value)
  | verbose (on : Bool)
  | fancy (on : Bool)

def Setting.put : Setting → Program → Program
  | .outputs v, p => p.setOutputs v
  | .imports v, p => p.setImports v
  | .autoConstants v, p => p.setAutoConstants v
  | .constantTypes v, p => p.setConstantTypes v
  | .optionalTerms v, p => { p with optionalTerms := v }
  | .verbose on, p => { p with verbose := on }
  | .fancy on, p => { p with fancy := on }

inductive Question where
  | places
  | quantile
  | logPrior
  | forward
  | logLike
  | text
  | summary (fancy : Bool)

def Question.ask : Question → ProgramM Unit
  | .places => do let _ ← frozenVariables
  | .quantile => do let _ ← quantileText
  | .logPrior => do let _ ← logPriorText
  | .forward => do let _ ← forwardText
  | .logLike => do let _ ← logLikeText
  | .text => do let _ ← Program.text
  | .summary fancy => do let _ ← Program.summary fancy

inductive Step where
  | add (entry : Entry)
  | set (setting : Setting)
  | ask (question : Question)

def Step.run : Step → Program → Program
  | .add entry, p => (p.enter entry).toOption.getD p
  | .set setting, p => setting.put p
  | .ask question, p => (outcome question.ask p).2

def after (steps : List Step) : Program :=
  steps.foldl (fun p s => s.run p) {}

lemma after_concat (steps : List Step) (s : Step) : after (steps ++ [s]) = s.run (after steps) := foldl_concat ..

/-! ## What a step does -/

inductive AddsComponent : Step → Component → Prop where
  | expression {source : Value} {c : Component} (h : Component.expressionOf source = .ok c) :
      AddsComponent (.add (.expression source)) c
  | assign {target source : Value} {c : Component} (h : Component.assignmentOf target source = .ok c) :
      AddsComponent (.add (.assign target source)) c
  | constraint {var name params : Value} {c : Component} (h : Component.ofConstraint var name params = .ok c) :
      AddsComponent (.add (.constraint var name params)) c

inductive AddsPrior : Step → Prior → Prop where
  | prior {var name params : Value} {prior : Prior} (h : Prior.ofValues var name params = .ok prior) :
      AddsPrior (.add (.prior var name params)) prior

def parts (p : Program) : List Component × List Prior × Option Variables :=
  (p.components, p.priors, p.frozen)

lemma parts_put (setting : Setting) (p : Program) : (setting.put p).parts = p.parts := by
  cases setting with
  | autoConstants v | constantTypes v => cases v <;> rfl
  | _ => rfl

inductive StepDoes (p : Program) (s : Step) : List Component × List Prior × Option Variables → Prop where
  | component {c : Component} (h : AddsComponent s c) : StepDoes p s (p.components ++ [c], p.priors, p.frozen)
  | prior {prior : Prior} (h : AddsPrior s prior) : StepDoes p s (p.components, p.priors ++ [prior], p.frozen)
  | fix {vars : Variables} (h : p.classified = .ok vars) : StepDoes p s (p.components, p.priors, some vars)
  | keep : StepDoes p s p.parts

lemma stepDoes_add {entry : Entry} (h : p.enter entry = .ok q) : StepDoes p (.add entry) q.parts := by
  cases entry with
  | expression source =>
    obtain ⟨c, ⟨hc, -⟩, rfl⟩ := withPart_iff.mp h
    exact .component (.expression hc)
  | assign target source =>
    obtain ⟨c, ⟨hc, -⟩, rfl⟩ := withPart_iff.mp h
    exact .component (.assign hc)
  | constraint var name params =>
    obtain ⟨c, ⟨hc, -⟩, rfl⟩ := withPart_iff.mp h
    exact .component (.constraint hc)
  | prior var name params =>
    obtain ⟨prior, ⟨hp, -⟩, rfl⟩ := withPrior_iff.mp h
    exact .prior (.prior hp)

lemma settles_ask (question : Question) : Moves Settled question.ask := by
  cases question with
  | places => exact settles_frozenVariables.bind fun _ => moves_pure _
  | quantile => exact settles_quantileText.bind fun _ => moves_pure _
  | logPrior => exact settles_logPriorText.bind fun _ => moves_pure _
  | forward => exact settles_forwardText.bind fun _ => moves_pure _
  | logLike => exact settles_logLikeText.bind fun _ => moves_pure _
  | text => exact settles_text.bind fun _ => moves_pure _
  | summary fancy => exact (settles_summary fancy).bind fun _ => moves_pure _

lemma stepDoes (p : Program) (s : Step) : StepDoes p s (s.run p).parts := by
  cases s with
  | add entry =>
    rw [Step.run]
    cases h : p.enter entry with
    | ok q => exact stepDoes_add h
    | error e => exact .keep
  | set setting =>
    rw [Step.run, parts_put]
    exact .keep
  | ask question =>
    rw [Step.run]
    rcases settles_ask question p with h | ⟨vars, hvars, h⟩
    · rw [h]
      exact .keep
    · rw [h]
      exact .fix hvars

lemma components_run (p : Program) (s : Step) : (s.run p).components = p.components ∨
      ∃ c, AddsComponent s c ∧ (s.run p).components = p.components ++ [c] := by
  have h := stepDoes p s
  generalize hp : (s.run p).parts = parts at h
  have hc := congrArg Prod.fst hp
  cases h with
  | component h => exact .inr ⟨_, h, hc⟩
  | prior _ | fix _ | keep => exact .inl hc

lemma priors_run (p : Program) (s : Step) : (s.run p).priors = p.priors ∨
      ∃ prior, AddsPrior s prior ∧ (s.run p).priors = p.priors ++ [prior] := by
  have h := stepDoes p s
  generalize hpa : (s.run p).parts = parts at h
  have hp := congrArg (·.2.1) hpa
  cases h with
  | component _ => exact .inl hp
  | prior h => exact .inr ⟨_, h, hp⟩
  | fix _ | keep => exact .inl hp

lemma frozen_run (p : Program) (s : Step) :
    (s.run p).frozen = p.frozen ∨ ∃ vars, p.classified = .ok vars ∧ (s.run p).frozen = some vars := by
  have h := stepDoes p s
  generalize hp : (s.run p).parts = parts at h
  have hf := congrArg (·.2.2) hp
  cases h with
  | component _ | prior _ => exact .inl hf
  | fix h => exact .inr ⟨_, h, hf⟩
  | keep => exact .inl hf

/-! ## What steps do -/

section

variable {α : Type} {view : Program → List α} {makes : Step → α → Prop}
  (hstep : ∀ p s, view (s.run p) = view p ∨ ∃ a, makes s a ∧ view (s.run p) = view p ++ [a])

include hstep

lemma made_by_steps (hnil : view {} = []) (steps : List Step) :
    ∃ kept, kept.Sublist steps ∧ Forall₂ makes kept (view (after steps)) := by
  induction steps using reverseRecOn with
  | nil => exact ⟨[], Sublist.refl [], by rw [after, foldl_nil, hnil]; exact .nil⟩
  | append_singleton steps s ih =>
    obtain ⟨kept, hkept, hmade⟩ := ih
    rw [after_concat]
    rcases hstep (after steps) s with h | ⟨a, ha, h⟩
    · rw [h]
      exact ⟨kept, hkept.trans (sublist_append_left steps [s]), hmade⟩
    · rw [h]
      exact ⟨kept ++ [s], hkept.append_right [s], rel_append hmade (.cons ha .nil)⟩

lemma kept_by_steps (early late : List Step) : view (after early) <+: view (after (early ++ late)) := by
  induction late using reverseRecOn with
  | nil => exact (append_nil early).symm ▸ prefix_refl _
  | append_singleton late s ih =>
    rw [← append_assoc, after_concat]
    rcases hstep (after (early ++ late)) s with h | ⟨a, -, h⟩
    · rwa [h]
    · rw [h]
      exact ih.trans (prefix_append _ _)

end

lemma components_after (steps : List Step) :
    ∃ kept, kept.Sublist steps ∧ Forall₂ AddsComponent kept (after steps).components :=
  made_by_steps components_run rfl steps

lemma priors_after (steps : List Step) : ∃ kept, kept.Sublist steps ∧ Forall₂ AddsPrior kept (after steps).priors :=
  made_by_steps priors_run rfl steps

/-- The variables of the program before the later steps, the first of which fixed them. -/
structure FixedAt (early late : List Step) (vars : Variables) : Prop where
  fresh : (after early).frozen = none
  collected : Variables.collect (after early).components (after early).priors = .ok vars
  fixed : ∀ s rest, late = s :: rest → (after (early ++ [s])).frozen = some vars

variable {steps : List Step}

lemma fixedAt_of_frozen (h : (after steps).frozen = some vars) :
    ∃ early late, steps = early ++ late ∧ FixedAt early late vars := by
  induction steps using reverseRecOn with
  | nil => cases h
  | append_singleton steps s ih =>
    rw [after_concat] at h
    cases hf : (after steps).frozen with
    | some vars' =>
      -- variables that are fixed stay as they are
      obtain rfl : vars' = vars := by
        rcases frozen_run (after steps) s with hrun | ⟨vars'', hvars, hrun⟩
        · exact some.inj (hf.symm.trans (hrun.symm.trans h))
        · rw [classified_frozen hf] at hvars
          exact (ok.inj hvars).trans (some.inj (hrun.symm.trans h))
      obtain ⟨early, late, rfl, hfi⟩ := ih hf
      refine ⟨early, late ++ [s], append_assoc .., hfi.fresh, hfi.collected, ?_⟩
      intro s' rest hlate
      cases late with
      | nil =>
        rw [append_nil, hfi.fresh] at hf
        cases hf
      | cons first late =>
        cases hlate
        exact hfi.fixed _ late rfl
    | none =>
      rcases frozen_run (after steps) s with hrun | ⟨vars', hvars, hrun⟩
      · rw [hrun, hf] at h
        cases h
      · obtain rfl := some.inj (hrun.symm.trans h)
        refine ⟨steps, [s], rfl, hf, ?_, ?_⟩
        · unfold classified at hvars
          rwa [hf] at hvars
        · intro s' rest hlate
          cases hlate
          rw [after_concat, hrun]

lemma fixedAt_of_classified (h : (after steps).classified = .ok vars) :
    ∃ early late, steps = early ++ late ∧ FixedAt early late vars := by
  cases hf : (after steps).frozen with
  | some vars' =>
    rw [classified_frozen hf] at h
    exact fixedAt_of_frozen (hf.trans (congrArg some (ok.inj h)))
  | none =>
    unfold classified at h
    rw [hf] at h
    exact ⟨steps, [], (append_nil steps).symm, hf, h, fun s rest hlate => by cases hlate⟩

end GridBayes.Program
