import GridBayes.Proofs.ForwardMemory
import GridBayes.Proofs.SourceText

/-! What is added to a program. An entry whose texts have no braces makes a part or is refused as it is read; a part that
is made can be announced and joins the program, so the parts of a program are those of the entries that make one, in
the order of the steps. -/
namespace GridBayes.Program
open List Operation Template Except SymbolSet DistributionCall

/-! ## Entries -/

def Entry.sources : Entry → List String
  | .expression source => [source.text]
  | .assign _ source => [source.text]
  | .constraint _ _ params => (params.parts?.getD []).map Value.text
  | .prior _ _ params => (params.parts?.getD []).map Value.text

def Entry.isMade : Entry → Bool
  | .expression source => (Component.expressionOf source).isOk
  | .assign target source => (Component.assignmentOf target source).isOk
  | .constraint var name params => (Component.ofConstraint var name params).isOk
  | .prior var name params => (Prior.ofValues var name params).isOk

def Entry.isForward : Entry → Bool
  | .expression _ | .assign .. => true
  | _ => false

def Entry.isConstraint : Entry → Bool
  | .constraint .. => true
  | _ => false

def Entry.isPrior : Entry → Bool
  | .prior .. => true
  | _ => false

lemma Entry.isPrior_of_isForward {entry : Entry} (h : entry.isForward = true) : entry.isPrior = false := by
  cases entry with
  | prior => cases h
  | _ => rfl

lemma Entry.isPrior_of_isConstraint {entry : Entry} (h : entry.isConstraint = true) : entry.isPrior = false := by
  cases entry with
  | prior => cases h
  | _ => rfl

def Step.Plain : Step → Prop
  | .add entry => ∀ t ∈ entry.sources, Unbraced t
  | .set (.optionalTerms _) | .set (.verbose _) | .set (.fancy _) => True
  | _ => False

instance : DecidablePred Step.Plain := fun s => by
  unfold Step.Plain
  split <;> infer_instance

def added (steps : List Step) : List Entry :=
  steps.filterMap fun
    | .add entry => if entry.isMade then some entry else none
    | _ => none

/-- A distribution as written: the preset of its name, the given parameters, and the checked use. -/
structure Uses (var : Value) (name : String) (params : Value) (preset : Preset) (given : List Value)
    (call : DistributionCall) : Prop where
  named : Preset.ofName? (Text.lower name) = some preset
  takes : writtenParams var name params = .ok given
  checked : create var name given = .ok call

/-! ## Parts and their entries -/

lemma parts_of_writtenParams {var params : Value} {name : String} {given : List Value}
    (h : writtenParams var name params = .ok given) : params.parts? = some given := by
  unfold writtenParams at h
  split at h
  · rw [← ok.inj h]
    rfl
  · cases h
  · cases h
  · rename_i hp _
    obtain ⟨p, -, h⟩ := bind_eq_ok.mp h
    dsimp only at h
    split at h
    · cases h
    · split at h
      · cases h
      · cases h
      · rw [hp, ok.inj h]

namespace Uses

variable {var params : Value} {name : String} {preset : Preset} {given : List Value} {call : DistributionCall}

lemma family (h : Uses var name params preset given call) : call.family = preset.base := by
  obtain ⟨p, hp, hf, -⟩ := create_eq_ok h.checked
  rw [hf, Option.some.inj (hp.symm.trans h.named)]

lemma hasSources (h : Uses var name params preset given call) : call.HasSources (preset.sources given) := by
  rw [← preset.text_parameters]
  exact hasSources_of_create h.named h.checked

lemma unbraced (h : Uses var name params preset given call)
    (hp : ∀ t ∈ (params.parts?.getD []).map Value.text, Unbraced t) : ∀ t ∈ preset.sources given, Unbraced t := by
  rw [parts_of_writtenParams h.takes] at hp
  exact preset.unbraced_sources (forall_mem_map.mp hp)

lemma var_of_mem (h : Uses var name params preset given call) {s : Symbol}
    (hs : s = call.var ∨ s ∈ call.requires) (hvar : s.isLiteral = false) :
    ∃ (kind : VarKind) (word : List Char), s = .var kind (String.ofList word) ∧ ∀ c ∈ word, Text.isWord c = true := by
  rcases hs with rfl | hs
  · obtain ⟨_, _, _, _, hsy⟩ := create_eq_ok h.checked
    exact Symbol.var_of_ofValue hsy hvar
  · obtain ⟨t, -, hmem⟩ := (h.hasSources.requires s).mp hs
    exact Symbol.var_of_mem_hits ((mem_ofList s _).mp hmem)

end Uses

lemma uses_of_ofValues {var name params : Value} {call : DistributionCall} (h : ofValues var name params = .ok call) :
    ∃ word preset given, name = .str word ∧ Uses var word params preset given call := by
  obtain ⟨word, hword, h⟩ := bind_eq_ok.mp h
  obtain ⟨given, hg, hcall⟩ := bind_eq_ok.mp h
  obtain ⟨preset, hp, -⟩ := create_eq_ok hcall
  exact ⟨word, preset, given, needText_eq_ok hword, hp, hg, hcall⟩

lemma uses_of_prior {var name params : Value} {prior : Prior} (h : Prior.ofValues var name params = .ok prior) :
    ∃ word preset given, name = .str word ∧ Uses var prior.written params preset given prior.call := by
  obtain ⟨word, hword, h⟩ := bind_eq_ok.mp h
  obtain ⟨given, hg, hc⟩ := bind_eq_ok.mp h
  obtain ⟨hw, hcall⟩ := Prior.create_eq_ok hc
  rw [← hw] at hg hcall
  obtain ⟨preset, hp, -⟩ := create_eq_ok hcall
  exact ⟨word, preset, given, needText_eq_ok hword, hp, hg, hcall⟩

lemma expression_of_ok {source : Value} {c : Component} (h : Component.expressionOf source = .ok c) :
    ∃ text provides, source = .str text ∧ c = .expression (diff (symbols text) provides) provides (ofSource text) := by
  obtain ⟨text, htext, hread⟩ := bind_eq_ok.mp h
  obtain ⟨provides, -, hc⟩ := bind_eq_ok.mp hread
  exact ⟨text, provides, needText_eq_ok htext, (ok.inj hc).symm⟩

lemma isConstraint_of_adds {entry : Entry} {c : Component} (h : AddsComponent (.add entry) c) :
    entry.isForward = !c.isLikelihood ∧ entry.isConstraint = c.isLikelihood := by
  cases h with
  | expression h =>
    obtain ⟨text, provides, -, rfl⟩ := expression_of_ok h
    exact ⟨rfl, rfl⟩
  | assign h =>
    obtain ⟨e, -, rfl⟩ := addsEquation_of_assigned h
    exact ⟨rfl, rfl⟩
  | constraint h =>
    obtain ⟨call, -, rfl⟩ := map_eq_ok.mp h
    exact ⟨rfl, rfl⟩

lemma source_ofCall {target source : String} {e : Equation} (h : Equation.ofCall target source = .ok e) :
    e.source = source := by
  obtain ⟨symbol, -, he⟩ := bind_eq_ok.mp h
  rw [← ok.inj he]

lemma mem_component (e : Equation) {s : Symbol} (h : s ∈ symbols e.source) :
    s ∈ e.component.requires ∨ s ∈ e.component.provides := by
  by_cases ht : s = e.target
  · exact .inr (mem_singleton.mpr ht)
  · exact .inl ((mem_diff s _ _).mpr ⟨h, fun hmem => ht (mem_singleton.mp hmem)⟩)

/-! ## Announcements -/

lemma fillNamed_sources {values : List (String × String)} {sources : List String} (hp : ∀ t ∈ sources, Unbraced t)
    (hf : ∀ t ∈ sources, ∀ s ∈ symbols t, (values.lookup s.ident).isSome = true) :
    fillNamed values (Text.join ", " (sources.map ofSource)) = .ok (Text.join ", " (sources.map (placed values))) := by
  refine fill_join (by decide) (by decide) ?_
  rw [forall₂_map_left_iff, forall₂_map_right_iff, forall₂_same]
  exact fun t ht => (fillNamed_ofSource (hp t ht).1 (hp t ht).2).mpr ⟨hf t ht, rfl⟩

lemma isSome_lookup_valuesOf (f : Symbol → String) {symbols : SymbolSet} {s : Symbol} (h : s ∈ symbols) :
    ((valuesOf f symbols).lookup s.ident).isSome = true := by
  unfold valuesOf
  rw [isSome_lookup_iff, map_map]
  exact mem_map_of_mem h

lemma accepts_of_plain (p : Program) {entry : Entry} {c : Component} (hp : ∀ t ∈ entry.sources, Unbraced t)
    (hadds : AddsComponent (.add entry) c) : p.Accepts c := by
  unfold Accepts announce
  split
  · exact ⟨_, rfl⟩
  · cases hadds with
    | expression h =>
      obtain ⟨text, provides, -, rfl⟩ := expression_of_ok h
      exact ⟨_, rfl⟩
    | assign h =>
      obtain ⟨e, heq, rfl⟩ := addsEquation_of_assigned h
      cases heq with
      | @assign target source _ he =>
        obtain rfl := source_ofCall he
        obtain ⟨hopen, hc⟩ := hp e.source mem_cons_self
        have hsh := (@fillNamed_ofSource (valuesOf Symbol.text (union e.component.requires
          e.component.provides)) _ _ hopen hc).mpr ⟨fun s hs => isSome_lookup_valuesOf _
            ((mem_union s _ _).mpr (mem_component e hs)), rfl⟩
        unfold Component.display
        dsimp only [Equation.component] at hsh ⊢
        rw [hsh]
        exact ⟨_, rfl⟩
    | constraint h =>
      obtain ⟨call, -, rfl⟩ := map_eq_ok.mp h
      exact ⟨_, rfl⟩

lemma acceptsPrior_of_plain (p : Program) {entry : Entry} {prior : Prior}
    (hp : ∀ t ∈ entry.sources, Unbraced t) (hadds : AddsPrior (.add entry) prior) : p.AcceptsPrior prior := by
  cases hadds with
  | prior h =>
    obtain ⟨word, preset, given, -, huses⟩ := uses_of_prior h
    have hsh := @fillNamed_sources (valuesOf Symbol.text (union prior.requires prior.provides)) _
      (huses.unbraced hp) fun t ht s hs => isSome_lookup_valuesOf _ ((mem_union s _ _).mpr
        (.inl ((huses.hasSources.requires s).mpr ⟨t, ht, hs⟩)))
    rw [← huses.hasSources.params] at hsh
    unfold AcceptsPrior announcePrior
    split
    · unfold Prior.display paramText
      dsimp only
      rw [hsh]
      exact ⟨_, rfl⟩
    · exact ⟨_, rfl⟩

/-! ## Steps -/

structure Assembled (steps : List Step) (p : Program) : Prop where
  frozen : p.frozen = none
  defects : p.defects = {}
  outputs : p.outputs = []
  components : Forall₂ (fun entry => AddsComponent (.add entry)) ((added steps).filter (!·.isPrior)) p.components
  priors : Forall₂ (fun entry => AddsPrior (.add entry)) ((added steps).filter (·.isPrior)) p.priors

lemma added_concat (steps : List Step) (s : Step) : added (steps ++ [s]) = added steps ++ added [s] :=
  filterMap_append

lemma Assembled.refused {steps : List Step} {p : Program} {s : Step} (h : Assembled steps p)
    (hnone : added [s] = []) : Assembled (steps ++ [s]) p where
  frozen := h.frozen
  defects := h.defects
  outputs := h.outputs
  components := by rw [added_concat, hnone, append_nil]; exact h.components
  priors := by rw [added_concat, hnone, append_nil]; exact h.priors

lemma Assembled.component {steps : List Step} {p : Program} {entry : Entry} (h : Assembled steps p)
    (hpl : ∀ t ∈ entry.sources, Unbraced t) {part : Except Fault Component}
    (he : p.enter entry = p.withPart part) (hp : entry.isPrior = false)
    (hmade : entry.isMade = part.isOk) (hadds : ∀ c, part = .ok c → AddsComponent (.add entry) c) :
    Assembled (steps ++ [.add entry]) ((Step.add entry).run p) := by
  rw [Step.run, he]
  cases hpart : part with
  | error e =>
    rw [hpart] at hmade
    exact h.refused (by simp [added, hmade, Except.toBool])
  | ok c =>
    have hc := hadds c hpart
    rw [withPart_iff.mpr ⟨c, ⟨rfl, accepts_of_plain p hpl hc⟩, rfl⟩]
    rw [hpart] at hmade
    have hone : added [.add entry] = [entry] := by simp [added, hmade, Except.toBool]
    refine ⟨h.frozen, h.defects, h.outputs, ?_, ?_⟩
    · rw [added_concat, hone, filter_append, filter_cons_of_pos (by simp [hp])]
      exact rel_append h.components (.cons hc .nil)
    · rw [added_concat, hone, filter_append, filter_cons_of_neg (by simp [hp]), filter_nil, append_nil]
      exact h.priors

lemma Assembled.prior {steps : List Step} {p : Program} {var name params : Value} (h : Assembled steps p)
    (hpl : ∀ t ∈ (Entry.prior var name params).sources, Unbraced t) :
    Assembled (steps ++ [.add (.prior var name params)]) ((Step.add (.prior var name params)).run p) := by
  rw [Step.run, enter]
  cases hpart : Prior.ofValues var name params with
  | error e => exact h.refused (by simp [added, Entry.isMade, hpart, Except.toBool])
  | ok prior =>
    have hp : AddsPrior (.add (.prior var name params)) prior := .prior hpart
    rw [withPrior_iff.mpr ⟨prior, ⟨rfl, acceptsPrior_of_plain p hpl hp⟩, rfl⟩]
    have hone : added [.add (.prior var name params)] = [.prior var name params] := by
      simp [added, Entry.isMade, hpart, Except.toBool]
    refine ⟨h.frozen, h.defects, h.outputs, ?_, ?_⟩
    · rw [added_concat, hone, filter_append, filter_cons_of_neg (by simp [Entry.isPrior]), filter_nil, append_nil]
      exact h.components
    · rw [added_concat, hone, filter_append, filter_cons_of_pos (by simp [Entry.isPrior])]
      exact rel_append h.priors (.cons hp .nil)

lemma Assembled.run {steps : List Step} {p : Program} {s : Step} (h : Assembled steps p) (hs : s.Plain) :
    Assembled (steps ++ [s]) (s.run p) := by
  cases s with
  | ask question => cases hs
  | set setting =>
    have hkept : Assembled (steps ++ [.set setting]) p := h.refused rfl
    cases setting with
    | optionalTerms _ | verbose _ | fancy _ =>
      exact ⟨hkept.frozen, hkept.defects, hkept.outputs, hkept.components, hkept.priors⟩
    | _ => cases hs
  | add entry =>
    cases entry with
    | expression source => exact h.component hs rfl rfl rfl fun c hc => .expression hc
    | assign target source => exact h.component hs rfl rfl rfl fun c hc => .assign hc
    | constraint var name params => exact h.component hs rfl rfl rfl fun c hc => .constraint hc
    | prior var name params => exact h.prior hs

lemma assembled_after {steps : List Step} (h : ∀ s ∈ steps, s.Plain) : Assembled steps (after steps) := by
  -- from the end, as parts and entries are both appended
  induction steps using reverseRecOn with
  | nil => exact ⟨rfl, rfl, rfl, .nil, .nil⟩
  | append_singleton steps s ih =>
    rw [after_concat]
    obtain ⟨hst, hs⟩ := forall_mem_append.mp h
    exact (ih hst).run (hs s mem_cons_self)

end GridBayes.Program
