import GridBayes.Program.Render
import GridBayes.Proofs.DependencyOrder
import GridBayes.Proofs.Operation
import GridBayes.Proofs.StableSort

/-! The text of a program as a function of its parts, and what of the order of the parts is seen in
it: nothing but the order of likelihood terms, and of other components that provide the same. -/
namespace GridBayes.Program
open Operation List Except

/-! ## The text without the state -/

def refusal (defect : Option Fault) : Except Fault Unit :=
  match defect with
  | none => .ok ()
  | some e => .error e

lemma outcome_forM_throw (defect : Option Fault) (p : Program) :
    outcome (defect.forM throw : ProgramM Unit) p = (refusal defect, p) := by
  cases defect <;> rfl

lemma outcome_frozenVariables (p : Program) : outcome frozenVariables p = match p.classified with
      | .ok vars => (.ok vars, { p with frozen := some vars })
      | .error e => (.error e, p) := by
  unfold frozenVariables
  rw [outcome_bind_ok (outcome_get p), outcome_bind]
  cases p.classified <;> rfl

def forwardOf (p : Program) : Except Fault String := do
  let ordered ← orderedForward p.components
  let vars ← p.classified
  let text ← renderForward vars ordered p.outputs
  refusal p.defects.outputs
  return text

variable {p q : Program} {vars : Variables}

lemma classified_frozen (h : p.frozen = some vars) : p.classified = .ok vars := by
  unfold classified
  rw [h]

lemma frozenVariables_ok (h : outcome frozenVariables p = (.ok vars, q)) :
    p.classified = .ok vars ∧ q = { p with frozen := some vars } := by
  rw [outcome_frozenVariables] at h
  cases hc : p.classified with
  | error e => rw [hc] at h; cases h
  | ok vars' =>
    rw [hc] at h
    obtain ⟨hv, rfl⟩ := Prod.mk.inj h
    cases hv
    exact ⟨rfl, rfl⟩

lemma fst_frozenVariables (p : Program) : (outcome frozenVariables p).1 = p.classified := by
  rw [outcome_frozenVariables]
  cases p.classified <;> rfl

lemma outcome_forwardText (p : Program) : (outcome forwardText p).1 = p.forwardOf := by
  unfold forwardText forwardOf
  refine fst_outcome_bind_same (outcome_ofExcept _ p) fun ordered => ?_
  refine (fst_outcome_bind fun vars q hq => ?_).trans (by rw [fst_frozenVariables])
  refine fst_outcome_bind_same (outcome_ofExcept _ q) fun text => ?_
  refine fst_outcome_bind_same (outcome_forM_throw _ q) fun _ => ?_
  rfl

lemma outcome_frozen (h : q.frozen = some vars) : outcome frozenVariables q = (.ok vars, q) := by
  rw [outcome_frozenVariables, classified_frozen h]
  simp [← h]

section

variable {f : Variables → Program → Except Fault String}

lemma outcome_rendered (h : q.frozen = some vars) :
    outcome (frozenVariables >>= fun vars => get >>= fun p => ofExcept (f vars p)) q = (f vars q, q) := by
  rw [outcome_bind_ok (outcome_frozen h), outcome_bind_ok (outcome_get q), outcome_ofExcept]

lemma fst_rendered : (outcome (frozenVariables >>= fun vars => get >>= fun p => ofExcept (f vars p)) p).1 =
    p.classified >>= fun vars => f vars { p with frozen := some vars } := by
  refine (fst_outcome_bind fun vars r hr => ?_).trans (by rw [fst_frozenVariables])
  obtain ⟨-, rfl⟩ := frozenVariables_ok hr
  rw [outcome_bind_ok (outcome_get _), outcome_ofExcept]

end

lemma outcome_quantileText (h : q.frozen = some vars) : outcome quantileText q = (renderQuantile vars q.priors, q) :=
  outcome_rendered h

lemma outcome_logPriorText (h : q.frozen = some vars) : outcome logPriorText q = (renderLogPrior vars q.priors, q) :=
  outcome_rendered h

lemma fst_quantileText (p : Program) :
    (outcome quantileText p).1 = p.classified >>= fun vars => renderQuantile vars p.priors :=
  fst_rendered

lemma fst_logPriorText (p : Program) :
    (outcome logPriorText p).1 = p.classified >>= fun vars => renderLogPrior vars p.priors :=
  fst_rendered

lemma state_forwardText (h : q.frozen = some vars) : (outcome forwardText q).2 = q := by
  unfold forwardText
  rw [outcome_bind_ok (outcome_get q), outcome_bind, outcome_ofExcept]
  cases orderedForward q.components with
  | error e => rfl
  | ok ordered =>
    dsimp only
    rw [outcome_bind_ok (outcome_frozen h), outcome_bind, outcome_ofExcept]
    cases renderForward vars ordered q.outputs with
    | error e => rfl
    | ok text =>
      dsimp only
      rw [outcome_bind, outcome_forM_throw]
      cases refusal q.defects.outputs <;> rfl

def logLikeOf (p : Program) (vars : Variables) : Except Fault String :=
  if p.components.any (·.isLikelihood) then renderLogLike vars p.optionalTerms.isOn p.components
  else renderLogLike ⟨[], [], [], []⟩ false []

lemma outcome_logLikeText (h : q.frozen = some vars) : (outcome logLikeText q).1 = q.logLikeOf vars := by
  unfold logLikeText logLikeOf
  rw [outcome_bind_ok (outcome_get q)]
  split
  · rw [outcome_bind_ok (outcome_frozen h), outcome_ofExcept]
  · rw [outcome_ofExcept]

lemma fst_logLikeText (p : Program) : (outcome logLikeText p).1 = if p.components.any (·.isLikelihood) then
      p.classified >>= fun vars => renderLogLike vars p.optionalTerms.isOn p.components
    else renderLogLike ⟨[], [], [], []⟩ false [] := by
  unfold logLikeText
  rw [outcome_bind_ok (outcome_get p)]
  split
  · refine (fst_outcome_bind fun vars r hr => ?_).trans (by rw [fst_frozenVariables])
    rw [outcome_ofExcept]
  · rw [outcome_ofExcept]

def methodsOf (p : Program) (vars : Variables) (header : List String) : Except Fault String := do
  let quantile ← renderQuantile vars p.priors
  let logPrior ← renderLogPrior vars p.priors
  let forward ← forwardOf { p with frozen := some vars }
  let logLike ← p.logLikeOf vars
  return Text.join "\n" (header ++ [quantile, logPrior, forward, logLike]) ++ "\n"

lemma outcome_methods (h : q.frozen = some vars) (header : List String) : (outcome (do
      let quantile ← quantileText
      let logPrior ← logPriorText
      let forward ← forwardText
      let logLike ← logLikeText
      return Text.join "\n" (header ++ [quantile, logPrior, forward, logLike]) ++ "\n") q).1 =
        q.methodsOf vars header := by
  have hsame : { q with frozen := some vars } = q := by rw [← h]
  unfold methodsOf
  rw [hsame]
  refine fst_outcome_bind_same (outcome_quantileText h) fun quantile => ?_
  refine fst_outcome_bind_same (outcome_logPriorText h) fun logPrior => ?_
  have hf : outcome forwardText q = (q.forwardOf, q) := Prod.ext (outcome_forwardText q) (state_forwardText h)
  refine fst_outcome_bind_same hf fun forward => ?_
  refine (fst_outcome_bind fun logLike r hr => ?_).trans (by rw [outcome_logLikeText h])
  rfl

def textWith (p : Program) (vars : Variables) : Except Fault String := do
  refusal p.defects.outputNames
  refusal p.defects.autoConstants
  refusal (if vars.constants.isEmpty then none else p.defects.constantTypes)
  p.methodsOf vars (renderHeader p vars)

lemma outcome_text (p : Program) : (outcome text p).1 =
      (refusal p.defects.imports >>= fun _ => p.classified >>= p.textWith) := by
  unfold text
  refine fst_outcome_bind_same (outcome_forM_throw _ p) fun _ => ?_
  refine (fst_outcome_bind fun vars r hr => ?_).trans (by rw [fst_frozenVariables])
  obtain ⟨-, rfl⟩ := frozenVariables_ok hr
  rw [outcome_bind_ok (outcome_get _)]
  refine fst_outcome_bind_same (outcome_forM_throw _ _) fun _ => ?_
  refine fst_outcome_bind_same (outcome_forM_throw _ _) fun _ => ?_
  have hm : (outcome _ { p with frozen := some vars }).1 = p.methodsOf vars (renderHeader p vars) :=
    outcome_methods rfl (renderHeader p vars)
  cases vars.constants.isEmpty with
  | true => exact hm
  | false => exact fst_outcome_bind_same (outcome_forM_throw _ _) fun _ => hm

lemma refusal_eq_ok {defect : Option Fault} : refusal defect = .ok () ↔ defect = none := by
  cases defect with
  | none | some e => simp [refusal]

structure Methods (p : Program) (vars : Variables) where
  quantile : String
  logPrior : String
  forward : String
  logLike : String
  quantile_eq : renderQuantile vars p.priors = .ok quantile
  logPrior_eq : renderLogPrior vars p.priors = .ok logPrior
  forward_eq : forwardOf { p with frozen := some vars } = .ok forward
  logLike_eq : p.logLikeOf vars = .ok logLike

def Methods.text (m : Methods p vars) : String :=
  Text.join "\n" (renderHeader p vars ++ [m.quantile, m.logPrior, m.forward, m.logLike]) ++ "\n"

lemma text_iff {text : String} : (Program.text.run.run p).1 = .ok text ↔
      p.defects.imports = none ∧ p.defects.outputNames = none ∧ p.defects.autoConstants = none ∧
        ∃ vars, p.classified = .ok vars ∧ (if vars.constants.isEmpty then none else p.defects.constantTypes) = none ∧
          ∃ m : Methods p vars, text = m.text := by
  have ho : (Program.text.run.run p).1 = _ := outcome_text p
  have hm : ∀ vars, p.methodsOf vars (renderHeader p vars) = .ok text ↔ ∃ m : Methods p vars, text = m.text := by
    intro vars
    unfold methodsOf
    simp only [bind_eq_ok]
    constructor
    · rintro ⟨quantile, hq, logPrior, hlogPrior, forward, hf, logLike, hlogLike, h⟩
      exact ⟨⟨quantile, logPrior, forward, logLike, hq, hlogPrior, hf, hlogLike⟩, (ok.inj h).symm⟩
    · rintro ⟨m, rfl⟩
      exact ⟨_, m.quantile_eq, _, m.logPrior_eq, _, m.forward_eq, _, m.logLike_eq, rfl⟩
  have hunit : ∀ (x : Except Fault Unit) (P : Prop), (∃ u, x = .ok u ∧ P) ↔ x = .ok () ∧ P :=
    fun x P => ⟨fun ⟨_, hx, hP⟩ => ⟨hx, hP⟩, fun ⟨hx, hP⟩ => ⟨(), hx, hP⟩⟩
  rw [ho]
  unfold textWith
  simp only [bind_eq_ok, hunit, refusal_eq_ok, hm]
  tauto

def quantileMethod (blocks : List String) : String :=
  method (["cpdef double[:] prior_transform(self, double[:] params):"] ++ blocks ++ ["    return params\n"])

def logPriorMethod (blocks : List String) : String :=
  method (["cpdef double log_prior(self, double[:] params):", "    cdef double logP = 0."] ++ blocks
    ++ ["    return logP\n"])

def forwardMethod (blocks outs : List String) : String :=
  method (["cdef void _forward_model(self, double[:] params):"] ++ blocks ++ ["    return\n"] ++ postprocessLines outs)

def likelihoodMethod (terms : List String) : String :=
  method (["cdef double _log_like(self, double[:] params):", "    cdef double logL = 0."] ++ terms
    ++ ["    return logL if math.isfinite(logL) else -math.INFINITY\n"])

lemma forwardOf_cases {text : String} (h : p.forwardOf = .ok text) :
    ∃ vars ordered blocks outs, p.classified = .ok vars ∧ orderedForward p.components = .ok ordered ∧
      Forall₂ (fun c b => block vars.mapping "    " c.code = .ok b) ordered blocks ∧
      text = forwardMethod blocks outs := by
  obtain ⟨ordered, ho, h⟩ := bind_eq_ok.mp h
  obtain ⟨vars, hvars, h⟩ := bind_eq_ok.mp h
  obtain ⟨_, hr, h⟩ := bind_eq_ok.mp h
  obtain ⟨-, -, ⟨⟩⟩ := bind_eq_ok.mp h
  obtain ⟨blocks, hb, h⟩ := bind_eq_ok.mp hr
  obtain ⟨outs, -, ⟨⟩⟩ := bind_eq_ok.mp h
  exact ⟨vars, ordered, blocks, outs, hvars, ho, mapM_eq_ok.mp hb, rfl⟩

lemma forwardOf_eq_ok {text : String} (h : forwardOf { p with frozen := some vars } = .ok text) :
    ∃ ordered blocks outs, orderedForward p.components = .ok ordered ∧
      Forall₂ (fun c b => block vars.mapping "    " c.code = .ok b) ordered blocks ∧
      text = forwardMethod blocks outs := by
  obtain ⟨vars', ordered, blocks, outs, hvars, h⟩ := forwardOf_cases h
  obtain rfl : vars = vars' := ok.inj hvars
  exact ⟨ordered, blocks, outs, h⟩

/-! ## Adding parts -/

lemma needText_eq_ok {v : Value} {otherwise : Fault} {text : String} (h : v.needText otherwise = .ok text) :
    v = .str text := by
  unfold Value.needText at h
  split at h
  · rw [ok.inj h]
  · cases h

def Accepts (p : Program) (c : Component) : Prop :=
  ∃ said, p.announce c = .ok said

def withPart (p : Program) (part : Except Fault Component) : Except Fault Program := do
  let c ← part
  return (← p.addComponent c).1

variable {α : Type} {part : Except Fault α} {say : α → Except Fault String} {put : α → Program}

lemma announced_eq_ok : (part >>= fun a => (say a >>= fun said => pure (put a, said)) >>= fun r => pure r.1) = .ok q ↔
    ∃ a, (part = .ok a ∧ ∃ said, say a = .ok said) ∧ q = put a := by
  simp only [bind_eq_ok]
  constructor
  · rintro ⟨a, ha, _, ⟨said, hsaid, ⟨⟩⟩, hq⟩
    exact ⟨a, ⟨ha, said, hsaid⟩, (ok.inj hq).symm⟩
  · rintro ⟨a, ⟨ha, said, hsaid⟩, rfl⟩
    exact ⟨a, ha, _, ⟨said, hsaid, rfl⟩, rfl⟩

lemma withPart_iff {part : Except Fault Component} :
    p.withPart part = .ok q ↔ ∃ c, (part = .ok c ∧ p.Accepts c) ∧ q = { p with components := p.components ++ [c] } :=
  announced_eq_ok

variable {ι : Type} {cs ds : List Component}

lemma withParts_iff {part : ι → Except Fault Component} {l : List ι} :
    l.foldlM (fun p i => p.withPart (part i)) p = .ok q ↔ ∃ cs, Forall₂ (fun i c => part i = .ok c ∧ p.Accepts c) l cs ∧
        q = { p with components := p.components ++ cs } :=
  foldlM_eq_ok (fun p i c => part i = .ok c ∧ Accepts p c)
    (fun (p : Program) cs => { p with components := p.components ++ cs }) (fun _ _ _ => withPart_iff)
    (by simp) (by simp) (fun _ _ _ _ => Iff.rfl)

def announcePrior (p : Program) (prior : Prior) : Except Fault String :=
  if p.verbose then prior.display.map fun s => Highlight.apply p.palette s ++ "\n" else .ok ""

lemma addPrior_eq (prior : Prior) : p.addPrior prior =
    p.announcePrior prior >>= fun said => pure ({ p with priors := p.priors ++ [prior] }, said) := by
  unfold addPrior announcePrior
  split <;> rfl

def AcceptsPrior (p : Program) (prior : Prior) : Prop :=
  ∃ said, p.announcePrior prior = .ok said

def withPrior (p : Program) (part : Except Fault Prior) : Except Fault Program := do
  let prior ← part
  return (← p.addPrior prior).1

lemma withPrior_iff {part : Except Fault Prior} :
    p.withPrior part = .ok q ↔ ∃ prior, (part = .ok prior ∧ p.AcceptsPrior prior) ∧
      q = { p with priors := p.priors ++ [prior] } := by
  unfold withPrior
  simp only [addPrior_eq]
  exact announced_eq_ok

lemma withPriors_iff {part : ι → Except Fault Prior} {l : List ι} :
    l.foldlM (fun p i => p.withPrior (part i)) p = .ok q ↔
      ∃ ps, Forall₂ (fun i prior => part i = .ok prior ∧ p.AcceptsPrior prior) l ps ∧
        q = { p with priors := p.priors ++ ps } :=
  foldlM_eq_ok (fun p i prior => part i = .ok prior ∧ AcceptsPrior p prior)
    (fun (p : Program) ps => { p with priors := p.priors ++ ps }) (fun _ _ _ => withPrior_iff)
    (by simp) (by simp) (fun _ _ _ _ => Iff.rfl)

/-! ## Programs that differ in the order of their parts -/

/-- The same components up to order, likelihood terms in the same order, and others that provide the same. -/
structure SameComponents (cs ds : List Component) : Prop where
  perm : cs.Perm ds
  forward : ∀ x, Text.keyed Component.sortKey x (cs.filter (!·.isLikelihood)) =
    Text.keyed Component.sortKey x (ds.filter (!·.isLikelihood))
  likelihood : cs.filter (·.isLikelihood) = ds.filter (·.isLikelihood)

lemma sameComponents_between (front back : List Component) (hperm : cs.Perm ds)
    (hkeys : ∀ c ∈ cs, ∀ d ∈ cs, c.sortKey = d.sortKey → c = d) (hl : ∀ c ∈ cs, c.isLikelihood = false) :
    SameComponents (front ++ cs ++ back) (front ++ ds ++ back) where
  perm := (hperm.append_left front).append_right back
  forward x := by
    have hm := Text.keyed_of_perm (hperm.filter (!·.isLikelihood))
      (fun c hc d hd => hkeys c (mem_of_mem_filter hc) d (mem_of_mem_filter hd)) x
    unfold Text.keyed at hm ⊢
    simp only [filter_append, hm]
  likelihood := by
    have hnone : ∀ es : List Component, (∀ c ∈ es, c.isLikelihood = false) → es.filter (·.isLikelihood) = [] :=
      fun es h => filter_eq_nil_iff.mpr fun c hc => by simp [h c hc]
    have hds := hnone ds fun d hd => hl d (hperm.mem_iff.mpr hd)
    simp only [filter_append, hnone cs hl, hds]

lemma SameComponents.orderedForward (h : SameComponents cs ds) : orderedForward cs = Program.orderedForward ds :=
  congrArg (Order.sort .localVar) (Text.sortBy_congr h.forward)

lemma collect_perm (h : cs.Perm ds) (priors : List Prior) :
    Agree (Variables.collect cs priors) (Variables.collect ds priors) := by
  unfold Variables.collect
  cases hc : Order.badSymbol? cs with
  | none =>
    have hvars := Order.badSymbol?_none_iff.mp hc
    rw [Order.badSymbol?_none_iff.mpr (hvars.perm h), Order.symbols_perm hvars h]
    exact Agree.refl _
  | some s =>
    cases hd : Order.badSymbol? ds with
    | none =>
      have hvars := (Order.badSymbol?_none_iff.mp hd).perm h.symm
      rw [Order.badSymbol?_none_iff.mpr hvars] at hc
      cases hc
    | some t => exact fun vars => ⟨by rintro ⟨⟩, by rintro ⟨⟩⟩

/-- Programs that differ only in the order of parts, where it is not seen. -/
structure Alike (p q : Program) : Prop where
  components : SameComponents p.components q.components
  priors : p.priors = q.priors
  imports : p.imports = q.imports
  autoConstants : p.autoConstants.Perm q.autoConstants
  constantTypes : ∀ name, p.constantTypes.lookup name = q.constantTypes.lookup name
  outputs : p.outputs = q.outputs
  optionalTerms : p.optionalTerms = q.optionalTerms
  frozen : p.frozen = q.frozen
  defects : p.defects = q.defects

lemma Alike.classified (h : Alike p q) : Agree p.classified q.classified := by
  unfold Program.classified
  rw [h.frozen]
  cases q.frozen with
  | some vars => exact Agree.refl _
  | none =>
    rw [h.priors]
    exact collect_perm h.components.perm q.priors

lemma Alike.forwardOf (h : Alike p q) : Agree p.forwardOf q.forwardOf := by
  unfold Program.forwardOf
  rw [h.components.orderedForward, h.outputs, h.defects]
  exact (Agree.refl _).bind fun ordered => h.classified.bind fun vars => Agree.refl _

lemma Alike.logLikeOf (h : Alike p q) (vars : Variables) : p.logLikeOf vars = q.logLikeOf vars := by
  have hany : p.components.any (·.isLikelihood) = q.components.any (·.isLikelihood) := h.components.perm.any_eq
  unfold Program.logLikeOf renderLogLike
  rw [hany, h.components.likelihood, h.optionalTerms]

lemma Alike.renderHeader (h : Alike p q) (vars : Variables) : renderHeader p vars = Program.renderHeader q vars := by
  unfold Program.renderHeader
  simp only [h.imports, h.outputs, h.optionalTerms, h.constantTypes, Text.sort_perm h.autoConstants]

lemma Alike.methodsOf (h : Alike p q) (vars : Variables) (header : List String) :
    Agree (p.methodsOf vars header) (q.methodsOf vars header) := by
  have hf : Alike { p with frozen := some vars } { q with frozen := some vars } :=
    ⟨h.components, h.priors, h.imports, h.autoConstants, h.constantTypes, h.outputs, h.optionalTerms, rfl, h.defects⟩
  have hq : renderQuantile vars p.priors = renderQuantile vars q.priors := by rw [h.priors]
  have hlogPrior : renderLogPrior vars p.priors = renderLogPrior vars q.priors := by rw [h.priors]
  unfold Program.methodsOf
  rw [hq, hlogPrior, h.logLikeOf vars]
  refine (Agree.refl _).bind fun quantile => (Agree.refl _).bind fun logPrior => ?_
  exact hf.forwardOf.bind fun forward => Agree.refl _

lemma Alike.textWith (h : Alike p q) (vars : Variables) : Agree (p.textWith vars) (q.textWith vars) := by
  unfold Program.textWith
  rw [h.defects, h.renderHeader vars]
  refine (Agree.refl _).bind fun _ => (Agree.refl _).bind fun _ => (Agree.refl _).bind fun _ => ?_
  exact h.methodsOf vars _

lemma Alike.text (h : Alike p q) : Agree (outcome text p).1 (outcome Program.text q).1 := by
  rw [outcome_text, outcome_text, h.defects]
  exact (Agree.refl _).bind fun _ => h.classified.bind h.textWith

end GridBayes.Program
