import GridBayes.Proofs.PriorCoverage

/-! How often a prior is applied. The check of the priors compares sets, so it does not see that a parameter has
two priors. The quantile method assigns a parameter once for each of its priors, and the density has as many
terms for it. -/
namespace GridBayes.Program
open List Operation Template

variable {vars : Variables} {priors : List Prior} {s : Symbol}

lemma renderLogPrior_eq_ok {text : String} (h : renderLogPrior vars priors = .ok text) :
    (∀ s, s ∈ vars.params ↔ s ∈ vars.priorParams) ∧ ∃ ordered blocks, orderedPriors priors = .ok ordered ∧
        Forall₂ (fun prior b => block vars.mapping "    " prior.density = .ok b) ordered blocks ∧
        text = logPriorMethod blocks :=
  priors_rendered h

/-! ## Counting -/

def priorsFor (priors : List Prior) (s : Symbol) : Nat :=
  (priors.map (·.call.var)).count s

def SinglePriors (priors : List Prior) : Prop :=
  ((priors.map (·.call.var)).filter (·.isKind .param)).Nodup

lemma singlePriors_iff : SinglePriors priors ↔ ∀ s : Symbol, s.isKind .param = true → priorsFor priors s ≤ 1 := by
  unfold SinglePriors priorsFor
  rw [nodup_iff_count_le_one]
  refine forall_congr' fun s => ?_
  by_cases hkind : s.isKind .param = true
  · simp [hkind]
  · have hnot : s ∉ (priors.map (·.call.var)).filter (·.isKind .param) := fun hs => hkind (mem_filter.mp hs).2
    rw [count_eq_zero_of_not_mem hnot]
    simp [hkind]

lemma one_le_priorsFor : 1 ≤ priorsFor priors s ↔ ∃ prior ∈ priors, prior.call.var = s := by
  unfold priorsFor
  rw [Nat.one_le_iff_ne_zero, Ne, count_eq_zero, not_not, mem_map]

lemma countP_blocks {ordered : List Prior} {blocks : List String} {about : String → Bool}
    (h : Forall₂ (fun prior b => about b = true ↔ prior.call.var = s) ordered blocks) :
    blocks.countP about = priorsFor ordered s := by
  induction h with
  | nil => rfl
  | @cons prior b ordered blocks hb _ ih =>
    unfold priorsFor at ih ⊢
    rw [countP_cons, map_cons, ih]
    by_cases hvar : prior.call.var = s
    · simp [hvar, hb.mpr hvar]
    · simp [hvar, mt hb.mp hvar]

section

variable {steps : List Step} {ordered : List Prior} {vars : Variables} {blocks : List String}
  {code : Prior → String → String → String} {about : Nat → String → Bool}

lemma Arranged.countP_eq (h : Arranged steps ordered)
    (ha : ∀ prior : Prior, prior.Made → prior.call.var.isLiteral = false → ∀ b,
      Renders vars prior (code prior) b → ∀ i, about i b = true ↔ vars.params[i]? = some prior.call.var)
    (hbl : Forall₂ (fun prior b => Renders vars prior (code prior) b) ordered blocks)
    {i : Nat} {s : Symbol} (hi : vars.params[i]? = some s) :
    blocks.countP (about i) = priorsFor (after steps).priors s := by
  have hc : blocks.countP (about i) = priorsFor ordered s := by
    refine countP_blocks (Forall₂.imp ?_ ((forall₂_and_left ordered blocks).mpr ⟨fun _ hmem => hmem, hbl⟩))
    rintro prior b ⟨hp, hb⟩
    have hvar : prior.call.var.isLiteral = false := h.only prior hp _ (.inr mem_cons_self)
    rw [ha prior (h.made prior hp) hvar b hb i, hi, Option.some.injEq, eq_comm]
  rw [hc]
  exact (h.perm.map _).count_eq s

end

/-! ## The whole text -/

inductive AddsPriorFor : Step → Prior → Prop where
  | prior {var name params : Value} {prior : Prior} (h : Prior.ofValues var name params = .ok prior)
      (hvar : Symbol.ofValue var = .ok prior.call.var) : AddsPriorFor (.add (.prior var name params)) prior

lemma addsPriorFor {s : Step} {prior : Prior} (h : AddsPrior s prior) : AddsPriorFor s prior := by
  cases h with
  | prior h =>
    refine .prior h ?_
    obtain ⟨name, -, hname⟩ := bind_eq_ok.mp h
    obtain ⟨items, -, hc⟩ := bind_eq_ok.mp hname
    obtain ⟨-, hcall⟩ := Prior.create_eq_ok hc
    obtain ⟨preset, -, -, -, hs⟩ := DistributionCall.create_eq_ok hcall
    exact hs

structure Applies (vars : Variables) (priors : List Prior) (draws terms : List String) : Prop where
  renders : ∃ ordered, ordered.Perm priors ∧
    Forall₂ (fun prior b => Renders vars prior prior.quantileCode b) ordered draws ∧
    Forall₂ (fun prior b => Renders vars prior prior.densityCode b) ordered terms
  some_prior : ∀ s ∈ vars.params, 1 ≤ priorsFor priors s
  draws_count : ∀ (i : Nat) (s : Symbol), vars.params[i]? = some s → draws.countP (assignsEntry i) = priorsFor priors s
  terms_count : ∀ (i : Nat) (s : Symbol), vars.params[i]? = some s → terms.countP (scoresEntry i) = priorsFor priors s

lemma Applies.once_iff {draws terms : List String} (h : Applies vars priors draws terms) (hvars : vars.Grouped) :
    (∀ i < vars.params.length, draws.countP (assignsEntry i) = 1 ∧ terms.countP (scoresEntry i) = 1) ↔
      SinglePriors priors := by
  rw [singlePriors_iff]
  constructor
  · intro honce s hkind
    by_contra hmany
    -- a parameter that has a prior is one of the program, so it has an entry
    obtain ⟨prior, hp, rfl⟩ := one_le_priorsFor.mp (by omega : 1 ≤ priorsFor priors s)
    obtain ⟨ordered, hperm, hq, -⟩ := h.renders
    obtain ⟨i, hi⟩ := exists_index hvars hq (hperm.symm.subset hp) hkind
    have hd := (honce i (List.getElem?_eq_some_iff.mp hi).1).1
    rw [h.draws_count i _ hi] at hd
    omega
  · intro hs i hi
    have hget := getElem?_eq_getElem hi
    have hmem := getElem_mem hi
    have hle := hs _ (hvars.params _ hmem)
    have hge := h.some_prior _ hmem
    rw [h.draws_count i _ hget, h.terms_count i _ hget]
    omega

lemma applies_of_methods {steps : List Step} {quantile logPrior : String}
    (hvars : (after steps).classified = .ok vars) (hq : renderQuantile vars (after steps).priors = .ok quantile)
    (hlogPrior : renderLogPrior vars (after steps).priors = .ok logPrior) :
    ∃ draws terms, quantile = quantileMethod draws ∧ logPrior = logPriorMethod terms ∧ vars.Grouped ∧
      Applies vars (after steps).priors draws terms := by
  obtain ⟨early, late, rfl, hf⟩ := fixedAt_of_classified hvars
  have hg := Variables.grouped_of_collect hf.collected
  obtain ⟨hc, ordered, draws, ho, hdr, rfl⟩ := renderQuantile_eq_ok hq
  obtain ⟨-, ordered', terms, ho', ht, rfl⟩ := renderLogPrior_eq_ok hlogPrior
  cases ho.symm.trans ho'
  have ha := arranged_of_ordered ho
  have hd := ha.renders (fun prior hmade hvar b => renders_quantile hmade hvar) hdr
  have hsc := ha.renders (fun prior hmade hvar b => renders_density hmade hvar) ht
  refine ⟨draws, terms, rfl, rfl, hg, ⟨ordered, ha.perm, hd, hsc⟩, ?_, ?_, ?_⟩
  · intro s hs
    obtain ⟨prior, hp, hvar⟩ := ha.provided hf hc s hs
    exact one_le_priorsFor.mpr ⟨prior, ha.perm.subset hp, hvar⟩
  · intro i s hi
    exact ha.countP_eq (fun prior hmade hvar b hb => assignsEntry_iff hmade hvar hg hb) hd hi
  · intro i s hi
    exact ha.countP_eq (fun prior hmade hvar b hb => scoresEntry_iff hmade hvar hg hb) hsc hi

/-- The quantile method assigns an entry, and the density has a term for it, once for each prior added for the
parameter, however spelled. That is once for all exactly if no two priors are for one parameter. -/
theorem text_applies_priors {steps : List Step} {text : String}
    (h : (Program.text.run.run (after steps)).1 = .ok text) :
    ∃ vars draws terms forward logLike, (after steps).classified = .ok vars ∧
      text = Text.join "\n" (renderHeader (after steps) vars ++
        [quantileMethod draws, logPriorMethod terms, forward, logLike]) ++ "\n" ∧
      (∃ kept, kept.Sublist steps ∧ List.Forall₂ AddsPriorFor kept (after steps).priors) ∧
      Applies vars (after steps).priors draws terms ∧
      ((∀ i < vars.params.length, draws.countP (assignsEntry i) = 1 ∧ terms.countP (scoresEntry i) = 1) ↔
        SinglePriors (after steps).priors) := by
  obtain ⟨-, -, -, vars, hvars, -, m, rfl⟩ := text_iff.mp h
  obtain ⟨draws, terms, hd, ht, hg, ha⟩ := applies_of_methods hvars m.quantile_eq m.logPrior_eq
  obtain ⟨kept, hkept, hmade⟩ := priors_after steps
  refine ⟨vars, draws, terms, m.forward, m.logLike, hvars, ?_, ⟨kept, hkept, hmade.imp fun _ _ => addsPriorFor⟩,
    ha, ha.once_iff hg⟩
  rw [Methods.text, hd, ht]

lemma text_hierarchy : ∃ text, (Program.text.run.run (after hierarchy)).1 = .ok text := exists_ok (by decide +kernel)

theorem text_applies_priors_hierarchy : ∃ text draws terms, (Program.text.run.run (after hierarchy)).1 = .ok text ∧
      Applies hierarchyVariables (after hierarchy).priors draws terms ∧
      ∀ i < 2, draws.countP (assignsEntry i) = 1 ∧ terms.countP (scoresEntry i) = 1 := by
  have hs : SinglePriors (after hierarchy).priors := by
    rw [SinglePriors]
    decide
  obtain ⟨text, htext⟩ := text_hierarchy
  obtain ⟨vars, draws, terms, -, -, hvars, -, -, ha, honce⟩ := text_applies_priors htext
  obtain rfl := Except.ok.inj (classified_hierarchy.symm.trans hvars)
  exact ⟨text, draws, terms, htext, ha, honce.mpr hs⟩

/-- A parameter with two priors, one for each spelling of its index. -/
def twoSpellings : List Step :=
  [.add (.constraint (.str "p.x__1") (.str "normal") (.list [.str "0", .str "1"])),
   .add (.prior (.str "p.x--1") (.str "uniform") (.list [.str "0", .str "1"])),
   .add (.prior (.str "p.x__1") (.str "normal") (.list [.str "0", .str "1"]))]

/-- Both priors are applied to the one parameter. -/
theorem text_applies_twice : ∃ header forward logLike, (Program.text.run.run (after twoSpellings)).1 =
        .ok (Text.join "\n" (header ++ [ quantileMethod ["    params[0] = uniform_ppf(params[0], 0, 1)",
            "    params[0] = normal_ppf(params[0], 0, 1)"],
          logPriorMethod ["    logP += uniform_lpdf(params[0], 0, 1)",
            "    logP += normal_lpdf(params[0], 0, 1)"], forward, logLike]) ++ "\n") ∧
      ¬ SinglePriors (after twoSpellings).priors := by
  refine ⟨renderHeader (after twoSpellings) ⟨[.var .param "x__1"], [.var .param "x__1"], [], []⟩, forwardMethod [] [],
    likelihoodMethod ["    logL += normal_lpdf(params[0], 0, 1)"],
    by decide +kernel, ?_⟩
  unfold SinglePriors
  decide +kernel

end GridBayes.Program
