import GridBayes.Proofs.PriorText
import GridBayes.Proofs.ProgramHistory

/-! Which parameters the quantile method assigns. The parameters of a program are fixed with its variables, when
they are first needed. Every one of them is assigned, each after the parameters that its prior is made of. If
components with further parameters join later, the method is still accepted, and does not assign those. -/
namespace GridBayes.Program
open List Operation Template

/-! ## The method as a function of the parts -/

variable {text : String} {vars : Variables} {priors ordered : List Prior} {template : Prior → String}
  {s : Symbol} {steps : List Step} {prior : Prior} {blocks : List String}
  {code : Prior → String → String → String}

lemma quantileText_iff {p : Program} : (quantileText.run.run p).1 = .ok text ↔
      ∃ vars, p.classified = .ok vars ∧ renderQuantile vars p.priors = .ok text := by
  rw [← bind_eq_ok, ← fst_quantileText]
  rfl

lemma checkPriors_iff : checkPriors vars = .ok () ↔ ∀ s, s ∈ vars.params ↔ s ∈ vars.priorParams := by
  have he : ∀ a b : SymbolSet, SymbolSet.diff a b = [] ↔ ∀ s ∈ a, s ∈ b := fun a b => by
    rw [eq_nil_iff_forall_not_mem]
    exact forall_congr' fun s => by rw [SymbolSet.mem_diff]; tauto
  unfold checkPriors
  dsimp only
  split
  · rename_i hm
    rw [Bool.not_eq_true', isEmpty_eq_false_iff, Ne, he] at hm
    simp only [reduceCtorEq, false_iff]
    exact fun hall => hm fun s hs => (hall s).mp hs
  · rename_i hm
    rw [Bool.not_eq_true', Bool.not_eq_false, List.isEmpty_iff, he] at hm
    split
    · rename_i hu
      rw [Bool.not_eq_true', isEmpty_eq_false_iff, Ne, he] at hu
      simp only [reduceCtorEq, false_iff]
      exact fun hall => hu fun s hs => (hall s).mpr hs
    · rename_i hu
      rw [Bool.not_eq_true', Bool.not_eq_false, List.isEmpty_iff, he] at hu
      exact iff_of_true rfl fun s => ⟨hm s, hu s⟩

lemma priors_rendered {frame : List String → String} (h : (do
      checkPriors vars
      let ordered ← orderedPriors priors
      let blocks ← ordered.mapM fun p => block vars.mapping "    " (template p)
      return frame blocks) = .ok text) :
    (∀ s, s ∈ vars.params ↔ s ∈ vars.priorParams) ∧ ∃ ordered blocks, orderedPriors priors = .ok ordered ∧
        Forall₂ (fun prior b => block vars.mapping "    " (template prior) = .ok b) ordered blocks ∧
        text = frame blocks := by
  obtain ⟨⟨⟩, hc, h⟩ := bind_eq_ok.mp h
  obtain ⟨ordered, ho, h⟩ := bind_eq_ok.mp h
  obtain ⟨blocks, hblocks, h⟩ := bind_eq_ok.mp h
  exact ⟨checkPriors_iff.mp hc, ordered, blocks, ho, mapM_eq_ok.mp hblocks, (Except.ok.inj h).symm⟩

lemma renderQuantile_eq_ok (h : renderQuantile vars priors = .ok text) :
    (∀ s, s ∈ vars.params ↔ s ∈ vars.priorParams) ∧ ∃ ordered blocks, orderedPriors priors = .ok ordered ∧
        Forall₂ (fun prior b => block vars.mapping "    " prior.quantile = .ok b) ordered blocks ∧
        text = quantileMethod blocks :=
  priors_rendered h

/-! ## Which parameters are drawn -/

def usedParams (components : List Component) : SymbolSet :=
  (Order.symbols components).filter (·.isKind .param)

lemma mem_usedParams_append {a b : List Component} :
    s ∈ usedParams (a ++ b) ↔ s ∈ usedParams a ∨ s ∈ usedParams b := by
  simp only [usedParams, mem_filter, Order.mem_symbols, mem_append, or_and_right, exists_or]

lemma mem_priors_after (h : prior ∈ (after steps).priors) :
    ∃ var name params, Step.add (.prior var name params) ∈ steps ∧ Prior.ofValues var name params = .ok prior := by
  obtain ⟨kept, hkept, hmade⟩ := priors_after steps
  obtain ⟨s, hs, hadds⟩ := exists_of_forall₂ hmade prior h
  cases hadds with
  | prior hv => exact ⟨_, _, _, hkept.subset hs, hv⟩

structure Draws (vars : Variables) (ordered : List Prior) (blocks : List String) : Prop where
  renders : Forall₂ (fun prior b => Renders vars prior prior.quantileCode b) ordered blocks
  parameters : ∀ s, s ∈ vars.params ↔ s.isKind .param = true ∧ ∃ prior ∈ ordered, prior.call.var = s
  assigned : ∀ i, (∃ b ∈ blocks, assignsEntry i b = true) ↔ i < vars.params.length
  earlier : ∀ (k : Nat) (prior : Prior) (s : Symbol), ordered[k]? = some prior → s ∈ prior.requires →
    s.isKind .param = true → ∃ i j b, vars.params[i]? = some s ∧ j < k ∧ blocks[j]? = some b ∧ assignsEntry i b = true

lemma exists_index (hvars : vars.Grouped)
    (hblocks : Forall₂ (fun prior b => Renders vars prior (code prior) b) ordered blocks)
    (hpr : prior ∈ ordered) (hkind : prior.call.var.isKind .param = true) :
    ∃ i : Nat, vars.params[i]? = some prior.call.var := by
  obtain ⟨j, hj⟩ := mem_iff_getElem?.mp hpr
  obtain ⟨b, -, place, -, hp, -⟩ := getElem?_of_forall₂ hblocks hj
  rcases (Variables.lookup_mapping_iff hvars (Symbol.isLiteral_of_isKind hkind)).mp hp with
    ⟨hown | hown, -⟩ | ⟨i, hi, -⟩
  · exact absurd (Symbol.isKind_unique hkind (hvars.constants _ hown)) (by decide)
  · exact absurd (Symbol.isKind_unique hkind (hvars.locals _ hown)) (by decide)
  · exact ⟨i, hi⟩

section

variable {vars : Variables} {ordered : List Prior} {blocks : List String}
  (hvars : vars.Grouped) (hmade : ∀ prior ∈ ordered, prior.Made) (honly : Order.OnlyVariables ordered)
  (hblocks : Forall₂ (fun prior b => Renders vars prior prior.quantileCode b) ordered blocks)

include hvars hmade honly hblocks

lemma assigns_at {j : Nat} {prior : Prior} (h : ordered[j]? = some prior) : ∃ b, blocks[j]? = some b ∧
      ∀ i, assignsEntry i b = true ↔ vars.params[i]? = some prior.call.var := by
  have hmem := mem_of_getElem? h
  have hvar : prior.call.var.isLiteral = false := honly prior hmem _ (.inr mem_cons_self)
  obtain ⟨b, hb, hr⟩ := getElem?_of_forall₂ hblocks h
  exact ⟨b, hb, assignsEntry_iff (hmade prior hmem) hvar hvars hr⟩

lemma draws_of_runs (hruns : Order.Runs .param ordered)
    (hpr : ∀ s ∈ vars.params, ∃ prior ∈ ordered, prior.call.var = s) : Draws vars ordered blocks where
  renders := hblocks
  parameters s := by
    constructor
    · intro hs
      exact ⟨hvars.params s hs, hpr s hs⟩
    · rintro ⟨hkind, prior, hp, rfl⟩
      obtain ⟨i, hi⟩ := exists_index hvars hblocks hp hkind
      exact mem_of_getElem? hi
  assigned i := by
    constructor
    · rintro ⟨b, hb, ha⟩
      obtain ⟨j, hj⟩ := mem_iff_getElem?.mp hb
      obtain ⟨prior, hp, -⟩ := getElem?_of_forall₂ hblocks.flip hj
      obtain ⟨b', hb', hiff⟩ := assigns_at hvars hmade honly hblocks hp
      cases hj.symm.trans hb'
      exact (List.getElem?_eq_some_iff.mp ((hiff i).mp ha)).1
    · intro hi
      have hget := getElem?_eq_getElem hi
      obtain ⟨prior, hp, hvar⟩ := hpr _ (getElem_mem hi)
      obtain ⟨j, hj⟩ := mem_iff_getElem?.mp hp
      obtain ⟨b, hb, hiff⟩ := assigns_at hvars hmade honly hblocks hj
      exact ⟨b, mem_of_getElem? hb, (hiff i).mpr (hvar ▸ hget)⟩
  earlier k prior s hk hs hkind := by
    have hsp : ordered = ordered.take k ++ prior :: ordered.drop (k + 1) := by
      rw [← (List.getElem?_eq_some_iff.mp hk).2, cons_getElem_drop_succ, take_append_drop]
    obtain ⟨d, hd, hpro⟩ := hruns _ prior _ hsp s hs hkind
    obtain rfl : s = d.call.var := mem_singleton.mp hpro
    obtain ⟨j, hj⟩ := mem_iff_getElem?.mp hd
    have hjk : j < k := by
      have hl := (List.getElem?_eq_some_iff.mp hj).1
      rw [length_take] at hl
      omega
    rw [getElem?_take_of_lt hjk] at hj
    obtain ⟨i, hi⟩ := exists_index hvars hblocks (mem_of_getElem? hj) hkind
    obtain ⟨b, hb, hiff⟩ := assigns_at hvars hmade honly hblocks hj
    exact ⟨i, j, b, hi, hjk, hb, (hiff i).mpr hi⟩

end

lemma exists_provider (hruns : Order.Runs .param ordered) (hs : s ∈ Order.symbols ordered)
    (hkind : s.isKind .param = true) : ∃ prior ∈ ordered, prior.call.var = s := by
  obtain ⟨prior, hpr, hmem⟩ := (Order.mem_symbols s ordered).mp hs
  rcases hmem with hr | hp
  · obtain ⟨before, after, rfl⟩ := append_of_mem hpr
    obtain ⟨d, hd, hp⟩ := hruns before prior after rfl s hr hkind
    exact ⟨d, mem_append_left _ hd, (mem_singleton.mp hp).symm⟩
  · exact ⟨prior, hpr, (mem_singleton.mp hp).symm⟩

structure Arranged (steps : List Step) (ordered : List Prior) : Prop where
  perm : ordered.Perm (after steps).priors
  runs : Order.Runs .param ordered
  only : Order.OnlyVariables ordered
  made : ∀ prior ∈ ordered, prior.Made

lemma arranged_of_ordered (h : orderedPriors (after steps).priors = .ok ordered) : Arranged steps ordered := by
  obtain ⟨hs, hruns⟩ := Order.sort_sound h
  have hperm : ordered.Perm (after steps).priors := hs.trans (Text.sortBy_perm _ _)
  refine ⟨hperm, hruns, (Order.onlyVariables_of_sort h).perm hs.symm, fun prior hp => ?_⟩
  obtain ⟨var, name, params, -, hv⟩ := mem_priors_after (hperm.subset hp)
  exact Prior.made_of_ofValues hv

lemma Arranged.renders (h : Arranged steps ordered)
    (hcode : ∀ prior : Prior, prior.Made → prior.call.var.isLiteral = false → ∀ b,
      block vars.mapping "    " (template prior) = .ok b → Renders vars prior (code prior) b)
    (hblocks : Forall₂ (fun prior b => block vars.mapping "    " (template prior) = .ok b) ordered blocks) :
    Forall₂ (fun prior b => Renders vars prior (code prior) b) ordered blocks := by
  refine Forall₂.imp ?_ ((forall₂_and_left ordered blocks).mpr ⟨fun _ hmem => hmem, hblocks⟩)
  rintro prior b ⟨hp, hb⟩
  exact hcode prior (h.made prior hp) (h.only prior hp _ (.inr mem_cons_self)) b hb

lemma Arranged.provided {early late : List Step} (h : Arranged (early ++ late) ordered)
    (hf : FixedAt early late vars) (hch : ∀ s, s ∈ vars.params ↔ s ∈ vars.priorParams) :
    ∀ s ∈ vars.params, ∃ prior ∈ ordered, prior.call.var = s := by
  intro s hs
  obtain ⟨-, hc⟩ := Variables.collect_eq_ok.mp hf.collected
  have hp := (hch s).mp hs
  rw [hc] at hp
  obtain ⟨hsy, hkind⟩ := mem_filter.mp hp
  obtain ⟨prior, hmem, hm⟩ := (Order.mem_symbols s _).mp hsy
  have hkept := (kept_by_steps priors_run early late).subset hmem
  exact exists_provider h.runs ((Order.mem_symbols s _).mpr ⟨prior, h.perm.symm.subset hkept, hm⟩) hkind

/-- The blocks of an accepted quantile method are those of the priors. It assigns the parameters that components
used when variables were fixed, and no others, each after what its prior is made of. These are all that components
use now exactly if later ones use no further ones. -/
theorem quantileText_draws {steps : List Step} {text : String} (h : (quantileText.run.run (after steps)).1 = .ok text) :
    ∃ vars ordered blocks, (after steps).classified = .ok vars ∧ ordered.Perm (after steps).priors ∧
      text = quantileMethod blocks ∧ Draws vars ordered blocks ∧
      ∃ early late joined, steps = early ++ late ∧ FixedAt early late vars ∧
        vars.params = usedParams (after early).components ∧
        (after steps).components = (after early).components ++ joined ∧
        ((∀ s, s ∈ vars.params ↔ s ∈ usedParams (after steps).components) ↔
          ∀ s ∈ usedParams joined, s ∈ vars.params) := by
  obtain ⟨vars, hvars, hre⟩ := quantileText_iff.mp h
  obtain ⟨early, late, rfl, hf⟩ := fixedAt_of_classified hvars
  obtain ⟨hc, ordered, blocks, ho, hblocks, htext⟩ := renderQuantile_eq_ok hre
  have ha := arranged_of_ordered ho
  have hr := ha.renders (fun prior hmade hvar b => renders_quantile hmade hvar) hblocks
  have hd := draws_of_runs (Variables.grouped_of_collect hf.collected) ha.made ha.only hr ha.runs (ha.provided hf hc)
  have hp : vars.params = usedParams (after early).components := by
    rw [(Variables.collect_eq_ok.mp hf.collected).2]
    rfl
  obtain ⟨joined, hj⟩ := kept_by_steps components_run early late
  refine ⟨vars, ordered, blocks, hvars, ha.perm, htext, hd, early, late, joined, rfl, hf, hp, hj.symm, ?_⟩
  rw [← hj, hp]
  simp only [mem_usedParams_append]
  constructor
  · intro hall s hs
    exact (hall s).mpr (.inr hs)
  · intro hall s
    exact ⟨.inl, fun hs => hs.elim id (hall s)⟩

def hierarchy : List Step :=
  [.add (.constraint (.str "p.x") (.str "normal") (.list [.str "p.m", .str "1"])),
   .add (.prior (.str "p.m") (.str "normal") (.list [.str "p.x", .str "1"])),
   .add (.prior (.str "p.x") (.str "uniform") (.list [.str "0", .str "1"]))]

def hierarchyVariables : Variables :=
  ⟨[.var .param "m", .var .param "x"], [.var .param "m", .var .param "x"], [], []⟩

lemma classified_hierarchy : (after hierarchy).classified = .ok hierarchyVariables := by decide +kernel

lemma quantileText_hierarchy : ∃ text, (quantileText.run.run (after hierarchy)).1 = .ok text :=
  exists_ok (by decide +kernel)

theorem quantileText_draws_hierarchy : ∃ text ordered blocks, (quantileText.run.run (after hierarchy)).1 = .ok text ∧
      text = quantileMethod blocks ∧ Draws hierarchyVariables ordered blocks := by
  obtain ⟨text, htext⟩ := quantileText_hierarchy
  obtain ⟨vars, ordered, blocks, hvars, -, hm, hd, -⟩ := quantileText_draws htext
  obtain rfl := Except.ok.inj (classified_hierarchy.symm.trans hvars)
  exact ⟨text, ordered, blocks, htext, hm, hd⟩

/-- Two parameters are measured, the second one after the variables were asked for. -/
def lateParameter : List Step :=
  [.add (.constraint (.str "p.a") (.str "normal") (.list [.str "0", .str "1"])),
   .add (.prior (.str "p.a") (.str "uniform") (.list [.str "0", .str "1"])), .ask .places,
   .add (.constraint (.str "p.b") (.str "normal") (.list [.str "0", .str "1"]))]

/-- The late parameter has no prior and is not assigned, and the method is accepted. -/
theorem quantileText_misses_late : (quantileText.run.run (after lateParameter)).1 =
        .ok (quantileMethod ["    params[0] = uniform_ppf(params[0], 0, 1)"]) ∧
      usedParams (after lateParameter).components = [.var .param "a", .var .param "b"] ∧
      (after lateParameter).priors.map (·.call.var) = [.var .param "a"] :=
  ⟨by decide +kernel, by decide +kernel, rfl⟩

end GridBayes.Program
