import GridBayes.Proofs.DescriptionRead

/-! What reading a description does to it. The lists that are read are kept as parameters, so that the numbers
a preset stands for are added to them when the program is made. A second reading finds what is left. -/
namespace GridBayes.Builder
open List Operation DistributionCall

variable {α : Type}

/-! ## What making the program does to the lists -/

/-- A list of parameters after the program is made: as it was, or with the numbers of a preset. -/
def Grown (dist params params' : Value) : Prop :=
  params' = params ∨ dist ≠ .str "normal" ∧ ∃ items p, params = .list items ∧ params' = .list (items ++ Preset.added p)

lemma valuesAfter_cases (var : Value) (name : String) (params : Value) : valuesAfter var name params = params ∨
      ∃ items p, params = .list items ∧ Preset.ofName? (Text.lower name) = some p ∧
        valuesAfter var name params = .list (items ++ Preset.added p) := by
  unfold valuesAfter
  split
  · rename_i items
    unfold paramsAfter
    split
    · rename_i p hp
      unfold preset at hp
      dsimp only at hp
      split at hp
      · cases hp
      · rename_i q hq
        split at hp
        · obtain rfl := Except.ok.inj hp
          exact Or.inr ⟨items, q, rfl, hq, rfl⟩
        · cases hp
    · exact Or.inl rfl
  · exact Or.inl rfl

lemma valuesAfter_normal (var params : Value) : valuesAfter var "normal" params = params := by
  rcases valuesAfter_cases var "normal" params with h | ⟨items, p, rfl, hp, h⟩
  · exact h
  · have hn : Preset.ofName? (Text.lower "normal") = some (.family .normal) := by decide +kernel
    cases hn.symm.trans hp
    rw [h]
    simp [Preset.added]

def GrownConstraint (c c' : DeferredConstraint) : Prop :=
  ∃ params, c' = { c with params := params } ∧ Grown c.dist c.params params

def GrownPrior (s s' : PriorSpec) : Prop :=
  ∃ params, s' = { s with params := params } ∧ Grown s.dist s.params params

structure Kept (b t : Builder) : Prop where
  constraints : Forall₂ GrownConstraint b.constraints t.constraints
  priors : Forall₂ GrownPrior b.priors t.priors

variable {b t : Builder} {dist params : Value} {name : String} {place : Nat}
  {steps : List (String × (Value → Value))} {given : String × Value}

lemma SameKept.kept (h : SameKept b t) : Kept b t where
  constraints := h.2.1 ▸ forall₂_same.mpr fun c _ => ⟨c.params, rfl, Or.inl rfl⟩
  priors := h.2.2 ▸ forall₂_same.mpr fun s _ => ⟨s.params, rfl, Or.inl rfl⟩

def StillKept (b t u : Builder) : Prop :=
  Kept b t → Kept b u

instance (b : Builder) : Std.Refl (StillKept b) where
  refl _ := id

instance (b : Builder) : Trans (StillKept b) (StillKept b) (StillKept b) where
  trans htu huv := huv ∘ htu

lemma stillKept_of_same {m : BuilderM α} (h : Moves SameKept m) : Moves (StillKept b) m := by
  intro t ht
  obtain ⟨-, hc, hp⟩ := h t
  exact ⟨hc ▸ ht.constraints, hp ▸ ht.priors⟩

lemma sameKept_changeProgram (f : Program → Except Fault (Program × String)) : Moves SameKept (changeProgram f) := by
  intro b
  unfold changeProgram
  rw [outcome_bind_ok (outcome_get b), outcome_bind]
  cases f (b.program.getD {}) with
  | error e | ok r => exact ⟨rfl, rfl, rfl⟩

lemma grown_valuesAfter (var : Value) (h : dist = .str "normal" → name = "normal") :
    Grown dist params (valuesAfter var name params) := by
  by_cases hn : dist = .str "normal"
  · rw [h hn, valuesAfter_normal]
    exact Or.inl rfl
  · rcases valuesAfter_cases var name params with hsame | ⟨items, p, rfl, -, hg⟩
    · exact Or.inl hsame
    · exact Or.inr ⟨hn, items, p, rfl, hg⟩

lemma stillKept_addConstraint {c : DeferredConstraint} (hp : b.constraints[place]? = some c)
    (values : List (String × String)) : Moves (StillKept b) (addConstraint values c place) := by
  refine (stillKept_of_same (moves_checkMentions _ _)).bind fun _ => ?_
  refine moves_ofExcept_bind fun var _ => moves_ofExcept_bind fun name hname => ?_
  refine moves_ofExcept_bind fun dist hdist => ?_
  have hn : c.dist = .str "normal" → dist = "normal" := by
    intro h
    rw [h] at hname
    cases hname
    exact (Except.ok.inj hdist).symm
  refine Moves.bind (fun t ht => ⟨?_, ht.priors⟩) fun _ => (moves_ofExcept _).bind fun component => ?_
  · exact forall₂_set ht.constraints hp ⟨_, rfl, grown_valuesAfter _ hn⟩
  · exact stillKept_of_same (sameKept_changeProgram _)

lemma stillKept_addPrior {s : PriorSpec} (hp : b.priors[place]? = some s) :
    Moves (StillKept b) (addPrior s place) := by
  refine moves_ofExcept_bind fun dist hdist => ?_
  have hn : s.dist = .str "normal" → (Transform.split dist).2 = "normal" := by
    intro h
    rw [h] at hdist
    cases hdist
    decide +kernel
  refine Moves.bind (fun t ht => ⟨ht.constraints, ?_⟩) fun _ => (moves_ofExcept _).bind fun prior => ?_
  · exact forall₂_set ht.priors hp ⟨_, rfl, grown_valuesAfter _ hn⟩
  · exact stillKept_of_same (sameKept_changeProgram _)

lemma stillKept_add (hsame : SameKept b t) {item : Item} (hitem : item ∈ t.items)
    (values : List (String × String)) : Moves (StillKept b) (item.add values) := by
  unfold items at hitem
  simp only [mem_append, mem_map] at hitem
  rcases hitem with ((⟨e, -, rfl⟩ | ⟨a, -, rfl⟩) | ⟨⟨c, place⟩, hmem, rfl⟩) | ⟨⟨s, place⟩, hmem, rfl⟩
  · refine stillKept_of_same ((moves_checkMentions _ _).bind fun _ => (moves_ofExcept _).bind fun code => ?_)
    exact (moves_ofExcept _).bind fun c => sameKept_changeProgram _
  · refine stillKept_of_same ((moves_checkMentions _ _).bind fun _ => (moves_ofExcept _).bind fun var => ?_)
    refine (moves_ofExcept _).bind fun code => (moves_ofExcept _).bind fun c => ?_
    exact sameKept_changeProgram _
  · rw [hsame.2.1] at hmem
    exact stillKept_addConstraint (mk_mem_zipIdx_iff_getElem?.mp hmem) values
  · rw [hsame.2.2] at hmem
    exact stillKept_addPrior (mk_mem_zipIdx_iff_getElem?.mp hmem)

lemma kept_makeProgram (b : Builder) (agenda : Deferred.Agenda) : Kept b (outcome (makeProgram agenda) b).2 := by
  rw [makeProgram_eq, outcome_bind_ok (outcome_modify _ _), outcome_bind]
  have hr := (sameParts_resolve agenda { b with gridsUsed := [] }).sameKept
  rcases hout : outcome (resolve agenda) { b with gridsUsed := [] } with ⟨x, t⟩
  rw [hout] at hr
  cases x with
  | error e => exact SameKept.kept hr
  | ok r =>
    obtain ⟨said, hsaid⟩ := outcome_remarkHeading "\n" "Code Generation" t
    dsimp only
    rw [outcome_bind_ok hsaid, outcome_bind_ok (outcome_modify _ _)]
    have hs : SameKept b { t with said := said, program := some (initial { t with said := said }) } := hr
    have hm := (moves_forM_of_mem fun item hitem => stillKept_add hs hitem r.values).bind
      fun _ => stillKept_of_same (moves_complete sameKept_changeProgram (sameKept.remark _) r.values)
    exact hm _ hs.kept

/-- Asking for code lets lists grow, and does nothing else to distributions and priors. -/
lemma kept_code (b : Builder) (agenda : Deferred.Agenda) : Kept b (outcome (code agenda) b).2 := by
  have ha : Moves SameKept (answer Program.text) := fun t => by
    rw [outcome_answer]
    exact ⟨rfl, rfl, rfl⟩
  unfold code ask
  rw [outcome_bind_ok (outcome_get b)]
  split
  · have hmake := kept_makeProgram b agenda
    rw [outcome_bind]
    rcases hout : outcome (makeProgram agenda) b with ⟨x, t⟩
    rw [hout] at hmake
    cases x with
    | error e => exact hmake
    | ok _ => exact stillKept_of_same ha t hmake
  · exact (ha b).kept

lemma Grown.eq_given_iff {var : String} {spec params' : Value} (hread : distribution var spec = .ok (dist, params))
    (hg : Grown dist params params') : params' = spec ↔ ¬ Named spec := by
  obtain ⟨rfl, hdist⟩ := distribution_ok hread
  have ha : ∀ p : Preset, (Preset.added p).length = 0 ∨ (Preset.added p).length = 4 := by
    intro p
    cases p with
    | chabrierDisk | chabrierGlobular | chabrierSpheroid => exact Or.inr rfl
    | _ => exact Or.inl rfl
  by_cases hn : Named spec
  · refine iff_of_false (fun heq => ?_) fun h => h hn
    obtain ⟨s, rest, rfl, hna⟩ := id hn
    rw [specLeft_named hna] at hg
    rcases hg with hsame | ⟨-, items, p, hi, hl⟩
    · have hsize := congrArg listSize (hsame.symm.trans heq)
      simp [listSize] at hsize
    · obtain rfl := Value.list.inj hi
      have hsize := congrArg listSize (hl.symm.trans heq)
      simp only [listSize, length_append, length_cons] at hsize
      rcases ha p with hp | hp
      · omega
      · omega
  · rw [specLeft_unnamed hn] at hg
    refine iff_of_true ?_ hn
    rcases hg with hsame | ⟨hno, -⟩
    · exact hsame
    · exact absurd (hdist.resolve_left hn) hno

/-! ## A second reading -/

lemma sectionEntries_readInTurn_other (h : name ∉ steps.map Prod.fst) (model : List (String × Value)) :
    sectionEntries (readInTurn steps model) name = sectionEntries model name := by
  induction steps generalizing model with
  | nil => rfl
  | cons step steps ih =>
    rw [map_cons, mem_cons, not_or] at h
    have hrest := ih h.2 (sectionLeft step.2 model step.1)
    rw [sectionEntries_sectionLeft, if_neg h.1] at hrest
    exact hrest

lemma sectionEntries_readInTurn (hn : (steps.map Prod.fst).Nodup) {step : String × (Value → Value)}
    (h : step ∈ steps) (model : List (String × Value)) : sectionEntries (readInTurn steps model) step.1 =
      (sectionEntries model step.1).map fun e => (e.1, step.2 e.2) := by
  induction steps generalizing model with
  | nil => cases h
  | cons first steps ih =>
    obtain ⟨hf, hn⟩ := nodup_cons.mp hn
    have hcons : readInTurn (first :: steps) model = readInTurn steps (sectionLeft first.2 model first.1) := rfl
    rw [hcons]
    rcases mem_cons.mp h with rfl | hmem
    · rw [sectionEntries_readInTurn_other hf, sectionEntries_sectionLeft, if_pos rfl]
    · have hne : step.1 ≠ first.1 := fun heq => hf (heq ▸ mem_map_of_mem hmem)
      rw [ih hn hmem, sectionEntries_sectionLeft, if_neg hne]

section

variable {known : List String} {entries : List (String × Value)}

lemma Apart.distinct_steps (ha : Apart known) :
    ((("var", variableLeft) :: ("prior" :: known).map fun name => (name, specLeft)).map Prod.fst).Nodup := by
  have hvar : "var" ∉ known := fun hmem => ha.own _ hmem (by decide)
  have hp : "prior" ∉ known := fun hmem => ha.own _ hmem (by decide)
  have hfst : (("prior" :: known).map fun name => (name, specLeft)).map Prod.fst = "prior" :: known := by
    rw [map_map]
    exact map_id _
  rw [map_cons, hfst]
  simp [hvar, hp, ha.distinct]

lemma locals_remains (ha : Apart known) : sectionEntries (remains known entries) "var" =
    (sectionEntries entries "var").map fun e => (e.1, variableLeft e.2) := by
  rw [remains_eq]
  exact sectionEntries_readInTurn ha.distinct_steps mem_cons_self entries

lemma lists_remains (ha : Apart known) {name : String} (h : name ∈ "prior" :: known) :
    sectionEntries (remains known entries) name = (sectionEntries entries name).map fun e => (e.1, specLeft e.2) := by
  rw [remains_eq]
  exact sectionEntries_readInTurn ha.distinct_steps (mem_cons_of_mem _ (mem_map_of_mem h)) entries

lemma measured_nil {e : String × Value} (h : ∀ first rest, e.2 ≠ .list (first :: rest)) :
    Manner.ofVariables.measured e = [] := by
  obtain ⟨name, value⟩ := e
  cases value with
  | list items =>
    cases items with
    | nil => rfl
    | cons first rest => exact absurd rfl (h first rest)
  | _ => rfl

/-- Without lists for local variables, a second reading finds the same variables with what is left of
their lists. -/
lemma measuredLists_remains (ha : Apart known)
    (hl : ∀ e ∈ sectionEntries entries "var", ∀ first rest, e.2 ≠ .list (first :: rest)) :
    measuredLists known (remains known entries) = (measuredLists known entries).map fun e => (e.1, specLeft e.2) := by
  have hvar : (sectionEntries entries "var").flatMap Manner.ofVariables.measured = [] :=
    flatMap_eq_nil_iff.mpr fun e he => measured_nil (hl e he)
  have hvar' : (sectionEntries (remains known entries) "var").flatMap Manner.ofVariables.measured = [] := by
    have hsame : (sectionEntries entries "var").map (fun e => (e.1, variableLeft e.2)) =
        (sectionEntries entries "var").map id :=
      map_congr_left fun e he => Prod.ext rfl (variableLeft_of_size ((listSize_variableLeft e.2).2.mpr (hl e he)))
    rw [locals_remains ha, hsame, map_id, hvar]
  unfold measuredLists
  rw [hvar, hvar', nil_append, nil_append, map_flatMap]
  refine flatMap_congr fun grid hgrid => ?_
  rw [lists_remains ha (mem_cons_of_mem _ hgrid), flatMap_map, map_flatMap]
  rfl

lemma priorLists_remains (ha : Apart known) :
    priorLists (remains known entries) = (priorLists entries).map fun e => (e.1, specLeft e.2) := by
  unfold priorLists
  rw [lists_remains ha mem_cons_self, flatMap_map, map_flatMap]
  rfl

end

/-- The same variable, with the distribution that the kept list says when read again. -/
def Reread (c c' : DeferredConstraint) : Prop :=
  c'.mentions = c.mentions ∧ c'.var = c.var ∧ ∃ var, distribution var c.params = .ok (c'.dist, c'.params)

def RereadPrior (s s' : PriorSpec) : Prop :=
  s'.param = s.param ∧ distribution s.param s.params = .ok (s'.dist, s'.params)

lemma Measures.reread {library : Except Fault Registry} {c c' : DeferredConstraint} (h : Measures library given c)
    (h' : Measures library (given.1, specLeft given.2) c') : Reread c c' := by
  obtain ⟨hm, hvar⟩ := Prod.mk.inj (Except.ok.inj (h'.extracted.symm.trans h.extracted))
  have hread := h'.read
  rw [← (distribution_ok h.read).1] at hread
  exact ⟨hm, hvar, given.1, hread⟩

lemma Distributes.reread {s s' : PriorSpec} (h : Distributes given s)
    (h' : Distributes (given.1, specLeft given.2) s') : RereadPrior s s' := by
  have hread := h'.read
  rw [← (distribution_ok h.read).1, ← h.param] at hread
  exact ⟨h'.param.trans h.param.symm, hread⟩

/-- Reading a description takes the code from lists of local variables and the names of distributions from all
lists, and nothing else. So it is unchanged exactly if no local variable is given by a list and no list names its
distribution; then a second builder becomes the same, and otherwise it reads what is left. -/
theorem description_left {b t : Builder} {registry : Registry} {entries left : List (String × Value)}
    (hgrids : b.library = .ok registry) (hconstraints : b.constraints = []) (hpriors : b.priors = [])
    (hkeys : (entries.map Prod.fst).Nodup)
    (hload : (describe (.table entries)).run.run b = (.ok left, t)) :
    let known := registry.map (·.1)
    left = remains known entries ∧ (left = entries ↔ Untouched known entries) ∧
    (Apart known ∨ Untouched known entries →
      List.Forall₂ (Measures b.library) (measuredLists known entries) t.constraints ∧
      List.Forall₂ Distributes (priorLists entries) t.priors ∧
      ∀ agenda, List.Forall₂ (fun given c => c.params = given.2 ↔ ¬ Named given.2)
          (measuredLists known entries) ((code agenda).run.run t).2.constraints ∧
        List.Forall₂ (fun given s => s.params = given.2 ↔ ¬ Named given.2) (priorLists entries)
          ((code agenda).run.run t).2.priors) ∧
    (Untouched known entries → (describe (.table left)).run.run b = (.ok left, t)) ∧
    ∀ left' u, (describe (.table left)).run.run b = (.ok left', u) → Apart known →
      (∀ e ∈ sectionEntries entries "var", ∀ first rest, e.2 ≠ .list (first :: rest)) →
      List.Forall₂ Reread t.constraints u.constraints ∧ List.Forall₂ RereadPrior t.priors u.priors := by
  intro known
  -- A reading of any description with different keys, and what it keeps.
  have hread : ∀ {model left : List (String × Value)} {u : Builder}, (model.map Prod.fst).Nodup →
      outcome (describe (.table model)) b = (.ok left, u) → Apart known ∨ Untouched known model →
      List.Forall₂ (Measures b.library) (measuredLists known model) u.constraints ∧
        List.Forall₂ Distributes (priorLists model) u.priors := by
    intro model left u hmo hout ha
    obtain ⟨-, cs, ps, hcs, hps, -, hm, hd⟩ := adds_describe hmo b hgrids left u hout
    rw [gridLists_eq hmo ha] at hm
    rw [hconstraints, List.nil_append] at hcs
    rw [hpriors, List.nil_append] at hps
    rw [hcs, hps, hgrids]
    exact ⟨hm, hd⟩
  have hleft : left = remains known entries := by
    obtain ⟨-, cs, ps, -, -, hleft, -⟩ := adds_describe hkeys b hgrids left t hload
    exact hleft
  have hsame : left = entries ↔ Untouched known entries := by
    rw [hleft]
    exact remains_same_iff known hkeys
  refine ⟨hleft, hsame, fun ha => ?_, fun hu => ?_, fun left' u hload' ha hl => ?_⟩
  · obtain ⟨hm, hd⟩ := hread hkeys hload ha
    refine ⟨hm, hd, fun agenda => ?_⟩
    have hkept := kept_code t agenda
    constructor
    · refine forall₂_comp hm hkept.constraints fun given c c' hc hg => ?_
      obtain ⟨params, rfl, hg⟩ := hg
      exact hg.eq_given_iff hc.read
    · refine forall₂_comp hd hkept.priors fun given s s' hs hg => ?_
      obtain ⟨params, rfl, hg⟩ := hg
      exact hg.eq_given_iff hs.read
  · rw [hsame.mpr hu] at hload ⊢
    exact hload
  · have hkeys' : (left.map Prod.fst).Nodup := by
      rw [hleft, remains_eq, keys_readInTurn hkeys]
      exact hkeys
    obtain ⟨hm, hd⟩ := hread hkeys hload (Or.inl ha)
    obtain ⟨hm', hd'⟩ := hread hkeys' hload' (Or.inl ha)
    rw [hleft, measuredLists_remains ha hl, List.forall₂_map_left_iff] at hm'
    rw [hleft, priorLists_remains ha, List.forall₂_map_left_iff] at hd'
    exact ⟨forall₂_comp hm.flip hm' fun _ _ _ h h' => Measures.reread h h',
      forall₂_comp hd.flip hd' fun _ _ _ h h' => Distributes.reread h h'⟩

/-! A local variable that is measured, and a parameter whose prior is a preset. -/

def measuredModel : List (String × Value) :=
  [("var", .table [("s", .list [.str "p.x", .str "uniform", .int 0, .int 1])]),
    ("prior", .table [("x", .list [.str "chabrier_disk"])])]

lemma describe_measuredModel : ∃ t, (describe (.table measuredModel)).run.run emptyModel =
    (.ok [("var", .table [("s", .list [.int 0, .int 1])]), ("prior", .table [("x", .list [])])], t) :=
  ⟨_, rfl⟩

theorem description_left_measuredModel : ∃ left t,
    (describe (.table measuredModel)).run.run emptyModel = (.ok left, t) ∧ left ≠ measuredModel ∧
      ∃ s, ((code .sorted).run.run t).2.priors = [s] ∧ s.params ≠ .list [.str "chabrier_disk"] := by
  obtain ⟨t, hload⟩ := describe_measuredModel
  obtain ⟨-, hsame, hkept, -⟩ := description_left rfl rfl rfl (by decide) hload
  have hn : Named (.list [.str "chabrier_disk"]) := ⟨_, _, rfl, by decide +kernel⟩
  refine ⟨_, t, hload, fun heq => ?_, ?_⟩
  · exact (hsame.mp heq).lists "prior" List.mem_cons_self ("x", .list [.str "chabrier_disk"]) List.mem_cons_self hn
  · obtain ⟨-, -, hcode⟩ := hkept (Or.inl ⟨List.nodup_nil, by simp⟩)
    obtain ⟨s, rest, hs, hrest, hp⟩ := List.forall₂_cons_left_iff.mp (hcode .sorted).2
    obtain rfl := List.forall₂_nil_left_iff.mp hrest
    exact ⟨s, hp, fun heq => hs.mp heq hn⟩

def namedPrior : List (String × Value) :=
  [("prior", .table [("x", .list [.str "uniform", .int 0, .int 1])])]

/-- The second builder that reads the description takes a uniform prior for a normal one. -/
theorem second_reading_is_normal : ∃ left t u,
    (describe (.table namedPrior)).run.run emptyModel = (.ok left, t) ∧ left ≠ namedPrior ∧
      t.priors = [⟨"p.x", .str "uniform", .list [.int 0, .int 1]⟩] ∧
      (describe (.table left)).run.run emptyModel = (.ok left, u) ∧
      u.priors = [⟨"p.x", .str "normal", .list [.int 0, .int 1]⟩] := by
  refine ⟨[("prior", .table [("x", .list [.int 0, .int 1])])], _, _, rfl, ?_, rfl, rfl, rfl⟩
  simp [namedPrior]

end GridBayes.Builder
