import GridBayes.Proofs.SectionsLeft

/-! What reading a description adds to a builder: the distributions of measured variables and the priors of
parameters, in the order of the lists that give them. -/
namespace GridBayes.Builder
open List Operation

variable {α β : Type}

/-! ## Operations that leave distributions and priors alone -/

instance : Std.Refl SameKept where
  refl _ := ⟨rfl, rfl, rfl⟩

instance : Trans SameKept SameKept SameKept where
  trans hbt htu := ⟨htu.1.trans hbt.1, htu.2.1.trans hbt.2.1, htu.2.2.trans hbt.2.2⟩

lemma SameParts.sameKept {b t : Builder} (h : SameParts b t) : SameKept b t := by
  have hp : t.parts = b.parts := h
  have hl := congrArg Builder.library hp
  have hc := congrArg Builder.constraints hp
  have hpr := congrArg Builder.priors hp
  exact ⟨hl, hc, hpr⟩

lemma sameKept : Collecting fun _ m => Moves SameKept m where
  toLooking := looking_moves fun _ _ => ⟨rfl, rfl, rfl⟩
  modify h := h.kept

/-! ## Operations that add distributions and priors -/

/-- Unless refused, it has added distributions and priors, and `added` holds of them and the result. -/
def Adds (library : Except Fault Registry) (m : BuilderM α)
    (added : α → List DeferredConstraint → List PriorSpec → Prop) : Prop :=
  ∀ b, b.library = library → ∀ a t, outcome m b = (.ok a, t) → t.library = library ∧
    ∃ cs ps, t.constraints = b.constraints ++ cs ∧ t.priors = b.priors ++ ps ∧ added a cs ps

section

variable {library : Except Fault Registry} {m : BuilderM α} {f : α → BuilderM β}
  {added : α → List DeferredConstraint → List PriorSpec → Prop}
  {added' : β → List DeferredConstraint → List PriorSpec → Prop}

lemma adds_pure {a : α} (h : added a [] []) : Adds library (pure a) added := by
  intro b hb a' t hout
  obtain ⟨ha, rfl⟩ := Prod.mk.inj hout
  cases ha
  exact ⟨hb, [], [], by simp, by simp, h⟩

lemma adds_throw (e : Fault) : Adds library (throw e : BuilderM α) added := by
  intro b hb a t hout
  cases (Prod.mk.inj hout).1

lemma Adds.bind (hm : Adds library m added) (hf : ∀ a cs ps, added a cs ps →
    Adds library (f a) fun b cs' ps' => added' b (cs ++ cs') (ps ++ ps')) : Adds library (m >>= f) added' := by
  intro b hb c u hout
  rw [outcome_bind] at hout
  rcases hm' : outcome m b with ⟨x, t⟩
  rw [hm'] at hout
  cases x with
  | error e => cases (Prod.mk.inj hout).1
  | ok a =>
    obtain ⟨ht, cs, ps, hcs, hps, ha⟩ := hm b hb a t hm'
    obtain ⟨hu, cs', ps', hcs', hps', ha'⟩ := hf a cs ps ha t ht c u hout
    refine ⟨hu, cs ++ cs', ps ++ ps', ?_, ?_, ha'⟩
    · rw [hcs', hcs, append_assoc]
    · rw [hps', hps, append_assoc]

lemma adds_after (hm : Moves SameKept m) (hf : ∀ a, Adds library (f a) added') : Adds library (m >>= f) added' := by
  intro b hb c u hout
  have hsame := hm b
  rw [outcome_bind] at hout
  rcases hm' : outcome m b with ⟨x, t⟩
  rw [hm'] at hout hsame
  cases x with
  | error e => cases (Prod.mk.inj hout).1
  | ok a =>
    obtain ⟨hu, cs, ps, hcs, hps, ha⟩ := hf a t (hsame.1.trans hb) c u hout
    rw [hsame.2.1] at hcs
    rw [hsame.2.2] at hps
    exact ⟨hu, cs, ps, hcs, hps, ha⟩

lemma adds_ofExcept {x : Except Fault α} (hf : ∀ a, x = .ok a → Adds library (f a) added') :
    Adds library (ofExcept x >>= f) added' := by
  intro b hb c u hout
  cases x with
  | error e => cases (Prod.mk.inj hout).1
  | ok a => exact hf a rfl b hb c u hout

lemma adds_library {f : Except Fault Registry → BuilderM β} (hf : Adds library (f library) added') :
    Adds library (get >>= fun b => f b.library) added' := by
  intro b hb c u hout
  rw [outcome_bind_ok (outcome_get b), hb] at hout
  exact hf b hb c u hout

variable {c : Prop}

lemma adds_ite [Decidable c] {m' : BuilderM α} (h : Adds library m added) (h' : Adds library m' added) :
    Adds library (if c then m else m') added := by
  split
  · exact h
  · exact h'

lemma adds_refused [Decidable c] {e : Fault} (h : Adds library m added) :
    Adds library (if c then (throw e >>= fun _ : PUnit => m) else m) added := by
  have ht : Adds library (throw e : BuilderM PUnit) fun _ _ _ => False := adds_throw e
  exact adds_ite (ht.bind fun _ _ _ hf => hf.elim) h

lemma Adds.imp {added₂ : α → List DeferredConstraint → List PriorSpec → Prop} (hm : Adds library m added)
    (h : ∀ a cs ps, added a cs ps → added₂ a cs ps) : Adds library m added₂ := by
  intro b hb a t hout
  obtain ⟨ht, cs, ps, hcs, hps, ha⟩ := hm b hb a t hout
  exact ⟨ht, cs, ps, hcs, hps, h a cs ps ha⟩

end

/-! ## Distributions and priors of a description -/

structure Measures (library : Except Fault Registry) (given : String × Value) (c : DeferredConstraint) :
    Prop where
  extracted : Deferred.Resolution.extract library given.1 (some "") = .ok (c.mentions, c.var)
  read : distribution given.1 given.2 = .ok (c.dist, c.params)

structure Distributes (given : String × Value) (s : PriorSpec) : Prop where
  param : s.param = given.1
  read : distribution given.1 given.2 = .ok (s.dist, s.params)

section

variable {library : Except Fault Registry}

variable {spec dist params : Value}

lemma adds_constraint {var : String} (h : distribution var spec = .ok (dist, params)) :
    Adds library (constraint (.str var) dist params) fun _ cs ps =>
      (∃ c, cs = [c] ∧ Measures library (var, spec) c) ∧ ps = [] := by
  refine adds_after (sameKept.remark _) fun _ => adds_ofExcept fun text htext => ?_
  cases htext
  unfold extract
  rw [bind_assoc]
  refine adds_library (f := fun library => ofExcept (Deferred.Resolution.extract library var (some "")) >>= _) ?_
  refine adds_ofExcept fun found hf => adds_refused ?_
  intro b hb a t hout
  cases hout
  exact ⟨hb, [_], [], rfl, (append_nil _).symm, ⟨_, rfl, hf, h⟩, rfl⟩

lemma adds_prior {name : String} (h : distribution ("p." ++ name) spec = .ok (dist, params)) :
    Adds library (prior (.str ("p." ++ name)) dist params) fun _ cs ps =>
      cs = [] ∧ ∃ s, ps = [s] ∧ Distributes ("p." ++ name, spec) s := by
  refine adds_ofExcept fun param hp => adds_refused (adds_refused ?_)
  cases hp
  refine adds_after (sameKept.remark _) fun _ => ?_
  intro b hb a t hout
  cases hout
  have hp : Text.startsWith "p." ("p." ++ name) = true := by simp [Text.startsWith, Text.afterStart?]
  exact ⟨hb, [], [_], (append_nil _).symm, rfl, rfl, _, rfl, if_pos hp, h⟩

/-- A way to read entries: what it leaves, and which lists it keeps. -/
structure Manner where
  leave : Value → Value
  measured : String × Value → List (String × Value) := fun _ => []
  distributed : String × Value → List (String × Value) := fun _ => []

def Manner.look : Manner where
  leave := id

/-- Entries of local variables: a list with more than the code in it holds a distribution. -/
def Manner.ofVariables : Manner where
  leave := variableLeft
  measured
    | (name, .list (_ :: p :: rest)) => [("v." ++ name, .list (p :: rest))]
    | _ => []

def Manner.ofPriors : Manner where
  leave := specLeft
  distributed e := [("p." ++ e.1, e.2)]

def Manner.ofGrid (grid : String) : Manner where
  leave := specLeft
  measured e := [("g." ++ grid ++ "." ++ e.1, e.2)]

def ReadsIn (library : Except Fault Registry) (manner : Manner) (read : String → Value → BuilderM Value) : Prop :=
  ∀ name value, Adds library (read name value) fun left cs ps => left = manner.leave value ∧
    Forall₂ (Measures library) (manner.measured (name, value)) cs ∧
    Forall₂ Distributes (manner.distributed (name, value)) ps

lemma readsIn_leaving {read : String → Value → BuilderM Unit}
    (h : ∀ name value, Moves SameKept (read name value)) : ReadsIn library .look (leaving read) :=
  fun name value => adds_after (h name value) fun _ => adds_pure ⟨rfl, .nil, .nil⟩

lemma readsIn_readPrior : ReadsIn library .ofPriors readPrior := by
  intro name value
  refine adds_after (sameKept.remark _) fun _ => adds_ofExcept fun found hf => ?_
  refine (adds_prior hf).bind fun _ cs ps ha => adds_pure ?_
  obtain ⟨rfl, s, rfl, hs⟩ := ha
  exact ⟨(distribution_ok hf).1, .nil, .cons hs .nil⟩

lemma readsIn_readGridEntry (grid : String) : ReadsIn library (.ofGrid grid) (readGridEntry grid) := by
  intro name value
  have hread : Adds library (remark ("d." ++ grid ++ "." ++ name ++ " = " ++ value.text) >>= fun _ =>
      ofExcept (distribution ("g." ++ grid ++ "." ++ name) value) >>= fun found =>
      constraint (.str ("g." ++ grid ++ "." ++ name)) found.1 found.2 >>= fun _ =>
      (pure found.2 : BuilderM Value)) fun left cs ps => left = specLeft value ∧
        Forall₂ (Measures library) [("g." ++ grid ++ "." ++ name, value)] cs ∧
        Forall₂ Distributes [] ps := by
    refine adds_after (sameKept.remark _) fun _ => adds_ofExcept fun found hf => ?_
    refine (adds_constraint hf).bind fun _ cs ps ha => adds_pure ?_
    obtain ⟨⟨c, rfl, hc⟩, rfl⟩ := ha
    exact ⟨(distribution_ok hf).1, .cons hc .nil, .nil⟩
  refine adds_ofExcept fun n _ => adds_refused (adds_after moves_get fun b => ?_)
  exact adds_ite (adds_refused hread) (adds_refused hread)

lemma readsIn_readVariable : ReadsIn library .ofVariables readVariable := by
  intro name value
  have hp : ∀ value : Value, variableLeft value = value → Manner.ofVariables.measured (name, value) = [] →
      Adds library (assign (.str name) (.str value.text) >>= fun _ => (pure value : BuilderM Value))
        fun left cs ps => left = variableLeft value ∧
          Forall₂ (Measures library) (Manner.ofVariables.measured (name, value)) cs ∧
          Forall₂ Distributes [] ps := by
    intro value hleft hl
    refine adds_after (sameKept.assign _ _) fun _ => adds_pure ⟨hleft.symm, ?_, .nil⟩
    rw [hl]
    exact .nil
  refine adds_after (sameKept.remark _) fun _ => ?_
  split
  · exact hp _ rfl rfl
  · exact hp _ rfl rfl
  · exact hp _ rfl rfl
  · exact adds_throw _
  · rename_i code rest
    refine adds_ofExcept fun text _ => adds_after sameKept.grids fun known => adds_refused ?_
    refine adds_after (sameKept.assign _ _) fun _ => ?_
    cases rest with
    | nil => exact adds_pure ⟨rfl, .nil, .nil⟩
    | cons p rest =>
      refine adds_ofExcept fun found hf => ?_
      refine (adds_constraint hf).bind fun _ cs ps ha => adds_pure ?_
      obtain ⟨⟨c, rfl, hc⟩, rfl⟩ := ha
      exact ⟨(distribution_ok hf).1, .cons hc .nil, .nil⟩
  · rename_i hnil hcons
    cases value with
    | list items =>
      cases items with
      | nil => exact absurd rfl hnil
      | cons code rest => exact absurd rfl (hcons code rest)
    | _ => exact adds_pure ⟨rfl, .nil, .nil⟩

section

variable {manner : Manner} {read : String → Value → BuilderM Value}

lemma eq_nil_of_none {γ : Type} {R : String × Value → γ → Prop} {entries : List (String × Value)}
    {l : List γ} (h : Forall₂ R (entries.flatMap fun _ => []) l) : l = [] := by
  have hnone : entries.flatMap (fun _ => ([] : List (String × Value))) = [] := by simp
  rw [hnone] at h
  exact forall₂_nil_left_iff.mp h

lemma adds_readEntries (h : ReadsIn library manner read) (entries : List (String × Value)) :
    Adds library (readEntries read entries) fun left cs ps =>
      left = entries.map (fun e => (e.1, manner.leave e.2)) ∧
      Forall₂ (Measures library) (entries.flatMap manner.measured) cs ∧
      Forall₂ Distributes (entries.flatMap manner.distributed) ps := by
  induction entries with
  | nil => exact adds_pure ⟨rfl, .nil, .nil⟩
  | cons e entries ih =>
    refine (h e.1 e.2).bind fun left cs ps ha => ih.bind fun rest cs' ps' ha' => adds_pure ?_
    obtain ⟨rfl, hcs, hps⟩ := ha
    obtain ⟨rfl, hcs', hps'⟩ := ha'
    rw [append_nil, append_nil]
    exact ⟨rfl, rel_append hcs hcs', rel_append hps hps'⟩

lemma adds_readSection (h : ReadsIn library manner read) (model : List (String × Value)) (name : String) :
    Adds library (readSection model name read) fun left cs ps =>
      left = sectionLeft manner.leave model name ∧
      Forall₂ (Measures library) ((sectionEntries model name).flatMap manner.measured) cs ∧
      Forall₂ Distributes ((sectionEntries model name).flatMap manner.distributed) ps := by
  unfold readSection sectionLeft sectionEntries
  split
  · rename_i hnone
    rw [hnone]
    exact adds_pure ⟨rfl, .nil, .nil⟩
  · rename_i v hv
    rw [hv]
    refine adds_ofExcept fun entries he => ?_
    obtain rfl : v = .table entries := by
      cases v with
      | table entries' => rw [Except.ok.inj he]
      | _ => cases he
    refine (adds_readEntries h entries).bind fun left cs ps ha => adds_pure ?_
    obtain ⟨rfl, hcs, hps⟩ := ha
    rw [append_nil, append_nil]
    exact ⟨rfl, hcs, hps⟩

lemma adds_lookedAt (h : ReadsIn library .look read) {model : List (String × Value)}
    (hkeys : (model.map Prod.fst).Nodup) (name : String) :
    Adds library (readSection model name read) fun left cs ps => left = model ∧ cs = [] ∧ ps = [] := by
  refine (adds_readSection h model name).imp fun left cs ps ha => ?_
  obtain ⟨rfl, hcs, hps⟩ := ha
  exact ⟨sectionLeft_same hkeys fun _ _ => rfl, eq_nil_of_none hcs, eq_nil_of_none hps⟩

end

def gridLists : List String → List (String × Value) → List (String × Value)
  | [], _ => []
  | grid :: rest, model =>
    (sectionEntries model grid).flatMap (Manner.ofGrid grid).measured
      ++ gridLists rest (sectionLeft specLeft model grid)

lemma adds_readGrids (known : List String) (model : List (String × Value)) :
    Adds library (readGrids known model) fun left cs ps =>
      left = known.foldl (sectionLeft specLeft) model ∧
      Forall₂ (Measures library) (gridLists known model) cs ∧ ps = [] := by
  induction known generalizing model with
  | nil => exact adds_pure ⟨rfl, .nil, rfl⟩
  | cons grid known ih =>
    refine (adds_readSection (readsIn_readGridEntry grid) model grid).bind fun left cs ps ha => ?_
    obtain ⟨rfl, hcs, hps⟩ := ha
    obtain rfl := eq_nil_of_none hps
    refine (ih _).imp fun left' cs' ps' ha' => ?_
    obtain ⟨rfl, hcs', rfl⟩ := ha'
    exact ⟨rfl, rel_append hcs hcs', rfl⟩

lemma adds_describe {registry : Registry} {entries : List (String × Value)} (hkeys : (entries.map Prod.fst).Nodup) :
    Adds (.ok registry) (describe (.table entries)) fun left cs ps =>
      left = remains (registry.map (·.1)) entries ∧
      Forall₂ (Measures (.ok registry)) ((sectionEntries entries "var").flatMap
        Manner.ofVariables.measured ++ gridLists (registry.map (·.1))
          (sectionLeft specLeft (sectionLeft variableLeft entries "var") "prior")) cs ∧
      Forall₂ Distributes ((sectionEntries entries "prior").flatMap Manner.ofPriors.distributed) ps := by
  have hlook : ∀ {read : String → Value → BuilderM Unit}, (∀ name value, Moves SameKept (read name value)) →
      ReadsIn (.ok registry) .look (leaving read) := fun h => readsIn_leaving h
  have ho : ∀ model : List (String × Value), (model.map Prod.fst).Nodup →
      Adds (.ok registry) (readSection model "override" (leaving readOverride) >>= fun model =>
        whenGiven (fun v => do (← ofExcept v.members).forM readOutput) (model.lookup "outputs") >>= fun _ =>
        whenGiven readOptions (model.lookup "options") >>= fun _ => pure model)
        fun left cs ps => left = model ∧ cs = [] ∧ ps = [] := by
    intro model hm
    refine (adds_lookedAt (hlook sameKept.readOverride) hm _).bind fun left cs ps ha => ?_
    obtain ⟨rfl, rfl, rfl⟩ := ha
    refine adds_after (sameKept.whenGiven sameKept.readOutputs _) fun _ => ?_
    exact adds_after (sameKept.whenGiven sameKept.readOptions _) fun _ => adds_pure ⟨rfl, rfl, rfl⟩
  refine adds_after (sameKept.remarkHeading _ _) fun _ => ?_
  unfold grids
  rw [bind_assoc]
  refine adds_library (f := fun library => ofExcept library >>= _) (adds_ofExcept fun known hk => ?_)
  cases hk
  refine adds_ofExcept fun model hm => ?_
  cases hm
  refine adds_after (sameKept.checkSections _ _) fun _ => ?_
  refine (adds_lookedAt (hlook sameKept.readMultiplicity) hkeys _).bind fun left cs ps ha => ?_
  obtain ⟨hleft, rfl, rfl⟩ := ha
  rw [hleft]
  refine (adds_lookedAt (hlook sameKept.readExpression) hkeys _).bind fun left cs ps ha => ?_
  obtain ⟨hleft, rfl, rfl⟩ := ha
  rw [hleft]
  refine adds_after (sameKept.whenGiven sameKept.readImports _) fun _ => ?_
  refine (adds_readSection readsIn_readVariable _ _).bind fun left cs ps ha => ?_
  obtain ⟨rfl, hvar, hnone⟩ := ha
  refine (adds_readSection readsIn_readPrior _ _).bind fun left cs' ps' ha => ?_
  obtain ⟨rfl, hnone', hp⟩ := ha
  refine (adds_readGrids _ _).bind fun left cs'' ps'' ha => ?_
  obtain ⟨rfl, hg, rfl⟩ := ha
  have hr : ((remains (registry.map (·.1)) entries).map Prod.fst).Nodup := by
    rw [remains_eq, keys_readInTurn hkeys]
    exact hkeys
  refine (ho _ hr).imp fun left ds qs ha => ?_
  obtain ⟨rfl, rfl, rfl⟩ := ha
  obtain rfl := eq_nil_of_none hnone
  obtain rfl := eq_nil_of_none hnone'
  have hs : sectionEntries (sectionLeft variableLeft entries "var") "prior" = sectionEntries entries "prior" := by
    rw [sectionEntries_sectionLeft, if_neg (by decide)]
  have hp : Forall₂ Distributes ((sectionEntries (sectionLeft variableLeft entries "var") "prior").flatMap
        Manner.ofPriors.distributed) ps' := hp
  rw [hs] at hp
  refine ⟨rfl, ?_⟩
  simp only [append_nil]
  exact ⟨rel_append hvar hg, hp⟩

end

def measuredLists (known : List String) (model : List (String × Value)) : List (String × Value) :=
  (sectionEntries model "var").flatMap Manner.ofVariables.measured
    ++ known.flatMap fun grid => (sectionEntries model grid).flatMap (Manner.ofGrid grid).measured

def priorLists (model : List (String × Value)) : List (String × Value) :=
  (sectionEntries model "prior").flatMap Manner.ofPriors.distributed

/-- The grids have different names, and none has the name of a section. -/
structure Apart (known : List String) : Prop where
  distinct : known.Nodup
  own : ∀ grid ∈ known, grid ∉ sections

variable {known : List String} {model : List (String × Value)}

lemma gridLists_of_distinct (hd : known.Nodup) {model' : List (String × Value)}
    (h : ∀ grid ∈ known, sectionEntries model grid = sectionEntries model' grid) :
    gridLists known model =
      known.flatMap fun grid => (sectionEntries model' grid).flatMap (Manner.ofGrid grid).measured := by
  induction known generalizing model with
  | nil => rfl
  | cons grid known ih =>
    obtain ⟨hf, hd⟩ := nodup_cons.mp hd
    have hrest : ∀ other ∈ known,
        sectionEntries (sectionLeft specLeft model grid) other = sectionEntries model' other := by
      intro other ho
      have hne : other ≠ grid := fun heq => hf (heq ▸ ho)
      rw [sectionEntries_sectionLeft, if_neg hne, h other (mem_cons_of_mem _ ho)]
    rw [gridLists, flatMap_cons, ih hd hrest, h grid mem_cons_self]

lemma gridLists_of_untouched (hkeys : (model.map Prod.fst).Nodup)
    (h : ∀ grid ∈ known, ∀ e ∈ sectionEntries model grid, ¬ Named e.2) :
    gridLists known model =
      known.flatMap fun grid => (sectionEntries model grid).flatMap (Manner.ofGrid grid).measured := by
  induction known with
  | nil => rfl
  | cons grid known ih =>
    have hsame : sectionLeft specLeft model grid = model :=
      sectionLeft_same hkeys fun e he => specLeft_unnamed (h grid mem_cons_self e he)
    rw [gridLists, flatMap_cons, hsame, ih fun other ho => h other (mem_cons_of_mem _ ho)]

/-- The lists of the grids are read as given, unless a grid is named like a section that has lost something. -/
lemma gridLists_eq (hkeys : (model.map Prod.fst).Nodup) (h : Apart known ∨ Untouched known model) :
    gridLists known (sectionLeft specLeft (sectionLeft variableLeft model "var") "prior") =
      known.flatMap fun grid => (sectionEntries model grid).flatMap (Manner.ofGrid grid).measured := by
  rcases h with ha | hu
  · refine gridLists_of_distinct ha.distinct fun grid hgrid => ?_
    have hvar : grid ≠ "var" := fun heq => ha.own grid hgrid (by rw [heq]; decide)
    have hp : grid ≠ "prior" := fun heq => ha.own grid hgrid (by rw [heq]; decide)
    rw [sectionEntries_sectionLeft, if_neg hp, sectionEntries_sectionLeft, if_neg hvar]
  · have hvar : sectionLeft variableLeft model "var" = model := by
      refine sectionLeft_same hkeys fun e he => variableLeft_of_size ?_
      exact (listSize_variableLeft e.2).2.mpr (hu.locals e he)
    have hp : sectionLeft specLeft model "prior" = model :=
      sectionLeft_same hkeys fun e he => specLeft_unnamed (hu.lists "prior" mem_cons_self e he)
    rw [hvar, hp]
    exact gridLists_of_untouched hkeys fun grid hgrid => hu.lists grid (mem_cons_of_mem _ hgrid)

end GridBayes.Builder
