import GridBayes.Proofs.BuilderCache

/-! What a refused reading leaves behind. If a deferred variable cannot be looked up, nothing is left, and
the next reading is refused for the same reason. If a part is refused after that, the program with the
parts before it is left, and from then on it is the program of the builder. -/
namespace GridBayes.Builder
open List Operation
open Program (Settled)

variable {α β : Type}

variable {b t u : Builder} {p q : Program} {m : BuilderM α} {values : List (String × String)} {l : List Item}
  {e : Fault}

/-! ## Refusals that leave the program as it is -/

def SameProgram (b t : Builder) : Prop :=
  t.program = b.program

instance : Std.Refl SameProgram where
  refl _ := rfl

instance : Trans SameProgram SameProgram SameProgram where
  trans hbt htu := htu.trans hbt

lemma Defines.sameProgram (h : Defines m) : Moves SameProgram m := fun b => congrArg Prod.fst (h.keeps b)

lemma sameProgram_modify {f : Builder → Builder} (h : ∀ b, (f b).program = b.program) :
    Moves SameProgram (modify f : BuilderM Unit) :=
  h

lemma sameProgram_push (c : Deferred.Generated) : Moves SameProgram (push c) := by
  refine (defines.assignment _ _).sameProgram.bind fun a => Moves.bind (fun _ => rfl) fun _ => ?_
  split
  · exact Moves.bind (fun _ => rfl) fun _ _ => rfl
  · exact fun _ => rfl

lemma sameProgram_resolve (agenda : Deferred.Agenda) : Moves SameProgram (resolve agenda) :=
  moves_resolve (fun s => (defines.say s).sameProgram) (fun _ _ => (defines.remarkHeading _ _).sameProgram)
    sameProgram_push (fun _ => rfl) agenda

def Spares (m : BuilderM α) : Prop :=
  ∀ {b t : Builder} {e : Fault}, outcome m b = (.error e, t) → SameProgram b t

lemma spares_bind {f : α → BuilderM β} (hm : Moves SameProgram m) (hf : ∀ a, Spares (f a)) : Spares (m >>= f) := by
  intro b u e h
  have hmo := hm b
  rw [outcome_bind] at h
  rcases hout : outcome m b with ⟨x, t⟩
  rw [hout] at h hmo
  cases x with
  | error e' =>
    cases h
    exact hmo
  | ok a => exact Trans.trans hmo (hf a h)

lemma spares_changeProgram (f : Program → Except Fault (Program × String)) : Spares (changeProgram f) := by
  refine spares_bind moves_get fun b => spares_bind (moves_ofExcept _) fun r t u e h => ?_
  cases (Prod.mk.inj h).1

lemma Item.spares (values : List (String × String)) (item : Item) : Spares (item.add values) := by
  refine item.add_induction (fun _ _ => spares_bind (moves_ofExcept _)) (fun _ _ hg => ?_) spares_changeProgram values
  exact spares_bind (sameProgram_modify hg)

/-! ## Where the making of a program breaks off -/

lemma refused_items (ht : HasProgram b p t) (hout : outcome (l.forM (Item.add values)) t = (.error e, u)) :
    ∃ done item rest q, l = done ++ item :: rest ∧ done.foldlM (Item.join values) p = .ok q ∧
      item.join values q = .error e ∧ u.program = some q := by
  -- Along the list, with the program that the items before have made.
  induction l generalizing p t with
  | nil => cases (Prod.mk.inj hout).1
  | cons item rest ih =>
    have hf := item.follows values ht
    change outcome (item.add values >>= fun _ => rest.forM (Item.add values)) t = (.error e, u) at hout
    cases hjoin : item.join values p with
    | error e' =>
      rw [hjoin] at hf
      cases hf with
      | error hitem =>
        rw [outcome_bind_error hitem] at hout
        obtain ⟨he, rfl⟩ := Prod.mk.inj hout
        cases he
        exact ⟨[], item, rest, p, rfl, rfl, hjoin, (item.spares values hitem).trans ht.program⟩
    | ok p' =>
      rw [hjoin] at hf
      obtain ⟨_, t', hitem, ht'⟩ := hf.of_ok
      rw [outcome_bind_ok hitem] at hout
      obtain ⟨done, item', rest', q, rfl, hdone, hr, hu⟩ := ih ht' hout
      refine ⟨item :: done, item', rest', q, rfl, ?_, hr, hu⟩
      rw [foldlM_cons, hjoin]
      exact hdone

lemma refused_outputs (ht : HasProgram b p t) (hout : outcome (complete values) t = (.error e, u)) :
    b.outputCode values = .error e ∧ u.program = some (b.withConstants p) := by
  have hc : t.withConstants p = b.withConstants p := by
    unfold withConstants
    rw [ht.autoConstants, ht.constantTypes]
  have hte : t.outputTexts = b.outputTexts := by
    unfold outputTexts
    rw [ht.outputs]
  unfold complete at hout
  rw [outcome_bind_ok (outcome_get t)] at hout
  obtain ⟨_, v, hv, hp⟩ := (follows_changeProgram ht fun p => .ok (t.withConstants p, "")).of_ok
  rw [outcome_bind_ok hv, hte] at hout
  have hf : Follows ((ofExcept b.outputTexts : BuilderM (List String)) >>= fun texts =>
      texts.mapM fun o => (ofExcept (Template.fillNamed values o) : BuilderM String)) v
      (b.outputCode values) fun outs outs' u => outs = outs' ∧ u = v := by
    exact follows_ofExcept_bind fun texts => follows_outputs _ texts v
  have hsame : Moves SameProgram ((ofExcept b.outputTexts : BuilderM (List String)) >>= fun texts =>
      texts.mapM fun o => (ofExcept (Template.fillNamed values o) : BuilderM String)) :=
    (moves_ofExcept _).bind fun texts => moves_mapM fun _ => moves_ofExcept _
  have hv' := hsame v
  rw [← bind_assoc] at hout
  generalize b.outputCode values = outputs at hf ⊢
  cases hf with
  | error hr =>
    rw [outcome_bind_error hr] at hout
    rw [hr] at hv'
    obtain ⟨he, rfl⟩ := Prod.mk.inj hout
    cases he
    exact ⟨rfl, hv'.trans (hp.program.trans (congrArg some hc))⟩
  | ok hok hpost =>
    obtain ⟨rfl, rfl⟩ := hpost
    obtain ⟨_, w, hw, -⟩ := (follows_changeProgram hp fun p => .ok ({ p with
      outputs := _
      imports := p.imports ++ t.imports }, "")).of_ok
    obtain ⟨said, hsaid⟩ := outcome_remark "" w
    rw [outcome_bind_ok hok, outcome_bind_ok hw, hsaid] at hout
    cases (Prod.mk.inj hout).1

/-- The builder once its deferred variables have been looked up. -/
def withFound (b : Builder) (r : Deferred.Resolution) (added : List DeferredAssignment) : Builder :=
  ({ b with generated := [] } : Builder).withGenerated r.components added

/-- The program left when making it breaks off: an item was refused, or after all of them an output. -/
inductive BrokenOff (b : Builder) (values : List (String × String)) (e : Fault) : Program → Prop where
  | atItem {done rest : List Item} {item : Item} {p : Program} (hitems : b.items = done ++ item :: rest)
      (hdone : done.foldlM (Item.join values) b.initial = .ok p)
      (hrefused : item.join values p = .error e) : BrokenOff b values e p
  | atOutput {p : Program} (hdone : b.items.foldlM (Item.join values) b.initial = .ok p)
      (hrefused : b.outputCode values = .error e) : BrokenOff b values e (b.withConstants p)

lemma brokenOff_of_makeProgram {r : Deferred.Resolution} {added : List DeferredAssignment}
    (hfo : b.found .sorted = .ok (r, added)) (hout : outcome (makeProgram .sorted) b = (.error e, t)) :
    ∃ p, BrokenOff (b.withFound r added) r.values e p ∧ t.program = some p := by
  rw [makeProgram_eq, outcome_bind_ok (outcome_modify _ _)] at hout
  have hf := follows_resolve .sorted { b with gridsUsed := [] }
  have hsame : ({ b with gridsUsed := [] } : Builder).found .sorted = b.found .sorted := rfl
  rw [hsame, hfo] at hf
  obtain ⟨r', u, hres, hr, said, used, hu⟩ := hf.of_ok
  obtain rfl : r = r' := hr
  obtain ⟨said', hsaid⟩ := outcome_remarkHeading "\n" "Code Generation" u
  rw [outcome_bind_ok hres, outcome_bind_ok hsaid, outcome_bind_ok (outcome_modify _ _)] at hout
  subst hu
  have hs : HasProgram (b.withFound r added) (b.withFound r added).initial { b.withFound r added with
        said := said', gridsUsed := used, program := some (b.withFound r added).initial } :=
    ⟨rfl, rfl, rfl, rfl, rfl⟩
  change outcome ((b.withFound r added).items.forM (Item.add r.values) >>= fun _ => complete r.values)
    { b.withFound r added with
      said := said', gridsUsed := used, program := some (b.withFound r added).initial } = _ at hout
  rw [outcome_bind] at hout
  rcases hi : outcome ((b.withFound r added).items.forM (Item.add r.values)) { b.withFound r added with
      said := said', gridsUsed := used, program := some (b.withFound r added).initial } with ⟨x, v⟩
  rw [hi] at hout
  cases x with
  | error e' =>
    obtain ⟨he, rfl⟩ := Prod.mk.inj hout
    cases he
    obtain ⟨done, item, rest, q, hsp, hdone, hre, hq⟩ := refused_items hs hi
    exact ⟨q, .atItem hsp hdone hre, hq⟩
  | ok _ =>
    have hj := Follows.of_outcome (follows_adds (fun item _ _ h => item.follows r.values h) _ hs) hi
    obtain ⟨p, hp, hv⟩ := hj
    obtain ⟨hre, ht⟩ := refused_outputs hv hout
    exact ⟨_, .atOutput hp hre, ht⟩

/-! ## What a program that was broken off lacks -/

lemma Item.join_adds {item : Item} (h : item.join values p = .ok q) :
    q.components.length + q.priors.length = p.components.length + p.priors.length + 1 ∧ q.outputs = p.outputs := by
  cases item with
  | expression e | assignment a | constraint c place =>
    obtain ⟨c, -, rfl⟩ := Program.withPart_iff.mp h
    simp only [length_append, length_singleton, and_true]
    omega
  | prior s place =>
    obtain ⟨prior, -, rfl⟩ := Program.withPrior_iff.mp h
    simp only [length_append, length_singleton, and_true]
    omega

lemma joined_counts (h : l.foldlM (Item.join values) p = .ok q) :
    q.components.length + q.priors.length = p.components.length + p.priors.length + l.length ∧
      q.outputs = p.outputs := by
  induction l generalizing p with
  | nil =>
    cases h
    exact ⟨rfl, rfl⟩
  | cons item l ih =>
    obtain ⟨p', hp', hl⟩ := bind_eq_ok.mp h
    obtain ⟨hc, ho⟩ := Item.join_adds hp'
    obtain ⟨hc', ho'⟩ := ih hl
    rw [length_cons]
    exact ⟨by omega, ho'.trans ho⟩

def Lacks (b : Builder) (p : Program) : Prop :=
  p.components.length + p.priors.length < b.items.length ∨ b.outputs ≠ [] ∧ p.outputs = []

lemma BrokenOff.lacks (h : BrokenOff b values e p) : b.Lacks p := by
  cases h with
  | atItem hi hdone hr =>
    obtain ⟨hc, -⟩ := joined_counts hdone
    have he : b.initial.components.length + b.initial.priors.length = 0 := rfl
    refine .inl ?_
    rw [hi, length_append, length_cons]
    omega
  | atOutput hdone hr =>
    obtain ⟨-, ho⟩ := joined_counts hdone
    refine .inr ⟨fun hnone => ?_, ho⟩
    unfold outputCode outputTexts at hr
    rw [hnone] at hr
    cases hr

/-! ## Refusals that leave nothing -/

/-- Refused for the look-up if that fails, with no program and the parts as they were. -/
def Balks (m : BuilderM α) : Prop :=
  ∀ ⦃b : Builder⦄ ⦃e : Fault⦄, b.program = none → b.found .sorted = .error e →
    ∃ t, outcome m b = (.error e, t) ∧ t.program = none ∧ t.parts = b.parts

lemma Balks.bind (h : Balks m) (f : α → BuilderM β) : Balks (m >>= f) := by
  intro b e hb hf
  obtain ⟨t, hout, hp, hpa⟩ := h hb hf
  exact ⟨t, outcome_bind_error hout f, hp, hpa⟩

lemma balks_get {f : Builder → BuilderM α} (h : ∀ b, Balks (f b)) : Balks (get >>= f) := by
  intro b e hb hf
  exact h b hb hf

lemma balks_makeProgram : Balks (makeProgram .sorted) := by
  intro b e hb hfo
  have hf := follows_resolve .sorted { b with gridsUsed := [] }
  have hsame : ({ b with gridsUsed := [] } : Builder).found .sorted = b.found .sorted := rfl
  rw [hsame, hfo] at hf
  cases hf with
  | @error _ t _ hout =>
    have hp := sameProgram_resolve .sorted { b with gridsUsed := [] }
    have hpa := sameParts_resolve .sorted { b with gridsUsed := [] }
    rw [hout] at hp hpa
    refine ⟨t, ?_, hp.trans hb, hpa⟩
    unfold makeProgram
    rw [outcome_bind_ok (outcome_modify _ _), outcome_bind_error hout]

lemma balks_ask (question : ProgramM α) : Balks (ask question) := by
  intro b e hb hf
  obtain ⟨t, hout, hp, hpa⟩ := balks_makeProgram hb hf
  exact ⟨t, ask_refused hb hout, hp, hpa⟩

lemma Question.balks (question : Question) : Balks question.put := by
  cases question with
  | summary => exact (balks_get fun _ => (balks_ask _).bind _).bind _
  | code => exact (balks_ask _).bind _
  | constants given report => exact ((balks_ask _).bind _).bind _
  | program => exact balks_ask _

lemma found_congr (h : t.parts = b.parts) : t.found .sorted = b.found .sorted := by
  have hp : ∀ b : Builder, b.found .sorted = b.parts.found .sorted := fun _ => rfl
  rw [hp, h, ← hp]

lemma refused_again (hb : b.program = none) (hf : b.found .sorted = .error e) (questions : List Question)
    (question : Question) : (outcome question.put (after (questions.map .read) b)).1 = .error e := by
  induction questions generalizing b with
  | nil =>
    obtain ⟨t, hout, -, -⟩ := question.balks hb hf
    exact congrArg Prod.fst hout
  | cons first questions ih =>
    obtain ⟨t, hout, hp, hpa⟩ := first.balks hb hf
    have hstep : after ((first :: questions).map .read) b = after (questions.map .read) t := by
      show after (questions.map .read) (outcome first.put b).2 = _
      rw [hout]
    rw [hstep]
    exact ih hp ((found_congr hpa).trans hf)

/-! ## Later readings -/

lemma answered_by_kept (ht : t.program = some p) (later : List Step) :
    ∃ q, Settled p q ∧ (after later t).program = some q ∧ ∀ {γ : Type} (question : ProgramM γ),
        (outcome (ask question) (after later t)).1 = (outcome question q).1 := by
  obtain ⟨q, hq, hpq⟩ := keeps_after later t p ht
  exact ⟨q, hpq, hq, fun question => outcome_ask_known question .sorted hq⟩

lemma put_refused (hb : b.program = none) (hmake : outcome (makeProgram .sorted) b = (.error e, t)) :
    outcome Question.program.put b = (.error e, t) := by
  exact ask_refused hb hmake

/-- If reading the program is refused for the look-up, no program is left and every reading is refused alike until
something is defined. Otherwise the broken program lacks something, yet every later reading takes it for the
program. -/
theorem refused_reading_leaves {b t : Builder} {e : Fault} (h : outcome Question.program.put b = (.error e, t)) :
    b.program = none ∧ ((b.found .sorted = .error e ∧ t.program = none ∧ t.parts = b.parts ∧
          ∀ (questions : List Question) (question : Question),
            (outcome question.put (after (questions.map .read) t)).1 = .error e) ∨
        ∃ r added p, b.found .sorted = .ok (r, added) ∧ t.program = some p ∧
          BrokenOff (b.withFound r added) r.values e p ∧ (b.withFound r added).Lacks p ∧
          ∀ later : List Step, (outcome Question.program.put (after later t)).1 = .ok () ∧
            modelCode (after later t) = (outcome Program.text p).1 ∧
            ∃ q, Settled p q ∧ (after later t).program = some q ∧ ∀ {γ : Type} (question : ProgramM γ),
                (outcome (ask question) (after later t)).1 = (outcome question q).1) := by
  have hb : b.program = none := by
    cases hb : b.program with
    | none => rfl
    | some p =>
      have ha := outcome_ask_known (pure () : ProgramM Unit) .sorted hb
      cases ha.symm.trans (congrArg Prod.fst h)
  refine ⟨hb, ?_⟩
  cases hf : b.found .sorted with
  | error e' =>
    obtain ⟨t', hout, hp, hpa⟩ := Question.program.balks hb hf
    obtain ⟨he, rfl⟩ := Prod.mk.inj (hout.symm.trans h)
    obtain rfl := Except.error.inj he
    exact .inl ⟨rfl, hp, hpa, refused_again hp ((found_congr hpa).trans hf)⟩
  | ok looked =>
    obtain ⟨r, added⟩ := looked
    have hmake : outcome (makeProgram .sorted) b = (.error e, t) := by
      rcases hmake : outcome (makeProgram .sorted) b with ⟨x, u⟩
      cases x with
      | error e' => exact (put_refused hb hmake).symm.trans h
      | ok _ =>
        obtain ⟨p, hplan, -⟩ := exists_program hmake
        have ha := outcome_ask (pure () : ProgramM Unit) .sorted hb
        rw [hplan] at ha
        cases ha.symm.trans (congrArg Prod.fst h)
    obtain ⟨p, hbr, ht⟩ := brokenOff_of_makeProgram hf hmake
    refine .inr ⟨r, added, p, rfl, ht, hbr, hbr.lacks, fun later => ?_⟩
    obtain ⟨q, hpq, hq, han⟩ := answered_by_kept ht later
    exact ⟨han (pure ()), (han Program.text).trans hpq.text, q, hpq, hq, han⟩

/-! A prior with one number where two are needed. -/

def shortPrior : Step :=
  .define (.prior (.str "x") (.str "uniform") (.list [.str "0"]))

def shortModel : Builder :=
  after [shortPrior] emptyModel

lemma found_shortModel : shortModel.found .sorted = .ok (Deferred.Resolution.start (.ok []) [] [], []) := rfl

lemma put_shortModel : (outcome Question.program.put shortModel).1 = .error (.parameterCount "uniform" 2 1) := by
  decide +kernel

theorem refused_reading_leaves_shortModel :
    ∃ t p, outcome Question.program.put shortModel = (.error (.parameterCount "uniform" 2 1), t) ∧ t.program = some p ∧
      (shortModel.withFound (Deferred.Resolution.start (.ok []) [] []) []).Lacks p ∧
      ∀ later : List Step, (outcome Question.program.put (after later t)).1 = .ok () ∧
        modelCode (after later t) = (outcome Program.text p).1 := by
  rcases hout : outcome Question.program.put shortModel with ⟨x, t⟩
  obtain rfl : x = .error (.parameterCount "uniform" 2 1) := (congrArg Prod.fst hout).symm.trans put_shortModel
  obtain ⟨-, ⟨hf, -⟩ | ⟨r, added, p, hf, ht, -, hla, hl⟩⟩ := refused_reading_leaves hout
  · cases found_shortModel.symm.trans hf
  · obtain ⟨rfl, rfl⟩ := Prod.mk.inj (Except.ok.inj (found_shortModel.symm.trans hf))
    exact ⟨t, p, rfl, ht, hla, fun later => ⟨(hl later).1, (hl later).2.1⟩⟩

/-- The program is refused for its prior. Asked again, the builder gives code without it. -/
theorem refused_reading_then_code :
    (outcome Question.program.put shortModel).1 = .error (.parameterCount "uniform" 2 1) ∧
      shortModel.priors.map (·.param) = ["p.x"] ∧
      (after [.read .program] shortModel).program = some emptyProgram ∧
      ∃ text, modelCode (after [.read .program] shortModel) = .ok text :=
  ⟨put_shortModel, rfl, rfl, exists_ok (by decide +kernel)⟩

end GridBayes.Builder
