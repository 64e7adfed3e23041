import GridBayes.Proofs.BuilderDefinitions
import GridBayes.Proofs.ProgramHistory
import Mathlib

/-! The program of a builder in the course of definitions and readings. It is made by the first reading
that can look everything up. From then on the text of the model is the same, whatever is defined. -/
namespace GridBayes
open Operation List Option

/-! ## Readings of a builder -/

namespace Builder
open Program (Settled)

variable {α β : Type}

def Keeps (b t : Builder) : Prop :=
  ∀ p, b.program = some p → ∃ q, t.program = some q ∧ Settled p q

instance : Std.Refl Keeps where
  refl _ p hp := ⟨p, hp, .inl rfl⟩

instance : Trans Keeps Keeps Keeps where
  trans hbt htu p hp := by
    obtain ⟨q, hq, hpq⟩ := hbt p hp
    obtain ⟨r, hr, hqr⟩ := htu q hq
    exact ⟨r, hr, Trans.trans hpq hqr⟩

variable {m : BuilderM α} {t b : Builder} {p : Program}

lemma Defines.keepsProgram (h : Defines m) : Moves Keeps m := by
  intro b p hp
  exact ⟨p, (congrArg Prod.fst (h.keeps b)).trans hp, .inl rfl⟩

/-- An operation that makes the program if there is none. Refused before that, it leaves the parts as they were. -/
structure Reads (m : BuilderM α) : Prop where
  keeps : Moves Keeps m
  makes : ∀ {b : Builder} {p : Program}, b.program = none → b.plan .sorted = .ok p →
    ∃ q, (outcome m b).2.program = some q ∧ Settled p q
  answers : ∀ {b t : Builder} {a : α}, outcome m b = (.ok a, t) → t.program ≠ none
  waits : ∀ {b : Builder}, b.program = none → (outcome m b).2.program = none → (outcome m b).2.parts = b.parts

lemma Keeps.ne_none (h : Keeps b t) (hb : b.program ≠ none) : t.program ≠ none := by
  obtain ⟨p, hp⟩ := ne_none_iff_exists'.mp hb
  obtain ⟨q, hq, -⟩ := h p hp
  rw [hq]
  exact some_ne_none q

lemma Reads.bind {f : α → BuilderM β} (hm : Reads m) (hf : ∀ a, Moves Keeps (f a)) : Reads (m >>= f) where
  keeps := hm.keeps.bind hf
  makes {b p} hb hplan := by
    obtain ⟨q, hq, hpq⟩ := hm.makes hb hplan
    rw [outcome_bind]
    rcases hout : outcome m b with ⟨x, t⟩
    rw [hout] at hq
    cases x with
    | error e => exact ⟨q, hq, hpq⟩
    | ok a =>
      obtain ⟨r, hr, hqr⟩ := hf a t q hq
      exact ⟨r, hr, Trans.trans hpq hqr⟩
  answers {b u c} h := by
    rw [outcome_bind] at h
    rcases hout : outcome m b with ⟨x, t⟩
    rw [hout] at h
    cases x with
    | error e => cases h
    | ok a =>
      have hkept := (hf a t).ne_none (hm.answers hout)
      dsimp only at h
      rwa [h] at hkept
  waits {b} hb h := by
    have hw := hm.waits hb
    rw [outcome_bind] at h ⊢
    rcases hout : outcome m b with ⟨x, t⟩
    rw [hout] at h hw
    cases x with
    | error e => exact hw h
    | ok a => exact absurd h ((hf a t).ne_none (hm.answers hout))

lemma reads_get {f : Builder → BuilderM α} (hf : ∀ b, Reads (f b)) : Reads (get >>= f) where
  keeps := moves_get.bind fun b => (hf b).keeps
  makes {b _} hb hplan := by exact (hf b).makes hb hplan
  answers {b _ _} h := by exact (hf b).answers h
  waits {b} hb h := by exact (hf b).waits hb h

/-! ## Making the program -/

def SameParts (b t : Builder) : Prop :=
  t.parts = b.parts

instance : Std.Refl SameParts where
  refl _ := rfl

instance : Trans SameParts SameParts SameParts where
  trans hbt htu := htu.trans hbt

lemma sameParts : Looking fun _ m => Moves SameParts m := looking_moves fun _ _ => rfl

lemma sameParts_push (c : Deferred.Generated) : Moves SameParts (push c) := by
  refine (sameParts.assignment _ _).bind fun a => Moves.bind (fun _ => rfl) fun _ => ?_
  split
  · exact Moves.bind (fun _ => rfl) fun _ _ => rfl
  · exact fun _ => rfl

lemma moves_resolve {R : Builder → Builder → Prop} [Std.Refl R] [Trans R R R] (hsay : ∀ s, Moves R (say s))
    (hh : ∀ lead title, Moves R (remarkHeading lead title)) (hpush : ∀ c, Moves R (push c))
    (he : ∀ b, R b { b with generated := [] }) (agenda : Deferred.Agenda) : Moves R (resolve agenda) := by
  have hg : ∀ r : Deferred.Resolution, Moves R (modify (fun b : Builder => { b with generated := [] }) >>= fun _ =>
      remarkHeading "\n" "Generated Components" >>= fun _ => r.components.forM push >>= fun _ =>
      (pure r : BuilderM Deferred.Resolution)) := by
    intro r
    refine Moves.bind he fun _ => (hh _ _).bind fun _ => ?_
    exact (moves_forM hpush).bind fun _ => moves_pure _
  refine (hh _ _).bind fun _ => moves_get.bind fun b => ?_
  refine (moves_ofExcept _).bind fun names => (moves_ofExcept _).bind fun _ => ?_
  split
  · exact (hsay _).bind fun _ => hg _
  · exact hg _

lemma sameParts_resolve (agenda : Deferred.Agenda) : Moves SameParts (resolve agenda) :=
  moves_resolve (fun _ _ => rfl) sameParts.remarkHeading sameParts_push (fun _ => rfl) agenda

def Begun (b t : Builder) : Prop :=
  b.program ≠ none → t.program ≠ none

instance : Std.Refl Begun where
  refl _ := id

instance : Trans Begun Begun Begun where
  trans hbt htu := htu ∘ hbt

lemma begun_changeProgram (f : Program → Except Fault (Program × String)) : Moves Begun (changeProgram f) := by
  intro b _
  unfold changeProgram
  rw [outcome_bind_ok (outcome_get b), outcome_bind]
  cases f (b.program.getD {}) with
  | error e => assumption
  | ok r => exact some_ne_none _

lemma moves_checkMentions {R : Builder → Builder → Prop} [Std.Refl R] (values : List (String × String))
    (mentions : List String) : Moves R (checkMentions values mentions) := by
  rw [checkMentions_eq]
  exact moves_ofExcept _

lemma Item.begun (values : List (String × String)) (item : Item) : Moves Begun (item.add values) := by
  refine item.add_induction (fun _ _ => (moves_ofExcept _).bind) (fun g f hg => ?_) begun_changeProgram values
  have hnoted : Moves Begun (modify g : BuilderM Unit) := fun b hb => (hg b).symm ▸ hb
  exact hnoted.bind

lemma moves_complete {R : Builder → Builder → Prop} [Std.Refl R] [Trans R R R]
    (hchange : ∀ f, Moves R (changeProgram f)) (hremark : Moves R (remark "")) (values : List (String × String)) :
    Moves R (complete values) := by
  refine moves_get.bind fun b => (hchange _).bind fun _ => (moves_ofExcept _).bind fun texts => ?_
  exact (moves_mapM fun _ => moves_ofExcept _).bind fun outputs => (hchange _).bind fun _ => hremark

lemma parts_makeProgram {agenda : Deferred.Agenda} (h : (outcome (makeProgram agenda) b).2.program = none) :
    (outcome (makeProgram agenda) b).2.parts = b.parts := by
  rw [makeProgram_eq, outcome_bind_ok (outcome_modify _ _), outcome_bind] at h ⊢
  have hr := sameParts_resolve agenda { b with gridsUsed := [] }
  rcases hout : outcome (resolve agenda) { b with gridsUsed := [] } with ⟨x, t⟩
  rw [hout] at h hr
  cases x with
  | error e => exact hr
  | ok r =>
    refine absurd h ?_
    obtain ⟨said, hsaid⟩ := outcome_remarkHeading "\n" "Code Generation" t
    dsimp only
    rw [outcome_bind_ok hsaid, outcome_bind_ok (outcome_modify _ _)]
    refine (?_ : Moves Begun _) _ (some_ne_none _)
    refine moves_get.bind fun b => (moves_forM (Item.begun _)).bind fun _ => moves_complete begun_changeProgram ?_ _
    refine moves_get.bind fun b => ?_
    split
    · exact fun _ h => h
    · exact moves_pure _

lemma exists_program (hmake : outcome (makeProgram .sorted) b = (.ok (), t)) :
    ∃ p, b.plan .sorted = .ok p ∧ t.program = some p := by
  have hf := follows_makeProgram .sorted b
  generalize b.plan .sorted = plan at hf ⊢
  cases hf with
  | error hout => cases hmake.symm.trans hout
  | ok hout hp =>
    cases hmake.symm.trans hout
    exact ⟨_, rfl, hp⟩

section

variable {question : ProgramM α} {b t : Builder}

lemma program_ask {p : Program} (hb : b.program = none)
    (hmake : outcome (makeProgram .sorted) b = (.ok (), t)) (ht : t.program = some p) :
    (outcome (ask question) b).2.program = some (outcome question p).2 := by
  unfold ask
  rw [outcome_bind_ok (outcome_get b), if_pos (by rw [hb]; rfl), outcome_bind_ok hmake, outcome_answer, ht]
  rfl

lemma ask_refused {e : Fault} (hb : b.program = none) (hmake : outcome (makeProgram .sorted) b = (.error e, t)) :
    outcome (ask question) b = (.error e, t) := by
  unfold ask
  rw [outcome_bind_ok (outcome_get b), if_pos (by rw [hb]; rfl), outcome_bind_error hmake]

lemma keeps_ask (h : Moves Settled question) : Moves Keeps (ask question) := by
  intro b p hp
  unfold ask
  rw [outcome_bind_ok (outcome_get b), if_neg (by rw [hp]; simp), outcome_answer, hp]
  exact ⟨_, rfl, h p⟩

lemma reads_ask (h : Moves Settled question) : Reads (ask question) where
  keeps := keeps_ask h
  makes {b p} hb hplan := by
    have hmake := follows_makeProgram .sorted b
    rw [hplan] at hmake
    obtain ⟨_, t, hout, ht⟩ := hmake.of_ok
    exact ⟨_, program_ask hb hout ht, h p⟩
  answers {b t a} hout := by
    cases hb : b.program with
    | some p =>
      have hkept := (keeps_ask h b).ne_none (by rw [hb]; exact some_ne_none p)
      rwa [hout] at hkept
    | none =>
      rcases hmake : outcome (makeProgram .sorted) b with ⟨x, u⟩
      cases x with
      | error e => cases hout.symm.trans (ask_refused hb hmake)
      | ok _ =>
        obtain ⟨p, -, hu⟩ := exists_program hmake
        have hp : (outcome (ask question) b).2.program = _ := program_ask hb hmake hu
        rw [hout] at hp
        exact hp ▸ some_ne_none _
  waits {b} hb hnone := by
    have hpa : (outcome (makeProgram .sorted) b).2.program = none → _ := parts_makeProgram
    rcases hmake : outcome (makeProgram .sorted) b with ⟨x, u⟩
    rw [hmake] at hpa
    cases x with
    | error e =>
      rw [ask_refused hb hmake] at hnone ⊢
      exact hpa hnone
    | ok _ =>
      obtain ⟨p, -, hu⟩ := exists_program hmake
      rw [program_ask hb hmake hu] at hnone
      cases hnone

end

/-! ## Definitions and readings in any order -/

inductive Part where
  | expression (code : Value)
  | assign (var code : Value)
  | constraint (var dist params : Value)
  | prior (param dist params : Value)
  | override (key value : Value)
  | description (table : Value)

def Part.add : Part → BuilderM Unit
  | .expression code => Builder.expression code
  | .assign var code => Builder.assign var code
  | .constraint var dist params => Builder.constraint var dist params
  | .prior param dist params => Builder.prior param dist params
  | .override key value => Builder.override key value
  | .description table => do let _ ← describe table

inductive Question where
  | summary
  | code
  | constants (given : List (String × Value)) (report : Bool)
  | program

def Question.put : Question → BuilderM Unit
  | .summary => do let _ ← Builder.summary
  | .code => do let _ ← Builder.code
  | .constants given report => do let _ ← checkConstants given report
  | .program => ask (pure ())

inductive Step where
  | define (part : Part)
  | read (question : Question)

def Step.operation : Step → BuilderM Unit
  | .define part => part.add
  | .read question => question.put

/-- The builder after steps; a step that is refused does not stop the others. -/
def after (steps : List Step) (b : Builder) : Builder :=
  steps.foldl (fun b s => (outcome s.operation b).2) b

def Step.isDefinition : Step → Bool
  | .define _ => true
  | .read _ => false

def definitions (steps : List Step) : List Step :=
  steps.filter Step.isDefinition

def modelCode (b : Builder) : Except Fault String :=
  (outcome code b).1

protected theorem Part.defines (part : Part) : Defines part.add := by
  cases part with
  | expression code => exact defines.expression code
  | assign var code => exact defines.assign var code
  | constraint var dist params => exact defines_constraint var dist params
  | prior param dist params => exact defines_prior param dist params
  | override key value => exact defines.override key value
  | description table => exact (defines_describe table).bind fun _ => defines.pure _

lemma defines_constantLines (p : Palette) (expected extra : List String)
    (constants : List (String × Value)) : Defines (constantLines p expected extra constants) := by
  induction constants with
  | nil => exact defines.pure _
  | cons entry rest ih =>
    refine Looking.ite ((defines.say _).bind fun _ => ih) (Looking.ite ?_ ih)
    exact (defines.ofExcept _).bind fun _ => (defines.say _).bind fun _ => ih

lemma reads_summary : Reads Builder.summary := by
  refine reads_get fun b => (reads_ask (Program.settles_summary _)).bind fun text => ?_
  exact moves_get.bind fun b => (moves_ofExcept _).bind fun lines => moves_pure _

lemma reads_checkConstants (given : List (String × Value)) (report : Bool) : Reads (checkConstants given report) := by
  have hauto : Moves Settled (do return (← get).autoConstants : ProgramM (List String)) :=
    moves_get.bind fun _ => moves_pure _
  refine (reads_ask Program.settles_frozenVariables).bind fun vars => ?_
  refine (keeps_ask hauto).bind fun auto => Defines.keepsProgram ?_
  refine Looking.ite (defines_get (fun _ => rfl) fun b => (defines.say _).bind fun _ => ?_) (defines.pure _)
  have hl : ∀ (missing extra : List String) (line : String → String), Defines
      (missing.forM (fun k => say (line k)) >>= fun _ =>
        constantLines b.palette (vars.constants.map (·.name)) extra given >>= fun _ =>
        say "\n" >>= fun _ => (pure (missing, extra) : BuilderM (List String × List String))) := by
    intro missing extra line
    refine (defines.forM fun _ => defines.say _).bind fun _ => ?_
    refine (defines_constantLines _ _ _ _).bind fun _ => (defines.say _).bind fun _ => ?_
    exact defines.pure _
  exact Looking.ite ((defines.say _).bind fun _ => hl _ _ _) (hl _ _ _)

lemma Question.reads (question : Question) : Reads question.put := by
  cases question with
  | summary => exact reads_summary.bind fun _ => moves_pure _
  | code => exact (reads_ask Program.settles_text).bind fun _ => moves_pure _
  | constants given report => exact (reads_checkConstants given report).bind fun _ => moves_pure _
  | program => exact reads_ask (moves_pure ())

lemma after_append (steps steps' : List Step) (b : Builder) :
    after (steps ++ steps') b = after steps' (after steps b) :=
  foldl_append

lemma definitions_append (steps steps' : List Step) :
    definitions (steps ++ steps') = definitions steps ++ definitions steps' :=
  filter_append ..

lemma keeps_step (s : Step) : Moves Keeps s.operation := by
  cases s with
  | define part => exact part.defines.keepsProgram
  | read question => exact question.reads.keeps

lemma keeps_after (steps : List Step) (b : Builder) : Keeps b (after steps b) := by
  induction steps generalizing b with
  | nil => exact Std.Refl.refl b
  | cons s steps ih => exact Trans.trans (keeps_step s b) (ih _)

lemma Keeps.sameCode (h : Keeps b t) (hb : b.program ≠ none) : modelCode t = modelCode b := by
  obtain ⟨p, hp⟩ := ne_none_iff_exists'.mp hb
  obtain ⟨q, hq, hpq⟩ := h p hp
  calc
    modelCode t = (outcome Program.text q).1 := outcome_ask_known _ _ hq
    _ = (outcome Program.text p).1 := hpq.text
    _ = modelCode b := (outcome_ask_known _ _ hp).symm

lemma made_definitions (steps : List Step) (b : Builder) : (after (definitions steps) b).made = b.made := by
  induction steps generalizing b with
  | nil => rfl
  | cons s steps ih =>
    cases s with
    | define part => exact (ih _).trans (part.defines.keeps b)
    | read question => exact ih b

lemma parts_after {steps : List Step} (h : (after steps b).program = none) :
    (after steps b).parts = (after (definitions steps) b).parts := by
  -- From the last step backwards: no step drops a program, so there was none before the last one either.
  induction steps using reverseRecOn with
  | nil => rfl
  | append_singleton steps s ih =>
    have hstep : after (steps ++ [s]) b = (outcome s.operation (after steps b)).2 := after_append steps [s] b
    have hnone : (after steps b).program = none := by
      by_contra hsome
      exact (keeps_step s (after steps b)).ne_none hsome (hstep ▸ h)
    rw [hstep, definitions_append, after_append]
    cases s with
    | define part => exact part.defines.changes (ih hnone)
    | read question => exact (question.reads.waits hnone (hstep ▸ h)).trans (ih hnone)

lemma modelCode_congr {b' : Builder} (hb : b.program = none) (hp : b.parts = b'.parts)
    (hmade : b.made = b'.made) : modelCode b = modelCode b' := by
  -- The plan reads the definitions and the constants that an earlier program left, and nothing else.
  have hplan : ∀ b : Builder, b.plan .sorted = ({ b.parts with
      autoConstants := b.made.2.1
      constantTypes := b.made.2.2 } : Builder).plan .sorted := fun _ => rfl
  have hb' : b'.program = none := (congrArg Prod.fst hmade).symm.trans hb
  unfold modelCode code
  rw [outcome_ask _ _ hb, outcome_ask _ _ hb', hplan b, hplan b', hp, hmade]

lemma modelCode_after_reading (hb : b.program = none) (hplan : b.plan .sorted = .ok p) (question : Question)
    (later : List Step) : modelCode (after (.read question :: later) b) = modelCode b := by
  obtain ⟨q, hq, hpq⟩ := question.reads.makes hb hplan
  have hread : (after [.read question] b).program = some q := hq
  calc
    modelCode (after (.read question :: later) b) = modelCode (after [.read question] b) :=
      (keeps_after later (after [.read question] b)).sameCode (hread ▸ some_ne_none q)
    _ = (outcome Program.text q).1 := outcome_ask_known _ _ hread
    _ = (outcome Program.text p).1 := hpq.text
    _ = modelCode b := by
      unfold modelCode code
      rw [outcome_ask _ _ hb, hplan]
      rfl

/-- Without earlier readings the code is that of the definitions. A reading that makes the program fixes the code,
whatever comes later, and even a broken program is kept. -/
theorem modelCode_fixed_by_reading {b : Builder} (hb : b.program = none) {before : List Step}
    (hbefore : (after before b).made = b.made) :
    modelCode (after before b) = modelCode (after (definitions before) b) ∧ ∀ (question : Question) (later : List Step),
        (((makeProgram .sorted).run.run (after before b)).1 = .ok () →
          modelCode (after (before ++ .read question :: later) b) = modelCode (after (definitions before) b)) ∧
        ((after (before ++ [.read question]) b).program ≠ none →
          modelCode (after (before ++ .read question :: later) b) =
            modelCode (after (before ++ [.read question]) b)) := by
  have hnone : (after before b).program = none := (congrArg Prod.fst hbefore).trans hb
  have hd : modelCode (after before b) = modelCode (after (definitions before) b) :=
    modelCode_congr hnone (parts_after hnone) (hbefore.trans (made_definitions before b).symm)
  refine ⟨hd, fun question later => ⟨fun hmake => ?_, fun hp => ?_⟩⟩
  · rcases hout : outcome (makeProgram .sorted) (after before b) with ⟨x, t⟩
    obtain rfl : x = .ok () := (congrArg Prod.fst hout).symm.trans hmake
    obtain ⟨p, hplan, -⟩ := exists_program hout
    rw [after_append, modelCode_after_reading hnone hplan, hd]
  · rw [List.append_cons, after_append]
    exact (keeps_after later _).sameCode hp

/-! A model without parts, and a prior for a parameter that nothing mentions. -/

def emptyModel : Builder where
  library := .ok []

def emptyProgram : Program where
  fancy := true

def unusedPrior : Step :=
  .define (.prior (.str "x") (.str "uniform") (.list [.str "0", .str "1"]))

theorem modelCode_fixed_by_summary : ((makeProgram .sorted).run.run (after [unusedPrior] emptyModel)).1 = .ok () ∧
      modelCode (after ([unusedPrior] ++ .read .summary :: [.define (.assign (.str "a") (.str "p.x"))]) emptyModel) =
        modelCode (after (definitions [unusedPrior]) emptyModel) := by
  have hmake : ((makeProgram .sorted).run.run (after [unusedPrior] emptyModel)).1 = .ok () := by decide +kernel
  exact ⟨hmake, ((modelCode_fixed_by_reading rfl rfl).2 _ _).1 hmake⟩

/-- The prior is refused, unless the code was read before. -/
theorem modelCode_misses_prior :
    modelCode (after (definitions [.read .code, unusedPrior]) emptyModel) = .error (.priorsUnused ["p.x"]) ∧
      ∃ text, modelCode (after [.read .code, unusedPrior] emptyModel) = .ok text :=
  ⟨by decide +kernel, exists_ok (by decide +kernel)⟩

end Builder

end GridBayes
