import GridBayes.Builder.Description
import GridBayes.Proofs.ModelAssembly

/-! What definitions do to a builder: they see and change the parts that were collected, and neither see
the program nor change it. -/
namespace GridBayes.Builder
open Operation

variable {α β : Type}

/-! ## Operations on parts -/

/-- What definitions see of a builder: no program and no remarks. -/
def parts (b : Builder) : Builder :=
  { b with
    said := ""
    program := none
    gridsUsed := []
    generated := []
    autoConstants := []
    constantTypes := [] }

def made (b : Builder) : Option Program × List (String × String) × List (String × String) :=
  (b.program, b.autoConstants, b.constantTypes)

structure Defines (m : BuilderM α) : Prop where
  sees : ∀ {b b' : Builder}, b.parts = b'.parts → (outcome m b).1 = (outcome m b').1
  changes : ∀ {b b' : Builder}, b.parts = b'.parts → (outcome m b).2.parts = (outcome m b').2.parts
  keeps : ∀ b : Builder, (outcome m b).2.made = b.made

variable {m : BuilderM α} {c : Prop}

lemma Defines.bind {f : α → BuilderM β} (hm : Defines m) (hf : ∀ a, Defines (f a)) : Defines (m >>= f) := by
  have hboth : ∀ {b b' : Builder}, b.parts = b'.parts → (outcome (m >>= f) b).1 = (outcome (m >>= f) b').1 ∧
        (outcome (m >>= f) b).2.parts = (outcome (m >>= f) b').2.parts := by
    intro b b' h
    have hsees := hm.sees h
    have hc := hm.changes h
    rw [outcome_bind, outcome_bind]
    rcases hout : outcome m b with ⟨x, t⟩
    rcases hout' : outcome m b' with ⟨x', t'⟩
    rw [hout, hout'] at hsees hc
    subst hsees
    cases x with
    | error e => exact ⟨rfl, hc⟩
    | ok a => exact ⟨(hf a).sees hc, (hf a).changes hc⟩
  refine ⟨fun h => (hboth h).1, fun h => (hboth h).2, fun b => ?_⟩
  have hk := hm.keeps b
  rw [outcome_bind]
  rcases hout : outcome m b with ⟨x, t⟩
  rw [hout] at hk
  cases x with
  | error e => exact hk
  | ok a => exact ((hf a).keeps t).trans hk

lemma defines_modify {f : Builder → Builder} (hparts : ∀ b, (f b).parts = (f b.parts).parts)
    (hmade : ∀ b, (f b).made = b.made) : Defines (modify f) where
  sees _ := rfl
  changes {b b'} h := by
    show (f b).parts = (f b').parts
    rw [hparts, h, ← hparts]
  keeps := hmade

lemma defines_get {f : Builder → BuilderM α} (hsame : ∀ b, f b = f b.parts)
    (hf : ∀ b, Defines (f b)) : Defines (get >>= f) where
  sees {b b'} h := by
    rw [outcome_bind_ok (outcome_get b), hsame b, h, ← hsame b']
    exact (hf b').sees h
  changes {b b'} h := by
    rw [outcome_bind_ok (outcome_get b), hsame b, h, ← hsame b']
    exact (hf b').changes h
  keeps b := by exact (hf b).keeps b

/-! ## Operations that look and collect -/

/-- A property that sequences keep, of operations that look at parts or say something. -/
structure Looking (P : (α : Type) → BuilderM α → Prop) : Prop where
  protected bind : ∀ {α β : Type} {m : BuilderM α} {f : α → BuilderM β}, P α m → (∀ a, P β (f a)) → P β (m >>= f)
  protected ofExcept : ∀ {α : Type} (x : Except Fault α), P α (ofExcept x)
  protected get : ∀ {α : Type} {f : Builder → BuilderM α}, (∀ b, f b = f b.parts) → (∀ b, P α (f b)) → P α (get >>= f)
  protected say : ∀ s, P Unit (say s)

def SameKept (b t : Builder) : Prop :=
  t.library = b.library ∧ t.constraints = b.constraints ∧ t.priors = b.priors

/-- A change to what is collected, other than distributions and priors. -/
structure Quiet (f : Builder → Builder) : Prop where
  parts : ∀ b, (f b).parts = (f b.parts).parts := by intro; rfl
  made : ∀ b, (f b).made = b.made := by intro; rfl
  kept : ∀ b, SameKept b (f b) := by intro; exact ⟨rfl, rfl, rfl⟩

/-- Such a property, also of operations that make quiet changes. -/
structure Collecting (P : (α : Type) → BuilderM α → Prop) : Prop extends Looking P where
  protected modify : ∀ {f : Builder → Builder}, Quiet f → P Unit (modify f)

lemma defines : Collecting fun _ m => Defines m where
  bind := .bind
  ofExcept x :=
    { sees := fun _ => by rw [outcome_ofExcept, outcome_ofExcept]
      changes := fun h => by rw [outcome_ofExcept, outcome_ofExcept]; exact h
      keeps := fun b => by rw [outcome_ofExcept] }
  get := defines_get
  say _ := defines_modify (fun _ => rfl) fun _ => rfl
  modify h := defines_modify h.parts h.made

lemma looking_moves {R : Builder → Builder → Prop} [Std.Refl R] [Trans R R R] (hsay : ∀ s, Moves R (say s)) :
    Looking fun _ m => Moves R m where
  bind := .bind
  ofExcept := moves_ofExcept
  get _ hf := moves_get.bind hf
  say := hsay

section

variable {P : (α : Type) → BuilderM α → Prop} (h : Looking P)

include h

protected theorem Looking.pure (a : α) : P α (pure a) := h.ofExcept (.ok a)

protected theorem Looking.throw (e : Fault) : P α (throw e) := h.ofExcept (.error e)

protected theorem Looking.forM {ι : Type} {l : List ι} {op : ι → BuilderM PUnit} (hop : ∀ i, P PUnit (op i)) :
    P PUnit (l.forM op) := by
  induction l with
  | nil => exact h.pure _
  | cons i l ih => exact h.bind (hop i) fun _ => ih

protected theorem Looking.remark (s : String) : P Unit (remark s) := by
  refine h.get (fun _ => rfl) fun b => ?_
  split
  · exact h.say _
  · exact h.pure _

protected theorem Looking.remarkHeading (lead title : String) : P Unit (remarkHeading lead title) :=
  h.get (fun _ => rfl) fun _ => h.remark _

protected theorem Looking.extract (source : String) : P _ (extract source) := h.get (fun _ => rfl) fun _ => h.ofExcept _

protected theorem Looking.grids : P _ grids := h.get (fun _ => rfl) fun _ => h.ofExcept _

omit h in
protected theorem Looking.ite [Decidable c] {m' : BuilderM α} (hm : P α m) (hm' : P α m') : P α (if c then m else m') := by
  split
  · exact hm
  · exact hm'

protected theorem Looking.refused [Decidable c] {e : Fault} (hm : P α m) :
    P α (if c then (throw e >>= fun _ : PUnit => m) else m) :=
  Looking.ite (h.bind (h.throw e) fun _ => hm) hm

protected theorem Looking.assignment (var code : Value) : P _ (assignment var code) := by
  refine h.bind (h.remark _) fun _ => h.bind (h.ofExcept _) fun var => h.refused ?_
  exact h.bind (h.ofExcept _) fun text => h.bind (h.extract text) fun _ => h.pure _

protected theorem Looking.whenGiven {read : Value → BuilderM Unit} (hread : ∀ v, P Unit (read v))
    (value : Option Value) : P Unit (whenGiven read value) := by
  cases value with
  | none => exact h.pure _
  | some v => exact hread v

protected theorem Looking.checkSections (known : List String) (model : List (String × Value)) :
    P Unit (checkSections known model) := by
  unfold Builder.checkSections
  split
  · exact h.throw _
  · exact h.pure _

end

/-! ## Parts -/

section

variable {P : (α : Type) → BuilderM α → Prop} (h : Collecting P)

include h

protected theorem Collecting.override (key value : Value) : P Unit (override key value) := by
  have hadd : ∀ key, P Unit (modify fun b : Builder => { b with overrides := setEntry b.overrides key value }) :=
    fun key => h.modify {}
  refine h.bind (h.remark _) fun _ => h.bind (h.ofExcept _) fun key => ?_
  dsimp only
  split
  · exact h.bind (h.throw _) fun _ => hadd _
  · exact hadd _
  · refine h.bind h.grids fun known => ?_
    split
    · exact h.bind (h.throw _) fun _ => hadd _
    · exact h.refused (hadd _)

protected theorem Collecting.expression (code : Value) : P Unit (expression code) := by
  unfold Builder.expression announceExpression
  split
  · exact h.bind (h.remark _) fun _ => h.bind (h.extract _) fun found => h.modify {}
  · refine h.get (fun _ => rfl) fun b => Looking.ite ?_ (h.throw _)
    refine h.bind (h.ofExcept _) fun n => h.refused ?_
    exact h.bind (h.remark _) fun _ => h.throw _

protected theorem Collecting.assign (var code : Value) : P Unit (assign var code) :=
  h.bind (h.assignment var code) fun _ => h.modify {}

protected theorem Collecting.readExpression (name : String) (code : Value) : P Unit (readExpression name code) :=
  h.bind (h.remark _) fun _ => h.expression code

protected theorem Collecting.readOverrides (key : String) (entries : List (String × Value)) :
    P Unit (readOverrides key entries) := by
  induction entries with
  | nil => exact h.pure _
  | cons entry rest ih =>
    unfold Builder.readOverrides
    split
    · exact h.bind (h.override _ _) fun _ => ih
    · exact h.bind (h.override _ _) fun _ => ih
    · exact h.bind (h.override _ _) fun _ => ih
    · exact h.bind (h.throw _) fun _ => ih

protected theorem Collecting.readOverride (key : String) (value : Value) : P Unit (readOverride key value) := by
  refine h.bind (h.remark _) fun _ => ?_
  split
  · exact h.readOverrides _ _
  · exact h.override _ _
  · exact h.throw _

protected theorem Collecting.readOutputs (value : Value) : P Unit (do (← ofExcept value.members).forM readOutput) := by
  refine h.bind (h.ofExcept _) fun _ => h.forM fun name => ?_
  refine h.bind (h.ofExcept _) fun name => h.bind (h.extract _) fun found => ?_
  exact h.refused (h.modify {})

protected theorem Collecting.readImports (value : Value) : P Unit (readImports value) := by
  unfold Builder.readImports
  split
  · split
    · exact h.modify {}
    · exact h.throw _
  · exact h.throw _

protected theorem Collecting.readOptions (value : Value) : P Unit (readOptions value) :=
  h.bind (h.ofExcept _) fun _ => h.modify {}

protected theorem Collecting.readMultiplicity (key : String) (count : Value) : P Unit (do
    remark ("multiplicity." ++ key ++ " = " ++ count.text)
    modify fun b => { b with multiplicity := setEntry b.multiplicity key count }) :=
  h.bind (h.remark _) fun _ => h.modify {}

end

lemma defines_constraint (var dist params : Value) : Defines (constraint var dist params) := by
  refine (defines.remark _).bind fun _ => (defines.ofExcept _).bind fun text => ?_
  refine (defines.extract text).bind fun found => defines.refused ?_
  exact defines_modify (fun _ => rfl) fun _ => rfl

lemma defines_prior (param dist params : Value) : Defines (prior param dist params) := by
  refine (defines.ofExcept _).bind fun name => defines.refused (defines.refused ?_)
  exact (defines.remark _).bind fun _ => defines_modify (fun _ => rfl) fun _ => rfl

/-! ## Descriptions -/

lemma defines_readVariable (name : String) (value : Value) : Defines (readVariable name value) := by
  refine (defines.remark _).bind fun _ => ?_
  have ha : Defines (assign (.str name) (.str value.text) >>= fun _ => pure value) :=
    (defines.assign _ _).bind fun _ => defines.pure _
  split
  · exact ha
  · exact ha
  · exact ha
  · exact defines.throw _
  · refine (defines.ofExcept _).bind fun code => defines.grids.bind fun known => ?_
    refine defines.refused ((defines.assign _ _).bind fun _ => Looking.ite (defines.pure _) ?_)
    refine (defines.ofExcept _).bind fun found => (defines_constraint _ _ _).bind fun _ => ?_
    exact defines.pure _
  · exact defines.pure _

lemma defines_readPrior (name : String) (value : Value) : Defines (readPrior name value) := by
  refine (defines.remark _).bind fun _ => (defines.ofExcept _).bind fun found => ?_
  exact (defines_prior _ _ _).bind fun _ => defines.pure _

lemma defines_readGridEntry (grid name : String) (value : Value) : Defines (readGridEntry grid name value) := by
  have hread : Defines (remark ("d." ++ grid ++ "." ++ name ++ " = " ++ value.text) >>= fun _ =>
      ofExcept (distribution ("g." ++ grid ++ "." ++ name) value) >>= fun found =>
      constraint (.str ("g." ++ grid ++ "." ++ name)) found.1 found.2 >>= fun _ =>
      (pure found.2 : BuilderM Value)) := by
    refine (defines.remark _).bind fun _ => (defines.ofExcept _).bind fun found => ?_
    exact (defines_constraint _ _ _).bind fun _ => defines.pure _
  refine (defines.ofExcept _).bind fun n => defines.refused (defines_get (fun _ => rfl) fun b => ?_)
  exact Looking.ite (defines.refused hread) (defines.refused hread)

section

variable {read : String → Value → BuilderM Value}

lemma defines_readEntries (h : ∀ k v, Defines (read k v)) (entries : List (String × Value)) :
    Defines (readEntries read entries) := by
  induction entries with
  | nil => exact defines.pure _
  | cons entry rest ih => exact (h _ _).bind fun _ => ih.bind fun _ => defines.pure _

lemma defines_readSection (h : ∀ k v, Defines (read k v)) (model : List (String × Value))
    (name : String) : Defines (readSection model name read) := by
  unfold readSection
  split
  · exact defines.pure _
  · refine (defines.ofExcept _).bind fun entries => (defines_readEntries h entries).bind fun _ => ?_
    exact defines.pure _

lemma defines_leaving {read : String → Value → BuilderM Unit} (h : ∀ k v, Defines (read k v))
    (name : String) (value : Value) : Defines (leaving read name value) :=
  (h name value).bind fun _ => defines.pure _

end

lemma defines_readGrids (names : List String) (model : List (String × Value)) : Defines (readGrids names model) := by
  induction names generalizing model with
  | nil => exact defines.pure _
  | cons grid rest ih => exact (defines_readSection (defines_readGridEntry grid) model grid).bind fun model => ih model

lemma defines_describe (description : Value) : Defines (describe description) := by
  refine (defines.remarkHeading _ _).bind fun _ => defines.grids.bind fun known => ?_
  refine (defines.ofExcept _).bind fun model => (defines.checkSections _ _).bind fun _ => ?_
  refine (defines_readSection (defines_leaving defines.readMultiplicity) _ _).bind fun model => ?_
  refine (defines_readSection (defines_leaving defines.readExpression) _ _).bind fun model => ?_
  refine (defines.whenGiven defines.readImports _).bind fun _ => ?_
  refine (defines_readSection defines_readVariable _ _).bind fun model => ?_
  refine (defines_readSection defines_readPrior _ _).bind fun model => ?_
  refine (defines_readGrids _ _).bind fun model => ?_
  refine (defines_readSection (defines_leaving defines.readOverride) _ _).bind fun model => ?_
  refine (defines.whenGiven defines.readOutputs _).bind fun _ => ?_
  exact (defines.whenGiven defines.readOptions _).bind fun _ => defines.pure _

end GridBayes.Builder
