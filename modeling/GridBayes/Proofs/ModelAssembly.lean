import GridBayes.Builder.Generator
import GridBayes.Proofs.GeneratedCode
import GridBayes.Proofs.ProgramText
import GridBayes.Proofs.TemplateFill

/-! How a builder makes its program, as a plan without states. What is said on the way, and which
grids are used, has no influence on the program. The plan is worked out to the parts that the program
has in the end. -/
namespace GridBayes.Builder
open Operation Template List Deferred.Resolution

/-! ## Remarks and assignments -/

lemma outcome_remark (s : String) (b : Builder) :
    ∃ said, outcome (remark s) b = (.ok (), { b with said := said }) := by
  unfold remark
  rw [outcome_bind_ok (outcome_get b)]
  split
  · exact ⟨_, rfl⟩
  · exact ⟨b.said, rfl⟩

lemma outcome_remarkHeading (lead title : String) (b : Builder) :
    ∃ said, outcome (remarkHeading lead title) b = (.ok (), { b with said := said }) := by
  unfold remarkHeading
  rw [outcome_bind_ok (outcome_get b)]
  exact outcome_remark _ b

lemma follows_extract (source : String) (b : Builder) :
    Follows (extract source) b (Deferred.Resolution.extract b.library source (some ""))
      fun found found' t => found = found' ∧ t = b :=
  .step (outcome_get b) (follows_ofExcept _ b)

def assignmentOf (library : Except Fault Registry) (var code : String) : Except Fault DeferredAssignment := do
  let isLocal := Text.startsWith "v." var
  if !isLocal && var.toList.contains '.' then throw .notALocal
  let (mentions, code) ← Deferred.Resolution.extract library code (some "")
  return ⟨mentions, if isLocal then var else "v." ++ Text.stripOf [' ', '\x7b', '\x7d'] var, code⟩

lemma follows_assignment (var code : String) (b : Builder) :
    Follows (assignment (.str var) (.str code)) b (assignmentOf b.library var code)
      fun a a' t => a = a' ∧ ∃ said, t = { b with said := said } := by
  obtain ⟨said, hsaid⟩ := outcome_remark
    ("  ModelBuilder.assignment('" ++ (Value.str var).text ++ "', " ++ (Value.str code).text ++ ")") b
  unfold assignment assignmentOf
  refine .step hsaid (.step (outcome_ofExcept (.ok var) _) ?_)
  dsimp only
  split
  · exact .error rfl
  · refine (follows_extract code _).bind fun found found' t ht => ?_
    obtain ⟨rfl, rfl⟩ := ht
    exact follows_pure ⟨rfl, said, rfl⟩

/-! ## Code that is generated -/

def assignmentFor (library : Except Fault Registry) (c : Deferred.Generated) : Except Fault DeferredAssignment :=
  assignmentOf library c.key.localName c.code

def interpolator? (c : Deferred.Generated) : Option String :=
  if Text.startsWith "c.grid__" c.code then some ("grid__" ++ (c.grid.getD "None" ++ "__" ++ c.name))
  else none

def withInterpolators (value : Deferred.Generated → String) (entries : List (String × String))
    (cs : List Deferred.Generated) : List (String × String) :=
  cs.foldl (fun m c => match interpolator? c with
    | some name => setEntry m name (value c)
    | none => m) entries

def makesInterpolator (c : Deferred.Generated) : String :=
  "GridGenerator.get_grid('" ++ c.grid.getD "None" ++ "').build_grid('" ++ c.name ++ "')"

def withGenerated (b : Builder) (cs : List Deferred.Generated) (added : List DeferredAssignment) : Builder :=
  { b with
    generated := b.generated ++ added
    autoConstants := withInterpolators makesInterpolator b.autoConstants cs
    constantTypes := withInterpolators (fun _ => "GridInterpolator") b.constantTypes cs }

def UpToRemarks (b t : Builder) : Prop :=
  ∃ said used, t = { b with said := said, gridsUsed := used }

lemma follows_push (c : Deferred.Generated) (b : Builder) :
    Follows (push c) b (assignmentFor b.library c) fun a _ t =>
      UpToRemarks (b.withGenerated [c] [a]) t := by
  unfold push withGenerated withInterpolators
  rw [← bind_pure (assignmentFor b.library c)]
  refine (follows_assignment c.key.localName c.code b).bind fun a a' t ht => ?_
  obtain ⟨rfl, said, rfl⟩ := ht
  split
  · rename_i hc
    have hname : interpolator? c = some ("grid__" ++ (c.grid.getD "None" ++ "__" ++ c.name)) := if_pos hc
    refine .ok (outcome_modify _ _) ⟨said, useGrid b.gridsUsed c.grid c.name, ?_⟩
    simp only [foldl_cons, hname]
    rfl
  · rename_i hc
    have hname : interpolator? c = none := if_neg hc
    refine .ok (outcome_modify _ _) ⟨said, useGrid b.gridsUsed c.grid c.name, ?_⟩
    simp only [foldl_cons, foldl_nil, hname]

lemma withGenerated_append (b : Builder) (cs cs' : List Deferred.Generated) (added added' : List DeferredAssignment) :
    (b.withGenerated cs added).withGenerated cs' added' = b.withGenerated (cs ++ cs') (added ++ added') := by
  simp [withGenerated, withInterpolators]

lemma follows_pushes (cs : List Deferred.Generated) (b : Builder) :
    Follows (cs.forM push) b (cs.mapM (assignmentFor b.library)) fun added _ t =>
      UpToRemarks (b.withGenerated cs added) t := by
  induction cs generalizing b with
  | nil =>
    refine follows_pure ⟨b.said, b.gridsUsed, ?_⟩
    simp [withGenerated, withInterpolators]
  | cons c cs ih =>
    rw [mapM_cons]
    refine (follows_push c b).bind fun a _ t ht => ?_
    obtain ⟨said, used, rfl⟩ := ht
    refine (ih _).map fun added _ t' ht' => ?_
    obtain ⟨said', used', rfl⟩ := ht'
    refine ⟨said', used', ?_⟩
    show { (b.withGenerated [c] [a]).withGenerated cs added with said := said', gridsUsed := used' } =
      { b.withGenerated ([c] ++ cs) ([a] ++ added) with said := said', gridsUsed := used' }
    rw [withGenerated_append]

/-- What looking up brings: the look-up in the end, and the assignments of generated code. -/
def found (b : Builder) (agenda : Deferred.Agenda) : Except Fault (Deferred.Resolution × List DeferredAssignment) := do
  let names ← b.mentioned
  let run := outcome (resolveAll names agenda) (start b.library b.overrides b.multiplicity)
  run.1
  let added ← run.2.components.mapM (assignmentFor b.library)
  return (run.2, added)

lemma follows_generate (r : Deferred.Resolution) (b t : Builder) (ht : UpToRemarks b t) :
    Follows (modify (fun b : Builder => { b with generated := [] }) >>= fun _ =>
        remarkHeading "\n" "Generated Components" >>= fun _ => r.components.forM push >>= fun _ =>
        (pure r : BuilderM Deferred.Resolution)) t
      (r.components.mapM (assignmentFor b.library) >>= fun added => pure (r, added))
      fun found r t => found.1 = r ∧
        UpToRemarks (({ b with generated := [] } : Builder).withGenerated r.components found.2) t := by
  obtain ⟨said, used, rfl⟩ := ht
  obtain ⟨said', hsaid'⟩ := outcome_remarkHeading "\n" "Generated Components"
    { b with said := said, gridsUsed := used, generated := [] }
  refine .step (outcome_modify _ _) (.step hsaid' ?_)
  refine (follows_pushes r.components _).bind fun added _ t ht => ?_
  obtain ⟨said'', used'', rfl⟩ := ht
  exact follows_pure ⟨rfl, said'', used'', rfl⟩

lemma follows_resolve (agenda : Deferred.Agenda) (b : Builder) :
    Follows (resolve agenda) b (b.found agenda) fun found r t => found.1 = r ∧
      UpToRemarks (({ b with generated := [] } : Builder).withGenerated r.components found.2) t := by
  obtain ⟨said, hsaid⟩ := outcome_remarkHeading "\n" "Variable Resolution" b
  refine .step hsaid (.step (outcome_get _) ?_)
  refine follows_ofExcept_bind fun names => ?_
  rcases hrun : outcome (resolveAll names agenda) (start b.library b.overrides b.multiplicity) with ⟨result, r⟩
  unfold outcome at hrun
  dsimp only
  rw [hrun]
  refine follows_ofExcept_bind fun _ => ?_
  split
  · exact .step (outcome_modify _ _) (follows_generate r b _ ⟨_, _, rfl⟩)
  · exact follows_generate r b _ ⟨_, _, rfl⟩

/-! ## Parts of the program -/

def lookedUp (values : List (String × String)) (mentions : List String) : Except Fault Unit :=
  if !mentions.all fun m => (values.lookup m).isSome then .error .notLookedUp else .ok ()

def expressionPart (values : List (String × String)) (e : DeferredExpression) : Except Fault Component := do
  lookedUp values e.mentions
  Component.ofExpression (← fill ⟨.strict, values⟩ e.code)

def assignmentPart (values : List (String × String)) (a : DeferredAssignment) : Except Fault Component := do
  lookedUp values a.mentions
  let var ← fill ⟨.strict, values⟩ a.var
  Component.ofAssignment var (← fill ⟨.strict, values⟩ a.code)

def constraintPart (values : List (String × String)) (c : DeferredConstraint) : Except Fault Component := do
  lookedUp values c.mentions
  let var ← fill ⟨.strict, values⟩ c.var
  let dist ← fill ⟨.strict, values⟩ (← c.dist.needText .missingPart)
  Component.ofConstraint (.str var) (.str dist) c.params

def priorPart (s : PriorSpec) : Except Fault Prior := do
  let _ ← s.dist.needText .missingPart
  Prior.ofValues (.str s.param) s.dist s.params

structure HasProgram (b : Builder) (p : Program) (t : Builder) : Prop where
  program : t.program = some p
  autoConstants : t.autoConstants = b.autoConstants
  constantTypes : t.constantTypes = b.constantTypes
  outputs : t.outputs = b.outputs
  imports : t.imports = b.imports

section
variable {b t : Builder} {p : Program}

lemma follows_changeProgram (h : HasProgram b p t) (f : Program → Except Fault (Program × String)) :
    Follows (changeProgram f) t (f p >>= fun r => pure r.1) fun q _ t => HasProgram b q t := by
  refine .step (outcome_get t) ?_
  rw [h.program]
  refine follows_ofExcept_bind fun ⟨q, said⟩ => ?_
  exact .ok (outcome_set _ _) ⟨rfl, h.autoConstants, h.constantTypes, h.outputs, h.imports⟩

/-- What joins a program. Distributions and priors are kept where their lists may grow. -/
inductive Item where
  | expression (e : DeferredExpression)
  | assignment (a : DeferredAssignment)
  | constraint (c : DeferredConstraint) (place : Nat)
  | prior (s : PriorSpec) (place : Nat)

def Item.add (values : List (String × String)) : Item → BuilderM Unit
  | .expression e => addExpression values e
  | .assignment a => addAssignment values a
  | .constraint c place => addConstraint values c place
  | .prior s place => addPrior s place

def Item.join (values : List (String × String)) (p : Program) : Item → Except Fault Program
  | .expression e => p.withPart (expressionPart values e)
  | .assignment a => p.withPart (assignmentPart values a)
  | .constraint c _ => p.withPart (constraintPart values c)
  | .prior s _ => p.withPrior (priorPart s)

def items (b : Builder) : List Item :=
  b.expressions.map .expression ++ (b.assignments ++ b.generated).map .assignment
    ++ b.constraints.zipIdx.map (fun c => .constraint c.1 c.2)
    ++ b.priors.zipIdx.map (fun s => .prior s.1 s.2)

def outputCode (b : Builder) (values : List (String × String)) : Except Fault (List String) := do
  (← b.outputTexts).mapM (Template.fillNamed values)

def withConstants (b : Builder) (p : Program) : Program :=
  { p with
    autoConstants := b.autoConstants.map (·.1)
    constantTypes := b.constantTypes }

def complete (values : List (String × String)) : BuilderM Unit := do
  let b ← get
  changeProgram fun p => .ok (b.withConstants p, "")
  let outputs ← (← ofExcept b.outputTexts).mapM fun o => ofExcept (Template.fillNamed values o)
  changeProgram fun p => .ok ({ p with
    outputs := outputs
    imports := p.imports ++ b.imports }, "")
  remark ""

lemma checkMentions_eq (values : List (String × String)) (mentions : List String) :
    checkMentions values mentions = ofExcept (lookedUp values mentions) := by
  unfold checkMentions lookedUp
  split <;> rfl

/-- An item is added by checks, a note of what becomes of its list, and a change of the program. -/
lemma Item.add_induction {P : BuilderM Unit → Prop}
    (hcheck : ∀ {α : Type} (x : Except Fault α) (f : α → BuilderM Unit), (∀ a, P (f a)) → P (ofExcept x >>= f))
    (hnote : ∀ (g : Builder → Builder) (f : Unit → BuilderM Unit), (∀ b, (g b).program = b.program) →
      (∀ u, P (f u)) → P (modify g >>= f))
    (hchange : ∀ f, P (changeProgram f)) (values : List (String × String)) (item : Item) : P (item.add values) := by
  cases item with
  | expression e =>
    rw [add, addExpression, checkMentions_eq]
    exact hcheck _ _ fun _ => hcheck _ _ fun code => hcheck _ _ fun c => hchange _
  | assignment a =>
    rw [add, addAssignment, checkMentions_eq]
    exact hcheck _ _ fun _ => hcheck _ _ fun var => hcheck _ _ fun code => hcheck _ _ fun c => hchange _
  | constraint c place =>
    rw [add, addConstraint, checkMentions_eq]
    refine hcheck _ _ fun _ => hcheck _ _ fun var => hcheck _ _ fun name => hcheck _ _ fun dist => ?_
    exact hnote _ _ (fun _ => rfl) fun _ => hcheck _ _ fun component => hchange _
  | prior s place => exact hcheck _ _ fun dist => hnote _ _ (fun _ => rfl) fun _ => hcheck _ _ fun prior => hchange _

lemma Item.follows (values : List (String × String)) (item : Item) (h : HasProgram b p t) :
    Follows (item.add values) t (item.join values p) fun q _ t => HasProgram b q t := by
  cases item with
  | expression e =>
    unfold add join addExpression Program.withPart expressionPart
    simp only [bind_assoc, checkMentions_eq]
    refine follows_ofExcept_bind fun _ => follows_ofExcept_bind fun code => follows_ofExcept_bind fun c => ?_
    exact follows_changeProgram h (·.addComponent c)
  | assignment a =>
    unfold add join addAssignment Program.withPart assignmentPart
    simp only [bind_assoc, checkMentions_eq]
    refine follows_ofExcept_bind fun _ => follows_ofExcept_bind fun var => ?_
    refine follows_ofExcept_bind fun code => follows_ofExcept_bind fun c => ?_
    exact follows_changeProgram h (·.addComponent c)
  | constraint c place =>
    unfold add join addConstraint Program.withPart constraintPart
    simp only [bind_assoc, checkMentions_eq]
    refine follows_ofExcept_bind fun _ => follows_ofExcept_bind fun var => follows_ofExcept_bind fun name => ?_
    refine follows_ofExcept_bind fun dist => .step (outcome_modify _ t) ?_
    refine follows_ofExcept_bind fun component => follows_changeProgram ?_ (·.addComponent component)
    exact ⟨h.program, h.autoConstants, h.constantTypes, h.outputs, h.imports⟩
  | prior s place =>
    unfold add join addPrior Program.withPrior priorPart
    simp only [bind_assoc]
    refine follows_ofExcept_bind fun name => .step (outcome_modify _ t) ?_
    refine follows_ofExcept_bind fun prior => follows_changeProgram ?_ (·.addPrior prior)
    exact ⟨h.program, h.autoConstants, h.constantTypes, h.outputs, h.imports⟩

lemma follows_adds {ι : Type} {op : ι → BuilderM Unit} {step : Program → ι → Except Fault Program}
    (hop : ∀ i p t, HasProgram b p t → Follows (op i) t (step p i) fun q _ t => HasProgram b q t)
    (l : List ι) (h : HasProgram b p t) : Follows (l.forM op) t (l.foldlM step p) fun q _ t => HasProgram b q t :=
  Follows.forM (fun i _ p t => hop i p t) p t h

lemma follows_outputs (f : String → Except Fault String) (names : List String) (t : Builder) :
    Follows (names.mapM fun o => (ofExcept (f o) : BuilderM String)) t (names.mapM f)
      fun outs outs' u => outs = outs' ∧ u = t := by
  induction names with
  | nil => exact follows_pure ⟨rfl, rfl⟩
  | cons name names ih =>
    rw [mapM_cons, mapM_cons]
    refine follows_ofExcept_bind fun out => ih.bind fun outs outs' u hu => ?_
    obtain ⟨rfl, rfl⟩ := hu
    exact follows_pure ⟨rfl, rfl⟩

end

/-! ## The plan of the program -/

def initial (b : Builder) : Program where
  optionalTerms := .bool b.optionalTerms
  verbose := b.verbose
  fancy := b.fancy

def assembled (b : Builder) (values : List (String × String)) : Except Fault Program := do
  let p ← b.expressions.foldlM (fun p e => p.withPart (expressionPart values e)) b.initial
  let p ← (b.assignments ++ b.generated).foldlM (fun p a => p.withPart (assignmentPart values a)) p
  let p ← b.constraints.zipIdx.foldlM (fun p c => p.withPart (constraintPart values c.1)) p
  let p ← b.priors.zipIdx.foldlM (fun p s => p.withPrior (priorPart s.1)) p
  let outputs ← (← b.outputTexts).mapM (fillNamed values)
  return { p with
    autoConstants := b.autoConstants.map (·.1)
    constantTypes := b.constantTypes
    outputs := outputs
    imports := p.imports ++ b.imports }

def plan (b : Builder) (agenda : Deferred.Agenda) : Except Fault Program := do
  let (r, added) ← b.found agenda
  (({ b with generated := [] } : Builder).withGenerated r.components added).assembled r.values

lemma assembled_eq (b : Builder) (values : List (String × String)) : b.assembled values = (do
    let p ← b.items.foldlM (Item.join values) b.initial
    let outputs ← b.outputCode values
    return { b.withConstants p with
      outputs := outputs
      imports := p.imports ++ b.imports }) := by
  unfold assembled items outputCode
  simp only [foldlM_append, foldlM_map, bind_assoc]
  rfl

lemma makeProgram_eq (agenda : Deferred.Agenda) : makeProgram agenda = (do
      modify fun b => { b with gridsUsed := [] }
      let r ← resolve agenda
      remarkHeading "\n" "Code Generation"
      modify fun b => { b with program := some b.initial }
      let b ← get
      b.items.forM (Item.add r.values)
      complete r.values) := by
  unfold makeProgram items complete
  simp only [forM_eq_forM, forM_append, forM_map, bind_assoc]
  rfl

lemma follows_makeProgram (agenda : Deferred.Agenda) (b : Builder) :
    Follows (makeProgram agenda) b (b.plan agenda) fun p _ t => t.program = some p := by
  rw [makeProgram_eq]
  refine .step (outcome_modify _ _) ?_
  refine (follows_resolve agenda _).bind fun found r t ht => ?_
  obtain ⟨r', added⟩ := found
  obtain ⟨rfl, said, used, ht⟩ := ht
  change t = { ({ b with generated := [] } : Builder).withGenerated r'.components added with
    said := said, gridsUsed := used } at ht
  dsimp only
  generalize ({ b with generated := [] } : Builder).withGenerated r'.components added = b' at ht ⊢
  subst ht
  obtain ⟨said', hsaid'⟩ := outcome_remarkHeading "\n" "Code Generation" { b' with said := said, gridsUsed := used }
  refine .step hsaid' (.step (outcome_modify _ _) (.step (outcome_get _) ?_))
  have hs : HasProgram b' b'.initial { b' with said := said', gridsUsed := used, program := some b'.initial } :=
    ⟨rfl, rfl, rfl, rfl, rfl⟩
  rw [assembled_eq]
  refine (follows_adds (fun item _ _ h => item.follows r'.values h) _ hs).bind fun p _ t h => ?_
  refine .step (outcome_get t) ?_
  obtain ⟨_, u, hu, h'⟩ := (follows_changeProgram h fun p => .ok (t.withConstants p, "")).of_ok
  refine .step hu ?_
  have hte : t.outputTexts = b'.outputTexts := by
    unfold outputTexts
    rw [h.outputs]
  rw [hte, outputCode, bind_assoc]
  refine follows_ofExcept_bind fun texts => (follows_outputs (fillNamed r'.values) texts u).bind fun outs outs' w hw => ?_
  obtain ⟨rfl, rfl⟩ := hw
  obtain ⟨_, x, hx, h''⟩ := (follows_changeProgram h' fun p => .ok ({ p with
    outputs := outs
    imports := p.imports ++ t.imports }, "")).of_ok
  obtain ⟨said'', hsaid''⟩ := outcome_remark "" x
  refine .step hx (.ok hsaid'' ?_)
  rw [h''.program, withConstants, withConstants, h.autoConstants, h.constantTypes, h.imports]

variable {α : Type} {p : Program} {b : Builder}

lemma outcome_answer (question : ProgramM α) (t : Builder) : outcome (answer question) t =
    ((outcome question (t.program.getD {})).1, { t with program := some (outcome question (t.program.getD {})).2 }) := by
  unfold answer
  exact outcome_ofExcept _ _

lemma outcome_ask (question : ProgramM α) (agenda : Deferred.Agenda) (h : b.program = none) :
    (outcome (ask question agenda) b).1 = b.plan agenda >>= fun p => (outcome question p).1 := by
  unfold ask
  rw [outcome_bind_ok (outcome_get b), if_pos (by rw [h]; rfl)]
  have hmake := follows_makeProgram agenda b
  generalize b.plan agenda = plan at hmake ⊢
  cases hmake with
  | error hout =>
    rw [outcome_bind_error hout]
    rfl
  | ok hout hp =>
    rw [outcome_bind_ok hout, outcome_answer, hp]
    rfl

lemma outcome_ask_known (question : ProgramM α) (agenda : Deferred.Agenda) (h : b.program = some p) :
    (outcome (ask question agenda) b).1 = (outcome question p).1 := by
  unfold ask
  rw [outcome_bind_ok (outcome_get b), if_neg (by rw [h]; simp), outcome_answer, h]
  rfl

end GridBayes.Builder
