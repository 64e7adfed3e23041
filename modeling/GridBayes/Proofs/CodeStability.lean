import GridBayes.Proofs.Equation
import GridBayes.Proofs.LookUp
import GridBayes.Proofs.ModelAssembly
import Mathlib

/-! The code of a model does not depend on the order in which its deferred variables are looked up. In
any order the same keys get the same values and bring the same generated code. What is left of the
order is lost when components are sorted, provided that different keys stand for different local
variables. -/
namespace GridBayes
open List Operation Template Deferred.Resolution

/-! ## Looking up in any order -/

namespace Deferred
open Resolution

/-- Two look-ups have found the same values, and the same generated code in some order. -/
structure FoundSame (s t : Resolution) : Prop where
  values : ∀ name, s.values.lookup name = t.values.lookup name
  components : s.components.Perm t.components

variable {t : Resolution} {library : Except Fault Registry} {overrides multiplicity : List (String × Value)}
  {names : List String} {agenda : Agenda}

lemma Knows.foundSame {src : Sources} {ks ks' : List Key} {s : Resolution} (h : Knows src ks s)
    (h' : Knows src ks' t) (hsame : ∀ k, k ∈ ks ↔ k ∈ ks') : FoundSame s t := by
  have hperm : ks.Perm ks' := (perm_ext_iff_of_nodup h.distinct h'.distinct).mpr hsame
  constructor
  · intro name
    rw [h.values, h'.values]
    refine lookup_perm (hperm.map _) ?_ name
    rw [map_map]
    exact h.distinct.map_on fun k hk k' hk' => (h.written k hk).text_inj (h.written k' hk')
  · rw [h.components, h'.components]
    exact hperm.flatMap_right _

lemma resolveAll_foundSame
    (h : outcome (resolveAll names agenda) (start library overrides multiplicity) = (.ok (), t)) (agenda' : Agenda) :
    ∃ t', outcome (resolveAll names agenda') (start library overrides multiplicity) = (.ok (), t') ∧
      FoundSame t t' := by
  rcases outcome_resolveAll library overrides multiplicity names agenda with
    ⟨ks, u, hout, hkn, -, hw, ha⟩ | ⟨e, u, hout, -⟩
  · obtain ⟨-, rfl⟩ := Prod.mk.inj (h.symm.trans hout)
    rcases outcome_resolveAll library overrides multiplicity names agenda' with
      ⟨ks', t', hout', hk', -, -, ha'⟩ | ⟨e, t', hout', name, hname, hr⟩
    · exact ⟨t', hout', hkn.foundSame hk' fun k => (ha k).trans (ha' k).symm⟩
    · obtain ⟨k, hk, hkno⟩ := hw name hname
      exact absurd ⟨k, hk, (hkn.meaningful k hkno).grounded⟩ hr.not_grounded
  · cases (Prod.mk.inj (h.symm.trans hout)).1

lemma exists_key_of_component
    (h : outcome (resolveAll names agenda) (start library overrides multiplicity) = (.ok (), t)) :
    ∀ c ∈ t.components, ∃ k : Key, k.Written ∧ c ∈ (start library overrides multiplicity).toSources.generatedBy k := by
  rcases outcome_resolveAll library overrides multiplicity names agenda with
    ⟨ks, u, hout, hkn, -⟩ | ⟨e, u, hout, -⟩
  · obtain ⟨-, rfl⟩ := Prod.mk.inj (h.symm.trans hout)
    intro c hc
    rw [hkn.components] at hc
    obtain ⟨k, hk, hmem⟩ := mem_flatMap.mp hc
    exact ⟨k, hkn.written k hk, hmem⟩
  · cases (Prod.mk.inj (h.symm.trans hout)).1

end Deferred

/-! ## Constants that are interpolators -/

namespace Builder

lemma withInterpolators_cons (value : Deferred.Generated → String)
    (entries : List (String × String)) (c : Deferred.Generated) (cs : List Deferred.Generated) :
    withInterpolators value entries (c :: cs) = withInterpolators value (match interpolator? c with
        | some name => setEntry entries name (value c)
        | none => entries) cs :=
  rfl

lemma count_withInterpolators (value : Deferred.Generated → String)
    (entries : List (String × String)) (cs : List Deferred.Generated) (name : String) :
    ((withInterpolators value entries cs).map Prod.fst).count name =
      if name ∈ entries.map Prod.fst then (entries.map Prod.fst).count name
      else if name ∈ cs.filterMap interpolator? then 1 else 0 := by
  induction cs generalizing entries with
  | nil =>
    by_cases hmem : name ∈ entries.map Prod.fst
    · rw [if_pos hmem]
      rfl
    · rw [if_neg hmem]
      exact count_eq_zero.mpr hmem
  | cons c cs ih =>
    rw [withInterpolators_cons, ih]
    cases hc : interpolator? c with
    | none => rw [filterMap_cons_none hc]
    | some new =>
      rw [filterMap_cons_some hc]
      rw [map_fst_setEntry]
      by_cases hnew : new ∈ entries.map Prod.fst
      · rw [if_pos hnew]
        by_cases hmem : name ∈ entries.map Prod.fst
        · rw [if_pos hmem, if_pos hmem]
        · have hne : name ≠ new := fun h => hmem (h ▸ hnew)
          simp only [mem_cons, hne, false_or]
      · rw [if_neg hnew, count_append]
        by_cases hname : name = new
        · simp only [hname, mem_append, mem_cons, true_or, or_true, if_true, if_neg hnew,
            count_eq_zero.mpr hnew, count_singleton_self]
        · have hzero : [new].count name = 0 := count_eq_zero.mpr (by simpa using hname)
          simp only [hzero, Nat.add_zero, mem_append, mem_cons, not_mem_nil, hname, or_false, false_or]

lemma lookup_withInterpolators (value : String) (entries : List (String × String))
    (cs : List Deferred.Generated) (name : String) :
    (withInterpolators (fun _ => value) entries cs).lookup name =
      if name ∈ cs.filterMap interpolator? then some value else entries.lookup name := by
  induction cs generalizing entries with
  | nil => rfl
  | cons c cs ih =>
    rw [withInterpolators_cons, ih]
    cases hc : interpolator? c with
    | none => rw [filterMap_cons_none hc]
    | some new =>
      rw [filterMap_cons_some hc]
      rw [lookup_setEntry]
      by_cases hname : name = new
      · simp only [hname, mem_cons, true_or, if_true, ite_self]
      · simp only [hname, mem_cons, false_or, if_false]

lemma names_withInterpolators {cs cs' : List Deferred.Generated} (h : cs.Perm cs')
    (value : Deferred.Generated → String) (entries : List (String × String)) :
    ((withInterpolators value entries cs).map Prod.fst).Perm ((withInterpolators value entries cs').map Prod.fst) := by
  refine perm_iff_count.mpr fun name => ?_
  rw [count_withInterpolators, count_withInterpolators]
  simp only [(h.filterMap interpolator?).mem_iff]

/-! ## The parts of the program -/

section
variable {values values' : List (String × String)}

lemma lookedUp_congr (h : ∀ name, values.lookup name = values'.lookup name)
    (mentions : List String) : lookedUp values mentions = lookedUp values' mentions := by
  unfold lookedUp
  simp only [h]

lemma expressionPart_congr (h : ∀ name, values.lookup name = values'.lookup name)
    (e : DeferredExpression) : expressionPart values e = expressionPart values' e := by
  unfold expressionPart
  rw [lookedUp_congr h, fill_congr .strict h]

lemma assignmentPart_congr (h : ∀ name, values.lookup name = values'.lookup name)
    (a : DeferredAssignment) : assignmentPart values a = assignmentPart values' a := by
  unfold assignmentPart
  simp only [lookedUp_congr h, fill_congr .strict h]

lemma constraintPart_congr (h : ∀ name, values.lookup name = values'.lookup name)
    (c : DeferredConstraint) : constraintPart values c = constraintPart values' c := by
  unfold constraintPart
  simp only [lookedUp_congr h, fill_congr .strict h]

end

structure HasParts (b : Builder) (values : List (String × String)) (front generated back : List Component)
    (priors : List Prior) (outputs : List String) : Prop where
  front : ∃ es as, front = es ++ as ∧
    Forall₂ (fun e c => expressionPart values e = .ok c ∧ b.initial.Accepts c) b.expressions es ∧
    Forall₂ (fun a c => assignmentPart values a = .ok c ∧ b.initial.Accepts c) b.assignments as
  generated : Forall₂ (fun a c => assignmentPart values a = .ok c ∧ b.initial.Accepts c) b.generated generated
  back : Forall₂ (fun c d => constraintPart values c.1 = .ok d ∧ b.initial.Accepts d) b.constraints.zipIdx back
  priors : Forall₂ (fun s p => priorPart s.1 = .ok p ∧ b.initial.AcceptsPrior p) b.priors.zipIdx priors
  outputs : ∃ texts, b.outputTexts = .ok texts ∧ texts.mapM (fillNamed values) = .ok outputs

def withParts (b : Builder) (components : List Component) (priors : List Prior) (outputs : List String) : Program :=
  { b.initial with
    components := components
    priors := priors
    autoConstants := b.autoConstants.map (·.1)
    constantTypes := b.constantTypes
    outputs := outputs
    imports := b.initial.imports ++ b.imports }

variable {b : Builder} {values : List (String × String)} {p : Program} {library : Except Fault Registry}
  {c : Deferred.Generated} {a : DeferredAssignment} {agenda : Deferred.Agenda} {r : Deferred.Resolution}
  {added : List DeferredAssignment} {generated : List Component} {names : List String}

lemma assembled_iff : b.assembled values = .ok p ↔
      ∃ front generated back priors outputs, HasParts b values front generated back priors outputs ∧
        p = b.withParts (front ++ generated ++ back) priors outputs := by
  unfold assembled
  simp only [foldlM_append, bind_assoc, bind_eq_ok, Program.withParts_iff, Program.withPriors_iff]
  constructor
  · rintro ⟨_, ⟨es, hes, rfl⟩, _, ⟨as, has, rfl⟩, _, ⟨gs, hgs, rfl⟩, _, ⟨cs, hcs, rfl⟩, _, ⟨ps, hps, rfl⟩,
      texts, ht, outs, houts, hp⟩
    refine ⟨es ++ as, gs, cs, ps, outs, ⟨⟨es, as, rfl, hes, has⟩, hgs, hcs, hps, texts, ht, houts⟩, ?_⟩
    rw [← Except.ok.inj hp]
    simp [withParts, initial]
  · rintro ⟨_, gs, cs, ps, outs, ⟨⟨es, as, rfl, hes, has⟩, hgs, hcs, hps, texts, ht, houts⟩, rfl⟩
    refine ⟨_, ⟨es, hes, rfl⟩, _, ⟨as, has, rfl⟩, _, ⟨gs, hgs, rfl⟩, _, ⟨cs, hcs, rfl⟩, _, ⟨ps, hps, rfl⟩,
      texts, ht, outs, houts, ?_⟩
    simp [withParts, initial, pure, Except.pure]

/-! ## Components of generated code -/

lemma startsWith_false {s : String} (h : '.' ∉ s.toList) : Text.startsWith "v." s = false := by
  cases ha : Text.afterStart? "v.".toList s.toList with
  | none =>
    unfold Text.startsWith
    rw [ha]
    rfl
  | some rest =>
    rw [Deferred.afterStart?_some ha] at h
    simp at h

lemma var_of_assignmentFor (hs : c.key.Spelled) (h : assignmentFor library c = .ok a) :
    a.var = "v." ++ c.key.localName := by
  have hp : '.' ∉ c.key.localName.toList := hs.not_mem_localName (by decide)
  have hst : Text.stripOf [' ', '\x7b', '\x7d'] c.key.localName = c.key.localName := by
    refine stripOf_self fun mark hmark => ?_
    simp only [mem_cons, not_mem_nil, or_false] at hmark
    rcases hmark with rfl | rfl | rfl
    all_goals exact hs.not_mem_localName (by decide)
  unfold assignmentFor assignmentOf at h
  rw [startsWith_false hp, hst] at h
  dsimp only at h
  split at h
  · cases h
  · obtain ⟨found, -, h⟩ := bind_eq_ok.mp h
    rw [← Except.ok.inj h]
    rfl

lemma sortKey_of_generated {d : Component} (hs : c.key.Spelled) (ha : assignmentFor library c = .ok a)
    (hd : assignmentPart values a = .ok d) : d.sortKey = "v." ++ c.key.localName ∧ d.isLikelihood = false := by
  have hvar := var_of_assignmentFor hs ha
  have hc : ("v." ++ c.key.localName).toList = 'v' :: '.' :: c.key.localName.toList := by simp
  have hp : ∀ mark ∈ ['\x7b', ' ', '\x7d', '-'], mark ∉ c.key.localName.toList := by
    intro mark hmark
    simp only [mem_cons, not_mem_nil, or_false] at hmark
    rcases hmark with rfl | rfl | rfl | rfl
    all_goals exact hs.not_mem_localName (by decide)
  have hfill : fill ⟨.strict, values⟩ a.var = .ok a.var := by
    rw [hvar]
    refine fill_text ?_ ?_
    · simp [hp '\x7b' (by simp)]
    · simp [hp '\x7d' (by simp)]
  obtain ⟨-, -, hd⟩ := bind_eq_ok.mp hd
  obtain ⟨var, hread, hd⟩ := bind_eq_ok.mp hd
  cases hfill.symm.trans hread
  obtain ⟨code, -, hd⟩ := bind_eq_ok.mp hd
  obtain ⟨e, he, rfl⟩ := Equation.ofAssignment_iff.mp hd
  refine ⟨?_, e.isLikelihood_component⟩
  obtain ⟨symbol, hpa, he⟩ := bind_eq_ok.mp he
  rw [← Except.ok.inj he]
  have hst : Text.startsWith "v." a.var = true := by
    rw [hvar]
    simp [Text.startsWith, Text.afterStart?]
  rw [if_pos hst, hvar] at hpa
  exact text_of_parse hp hpa

/-! ## Programs of two look-ups -/

lemma found_iff : b.found agenda = .ok (r, added) ↔ ∃ names, b.mentioned = .ok names ∧
      outcome (resolveAll names agenda) (start b.library b.overrides b.multiplicity) = (.ok (), r) ∧
      r.components.mapM (assignmentFor b.library) = .ok added := by
  unfold found
  rw [bind_eq_ok]
  refine exists_congr fun names => and_congr_right fun _ => ?_
  rcases outcome (resolveAll names agenda) (start b.library b.overrides b.multiplicity) with ⟨result, t⟩
  constructor
  · intro h
    obtain ⟨u, hr, h⟩ := bind_eq_ok.mp h
    obtain ⟨added', ha, h⟩ := bind_eq_ok.mp h
    cases h
    exact ⟨congrArg (·, t) hr, ha⟩
  · rintro ⟨h, ha⟩
    cases h
    exact bind_eq_ok.mpr ⟨(), rfl, bind_eq_ok.mpr ⟨added, ha, rfl⟩⟩

def generatedCode (b : Builder) : List Deferred.Generated :=
  match b.mentioned with
  | .ok names => (outcome (resolveAll names) (start b.library b.overrides b.multiplicity)).2.components
  | .error _ => []

/-- Different keys with generated code stand for different local variables. -/
def LocalsDistinct (b : Builder) : Prop :=
  ∀ c ∈ b.generatedCode, ∀ c' ∈ b.generatedCode, c.key.localName = c'.key.localName → c.key = c'.key

lemma HasParts.congr {b' : Builder} {values' : List (String × String)}
    {front generated' back : List Component} {priors : List Prior} {outputs : List String}
    (h : HasParts b values front generated back priors outputs) (hv : ∀ name, values.lookup name = values'.lookup name)
    (hrest : b' = { b with
      generated := b'.generated, autoConstants := b'.autoConstants, constantTypes := b'.constantTypes })
    (hg : Forall₂ (fun a c => assignmentPart values' a = .ok c ∧ b'.initial.Accepts c) b'.generated generated') :
    HasParts b' values' front generated' back priors outputs := by
  have ho : fillNamed values = fillNamed values' := funext fun text => fill_congr .open hv text
  refine ⟨?_, hg, ?_, ?_, ?_⟩
  · obtain ⟨es, as, hf, hes, has⟩ := h.front
    refine ⟨es, as, hf, ?_, ?_⟩
    · rw [hrest]
      exact hes.imp fun e c he => by rwa [← expressionPart_congr hv e]
    · rw [hrest]
      exact has.imp fun a c ha => by rwa [← assignmentPart_congr hv a]
  · rw [hrest]
    exact h.back.imp fun c d hd => by rwa [← constraintPart_congr hv c.1]
  · rw [hrest]
    exact h.priors
  · rw [hrest, ← ho]
    exact h.outputs

lemma localName_inj {x y : String} (h : "v." ++ x = "v." ++ y) : x = y := by
  have hc := congrArg String.toList h
  rw [String.toList_append, String.toList_append] at hc
  exact String.toList_inj.mp (append_cancel_left hc)

lemma LocalsDistinct.of_run (h : b.LocalsDistinct) (hn : b.mentioned = .ok names)
    (hrun : outcome (resolveAll names agenda) (start b.library b.overrides b.multiplicity) = (.ok (), r)) :
    ∀ c ∈ r.components, ∀ c' ∈ r.components, c.key.localName = c'.key.localName → c.key = c'.key := by
  obtain ⟨r', hrun', hsame⟩ := Deferred.resolveAll_foundSame hrun .sorted
  have hcode : b.generatedCode = r'.components := by
    unfold generatedCode
    rw [hn]
    dsimp only
    rw [hrun']
  intro c hc c' hc'
  exact h c (hcode ▸ hsame.components.mem_iff.mp hc) c' (hcode ▸ hsame.components.mem_iff.mp hc')

lemma generated_keys (hli : Yields Listed b.library) (hrun : outcome (resolveAll names agenda)
      (start b.library b.overrides b.multiplicity) = (.ok (), r))
    (hdi : ∀ c ∈ r.components, ∀ c' ∈ r.components, c.key.localName = c'.key.localName → c.key = c'.key)
    (had : r.components.mapM (assignmentFor b.library) = .ok added)
    (hg : Forall₂ (fun a c => assignmentPart values a = .ok c ∧ p.Accepts c) added generated) :
    (∀ d ∈ generated, ∀ d' ∈ generated, d.sortKey = d'.sortKey → d = d') ∧ ∀ d ∈ generated, d.isLikelihood = false := by
  have hfrom : ∀ d ∈ generated, ∃ c ∈ r.components, ∃ a, assignmentFor b.library c = .ok a ∧
      assignmentPart values a = .ok d ∧ d.sortKey = "v." ++ c.key.localName ∧
      d.isLikelihood = false := by
    intro d hd
    obtain ⟨a, ha, hpart, -⟩ := exists_of_forall₂ hg d hd
    obtain ⟨c, hc, hass⟩ := exists_of_forall₂ (mapM_eq_ok.mp had) a ha
    obtain ⟨k, hk, hmem⟩ := Deferred.exists_key_of_component hrun c hc
    have hs := Deferred.spelled_of_generatedBy hli hk hmem
    exact ⟨c, hc, a, hass, hpart, sortKey_of_generated hs hass hpart⟩
  refine ⟨fun d hd d' hd' hkey => ?_, fun d hd => ?_⟩
  · obtain ⟨c, hc, a, hass, hpart, hsort, -⟩ := hfrom d hd
    obtain ⟨c', hc', a', ha', hpart', hsort', -⟩ := hfrom d' hd'
    have hname := localName_inj (hsort.symm.trans (hkey.trans hsort'))
    obtain ⟨k, -, hmem⟩ := Deferred.exists_key_of_component hrun c hc
    obtain ⟨k', -, hmem'⟩ := Deferred.exists_key_of_component hrun c' hc'
    obtain rfl := Deferred.Sources.generated_unique hli hmem hmem' (hdi c hc c' hc' hname)
    cases hass.symm.trans ha'
    exact Except.ok.inj (hpart.symm.trans hpart')
  · obtain ⟨c, -, a, -, -, -, hl⟩ := hfrom d hd
    exact hl

lemma plan_alike (hli : Yields Listed b.library) (hd : b.LocalsDistinct) (h : b.plan agenda = .ok p)
    (agenda' : Deferred.Agenda) : ∃ p', b.plan agenda' = .ok p' ∧ Program.Alike p p' := by
  obtain ⟨⟨r, added⟩, hf, hp⟩ := bind_eq_ok.mp h
  obtain ⟨names, hn, hrun, ha⟩ := found_iff.mp hf
  obtain ⟨r', hrun', hsame⟩ := Deferred.resolveAll_foundSame hrun agenda'
  obtain ⟨added', ha', hperm⟩ := perm_comp_forall₂ hsame.components.symm (mapM_eq_ok.mp ha)
  obtain ⟨front, generated, back, priors, outputs, hpa, rfl⟩ := assembled_iff.mp hp
  obtain ⟨generated', hg', hperm'⟩ := perm_comp_forall₂ hperm hpa.generated
  have hf' : b.found agenda' = .ok (r', added') := found_iff.mpr ⟨names, hn, hrun', mapM_eq_ok.mpr ha'⟩
  have hp' : HasParts (({ b with generated := [] } : Builder).withGenerated r'.components added')
      r'.values front generated' back priors outputs :=
    hpa.congr hsame.values rfl (hg'.imp fun a c hc => by rwa [← assignmentPart_congr hsame.values a])
  obtain ⟨hkeys, hl⟩ := generated_keys hli hrun (hd.of_run hn hrun) ha hpa.generated
  refine ⟨_, bind_eq_ok.mpr ⟨_, hf', assembled_iff.mpr ⟨_, _, _, _, _, hp', rfl⟩⟩, ?_⟩
  exact {
    components := Program.sameComponents_between front back hperm'.symm hkeys hl
    priors := rfl
    imports := rfl
    autoConstants := names_withInterpolators hsame.components makesInterpolator b.autoConstants
    constantTypes := fun name => by
      show (withInterpolators _ b.constantTypes r.components).lookup name =
        (withInterpolators _ b.constantTypes r'.components).lookup name
      rw [lookup_withInterpolators, lookup_withInterpolators]
      simp only [(hsame.components.filterMap interpolator?).mem_iff]
    outputs := rfl
    optionalTerms := rfl
    frozen := rfl
    defects := rfl }

/-! ## The code -/

/-- If different keys with code stand for different local variables, the code does not depend on the order of
looking up, nor does a refusal. -/
theorem code_agenda_irrelevant {w : Session} {b : Builder} (hlibrary : b.library = w.library)
    (hdistinct : b.LocalsDistinct) (agenda agenda' : Deferred.Agenda) :
    (∃ text, ((code agenda).run.run b).1 = .ok text ∧ ((code agenda').run.run b).1 = .ok text) ∨
      ∃ e e', ((code agenda).run.run b).1 = .error e ∧ ((code agenda').run.run b).1 = .error e' := by
  have hl : Yields Listed b.library := hlibrary ▸ listed_library w
  have hk : ∀ agenda agenda' text, (b.plan agenda >>= fun p => (outcome Program.text p).1) = .ok text →
      (b.plan agenda' >>= fun p => (outcome Program.text p).1) = .ok text := by
    intro agenda agenda' text h
    obtain ⟨p, hp, htext⟩ := bind_eq_ok.mp h
    obtain ⟨p', hp', hal⟩ := plan_alike hl hdistinct hp agenda'
    exact bind_eq_ok.mpr ⟨p', hp', (hal.text text).mp htext⟩
  have ha : Agree (outcome (code agenda) b).1 (outcome (code agenda') b).1 := by
    unfold code
    cases hpr : b.program with
    | some p =>
      rw [outcome_ask_known _ agenda hpr, outcome_ask_known _ agenda' hpr]
      exact Agree.refl _
    | none =>
      rw [outcome_ask _ agenda hpr, outcome_ask _ agenda' hpr]
      exact fun text => ⟨hk agenda agenda' text, hk agenda' agenda text⟩
  exact ha.cases

/-! A model that adds two outputs of one grid, and the names looked up the other way round. -/

def lineFile : Archive :=
  [("_grid_spec", .array (.ofText "x -> y, z")), ("_bounds", .array (.ofText "")),
    ("_shape", .array (.ofCounts [2])), ("x", .array (.ofCounts [0, 1])),
    ("y", .array (.ofCounts [3, 5])), ("z", .array (.ofCounts [8, 4]))]

def lineSession : Session where
  store := ⟨[(["grids", "t.npz"], .archive lineFile)], [[], ["grids"]]⟩

def lineModel : Builder where
  library := lineSession.library
  assignments := [⟨["t__y", "t__z"], "v.s", "\x7bt__y\x7d + \x7bt__z\x7d"⟩]
  priors := [⟨"p.x", .str "uniform", .list [.int 0, .int 1]⟩]

def backwards : Deferred.Agenda :=
  ⟨reverse, reverse_perm⟩

def lineGrid : Grid where
  name := "t"
  spec := "x -> y, z"
  inputs := ["x"]
  outputs := ["y", "z"]
  derived := []
  bounds := .ofText ""
  shape := .ofCounts [2]
  citations := ""
  notes := ""
  version := ""
  mappings := [(.str "x", .str "p.x--i")]
  data := lineFile

lemma library_lineSession : lineSession.library = .ok [("t", lineGrid)] := rfl

theorem code_agenda_irrelevant_backwards : lineModel.LocalsDistinct ∧
      ((∃ text, ((code .sorted).run.run lineModel).1 = .ok text ∧ ((code backwards).run.run lineModel).1 = .ok text) ∨
        ∃ e e', ((code .sorted).run.run lineModel).1 = .error e ∧
          ((code backwards).run.run lineModel).1 = .error e') := by
  have hd : lineModel.LocalsDistinct := by
    unfold LocalsDistinct
    decide +kernel
  exact ⟨hd, code_agenda_irrelevant (w := lineSession) rfl hd .sorted backwards⟩

end Builder

end GridBayes
