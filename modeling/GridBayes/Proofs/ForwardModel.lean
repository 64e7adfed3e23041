import GridBayes.Proofs.Equation
import GridBayes.Proofs.ProgramText
import Mathlib

/-! The forward model solves its equations. Assignments with different targets that do not mention
themselves are equations for their targets. The assignments that the text of the forward model
carries out lead, from any contents of the local variables, to the values that satisfy all
equations at once, and the text does not depend on the order in which the assignments were made. -/
namespace GridBayes
open List Operation Template Except Equation SymbolSet

/-! ## Carrying out assignments -/

/-- A reading of code: the value of a right-hand side, given those of its variables. -/
structure Interpretation (V : Type) where
  value : String → (Symbol → V) → V
  mentioned : ∀ source σ τ, (∀ s ∈ symbols source, σ s = τ s) → value source σ = value source τ

structure Proper (order : List Equation) : Prop where
  distinct : (order.map target).Nodup
  explicit : ∀ e ∈ order, e.target ∉ symbols e.source
  locals : ∀ e ∈ order, e.target.isKind .localVar = true

namespace Interpretation

variable {V : Type} (I : Interpretation V)

def carryOut (σ : Symbol → V) (e : Equation) : Symbol → V :=
  Function.update σ e.target (I.value e.source σ)

def execute (order : List Equation) (σ : Symbol → V) : Symbol → V :=
  order.foldl I.carryOut σ

variable {I}

lemma execute_append (before after : List Equation) (σ : Symbol → V) :
    I.execute (before ++ after) σ = I.execute after (I.execute before σ) :=
  foldl_append

variable {order : List Equation} {s : Symbol} {σ τ : Symbol → V} {e : Equation} {provided : SymbolSet}

lemma execute_of_not_target (h : s ∉ order.map target) : I.execute order σ s = σ s := by
  induction order generalizing σ with
  | nil => rfl
  | cons e order ih =>
    obtain ⟨hne, hrest⟩ : s ≠ e.target ∧ s ∉ order.map target := by simpa only [map_cons, mem_cons, not_or] using h
    show I.execute order (I.carryOut σ e) s = σ s
    rw [ih hrest]
    exact Function.update_of_ne hne _ _

lemma mentioned_settled {before after : List Equation} (hp : Proper (before ++ e :: after))
    (hruns : Order.Runs .localVar ((before ++ e :: after).map component))
    (hs : s ∈ symbols e.source) : s ∉ (e :: after).map target := by
  have hself : s ≠ e.target := fun h => hp.explicit e (by simp) (h ▸ hs)
  cases hkind : s.isKind .localVar with
  | false =>
    intro hmem
    obtain ⟨e', he', rfl⟩ := mem_map.mp hmem
    rw [hp.locals e' (mem_append_right before he')] at hkind
    cases hkind
  | true =>
    have hr : s ∈ Order.Part.requires e.component := (mem_diff s _ _).mpr ⟨hs, by simpa using hself⟩
    obtain ⟨c, hc, hpr⟩ := hruns (before.map component) e.component (after.map component) (by simp) s hr hkind
    obtain ⟨e', he', rfl⟩ := mem_map.mp hc
    obtain rfl : s = e'.target := mem_singleton.mp hpr
    have hd := hp.distinct
    rw [map_append] at hd
    exact fun hmem => (nodup_append.mp hd).2.2 _ (mem_map_of_mem he') _ hmem rfl

lemma execute_solves (hp : Proper order) (hruns : Order.Runs .localVar (order.map component))
    (σ : Symbol → V) : ∀ e ∈ order, I.execute order σ e.target = I.value e.source (I.execute order σ) := by
  intro e he
  obtain ⟨before, after, rfl⟩ := append_of_mem he
  have hl : e.target ∉ after.map target := by
    have hd := hp.distinct
    rw [map_append] at hd
    exact (nodup_cons.mp (nodup_append.mp hd).2.1).1
  have hv : I.execute (before ++ e :: after) σ e.target = I.value e.source (I.execute before σ) := by
    rw [execute_append]
    show I.execute after (I.carryOut (I.execute before σ) e) e.target = _
    rw [execute_of_not_target hl]
    exact Function.update_self _ _ _
  rw [hv]
  refine I.mentioned _ _ _ fun s hs => ?_
  rw [execute_append, execute_of_not_target (mentioned_settled hp hruns hs)]

lemma carryOut_congr (hex : e.target ∉ symbols e.source) (hre : Order.ready .localVar provided e.component = true)
    (h : ∀ s, s.isKind .localVar = false ∨ s ∈ provided → σ s = τ s) (s : Symbol)
    (hs : s.isKind .localVar = false ∨ s ∈ union [e.target] provided) :
    I.carryOut σ e s = I.carryOut τ e s := by
  have hv : I.value e.source σ = I.value e.source τ := by
    refine I.mentioned _ _ _ fun s hs => h s ?_
    have hself : s ≠ e.target := fun he => hex (he ▸ hs)
    cases hkind : s.isKind .localVar with
    | false => exact Or.inl rfl
    | true =>
      have hr : s ∈ Order.Part.requires e.component := (mem_diff s _ _).mpr ⟨hs, by simpa using hself⟩
      exact Or.inr ((Order.ready_iff _ _ _).mp hre s hr hkind)
  unfold carryOut
  rw [hv]
  by_cases he : s = e.target
  · rw [he, Function.update_self, Function.update_self]
  · rw [Function.update_of_ne he, Function.update_of_ne he]
    refine h s (hs.imp_right fun hmem => ?_)
    rw [mem_union, mem_singleton] at hmem
    exact hmem.resolve_left he

lemma execute_congr (he : ∀ e ∈ order, e.target ∉ symbols e.source)
    (hruns : Order.RunsFrom .localVar provided (order.map component))
    (h : ∀ s, s.isKind .localVar = false ∨ s ∈ provided → σ s = τ s) (s : Symbol)
    (hs : s.isKind .localVar = false ∨ s ∈ provided ∨ s ∈ order.map target) :
    I.execute order σ s = I.execute order τ s := by
  induction order generalizing provided σ τ with
  | nil => exact h s (by simpa using hs)
  | cons e order ih =>
    obtain ⟨hr, hrest⟩ := (Order.runsFrom_cons _ _ _ _).mp hruns
    have hstep := carryOut_congr (I := I) (he e mem_cons_self) hr h
    refine ih (fun e' he' => he e' (mem_cons_of_mem e he')) hrest hstep ?_
    rw [map_cons, mem_cons] at hs
    rcases hs with hs | hs | hs | hs
    · exact Or.inl hs
    · exact Or.inr (Or.inl ((mem_union s _ _).mpr (Or.inr hs)))
    · exact Or.inr (Or.inl ((mem_union s _ _).mpr (Or.inl (mem_singleton.mpr hs))))
    · exact Or.inr (Or.inr hs)

end Interpretation

/-! ## Programs made of assignments -/

namespace Program

def assignEach (p : Program) (calls : List (String × String)) : Except Fault Program :=
  calls.foldlM (fun p call => p.withPart (Component.ofAssignment call.1 call.2)) p

def Takes (p : Program) (call : String × String) (e : Equation) : Prop :=
  ofCall call.1 call.2 = .ok e ∧ p.Accepts e.component

def withEquations (p : Program) (eqs : List Equation) : Program :=
  { p with components := p.components ++ eqs.map component }

variable {p q : Program} {s : Symbol} {vars : Variables} {eqs order eqs' : List Equation} {text : String}

lemma assignEach_iff {calls : List (String × String)} : p.assignEach calls = .ok q ↔
      ∃ eqs, Forall₂ p.Takes calls eqs ∧ q = p.withEquations eqs := by
  refine foldlM_eq_ok Takes withEquations (fun p call q => ?_) (by simp [withEquations])
    (by simp [withEquations]) (fun _ _ _ _ => Iff.rfl)
  rw [withPart_iff]
  simp only [ofAssignment_iff]
  constructor
  · rintro ⟨_, ⟨⟨e, he, rfl⟩, ha⟩, rfl⟩
    exact ⟨e, ⟨he, ha⟩, rfl⟩
  · rintro ⟨e, ⟨he, ha⟩, rfl⟩
    exact ⟨_, ⟨⟨e, he, rfl⟩, ha⟩, rfl⟩

/-! ## The text of the forward model -/

lemma lookup_own {symbols : List Symbol} : (symbols.map fun t => (t.ident, "self." ++ t.ident)).lookup s.ident =
      if s.ident ∈ symbols.map Symbol.ident then some ("self." ++ s.ident) else none := by
  induction symbols with
  | nil => simp
  | cons t symbols ih =>
    rw [map_cons, lookup_cons, ih]
    by_cases h : s.ident = t.ident
    · simp [h]
    · have hbeq : (s.ident == t.ident) = false := by simpa using h
      simp [hbeq, h]

lemma lookup_mapping (h : s ∈ vars.locals) : vars.mapping.lookup s.ident = some ("self." ++ s.ident) := by
  unfold Variables.mapping Variables.places
  have hown : (vars.locals.map fun t => (t.ident, "self." ++ t.ident)).lookup s.ident = some ("self." ++ s.ident) := by
    rw [lookup_own, if_pos (mem_map_of_mem h)]
  rw [lookup_append, lookup_append, hown, lookup_own]
  split <;> rfl

/-- A block carries out an equation: the target's place is assigned what stands for its right-hand side. -/
def CarriesOut (vars : Variables) (e : Equation) (code : String) : Prop :=
  ∃ rhs, fillNamed vars.mapping (ofSource e.source) = .ok rhs ∧
    code = indentLines "    " ("self." ++ e.target.ident ++ " = " ++ rhs)

lemma carriesOut_of_block {e : Equation} {name : List Char} {code : String}
    (ht : e.target = .var .localVar (String.ofList name)) (hword : ∀ c ∈ name, Text.isWord c = true)
    (hl : e.target ∈ vars.locals) (h : block vars.mapping "    " e.component.code = .ok code) :
    CarriesOut vars e code := by
  have hi : e.target.ident = String.ofList ('v' :: '_' :: '_' :: name) := by
    rw [ht, Symbol.ident_var]
    rfl
  have hpl : Template.IsPlainName ('v' :: '_' :: '_' :: name) := Symbol.isPlainName_ident .localVar hword
  have hp := lookup_mapping hl
  have hcode : e.component.code = "\x7b" ++ String.ofList ('v' :: '_' :: '_' :: name) ++ "\x7d"
      ++ " = " ++ ofSource e.source := by
    rw [← hi]
    show e.target.bracketed ++ " = " ++ _ = _
    rw [ht]
    rfl
  rw [hi] at hp
  unfold block at h
  rw [hcode, fillNamed_assignment hpl hp] at h
  unfold CarriesOut
  rw [hi]
  cases hfill : fillNamed vars.mapping (ofSource e.source) with
  | error f => rw [hfill] at h; cases h
  | ok rhs =>
    rw [hfill] at h
    exact ⟨rhs, rfl, (ok.inj h).symm⟩

def Emits (q : Program) (text : String) (order : List Equation) : Prop :=
  ∃ vars blocks outs, q.classified = .ok vars ∧ Forall₂ (CarriesOut vars) order blocks ∧
    text = method (["cdef void _forward_model(self, double[:] params):"] ++ blocks
      ++ ["    return\n"] ++ postprocessLines outs)

lemma filter_equations (eqs : List Equation) : (eqs.map component).filter (!·.isLikelihood) = eqs.map component := by
  rw [filter_eq_self]
  intro c hc
  obtain ⟨e, -, rfl⟩ := mem_map.mp hc
  rfl

lemma exists_order {ordered : List Component} (h : ordered.Perm (eqs.map component)) :
    ∃ order : List Equation, order.Perm eqs ∧ ordered = order.map component := by
  have hmap : Forall₂ (fun c e => c = component e) (eqs.map component) eqs :=
    forall₂_map_left_iff.mpr (forall₂_same.mpr fun e _ => rfl)
  obtain ⟨order, ho, hperm⟩ := perm_comp_forall₂ h hmap
  refine ⟨order, hperm, ?_⟩
  rw [← forall₂_eq_eq_eq, forall₂_map_right_iff]
  exact ho

lemma mem_locals {c : Component} (hf : q.frozen = none) (hvars : q.classified = .ok vars)
    (hc : c ∈ q.components) (hs : s ∈ c.provides) (hkind : s.isKind .localVar = true) : s ∈ vars.locals := by
  unfold classified at hvars
  rw [hf] at hvars
  unfold Variables.collect at hvars
  dsimp only at hvars
  split at hvars
  · cases hvars
  · split at hvars
    · cases hvars
    · obtain rfl := ok.inj hvars
      refine mem_filter.mpr ⟨(mem_union s _ _).mpr (Or.inl ?_), hkind⟩
      exact (Order.mem_symbols s _).mpr ⟨c, hc, Or.inr hs⟩

lemma emits_of_forwardOf (hf : q.frozen = none) (hq : q.components = eqs.map component)
    (hl : ∀ e ∈ eqs, e.IsLocal) (htext : q.forwardOf = .ok text) :
    ∃ order : List Equation, order.Perm eqs ∧ Order.Runs .localVar (order.map component) ∧ Emits q text order := by
  obtain ⟨vars, ordered, blocks, outs, hvars, ho, hb, rfl⟩ := forwardOf_cases htext
  unfold orderedForward at ho
  rw [hq, filter_equations] at ho
  have hs : (sortedComponents (eqs.map component)).Perm (eqs.map component) := Text.sortBy_perm _ _
  obtain ⟨hperm, hruns⟩ := Order.sort_sound ho
  obtain ⟨order, hor, rfl⟩ := exists_order (hperm.trans hs)
  have hc : Forall₂ (CarriesOut vars) order blocks := by
    refine Forall₂.imp ?_ ((forall₂_and_left order blocks).mpr ⟨fun e => hor.mem_iff.mp, forall₂_map_left_iff.mp hb⟩)
    rintro e code ⟨he, hcode⟩
    obtain ⟨name, hname, hword⟩ := hl e he
    have hmem : e.component ∈ q.components := hq ▸ mem_map_of_mem he
    exact carriesOut_of_block hname hword (mem_locals hf hvars hmem (mem_singleton_self e.target) (hl e he).isKind) hcode
  exact ⟨order, hor, hruns, vars, blocks, outs, hvars, hc, rfl⟩

/-! ## The order of the calls -/

lemma sameComponents_of_perm (hperm : eqs.Perm eqs') (hdi : (eqs.map target).Nodup)
    (hl : ∀ e ∈ eqs, e.IsLocal) : SameComponents (eqs.map component) (eqs'.map component) := by
  have h := sameComponents_between [] [] (hperm.map component) (fun c hc d hd hkey => ?_) (fun c hc => ?_)
  · simpa using h
  · obtain ⟨e, he, rfl⟩ := mem_map.mp hc
    obtain ⟨f, hf, rfl⟩ := mem_map.mp hd
    have ht := text_inj (hl e he).isLiteral (hl f hf).isLiteral hkey
    rw [inj_on_of_nodup_map hdi he hf ht]
  · obtain ⟨e, -, rfl⟩ := mem_map.mp hc
    exact e.isLikelihood_component

lemma alike_withEquations (he : p.components = []) (hperm : eqs.Perm eqs')
    (hd : (eqs.map target).Nodup) (hl : ∀ e ∈ eqs, e.IsLocal) :
    Alike (p.withEquations eqs) (p.withEquations eqs') where
  components := by
    simp only [withEquations, he]
    exact sameComponents_of_perm hperm hd hl
  priors := rfl
  imports := rfl
  autoConstants := Perm.refl _
  constantTypes _ := rfl
  outputs := rfl
  optionalTerms := rfl
  frozen := rfl
  defects := rfl

lemma Emits.of_alike {q' : Program} (h : Emits q text order) (ha : Alike q q') : Emits q' text order := by
  obtain ⟨vars, blocks, outs, hvars, hb, htext⟩ := h
  exact ⟨vars, blocks, outs, (ha.classified vars).mp hvars, hb, htext⟩

def emptied (p : Program) : Program :=
  { p with components := [], frozen := none }

/-- Calls assign to different variables, and no right-hand side mentions its own target. The text of the forward
model then carries out the equations in an order such that all hold in the end, from any values of the local
variables, and nothing else changes. The order of the calls does not matter. -/
theorem forwardText_solves {V : Type} (I : Interpretation V) {base q : Program}
    {calls : List (String × String)} {eqs : List Equation} {text : String}
    (hcalls : base.emptied.assignEach calls = .ok q)
    (heqs : calls.mapM (fun call => Equation.ofCall call.1 call.2) = .ok eqs)
    (hdistinct : (eqs.map Equation.target).Nodup)
    (hexplicit : ∀ e ∈ eqs, e.target ∉ Template.symbols e.source)
    (htext : (forwardText.run.run q).1 = .ok text) :
    ∃ order : List Equation, order.Perm eqs ∧ Emits q text order ∧
      (∀ σ, ∀ e ∈ eqs, I.execute order σ e.target = I.value e.source (I.execute order σ)) ∧
      (∀ σ s, s.isKind .localVar = false → I.execute order σ s = σ s) ∧
      (∀ σ τ, (∀ s, s.isKind .localVar = false → σ s = τ s) →
        ∀ e ∈ eqs, I.execute order σ e.target = I.execute order τ e.target) ∧
      ∀ calls', calls'.Perm calls → ∃ q', base.emptied.assignEach calls' = .ok q' ∧
        (forwardText.run.run q').1 = .ok text ∧ Emits q' text order := by
  obtain ⟨eqs', ht, rfl⟩ := assignEach_iff.mp hcalls
  have hu : eqs' = eqs := by
    refine List.right_unique_forall₂' ?_ (ht.imp fun call e h => h.1) (mapM_eq_ok.mp heqs)
    exact fun call e f he hf => Except.ok.inj (he.symm.trans hf)
  subst hu
  have hl : ∀ e ∈ eqs', e.IsLocal := by
    intro e he
    obtain ⟨call, -, hcall⟩ := exists_of_forall₂ (mapM_eq_ok.mp heqs) e he
    exact target_ofCall hcall
  have hfo : (base.emptied.withEquations eqs').forwardOf = .ok text := by
    rw [← outcome_forwardText]
    exact htext
  obtain ⟨order, hperm, hruns, hem⟩ := emits_of_forwardOf rfl rfl hl hfo
  have hp : Proper order :=
    { distinct := (hperm.map _).nodup_iff.mpr hdistinct
      explicit := fun e he => hexplicit e (hperm.mem_iff.mp he)
      locals := fun e he => (hl e (hperm.mem_iff.mp he)).isKind }
  refine ⟨order, hperm, hem, fun σ e he => ?_, fun σ s hs => ?_, fun σ τ h e he => ?_, fun calls' hc' => ?_⟩
  · exact Interpretation.execute_solves hp hruns σ e (hperm.mem_iff.mpr he)
  · refine Interpretation.execute_of_not_target fun hmem => ?_
    obtain ⟨e, he, rfl⟩ := List.mem_map.mp hmem
    rw [hp.locals e he] at hs
    cases hs
  · have hta : e.target ∈ order.map Equation.target := List.mem_map_of_mem (hperm.mem_iff.mpr he)
    refine Interpretation.execute_congr hp.explicit ((Order.runsFrom_empty _ _).mpr hruns)
      (fun s hs => ?_) e.target (Or.inr (Or.inr hta))
    exact h s (hs.resolve_right List.not_mem_nil)
  · obtain ⟨eqs, ht', hperm'⟩ := List.perm_comp_forall₂ hc' ht
    have ha : Alike (base.emptied.withEquations eqs') (base.emptied.withEquations eqs) :=
      alike_withEquations rfl hperm'.symm hdistinct hl
    refine ⟨_, assignEach_iff.mpr ⟨eqs, ht', rfl⟩, ?_, hem.of_alike ha⟩
    show (outcome forwardText _).1 = .ok text
    rw [outcome_forwardText]
    exact (ha.forwardOf text).mp hfo

def sums : Interpretation Nat where
  value source σ := ((symbols source).map σ).sum
  mentioned source σ τ h := by rw [map_congr_left h]

def lateProgram : Program :=
  ({} : Program).emptied.withEquations [⟨.var .localVar "b", "v.a + p.x"⟩, ⟨.var .localVar "a", "p.x"⟩]

lemma forwardText_late : ∃ text, (outcome forwardText lateProgram).1 = .ok text := exists_ok (by decide +kernel)

theorem forwardText_solves_late : ∃ q text order,
      ({} : Program).emptied.assignEach [("b", "v.a + p.x"), ("v.a", "p.x")] = .ok q ∧
      (forwardText.run.run q).1 = .ok text ∧ Emits q text order ∧
      ∀ σ : Symbol → Nat, sums.execute order σ (.var .localVar "b") =
          ((Template.symbols "v.a + p.x").map (sums.execute order σ)).sum := by
  have hc : ({} : Program).emptied.assignEach [("b", "v.a + p.x"), ("v.a", "p.x")] = .ok lateProgram := rfl
  obtain ⟨text, htext⟩ := forwardText_late
  obtain ⟨order, -, he, hs, -⟩ := forwardText_solves sums hc rfl (by decide) (by decide) htext
  exact ⟨_, text, order, hc, htext, he, fun σ => hs σ _ List.mem_cons_self⟩

end Program

end GridBayes
