import GridBayes.Proofs.PriorText
import GridBayes.Proofs.ProgramHistory

/-! What a forward model remembers. Local variables keep their values from one call to the next. A call does not
depend on the calls before it if it reads no local variable before assigning it. The order of the assignments sees
to that, except for an assignment that reads its own target: what an assignment provides is not counted among what
it requires. -/
namespace GridBayes
open List Operation Template Except Equation Interpretation Function

namespace Interpretation

variable {V : Type} (I : Interpretation V)

def withParams (params σ : Symbol → V) : Symbol → V :=
  fun s => if s.isKind .param then params s else σ s

def call (order : List Equation) (σ params : Symbol → V) : Symbol → V :=
  I.execute order (withParams params σ)

def calls (order : List Equation) (σ : Symbol → V) (history : List (Symbol → V)) : Symbol → V :=
  history.foldl (I.call order) σ

def trace : List Equation → (Symbol → V) → List V
  | [], _ => []
  | e :: order, σ => I.value e.source σ :: trace order (I.carryOut σ e)

variable {I}

lemma trace_append (before after : List Equation) (σ : Symbol → V) :
    I.trace (before ++ after) σ = I.trace before σ ++ I.trace after (I.execute before σ) := by
  induction before generalizing σ with
  | nil => rfl
  | cons e before ih =>
    rw [cons_append, trace, trace, ih]
    rfl

lemma length_trace (order : List Equation) (σ : Symbol → V) : (I.trace order σ).length = order.length := by
  induction order generalizing σ with
  | nil => rfl
  | cons e order ih => rw [trace, length_cons, ih, length_cons]

lemma execute_cons (e : Equation) (order : List Equation) (σ : Symbol → V) :
    I.execute (e :: order) σ = I.execute order (I.carryOut σ e) := rfl

lemma calls_of_not_target {order : List Equation} {s : Symbol} (hs : s ∉ order.map target)
    (hkind : s.isKind .param = false) (σ : Symbol → V) (history : List (Symbol → V)) :
    I.calls order σ history s = σ s := by
  induction history generalizing σ with
  | nil => rfl
  | cons params history ih =>
    have hcall : I.call order σ params s = σ s := by
      rw [call, execute_of_not_target hs, withParams, hkind]
      rfl
    exact (ih (I.call order σ params)).trans hcall

end Interpretation

/-! ## Reads of what is not set -/

/-- The local variables that assignments read unknown, neither at the start nor assigned earlier. -/
def unsetReads : List Symbol → List Equation → List (Equation × Symbol)
  | _, [] => []
  | known, e :: order =>
    ((symbols e.source).filter fun s => s.isKind .localVar && !known.contains s).map (e, ·)
      ++ unsetReads (e.target :: known) order

variable {order : List Equation} {e : Equation} {s : Symbol}

lemma mem_unsetReads {known : List Symbol} :
    (e, s) ∈ unsetReads known order ↔ s ∈ symbols e.source ∧ s.isKind .localVar = true ∧ s ∉ known ∧
        ∃ before after, order = before ++ e :: after ∧ s ∉ before.map target := by
  induction order generalizing known with
  | nil => simp [unsetReads]
  | cons f order ih =>
    rw [unsetReads, mem_append, ih]
    constructor
    · rintro (hf | ⟨hs, hkind, hk, before, after, rfl, hb⟩)
      · obtain ⟨t, ht, hpair⟩ := mem_map.mp hf
        cases hpair
        obtain ⟨hs, hnew⟩ := mem_filter.mp ht
        rw [Bool.and_eq_true, Bool.not_eq_true', ← Bool.not_eq_true, contains_iff_mem] at hnew
        exact ⟨hs, hnew.1, hnew.2, [], order, rfl, not_mem_nil⟩
      · rw [mem_cons, not_or] at hk
        refine ⟨hs, hkind, hk.2, f :: before, after, rfl, ?_⟩
        rw [map_cons, mem_cons, not_or]
        exact ⟨hk.1, hb⟩
    · rintro ⟨hs, hkind, hk, before, after, hsp, hb⟩
      cases before with
      | nil =>
        cases hsp
        refine .inl (mem_map.mpr ⟨s, mem_filter.mpr ⟨hs, ?_⟩, rfl⟩)
        rw [Bool.and_eq_true, Bool.not_eq_true', ← Bool.not_eq_true, contains_iff_mem]
        exact ⟨hkind, hk⟩
      | cons g before =>
        cases hsp
        rw [map_cons, mem_cons, not_or] at hb
        refine .inr ⟨hs, hkind, ?_, before, after, rfl, hb.2⟩
        rw [mem_cons, not_or]
        exact ⟨hb.1, hk⟩

lemma target_of_unsetReads (hruns : Order.Runs .localVar (order.map component))
    (h : (e, s) ∈ unsetReads [] order) : s = e.target := by
  obtain ⟨hs, hkind, -, before, after, rfl, hb⟩ := mem_unsetReads.mp h
  by_contra hne
  have hr : s ∈ Order.Part.requires e.component := (SymbolSet.mem_diff s _ _).mpr ⟨hs, by simpa using hne⟩
  obtain ⟨c, hc, hp⟩ := hruns (before.map component) e.component (after.map component) (by simp) s hr hkind
  obtain ⟨f, hf, rfl⟩ := mem_map.mp hc
  obtain rfl : s = f.target := mem_singleton.mp hp
  exact hb (mem_map_of_mem hf)

/-! ## What is remembered -/

/-- Whatever was called before, a call assigns the same values. -/
def SameTrace (order : List Equation) : Prop :=
  ∀ (V : Type) (I : Interpretation V) (start params : Symbol → V) (history : List (Symbol → V)),
    I.trace order (withParams params (I.calls order start history)) = I.trace order (withParams params start)

/-- Whatever was called before, all variables have the same values after a call. -/
def SameState (order : List Equation) : Prop :=
  ∀ (V : Type) (I : Interpretation V) (start params : Symbol → V) (history : List (Symbol → V)),
    I.call order (I.calls order start history) params = I.call order start params

namespace Interpretation

variable {V : Type} {I : Interpretation V}

variable {order : List Equation}

lemma trace_congr {known : List Symbol} {σ τ : Symbol → V} (hset : unsetReads known order = [])
    (h : ∀ s, s.isKind .localVar = false ∨ s ∈ known → σ s = τ s) :
    I.trace order σ = I.trace order τ ∧ ∀ s, s.isKind .localVar = false ∨ s ∈ known ∨ s ∈ order.map target →
        I.execute order σ s = I.execute order τ s := by
  induction order generalizing known σ τ with
  | nil => exact ⟨rfl, fun s hs => h s (by simpa using hs)⟩
  | cons e order ih =>
    rw [unsetReads, append_eq_nil_iff, map_eq_nil_iff, filter_eq_nil_iff] at hset
    have hv : I.value e.source σ = I.value e.source τ := by
      refine I.mentioned _ _ _ fun s hs => h s ?_
      have hk := hset.1 s hs
      cases hkind : s.isKind .localVar with
      | false => exact .inl rfl
      | true => simpa [hkind] using hk
    have hstep : ∀ s, s.isKind .localVar = false ∨ s ∈ e.target :: known → I.carryOut σ e s = I.carryOut τ e s := by
      intro s hs
      unfold carryOut
      rw [hv]
      by_cases he : s = e.target
      · rw [he, update_self, update_self]
      · rw [update_of_ne he, update_of_ne he]
        exact h s (hs.imp_right fun hmem => (mem_cons.mp hmem).resolve_left he)
    obtain ⟨ht, hex⟩ := ih hset.2 hstep
    refine ⟨by rw [trace, trace, hv, ht], fun s hs => hex s ?_⟩
    rw [map_cons, mem_cons] at hs
    rw [mem_cons]
    tauto

lemma withParams_calls (hl : ∀ e ∈ order, e.IsLocal) (start params : Symbol → V) (history : List (Symbol → V))
    {s : Symbol} (hs : s.isKind .localVar = false ∨ s ∉ order.map target) :
    withParams params (I.calls order start history) s = withParams params start s := by
  have hnot : s ∉ order.map target := by
    rcases hs with hkind | hnot
    · intro hmem
      obtain ⟨e, he, rfl⟩ := mem_map.mp hmem
      rw [(hl e he).isKind] at hkind
      cases hkind
    · exact hnot
  unfold withParams
  cases hp : s.isKind .param with
  | true => rfl
  | false => exact calls_of_not_target hnot hp start history

end Interpretation

lemma sameTrace_of_set (hl : ∀ e ∈ order, e.IsLocal) (h : unsetReads [] order = []) : SameTrace order := by
  intro V I start params history
  refine (trace_congr h fun s hs => ?_).1
  exact withParams_calls hl start params history (.inl (by simpa using hs))

lemma sameState_of_set (hl : ∀ e ∈ order, e.IsLocal) (h : unsetReads [] order = []) : SameState order := by
  intro V I start params history
  funext s
  by_cases hta : s ∈ order.map target
  · refine (trace_congr h fun t ht => ?_).2 s (.inr (.inr hta))
    exact withParams_calls hl start params history (.inl (by simpa using ht))
  · unfold call
    rw [execute_of_not_target hta, execute_of_not_target hta]
    exact withParams_calls hl start params history (.inr hta)

/-! ## An unset read is noticed -/

def counting : Interpretation Nat where
  value source σ := ((symbols source).map σ).sum + 1
  mentioned source σ τ h := by rw [map_congr_left h]

lemma counting_mono (order : List Equation) {σ τ : Symbol → Nat} (h : ∀ s, σ s ≤ τ s) (s : Symbol) :
    counting.execute order σ s ≤ counting.execute order τ s := by
  induction order generalizing σ τ with
  | nil => exact h s
  | cons e order ih =>
    refine ih fun t => ?_
    unfold carryOut
    by_cases he : t = e.target
    · rw [he, update_self, update_self]
      exact Nat.succ_le_succ (sum_le_sum fun u _ => h u)
    · rw [update_of_ne he, update_of_ne he]
      exact h t

lemma counting_pos (hs : s ∈ order.map target) (σ : Symbol → Nat) : 0 < counting.execute order σ s := by
  induction order generalizing σ with
  | nil => cases hs
  | cons e order ih =>
    by_cases hrest : s ∈ order.map target
    · exact ih hrest _
    · obtain rfl : s = e.target := by
        rw [map_cons, mem_cons] at hs
        exact hs.resolve_right hrest
      rw [execute_cons, execute_of_not_target hrest]
      unfold carryOut
      rw [update_self]
      exact Nat.succ_pos _

lemma counting_grows {before : List Equation} (after : List Equation) (hl : e.IsLocal)
    (hself : e.target ∈ symbols e.source) (hb : e.target ∉ before.map target) :
    counting.value e.source (counting.execute before (withParams 0 0)) <
      counting.value e.source (counting.execute before
        (withParams 0 (counting.calls (before ++ e :: after) 0 [0]))) := by
  have hle : ∀ s, withParams (0 : Symbol → Nat) 0 s ≤ withParams 0 (counting.calls (before ++ e :: after) 0 [0]) s := by
    intro s
    unfold withParams
    split
    · exact Nat.le_refl _
    · exact Nat.zero_le _
  have hp : e.target.isKind .param = false := by
    obtain ⟨name, hname, -⟩ := hl
    rw [hname]
    rfl
  refine Nat.succ_lt_succ (sum_lt_sum _ _ (fun s _ => counting_mono before hle s) ⟨e.target, hself, ?_⟩)
  rw [execute_of_not_target hb, execute_of_not_target hb]
  unfold withParams
  rw [hp]
  exact counting_pos (by simp) _

lemma sameTrace_iff (hl : ∀ e ∈ order, e.IsLocal) (hruns : Order.Runs .localVar (order.map component)) :
    SameTrace order ↔ unsetReads [] order = [] := by
  constructor
  · intro hsame
    by_contra hr
    obtain ⟨⟨e, s⟩, hread⟩ := exists_mem_of_ne_nil _ hr
    obtain rfl := target_of_unsetReads hruns hread
    obtain ⟨hself, -, -, before, after, rfl, hb⟩ := mem_unsetReads.mp hread
    have hg := counting_grows after (hl e (by simp)) hself hb
    have ht := hsame Nat counting 0 0 [0]
    rw [trace_append, trace_append] at ht
    have hle : (counting.trace before (withParams 0 (counting.calls (before ++ e :: after) 0 [0]))).length =
        (counting.trace before (withParams 0 0)).length := by
      rw [length_trace, length_trace]
    have hrest := (append_inj ht hle).2
    exact absurd (cons.inj hrest).1 (Nat.ne_of_gt hg)
  · exact sameTrace_of_set hl

lemma sameState_iff (hl : ∀ e ∈ order, e.IsLocal) (hruns : Order.Runs .localVar (order.map component))
    (hd : (order.map target).Nodup) : SameState order ↔ ∀ e ∈ order, e.target ∉ symbols e.source := by
  constructor
  · intro hsame e he hself
    obtain ⟨before, after, rfl⟩ := append_of_mem he
    rw [map_append] at hd
    obtain ⟨-, hrest, hap⟩ := nodup_append.mp hd
    have hb : e.target ∉ before.map target := fun hmem => hap _ hmem _ mem_cons_self rfl
    have ha := (nodup_cons.mp hrest).1
    have hlast : ∀ σ, counting.call (before ++ e :: after) σ 0 e.target =
        counting.value e.source (counting.execute before (withParams 0 σ)) := by
      intro σ
      unfold call
      rw [execute_append, execute_cons, execute_of_not_target ha]
      exact update_self _ _ _
    have hs := congrFun (hsame Nat counting 0 0 [0]) e.target
    rw [hlast, hlast] at hs
    exact absurd hs (Nat.ne_of_gt (counting_grows after (hl e (by simp)) hself hb))
  · intro hex
    refine sameState_of_set hl (eq_nil_iff_forall_not_mem.mpr ?_)
    rintro ⟨e, s⟩ hread
    obtain rfl := target_of_unsetReads hruns hread
    obtain ⟨hself, -, -, before, after, rfl, -⟩ := mem_unsetReads.mp hread
    exact hex e (by simp) hself

/-- What a forward model with this order remembers. -/
structure Memory (order : List Equation) : Prop where
  own : ∀ e s, (e, s) ∈ unsetReads [] order → s = e.target
  trace : SameTrace order ↔ unsetReads [] order = []
  state : unsetReads [] order = [] → SameState order
  distinct : (order.map target).Nodup → (SameState order ↔ ∀ e ∈ order, e.target ∉ symbols e.source)

lemma memory_of_runs (hl : ∀ e ∈ order, e.IsLocal)
    (hruns : Order.Runs .localVar (order.map component)) : Memory order where
  own _ _ := target_of_unsetReads hruns
  trace := sameTrace_iff hl hruns
  state := sameState_of_set hl
  distinct := sameState_iff hl hruns

/-! ## Programs whose forward model consists of assignments -/

namespace Program
open Template

inductive AddsEquation : Step → Equation → Prop where
  | assign {target source : String} {e : Equation} (h : ofCall target source = .ok e) :
      AddsEquation (.add (.assign (.str target) (.str source))) e

variable {s : Step} {e : Equation} {c : Component} {steps : List Step} {vars : Variables}

lemma AddsEquation.isLocal (h : AddsEquation s e) : e.IsLocal := by
  cases h with
  | assign h => exact target_ofCall h

lemma addsEquation_of_assigned {target source : Value} (h : Component.assignmentOf target source = .ok c) :
    ∃ e, AddsEquation (.add (.assign target source)) e ∧ c = e.component := by
  obtain ⟨name, hname, hc⟩ := bind_eq_ok.mp h
  obtain ⟨_, -, hread⟩ := bind_eq_ok.mp hc
  obtain ⟨text, htext, ha⟩ := bind_eq_ok.mp hread
  obtain ⟨e, he, rfl⟩ := ofAssignment_iff.mp ha
  rw [needText_eq_ok hname, needText_eq_ok htext]
  exact ⟨e, .assign he, rfl⟩

lemma addsComponent_cases (h : AddsComponent s c) (hs : ∀ source, s ≠ .add (.expression source)) :
    c.isLikelihood = true ∨ ∃ e, AddsEquation s e ∧ c = e.component := by
  cases h with
  | expression _ => exact absurd rfl (hs _)
  | assign hmade => exact .inr (addsEquation_of_assigned hmade)
  | constraint hmade =>
    obtain ⟨d, -, rfl⟩ := map_eq_ok.mp hmade
    exact .inl rfl

lemma equations_of_added {components : List Component} (h : Forall₂ AddsComponent steps components)
    (hst : ∀ source, Step.add (.expression source) ∉ steps) :
    ∃ kept eqs, kept.Sublist steps ∧ Forall₂ AddsEquation kept eqs ∧
      components.filter (!·.isLikelihood) = eqs.map component := by
  induction h with
  | nil => exact ⟨[], [], .slnil, .nil, rfl⟩
  | @cons s c steps components hadds _ ih =>
    obtain ⟨kept, eqs, hkept, hmade, hf⟩ := ih fun source hmem => hst source (mem_cons_of_mem s hmem)
    rcases addsComponent_cases hadds fun source hs => hst source (hs ▸ mem_cons_self) with
      hlike | ⟨e, he, rfl⟩
    · refine ⟨kept, eqs, hkept.cons s, hmade, ?_⟩
      rw [filter_cons_of_neg (by rw [hlike]; decide), hf]
    · refine ⟨s :: kept, e :: eqs, hkept.cons_cons s, .cons he hmade, ?_⟩
      rw [filter_cons_of_pos (by rw [e.isLikelihood_component]; rfl), hf, map_cons]

lemma equations_after (hs : ∀ source, Step.add (.expression source) ∉ steps) :
    ∃ kept eqs, kept.Sublist steps ∧ Forall₂ AddsEquation kept eqs ∧
      (after steps).components.filter (!·.isLikelihood) = eqs.map component := by
  obtain ⟨added, ha, hmade⟩ := components_after steps
  obtain ⟨kept, eqs, hkept, heqs, hf⟩ := equations_of_added hmade fun source hmem => hs source (ha.subset hmem)
  exact ⟨kept, eqs, hkept.trans ha, heqs, hf⟩

lemma target_mem_locals {code : String} (hvars : vars.Grouped) (hlo : e.IsLocal)
    (h : block vars.mapping "    " e.component.code = .ok code) : e.target ∈ vars.locals := by
  obtain ⟨name, hname, hword⟩ := hlo
  obtain ⟨text, htext, -⟩ := map_eq_ok.mp h
  have hcode : e.component.code = e.target.bracketed ++ (" = " ++ ofSource e.source) := String.append_assoc ..
  have hc : Closed e.target.bracketed.toList := by
    rw [hname]
    exact closed_var hword
  rw [hcode] at htext
  obtain ⟨place, _, hp, -⟩ := (fill_append_iff hc).mp htext
  rw [hname] at hp
  have hl := (Prior.fillNamed_var hword).mp hp
  rw [← hname] at hl
  have hkind : e.target.isKind .localVar = true := by
    rw [hname]
    rfl
  rcases (Variables.lookup_mapping_iff hvars (Symbol.isLiteral_of_isKind hkind)).mp hl with
    ⟨hco | hmem, -⟩ | ⟨i, hi, -⟩
  · exact absurd (Symbol.isKind_unique hkind (hvars.constants _ hco)) (by decide)
  · exact hmem
  · exact absurd (Symbol.isKind_unique hkind (hvars.params _ (mem_of_getElem? hi))) (by decide)

/-- The blocks assign the targets, with places for the variables of right-hand sides without braces. -/
structure Computes (vars : Variables) (order : List Equation) (blocks : List String) : Prop where
  carries : Forall₂ (CarriesOut vars) order blocks
  plain : ∀ e ∈ order, Unbraced e.source →
    fillNamed vars.mapping (ofSource e.source) = .ok (placed vars.mapping e.source)

lemma computes_of_blocks {order : List Equation} {blocks : List String} (hvars : vars.Grouped)
    (hl : ∀ e ∈ order, e.IsLocal)
    (h : Forall₂ (fun e b => block vars.mapping "    " e.component.code = .ok b) order blocks) :
    Computes vars order blocks := by
  have hc : Forall₂ (CarriesOut vars) order blocks := by
    refine Forall₂.imp ?_ ((forall₂_and_left order blocks).mpr ⟨hl, h⟩)
    rintro e code ⟨he, hcode⟩
    have hmem := target_mem_locals hvars he hcode
    obtain ⟨name, hname, hword⟩ := he
    exact carriesOut_of_block hname hword hmem hcode
  refine ⟨hc, fun e he hp => ?_⟩
  obtain ⟨b, -, rhs, hrhs, -⟩ := exists_of_forall₂ hc.flip e he
  rw [hrhs, ((fillNamed_ofSource hp.1 hp.2).mp hrhs).2]

/-- After steps that add no free code, the forward model carries out the added assignments in some order. A call
reads a local variable before assigning it only where an assignment reads its own target. Calls assign the same
values exactly if there is no such read, and then leave nothing behind; with different targets the converse holds
too. -/
theorem text_forward_memory {steps : List Step} {text : String}
    (hsteps : ∀ source, Step.add (.expression source) ∉ steps)
    (h : (Program.text.run.run (after steps)).1 = .ok text) :
    ∃ vars order blocks outs quantile logPrior logLike, (after steps).classified = .ok vars ∧
      text = Text.join "\n" (renderHeader (after steps) vars ++
        [quantile, logPrior, forwardMethod blocks outs, logLike]) ++ "\n" ∧
      (∃ kept eqs, kept.Sublist steps ∧ List.Forall₂ AddsEquation kept eqs ∧ order.Perm eqs ∧
        (after steps).components.filter (!·.isLikelihood) = eqs.map Equation.component) ∧
      Computes vars order blocks ∧ Memory order := by
  obtain ⟨-, -, -, vars, hvars, -, m, rfl⟩ := text_iff.mp h
  obtain ⟨ordered, blocks, outs, hor, hb, hfo⟩ := forwardOf_eq_ok m.forward_eq
  obtain ⟨kept, eqs, hkept, ha, hf⟩ := equations_after hsteps
  obtain ⟨hso, hruns⟩ := Order.sort_sound hor
  have hperm : ordered.Perm (eqs.map Equation.component) := by
    rw [← hf]
    exact hso.trans (Text.sortBy_perm _ _)
  obtain ⟨order, ho, rfl⟩ := exists_order hperm
  have hl : ∀ e ∈ order, e.IsLocal := by
    intro e he
    obtain ⟨s, -, hs⟩ := exists_of_forall₂ ha e (ho.subset he)
    exact hs.isLocal
  obtain ⟨early, late, rfl, hfi⟩ := fixedAt_of_classified hvars
  have hc := computes_of_blocks (Variables.grouped_of_collect hfi.collected) hl (List.forall₂_map_left_iff.mp hb)
  refine ⟨vars, order, blocks, outs, m.quantile, m.logPrior, m.logLike, hvars, ?_,
    ⟨kept, eqs, hkept, ha, ho, hf⟩, hc, memory_of_runs hl hruns⟩
  rw [Methods.text, hfo]

def chained : List Step :=
  [.add (.assign (.str "a") (.str "v.b + 1")), .add (.assign (.str "b") (.str "p.x")),
   .add (.prior (.str "p.x") (.str "uniform") (.list [.str "0", .str "1"]))]

lemma text_chained : ∃ text, (Program.text.run.run (after chained)).1 = .ok text := exists_ok (by decide +kernel)

lemma equation_chained (hs : s ∈ chained) (h : AddsEquation s e) : e.target ∉ symbols e.source := by
  cases h with
  | @assign target source _ hcall =>
    have hc : (target = "a" ∧ source = "v.b + 1") ∨ (target = "b" ∧ source = "p.x") := by simpa [chained] using hs
    rcases hc with ⟨rfl, rfl⟩ | ⟨rfl, rfl⟩
    · obtain rfl : ⟨.var .localVar "a", "v.b + 1"⟩ = e := ok.inj hcall
      decide
    · obtain rfl : ⟨.var .localVar "b", "p.x"⟩ = e := ok.inj hcall
      decide

theorem text_forward_memory_chained : (∀ source, Step.add (.expression source) ∉ chained) ∧
      ∃ text order, (Program.text.run.run (after chained)).1 = .ok text ∧ order.length = 2 ∧ Memory order ∧
        SameState order := by
  have hs : ∀ source, Step.add (.expression source) ∉ chained := by simp [chained]
  obtain ⟨text, htext⟩ := text_chained
  obtain ⟨vars, order, -, -, -, -, -, -, -, ⟨kept, eqs, hkept, ha, hperm, hf⟩, -, hm⟩ := text_forward_memory hs htext
  have hset : unsetReads [] order = [] := by
    refine List.eq_nil_iff_forall_not_mem.mpr ?_
    rintro ⟨e, s⟩ hread
    obtain rfl := hm.own e s hread
    obtain ⟨hself, -, -, before, after, rfl, -⟩ := mem_unsetReads.mp hread
    obtain ⟨step, hstep, hadds⟩ := exists_of_forall₂ ha e (hperm.subset (by simp))
    exact equation_chained (hkept.subset hstep) hadds hself
  have hl : order.length = 2 := by
    rw [hperm.length_eq, ← List.length_map Equation.component, ← hf]
    rfl
  exact ⟨hs, text, order, htext, hl, hm, hm.state hset⟩

def increased : List Step :=
  [.add (.assign (.str "v.x") (.str "v.x + p.a")),
   .add (.prior (.str "p.a") (.str "uniform") (.list [.str "0", .str "1"]))]

def increasedOrder : List Equation :=
  [⟨.var .localVar "x", "v.x + p.a"⟩]

lemma symbols_increased : symbols "v.x + p.a" = [.var .param "a", .var .localVar "x"] := rfl

lemma reads_increased : unsetReads [] increasedOrder = [(⟨.var .localVar "x", "v.x + p.a"⟩, .var .localVar "x")] := by
  rfl

lemma call_increased (σ : Symbol → Nat) :
    sums.call increasedOrder σ 1 (.var .localVar "x") = σ (.var .localVar "x") + 1 := by
  have hv : ∀ τ, sums.value "v.x + p.a" τ = τ (.var .param "a") + (τ (.var .localVar "x") + 0) := by
    intro τ
    rw [sums]
    dsimp only
    rw [symbols_increased, map_cons, map_cons, sum_cons, sum_cons, map_nil, sum_nil]
  have hcall : sums.call increasedOrder σ 1 (.var .localVar "x") = sums.value "v.x + p.a" (withParams 1 σ) := by
    rw [call, increasedOrder, execute_cons, execute_of_not_target not_mem_nil, carryOut, update_self]
  exact Nat.add_comm _ _

lemma calls_increased : sums.call increasedOrder 0 1 (.var .localVar "x") = 1 ∧
      sums.call increasedOrder (sums.calls increasedOrder 0 [1]) 1 (.var .localVar "x") = 2 := by
  have hf := call_increased 0
  refine ⟨hf, (call_increased _).trans ?_⟩
  exact congrArg (· + 1) hf

/-- The variable is read before it is assigned, and the second call differs from the first. -/
theorem text_remembers_increased : ∃ header quantile logPrior logLike, (Program.text.run.run (after increased)).1 =
        .ok (Text.join "\n" (header ++ [quantile, logPrior,
          forwardMethod ["    self.v__x = self.v__x + params[0]"] [], logLike]) ++ "\n") ∧
      unsetReads [] increasedOrder = [(⟨.var .localVar "x", "v.x + p.a"⟩, .var .localVar "x")] ∧
      sums.call increasedOrder 0 1 (.var .localVar "x") = 1 ∧
      sums.call increasedOrder (sums.calls increasedOrder 0 [1]) 1 (.var .localVar "x") = 2 :=
  ⟨renderHeader (after increased) ⟨[.var .param "a"], [.var .param "a"], [], [.var .localVar "x"]⟩,
    quantileMethod ["    params[0] = uniform_ppf(params[0], 0, 1)"],
    logPriorMethod ["    logP += uniform_lpdf(params[0], 0, 1)"], likelihoodMethod [], by decide +kernel,
    reads_increased, calls_increased⟩

end Program

end GridBayes
