import GridBayes.Proofs.ProgramHistory
import GridBayes.Proofs.VariablePlaces

/-! Local variables that are used and never assigned. The text of a program puts the components of its forward
model in order, and for these every local variable must be provided. The summary puts all components in order,
likelihood terms among them. So a likelihood term with a local variable that nothing provides has a text, but no
summary. -/
namespace GridBayes
open List Operation Template

namespace Component

lemma refusesOnly_display (c : Component) : RefusesOnly (· ∈ faults) c.display := by
  cases c with
  | expression requires provides code | assignment target requires code => exact (refusesOnly_fillNamed _ code).map _
  | likelihood call => exact refusesOnly_ok _

end Component

namespace Program
open GridBayes.Order

/-! ## The summary -/

variable {p : Program} {vars : Variables} {e : Fault} {components : List Component} {s : Symbol}

lemma Settled.classified {q : Program} (h : Settled p q) : q.classified = p.classified := by
  rcases h with rfl | ⟨vars, hvars, rfl⟩
  · rfl
  · rw [classified_frozen rfl, hvars]

lemma refusesOnly_frozenVariables {P : Fault → Prop} (h : p.classified = .ok vars) :
    RefusesOnly P (outcome frozenVariables p).1 := by
  rw [fst_frozenVariables, h]
  exact refusesOnly_ok vars

lemma refusesOnly_summaryComponents (h : p.classified = .ok vars) (components : List Component) :
    RefusesOnly (· ∈ faults) (outcome (summaryComponents components) p).1 := by
  induction components generalizing p vars with
  | nil => exact refusesOnly_ok _
  | cons c rest ih =>
    refine refusesOnly_outcome_bind (by rw [outcome_ofExcept]; exact c.refusesOnly_display) fun shown q hq => ?_
    obtain ⟨-, rfl⟩ := Prod.mk.inj ((outcome_ofExcept _ p).symm.trans hq)
    split
    · exact refusesOnly_outcome_bind (ih h) fun lines q _ => refusesOnly_ok _
    · refine refusesOnly_outcome_bind (refusesOnly_frozenVariables h) fun vars' q hq => ?_
      obtain ⟨-, rfl⟩ := frozenVariables_ok hq
      refine refusesOnly_outcome_bind ?_ fun line q hq => ?_
      · rw [outcome_ofExcept]
        exact refusesOnly_fillNamed _ shown
      · obtain ⟨-, rfl⟩ := Prod.mk.inj ((outcome_ofExcept _ _).symm.trans hq)
        exact refusesOnly_outcome_bind (ih (classified_frozen rfl)) fun lines q _ => refusesOnly_ok _

lemma refusesOnly_summary (h : p.classified = .ok vars) (fancy : Bool) :
    RefusesOnly (fun e => Order.sort .localVar p.components = .error e ∨ e ∈ faults) (outcome (summary fancy) p).1 := by
  unfold summary
  rw [outcome_bind_ok (outcome_get p)]
  refine refusesOnly_outcome_bind ?_ fun ordered q hq => ?_
  · rw [outcome_ofExcept]
    exact fun e he => .inl he
  obtain ⟨-, rfl⟩ := Prod.mk.inj ((outcome_ofExcept _ p).symm.trans hq)
  refine refusesOnly_outcome_bind (fun e he => .inr (refusesOnly_summaryComponents h ordered e he)) fun lines q hq => ?_
  have hs : Settled p q := by
    have := settles_summaryComponents ordered p
    rwa [hq] at this
  refine refusesOnly_outcome_bind ?_ fun priors r hr => ?_
  · rw [outcome_ofExcept]
    intro e he
    exact .inr (refusesOnly_mapM (fun prior => (refusesOnly_fillNamed _ _).map _) _ e he)
  obtain ⟨-, rfl⟩ := Prod.mk.inj ((outcome_ofExcept _ q).symm.trans hr)
  exact refusesOnly_outcome_bind (refusesOnly_frozenVariables (hs.classified.trans h)) fun vars r _ => refusesOnly_ok _

lemma summary_of_sort_error (h : Order.sort .localVar p.components = .error e) (fancy : Bool) :
    (outcome (summary fancy) p).1 = .error e := by
  unfold summary
  rw [outcome_bind_ok (outcome_get p), outcome_bind_error (e := e)]
  rw [outcome_ofExcept, h]

/-! ## Local variables without a provider -/

def Provided (components : List Component) (s : Symbol) : Prop :=
  ∃ d ∈ components, s ∈ d.provides

def Loose (components : List Component) (s : Symbol) : Prop :=
  s.isKind .localVar = true ∧ ¬ Provided components s ∧
    ∃ call, Component.likelihood call ∈ components ∧ (s = call.var ∨ s ∈ call.requires)

lemma Loose.mem_symbols (h : Loose components s) : s ∈ symbols components := by
  obtain ⟨-, -, call, hcall, hs⟩ := h
  exact (Order.mem_symbols s components).mpr ⟨_, hcall, .inl ((SymbolSet.mem_insert ..).mpr hs)⟩

lemma runs_append {α : Type} [Order.Part α] {kind : VarKind} {first last : List α} (hf : Runs kind first)
    (hlast : ∀ c ∈ last, ∀ s ∈ Part.requires c, s.isKind kind = true → ∃ d ∈ first, s ∈ Part.provides d) :
    Runs kind (first ++ last) := by
  intro before c after hsp s hs hkind
  rcases append_eq_append_iff.mp hsp with ⟨more, rfl, hmore⟩ | ⟨more, hmore, ha⟩
  · have hc : c ∈ last := by
      rw [hmore]
      exact mem_append_right _ mem_cons_self
    obtain ⟨d, hd, hp⟩ := hlast c hc s hs hkind
    exact ⟨d, mem_append_left _ hd, hp⟩
  · cases more with
    | nil =>
      rw [append_nil] at hmore
      obtain rfl := hmore
      rw [nil_append] at ha
      exact hlast c (ha ▸ mem_cons_self) s hs hkind
    | cons c' more =>
      cases ha
      exact hf before c more hmore s hs hkind

lemma likelihood_cases {c : Component} (hc : c.isLikelihood = true) (hs : s ∈ Part.requires c ∨ s ∈ Part.provides c) :
    ∃ call, c = .likelihood call ∧ (s = call.var ∨ s ∈ call.requires) := by
  cases c with
  | expression requires provides code => cases hc
  | assignment target requires code => cases hc
  | likelihood call =>
    refine ⟨call, rfl, ?_⟩
    rcases hs with hs | hs
    · exact (SymbolSet.mem_insert ..).mp hs
    · cases hs

section

variable {components ordered : List Component} (h : orderedForward components = .ok ordered)

include h

lemma perm_forward : ordered.Perm (components.filter (!·.isLikelihood)) := (sort_sound h).1.trans (Text.sortBy_perm _ _)

variable {s : Symbol}

lemma provided_of_forward {c : Component} (hc : c ∈ components) (hf : c.isLikelihood = false)
    (hs : s ∈ Part.requires c ∨ s ∈ Part.provides c) (hkind : s.isKind .localVar = true) : Provided components s := by
  have hperm := perm_forward h
  rcases hs with hr | hp
  · have hmem : c ∈ ordered := hperm.symm.subset (mem_filter.mpr ⟨hc, by rw [hf]; rfl⟩)
    obtain ⟨before, after, hsp⟩ := append_of_mem hmem
    obtain ⟨d, hd, hp⟩ := (sort_sound h).2 before c after hsp s hr hkind
    have hd' : d ∈ ordered := by
      rw [hsp]
      exact mem_append_left _ hd
    exact ⟨d, (mem_filter.mp (hperm.subset hd')).1, hp⟩
  · exact ⟨c, hc, hp⟩

lemma loose_of_not_provided (hs : s ∈ symbols components) (hkind : s.isKind .localVar = true)
    (hnone : ¬ Provided components s) : Loose components s := by
  obtain ⟨c, hc, hm⟩ := (mem_symbols s components).mp hs
  cases hlike : c.isLikelihood with
  | false => exact absurd (provided_of_forward h hc hlike hm hkind) hnone
  | true =>
    obtain ⟨call, rfl, hcall⟩ := likelihood_cases hlike hm
    exact ⟨hkind, hnone, call, hc, hcall⟩

lemma runs_likelihood (hnone : ∀ s, ¬ Loose components s) :
    Runs .localVar (ordered ++ components.filter (·.isLikelihood)) := by
  refine runs_append (sort_sound h).2 fun c hc s hs hkind => ?_
  have hpr : Provided components s := by
    have hsy := (mem_symbols s components).mpr ⟨c, (mem_filter.mp hc).1, .inl hs⟩
    by_contra hnot
    exact hnone s (loose_of_not_provided h hsy hkind hnot)
  obtain ⟨d, hd, hp⟩ := hpr
  have hf : (!d.isLikelihood) = true := by
    cases d with
    | likelihood call => cases hp
    | _ => rfl
  exact ⟨d, (perm_forward h).symm.subset (mem_filter.mpr ⟨hd, hf⟩), hp⟩

omit h in
lemma contains_provided {s : Symbol} :
    (components.any fun c => (Part.provides c).contains s) = true ↔ Provided components s := by
  simp [Provided, Part.provides]

lemma sort_components (honly : OnlyVariables components) :
    ((∀ s, ¬ Loose components s) ∧ ∃ result, Order.sort .localVar components = .ok result) ∨
      ∃ s, Loose components s ∧ Order.sort .localVar components = .error (.uninitialized s.text) := by
  unfold Order.sort
  rw [badSymbol?_none_iff.mpr honly]
  cases hf : unprovided? components with
  | some s =>
    have hs := find?_some hf
    rw [Bool.and_eq_true, Bool.not_eq_true', ← Bool.not_eq_true, contains_provided] at hs
    exact .inr ⟨s, loose_of_not_provided h (mem_of_find?_eq_some hf) hs.1 hs.2, rfl⟩
  | none =>
    have hnone : ∀ s, ¬ Loose components s := by
      intro s hl
      have hr := find?_eq_none.mp hf s hl.mem_symbols
      rw [hl.1, Bool.true_and, Bool.not_eq_true', Bool.not_eq_false, contains_provided] at hr
      exact hl.2.1 hr
    have hperm : (ordered ++ components.filter (·.isLikelihood)).Perm components :=
      ((perm_forward h).append_right _).trans (perm_append_comm.trans (filter_append_perm _ _))
    obtain ⟨result, hre⟩ := settle_complete .localVar components.length [] components _ (Nat.le_refl _)
      hperm ((runsFrom_empty _ _).mpr (runs_likelihood h hnone))
    rw [hre]
    exact .inl ⟨hnone, result, rfl⟩

end

/-! ## Text and summary -/

lemma onlyVariables_of_lookup (h : Order.sort .localVar components = .error e) (hkind : e.kind = .lookup) :
    OnlyVariables components := by
  unfold Order.sort at h
  split at h
  · cases h
    cases hkind
  · rename_i hnone
    exact badSymbol?_none_iff.mp hnone

lemma summary_lookup_iff (hvars : p.classified = .ok vars) (fancy : Bool) (hkind : e.kind = .lookup) :
    (outcome (summary fancy) p).1 = .error e ↔ Order.sort .localVar p.components = .error e := by
  constructor
  · intro h
    rcases refusesOnly_summary hvars fancy e h with hsort | hf
    · exact hsort
    · exact absurd hkind (kind_of_mem_faults hf)
  · intro h
    exact summary_of_sort_error h fancy

lemma declared_of_loose (hvars : p.classified = .ok vars) (hf : p.frozen = none) :
    OnlyVariables p.components ∧ ∀ s, Loose p.components s → s ∈ vars.locals ∧
      vars.mapping.lookup s.ident = some ("self." ++ s.ident) ∧
      "    cdef public double " ++ s.ident ∈ renderHeader p vars := by
  unfold classified at hvars
  rw [hf] at hvars
  have hg := Variables.grouped_of_collect hvars
  obtain ⟨⟨honly, -⟩, hc⟩ := Variables.collect_eq_ok.mp hvars
  refine ⟨honly, ?_⟩
  intro s hlo
  have hkind := hlo.1
  have hl : s ∈ vars.locals := by
    rw [hc]
    exact mem_filter.mpr ⟨(SymbolSet.mem_union ..).mpr (.inl hlo.mem_symbols), hkind⟩
  refine ⟨hl, ?_, ?_⟩
  · exact (Variables.lookup_mapping_iff hg (Symbol.isLiteral_of_isKind hkind)).mpr (.inl ⟨.inr hl, rfl⟩)
  · refine mem_append_left _ (mem_append_right _ ?_)
    exact mem_map.mpr ⟨s, hl, rfl⟩

/-- What the forward model uses is provided. The summary is refused for a failed look-up exactly if a likelihood
term has a local variable that nothing provides, which is then named. Unless variables were fixed before, each such
variable is declared, and the likelihood reads it unassigned. -/
theorem text_local_use {p : Program} {text : String} (h : (Program.text.run.run p).1 = .ok text) :
    (∀ c ∈ p.components, c.isLikelihood = false → ∀ s, s ∈ c.requires ∨ s ∈ c.provides →
      s.isKind .localVar = true → Provided p.components s) ∧
    (∀ fancy, (∃ e, ((summary fancy).run.run p).1 = .error e ∧ e.kind = .lookup) ↔
      OnlyVariables p.components ∧ ∃ s, Loose p.components s) ∧
    (∀ fancy e, ((summary fancy).run.run p).1 = .error e → e.kind = .lookup →
      ∃ s, Loose p.components s ∧ e = .uninitialized s.text) ∧
    (p.frozen = none → OnlyVariables p.components ∧ ∃ vars, p.classified = .ok vars ∧
      ∀ s, Loose p.components s → s ∈ vars.locals ∧ vars.mapping.lookup s.ident = some ("self." ++ s.ident) ∧
        "    cdef public double " ++ s.ident ∈ renderHeader p vars) := by
  obtain ⟨-, -, -, vars, hvars, -, m, rfl⟩ := text_iff.mp h
  obtain ⟨ordered, -, -, ho, -⟩ := forwardOf_eq_ok m.forward_eq
  have hn : ∀ e, Order.sort .localVar p.components = .error e → e.kind = .lookup →
      ∃ s, Loose p.components s ∧ e = .uninitialized s.text := by
    intro e he hkind
    rcases sort_components ho (onlyVariables_of_lookup he hkind) with ⟨-, result, hr⟩ | ⟨s, hs, hsort⟩
    · rw [hr] at he
      cases he
    · exact ⟨s, hs, Except.error.inj (he.symm.trans hsort)⟩
  refine ⟨fun c hc hf s hs hkind => provided_of_forward ho hc hf hs hkind, fun fancy => ?_,
    fun fancy e he hkind => hn e ((summary_lookup_iff hvars fancy hkind).mp he) hkind, fun hfr => ?_⟩
  · constructor
    · rintro ⟨e, he, hkind⟩
      have hsort := (summary_lookup_iff hvars fancy hkind).mp he
      obtain ⟨s, hs, -⟩ := hn e hsort hkind
      exact ⟨onlyVariables_of_lookup hsort hkind, s, hs⟩
    · rintro ⟨honly, s, hs⟩
      rcases sort_components ho honly with ⟨hnone, -⟩ | ⟨t, -, hsort⟩
      · exact absurd hs (hnone s)
      · exact ⟨_, summary_of_sort_error hsort fancy, rfl⟩
  · obtain ⟨honly, hd⟩ := declared_of_loose hvars hfr
    exact ⟨honly, vars, hvars, hd⟩

def measuredSum : List Step :=
  [.add (.assign (.str "s") (.str "p.a + 1")),
   .add (.constraint (.str "v.s") (.str "normal") (.list [.str "0", .str "1"])),
   .add (.prior (.str "p.a") (.str "uniform") (.list [.str "0", .str "1"]))]

lemma components_measuredSum : (after measuredSum).components =
    [.assignment (.var .localVar "s") [.var .param "a"] "\x7bp__a\x7d + 1",
     .likelihood ⟨.var .localVar "s", .normal, ["0", "1"], []⟩] := rfl

lemma text_measuredSum : ∃ text, (Program.text.run.run (after measuredSum)).1 = .ok text := exists_ok (by decide +kernel)

theorem text_local_use_measuredSum : (∃ text, (Program.text.run.run (after measuredSum)).1 = .ok text) ∧
      ∀ e, ((summary false).run.run (after measuredSum)).1 = .error e → e.kind ≠ .lookup := by
  obtain ⟨text, htext⟩ := text_measuredSum
  refine ⟨⟨text, htext⟩, fun e he hkind => ?_⟩
  obtain ⟨-, -, hn, -⟩ := text_local_use htext
  obtain ⟨s, ⟨-, hnone, call, hcall, hs⟩, -⟩ := hn false e he hkind
  rw [components_measuredSum] at hnone hcall
  obtain rfl : call = ⟨.var .localVar "s", .normal, ["0", "1"], []⟩ := by simpa using hcall
  obtain rfl : s = .var .localVar "s" := by simpa using hs
  exact hnone ⟨_, List.mem_cons_self, List.mem_cons_self⟩

def looseMeasurement : List Step :=
  [.add (.constraint (.str "v.x") (.str "normal") (.list [.str "0", .str "1"]))]

/-- The likelihood reads the declared variable, and the forward model assigns nothing; the summary is refused. -/
theorem text_reads_unassigned : ∃ header quantile logPrior, "    cdef public double v__x" ∈ header ∧
      (Program.text.run.run (after looseMeasurement)).1 = .ok (Text.join "\n" (header ++ [quantile, logPrior,
        method (["cdef void _forward_model(self, double[:] params):", "    return\n"] ++ postprocessLines []),
        method ["cdef double _log_like(self, double[:] params):", "    cdef double logL = 0.",
          "    logL += normal_lpdf(self.v__x, 0, 1)",
          "    return logL if math.isfinite(logL) else -math.INFINITY\n"]]) ++ "\n") ∧
      ((summary false).run.run (after looseMeasurement)).1 = .error (.uninitialized "v.x") :=
  ⟨renderHeader (after looseMeasurement) ⟨[], [], [], [.var .localVar "x"]⟩, quantileMethod [], logPriorMethod [],
    by decide +kernel, by decide +kernel, by decide +kernel⟩

end Program

end GridBayes
