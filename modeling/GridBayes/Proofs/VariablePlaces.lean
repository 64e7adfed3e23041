import GridBayes.Proofs.BlockLayout
import GridBayes.Proofs.PriorCode

/-! The variables of a program and their places. Constants and local variables are attributes, parameters are
entries of a vector, and each variable has one place at most. -/
namespace GridBayes
open List Operation Code String Option

variable {s : Symbol}

lemma Symbol.ident_inj {t : Symbol} (hs : s.isLiteral = false) (ht : t.isLiteral = false) (h : s.ident = t.ident) :
    s = t := by
  cases s with
  | literal _ => cases hs
  | var k n =>
    cases t with
    | literal _ => cases ht
    | var l m =>
      rw [← ofList_toList (s := n), ← ofList_toList (s := m), ident_var, ident_var, ofList_inj] at h
      obtain ⟨hl, hrest⟩ := cons.inj h
      have hkind : some k = some l := by rw [← VarKind.ofLetter?_letter k, ← VarKind.ofLetter?_letter l, hl]
      rw [some.inj hkind, toList_inj.mp (cons.inj (cons.inj hrest).2).2]

lemma Symbol.isLiteral_of_isKind {kind : VarKind} (h : s.isKind kind = true) : s.isLiteral = false := by
  cases s with
  | var => rfl
  | literal => cases h

lemma Symbol.isKind_unique {kind kind' : VarKind} (h : s.isKind kind = true) (h' : s.isKind kind' = true) :
    kind = kind' := by
  cases s with
  | var l => exact (beq_iff_eq.mp h).trans (beq_iff_eq.mp h').symm
  | literal => cases h

/-! ## The groups -/

namespace Variables

variable {components : List Component} {priors : List Prior} {vars : Variables} {s : Symbol}

lemma collect_eq_ok :
    collect components priors = .ok vars ↔ (Order.OnlyVariables components ∧ Order.OnlyVariables priors) ∧ vars = {
          params := (Order.symbols components).filter (·.isKind .param)
          priorParams := (Order.symbols priors).filter (·.isKind .param)
          constants := (SymbolSet.union (Order.symbols components) (Order.symbols priors)).filter (·.isKind .const)
          locals := (SymbolSet.union (Order.symbols components) (Order.symbols priors)).filter
            (·.isKind .localVar) } := by
  rw [← Order.badSymbol?_none_iff, ← Order.badSymbol?_none_iff]
  unfold collect
  cases Order.badSymbol? components with
  | some s => simp
  | none =>
    cases Order.badSymbol? priors with
    | some s => simp
    | none => simp [eq_comm]

structure Grouped (vars : Variables) : Prop where
  params : ∀ s ∈ vars.params, s.isKind .param = true
  constants : ∀ s ∈ vars.constants, s.isKind .const = true
  locals : ∀ s ∈ vars.locals, s.isKind .localVar = true
  nodup : vars.params.Nodup

lemma grouped_of_collect (h : collect components priors = .ok vars) : vars.Grouped := by
  obtain ⟨⟨hvars, -⟩, rfl⟩ := collect_eq_ok.mp h
  refine ⟨fun s hs => (mem_filter.mp hs).2, fun s hs => (mem_filter.mp hs).2,
    fun s hs => (mem_filter.mp hs).2, Nodup.filter _ ?_⟩
  exact (Order.sorted_symbols hvars).nodup

/-! ## The places -/

lemma lookup_entries {params : SymbolSet} {s : Symbol} {place : String}
    (hp : ∀ t ∈ params, t.isLiteral = false) (hn : params.Nodup) (hs : s.isLiteral = false) (n : Nat) :
    ((params.zipIdx n).map fun (t, i) => (t.ident, entryText i)).lookup s.ident = some place ↔
      ∃ i, params[i]? = some s ∧ place = entryText (n + i) := by
  induction params generalizing n with
  | nil => simp
  | cons t params ih =>
    obtain ⟨hf, hrest⟩ := nodup_cons.mp hn
    rw [zipIdx_cons, map_cons, lookup_cons]
    by_cases heq : s = t
    · subst heq
      simp only [beq_self_eq_true]
      constructor
      · intro h
        exact ⟨0, rfl, (some.inj h).symm⟩
      · rintro ⟨i, hi, rfl⟩
        cases i with
        | zero => rfl
        | succ i => exact absurd (mem_of_getElem? (getElem?_cons_succ ▸ hi)) hf
    · have hne : (s.ident == t.ident) = false :=
        beq_eq_false_iff_ne.mpr fun h => heq (Symbol.ident_inj hs (hp t mem_cons_self) h)
      rw [hne]
      rw [ih (fun u hu => hp u (mem_cons_of_mem t hu)) hrest]
      constructor
      · rintro ⟨i, hi, rfl⟩
        exact ⟨i + 1, hi, by rw [Nat.add_assoc, Nat.add_comm 1 i]⟩
      · rintro ⟨i, hi, rfl⟩
        cases i with
        | zero => exact absurd (some.inj hi).symm heq
        | succ i => exact ⟨i, hi, by rw [Nat.add_assoc, Nat.add_comm 1 i]⟩

lemma lookup_attributes {symbols : SymbolSet} (hsy : ∀ t ∈ symbols, t.isLiteral = false) (hs : s.isLiteral = false) :
    (symbols.map fun t => (t.ident, "self." ++ t.ident)).lookup s.ident =
      if s ∈ symbols then some ("self." ++ s.ident) else none := by
  have hmem : s.ident ∈ symbols.map Symbol.ident ↔ s ∈ symbols := by
    constructor
    · intro h
      obtain ⟨t, ht, he⟩ := mem_map.mp h
      rwa [← Symbol.ident_inj (hsy t ht) hs he]
    · exact mem_map_of_mem
  rw [Program.lookup_own]
  simp only [hmem]

lemma lookup_mapping_iff {place : String} (h : vars.Grouped) (hs : s.isLiteral = false) :
    vars.mapping.lookup s.ident = some place ↔ ((s ∈ vars.constants ∨ s ∈ vars.locals) ∧ place = "self." ++ s.ident) ∨
        ∃ i, vars.params[i]? = some s ∧ place = entryText i := by
  -- a variable of another kind is no parameter
  have ho : ∀ kind : VarKind, s.isKind kind = true → kind ≠ .param → ∀ i, vars.params[i]? ≠ some s :=
    fun kind hkind hne i hi => hne (Symbol.isKind_unique hkind (h.params s (mem_of_getElem? hi)))
  have hco : s ∈ vars.constants → ∀ i, vars.params[i]? ≠ some s :=
    fun hmem => ho .const (h.constants s hmem) (by decide)
  have hl : s ∈ vars.locals → ∀ i, vars.params[i]? ≠ some s := fun hmem => ho .localVar (h.locals s hmem) (by decide)
  have hp := @lookup_entries vars.params s place (fun t ht => Symbol.isLiteral_of_isKind (h.params t ht)) h.nodup hs 0
  simp only [Nat.zero_add] at hp
  have hown : (vars.constants.map (fun t => (t.ident, "self." ++ t.ident)) ++
      vars.locals.map (fun t => (t.ident, "self." ++ t.ident))).lookup s.ident =
        if s ∈ vars.constants ∨ s ∈ vars.locals then some ("self." ++ s.ident) else none := by
    rw [lookup_append, lookup_attributes (fun t ht => Symbol.isLiteral_of_isKind (h.constants t ht)) hs,
      lookup_attributes (fun t ht => Symbol.isLiteral_of_isKind (h.locals t ht)) hs]
    by_cases hc : s ∈ vars.constants <;> simp [hc]
  unfold mapping places
  rw [lookup_append, hown]
  by_cases hmem : s ∈ vars.constants ∨ s ∈ vars.locals
  · have hnone : ∀ i, vars.params[i]? ≠ some s := hmem.elim hco hl
    simp [hmem, hnone, eq_comm]
  · simp only [hmem, false_and, false_or]
    exact hp

end Variables

end GridBayes
