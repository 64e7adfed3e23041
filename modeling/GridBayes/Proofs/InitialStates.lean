import GridBayes.Proofs.ChainSupport
import GridBayes.Sampler.Initial

/-! Where walkers start. A search of the prior stands nowhere at first, with no likelihood. A proposal of no
likelihood is never taken, and the first of some likelihood always is. So a search ends at one of its own proposals
that is possible, or nowhere if all of them are impossible. -/
namespace GridBayes
open Operation Scalar

/-! ## Proposals -/

def Source.skip (source : Source) (count : Nat) : Source :=
  { source with used := source.used + count }

lemma Source.skip_skip (source : Source) (m n : Nat) : (source.skip m).skip n = source.skip (m + n) := by
  simp [skip, Nat.add_assoc]

lemma Source.skip_mul (source : Source) (m n : Nat) : (source.skip n).skip (m * n) = source.skip ((m + 1) * n) := by
  rw [skip_skip, Nat.succ_mul, Nat.add_comm]

section

variable [SpecialFunctions]

lemma Source.units_snd (source : Source) (count : Nat) :
    (source.units count : List Exact × Source).2 = source.skip count := by
  induction count generalizing source with
  | zero => rfl
  | succ count ih => exact (ih (source.skip 1)).trans (by rw [skip_skip, Nat.add_comm])

lemma Source.toUnit_eq (n : Nat) : (toUnit n : Exact) = .real (n / top) := Exact.real_div_real _ (by norm_num [top])

namespace Initial

variable {t : Target Exact} {ndim : Nat}

/-- Every search uses up as many numbers for a proposal as there are parameters, and one for its threshold. -/
noncomputable def proposal (ndim : Nat) (source : Source) (j : Nat) : Array Exact :=
  ((source.skip (j * (ndim + 1))).units ndim : List Exact × Source).1.toArray

/-- Every draw has a point, and the logarithm of its likelihood is a number or minus infinity. -/
def IsLikelihood (t : Target Exact) (ndim : Nat) : Prop :=
  ∀ source : Source, ∃ point v, t.transform (source.units ndim).1.toArray = .ok point ∧ t.logLike point = .ok v ∧
    (v.IsReal ∨ v = -infinity)

def Possible (t : Target Exact) (us point : Array Exact) : Prop :=
  t.transform us = .ok point ∧ ∃ v, t.logLike point = .ok v ∧ v.IsReal

def Impossible (t : Target Exact) (us : Array Exact) : Prop :=
  ∃ point, t.transform us = .ok point ∧ t.logLike point = .ok (-infinity)

lemma Possible.not_impossible {us point : Array Exact} (h : Possible t us point) : ¬ Impossible t us := by
  rintro ⟨point', hpoint, hnone⟩
  obtain ⟨hpoint', v, hv, hreal⟩ := h
  cases hpoint.symm.trans hpoint'
  cases hnone.symm.trans hv
  exact hreal

lemma offer_impossible (p : Place Exact) (point : Array Exact) (threshold : Exact) :
    p.offer point (-infinity) threshold = p := by
  have hl : (-infinity : Exact).IsLowest := .inl rfl
  refine if_neg fun h => ?_
  classical exact (hl.sub p.logLike).not_less threshold (decide_eq_true_iff.mp h)

/-- The first possible proposal is taken whatever its threshold is, for the gain is infinite. -/
lemma offer_first (point : Array Exact) {v : Exact} (hv : v.IsReal) (n : Nat) :
    (⟨none, -infinity⟩ : Place Exact).offer point v (log (Source.toUnit n)) = ⟨some point, v⟩ := by
  obtain ⟨x, rfl⟩ := Exact.isReal_iff.mp hv
  have hless : (log (Source.toUnit n) : Exact).Less (.infinite false) := by
    rw [Source.toUnit_eq]
    by_cases hpos : (0 : ℝ) < n / Source.top
    · rw [Exact.log_real hpos]
      trivial
    · have hzero : (n / Source.top : ℝ) = 0 := le_antisymm (not_lt.mp hpos) (by positivity)
      have hlog : log (Exact.real 0) = .infinite true := (if_neg (lt_irrefl 0)).trans (if_pos rfl)
      rw [hzero, hlog]
      trivial
  classical exact if_pos (decide_eq_true hless)

/-! ## Searches -/

variable {p : Place Exact} {source : Source}

lemma proposal_skip (ndim : Nat) (source : Source) (j : Nat) :
    proposal ndim (source.skip (ndim + 1)) j = proposal ndim source (j + 1) := by
  rw [proposal, proposal, Source.skip_mul]

/-- What a step does with the proposal that comes next. -/
lemma step_eq {point : Array Exact} {v : Exact} (hpoint : t.transform (proposal ndim source 0) = .ok point)
    (hv : t.logLike point = .ok v) : ∃ n, step t ndim p source =
      .ok (p.offer point v (log (Source.toUnit n)), source.skip (ndim + 1)) := by
  have hsource : source.skip (0 * (ndim + 1)) = source := by simp [Source.skip]
  rw [proposal, hsource] at hpoint
  refine ⟨(source.skip ndim).next.1, ?_⟩
  unfold step
  simp only [bind, Except.bind, hpoint, hv]
  rw [Source.units_snd]
  rfl

lemma step_impossible (h : Impossible t (proposal ndim source 0)) :
    step t ndim p source = .ok (p, source.skip (ndim + 1)) := by
  obtain ⟨point, hpoint, hv⟩ := h
  obtain ⟨n, hstep⟩ := step_eq (p := p) hpoint hv
  rw [hstep, offer_impossible]

/-- A place that a search can be at: nowhere, or somewhere with a likelihood. -/
def Place.IsHeld (p : Place Exact) : Prop :=
  p = ⟨none, -infinity⟩ ∨ p.logLike.IsReal

lemma step_cases (ht : IsLikelihood t ndim) (hp : p.IsHeld) (source : Source) :
    ∃ q, step t ndim p source = .ok (q, source.skip (ndim + 1)) ∧
      (q = p ∧ (p = ⟨none, -infinity⟩ → Impossible t (proposal ndim source 0)) ∨
        ∃ point, Possible t (proposal ndim source 0) point ∧ q.point = some point ∧ q.logLike.IsReal) := by
  obtain ⟨point, v, hpoint, hv, hcases⟩ := ht (source.skip (0 * (ndim + 1)))
  obtain ⟨n, hstep⟩ := step_eq (p := p) hpoint hv
  refine ⟨_, hstep, ?_⟩
  rcases hcases with hreal | rfl
  · have hpossible : Possible t (proposal ndim source 0) point := ⟨hpoint, v, hv, hreal⟩
    rcases hp with rfl | hlater
    · rw [offer_first point hreal]
      exact .inr ⟨point, hpossible, rfl, hreal⟩
    · unfold Place.offer
      split
      · exact .inr ⟨point, hpossible, rfl, hreal⟩
      · refine .inl ⟨rfl, ?_⟩
        rintro rfl
        exact absurd hlater id
  · rw [offer_impossible]
    exact .inl ⟨rfl, fun _ => ⟨point, hpoint, hv⟩⟩

/-- Where a search ends: where it began, or at one of its possible proposals. From nowhere it only stays if all of
them are impossible. -/
lemma search_eq (ht : IsLikelihood t ndim) (hp : p.IsHeld) (steps : Nat) (source : Source) :
    ∃ q, search t ndim steps p source = .ok (q, source.skip (steps * (ndim + 1))) ∧
      (q = p ∧ (p = ⟨none, -infinity⟩ → ∀ j < steps, Impossible t (proposal ndim source j)) ∨
        ∃ j < steps, ∃ point, Possible t (proposal ndim source j) point ∧ q.point = some point) := by
  induction steps generalizing p source with
  | zero => exact ⟨p, by simp [search, Source.skip], .inl ⟨rfl, by simp⟩⟩
  | succ steps ih =>
    obtain ⟨q, hstep, hq⟩ := step_cases ht hp source
    have hheld : q.IsHeld := by
      rcases hq with ⟨rfl, -⟩ | ⟨_, -, -, hreal⟩
      · exact hp
      · exact .inr hreal
    obtain ⟨r, hsearch, hr⟩ := ih hheld (source.skip (ndim + 1))
    simp only [proposal_skip] at hr
    refine ⟨r, ?_, ?_⟩
    · rw [search, hstep, ← Source.skip_mul]
      exact hsearch
    rcases hr with ⟨rfl, hlater⟩ | ⟨j, hj, h⟩
    · rcases hq with ⟨rfl, hfirst⟩ | ⟨point, hpoint, hr, -⟩
      · refine .inl ⟨rfl, fun hnone j hj => ?_⟩
        cases j with
        | zero => exact hfirst hnone
        | succ j => exact hlater hnone j (Nat.lt_of_succ_lt_succ hj)
      · exact .inr ⟨0, Nat.succ_pos steps, point, hpoint, hr⟩
    · exact .inr ⟨j + 1, Nat.succ_lt_succ hj, h⟩

lemma search_succ (t : Target Exact) (ndim steps : Nat) (p : Place Exact) (source : Source) :
    search t ndim (steps + 1) p source = search t ndim steps p source >>= fun x => step t ndim x.1 x.2 := by
  induction steps generalizing p source with
  | zero =>
    show step t ndim p source >>= _ = step t ndim p source
    cases step t ndim p source <;> rfl
  | succ steps ih =>
    rw [search, search]
    cases step t ndim p source with
    | error e => rfl
    | ok x => exact ih x.1 x.2

/-! ## Rows -/

/-- What a search with the numbers of a source makes of a row. It is one of the possible proposals, or blank exactly
if all of them are impossible; and an impossible one leaves the search where it is. -/
structure Found (t : Target Exact) (ndim steps : Nat) (source : Source) (row : Array Exact) : Prop where
  place : (∀ j < steps, Impossible t (proposal ndim source j)) ∧ row = Array.replicate ndim nan ∨
    (¬ ∀ j < steps, Impossible t (proposal ndim source j)) ∧ ∃ j < steps, Possible t (proposal ndim source j) row
  stays : ∀ j < steps, Impossible t (proposal ndim source j) → ∃ p,
    search t ndim j ⟨none, -infinity⟩ source = .ok (p, source.skip (j * (ndim + 1))) ∧
    search t ndim (j + 1) ⟨none, -infinity⟩ source = .ok (p, source.skip ((j + 1) * (ndim + 1)))

lemma found_search (ht : IsLikelihood t ndim) (steps : Nat) (source : Source) :
    ∃ p, search t ndim steps ⟨none, -infinity⟩ source = .ok (p, source.skip (steps * (ndim + 1))) ∧
      Found t ndim steps source (p.row ndim) := by
  obtain ⟨p, hsearch, hp⟩ := search_eq ht (.inl rfl) steps source
  refine ⟨p, hsearch, ?_, fun j _ hj => ?_⟩
  · rcases hp with ⟨rfl, hall⟩ | ⟨j, hj, point, hpoint, hrow⟩
    · exact .inl ⟨hall rfl, rfl⟩
    · refine .inr ⟨fun hall => hpoint.not_impossible (hall j hj), j, hj, ?_⟩
      rw [Place.row, hrow]
      exact hpoint
  · obtain ⟨q, hq, -⟩ := search_eq ht (.inl rfl) j source
    have hnext : step t ndim q (source.skip (j * (ndim + 1))) =
        .ok (q, (source.skip (j * (ndim + 1))).skip (ndim + 1)) := by
      refine step_impossible ?_
      rwa [proposal, Nat.zero_mul]
    refine ⟨q, hq, ?_⟩
    rw [search_succ, hq]
    refine hnext.trans ?_
    rw [Source.skip_skip, Nat.succ_mul]

/-- Starting points come from the prior and the support: each is searched for with numbers of its own. -/
theorem state_in_support (ht : IsLikelihood t ndim) (steps count : Nat) (source : Source) :
    ∃ rows, state t ndim steps count source = .ok (rows, source.skip (count * (steps * (ndim + 1)))) ∧
      rows.length = count ∧ ∀ (i : Nat) row, rows[i]? = some row →
        Found t ndim steps (source.skip (i * (steps * (ndim + 1)))) row := by
  induction count generalizing source with
  | zero => exact ⟨[], by simp [state, Source.skip], rfl, by simp⟩
  | succ count ih =>
    obtain ⟨p, hsearch, hfound⟩ := found_search ht steps source
    obtain ⟨rows, hstate, hlength, hrows⟩ := ih (source.skip (steps * (ndim + 1)))
    refine ⟨p.row ndim :: rows, ?_, congrArg (· + 1) hlength, fun i row hrow => ?_⟩
    · rw [state, hsearch]
      show state t ndim steps count (source.skip (steps * (ndim + 1))) >>= _ = _
      rw [hstate, Source.skip_mul]
      rfl
    cases i with
    | zero =>
      cases hrow
      simpa [Source.skip] using hfound
    | succ i => exact Source.skip_mul .. ▸ hrows i row hrow

end Initial

end

namespace Initial

open scoped Standard

theorem state_in_support_oneSided : IsLikelihood Chain.oneSided.target 1 ∧ ∃ rows,
    state Chain.oneSided.target 1 2 3 Chain.oneSided.source = .ok (rows, Chain.oneSided.source.skip 12) ∧
      rows.length = 3 ∧ ∀ row ∈ rows, row = #[Source.toUnit 7] := by
  have ht : IsLikelihood Chain.oneSided.target 1 := by
    intro source
    refine ⟨_, _, rfl, rfl, ?_⟩
    split
    · exact .inr rfl
    · exact .inl trivial
  obtain ⟨rows, hstate, hlength, hfound⟩ := state_in_support ht 2 3 Chain.oneSided.source
  refine ⟨ht, rows, hstate, hlength, fun row hrow => ?_⟩
  obtain ⟨i, hi⟩ := List.mem_iff_getElem?.mp hrow
  rcases (hfound i row hi).place with ⟨hall, -⟩ | ⟨-, j, -, hpoint, -⟩
  · obtain ⟨point, hpoint, hnone⟩ := hall 0 (by decide)
    cases hpoint
    have hunit : lt (Source.toUnit 7 : Exact) 0.0 = false := by
      rw [Bool.eq_false_iff, Source.toUnit_eq, Exact.ofScientific_eq, ne_eq, Exact.lt_real]
      norm_num [Source.top]
    have hlike : Chain.oneSided.target.logLike #[Source.toUnit 7] = .ok 1.0 := by
      simp only [Chain.oneSided, List.any_toArray, List.any_cons, List.any_nil, hunit]
      rfl
    cases hlike.symm.trans hnone
  · cases hpoint
    rfl

end Initial

end GridBayes
