import GridBayes.Proofs.ChainHistory

/-! Where the walkers of an ensemble can be. A proposal of no probability is never taken: its gain is minus
infinity or not a number, and neither is above a threshold. So a walker that stands at a possible point stays
among them, and walkers that are offered nothing else do not move. -/
namespace GridBayes
open Operation Scalar List

/-! ## Gains -/

def Exact.IsLowest (a : Exact) : Prop :=
  a = .infinite true ∨ a = .nan

variable {a : Exact}

lemma Exact.IsLowest.add (h : a.IsLowest) (b : Exact) : (b + a).IsLowest := by
  rcases h with rfl | rfl
  · rcases b with _ | (_ | _) | _
    · exact .inr rfl
    · exact .inr rfl
    · exact .inl rfl
    · exact .inl rfl
  · exact .inr (Exact.add_nan b)

lemma Exact.IsLowest.sub (h : a.IsLowest) (b : Exact) : (a - b).IsLowest := by
  rcases h with rfl | rfl
  · rcases b with _ | (_ | _) | _
    · exact .inr rfl
    · exact .inl rfl
    · exact .inr rfl
    · exact .inl rfl
  · exact .inr rfl

lemma Exact.IsLowest.not_less (h : a.IsLowest) (b : Exact) : ¬ b.Less a := by
  rcases h with rfl | rfl <;> rcases b with _ | (_ | _) | _ <;> exact id

section

variable [SpecialFunctions]

open Classical in
lemma Walker.offered_impossible {gain : Exact} (h : gain.IsLowest) (w other : Walker Exact) (threshold : Exact) :
    w.offered other gain threshold = w :=
  if_neg fun ha => (h.sub w.logProb).not_less threshold (decide_eq_true_iff.mp ha)

/-! ## Acts -/

/-- The logarithms of the probabilities are real, or minus infinity. -/
def Target.IsDensity (t : Target Exact) : Prop :=
  ∀ point v, t.logProb point = .ok v → v.IsReal ∨ v = -infinity

namespace Chain

variable {c : Chain Exact} {scale : Exact}

/-- An act leaves the walkers, or one goes to an offered point that is possible. -/
lemma walkers_next (scale : Exact) (c : Chain Exact) (a : Act) : (a.next scale c).walkers = c.walkers ∨
    ∃ i v, a.offer scale c = some v.point ∧ c.target.logProb v.point = .ok v.logProb ∧ v.logProb ≠ -infinity ∧
      (a.next scale c).walkers = c.walkers.setIfInBounds i v := by
  cases effect scale c a with
  | aside _ _ _ hsame => exact .inl hsame
  | @offered i w point logProb gain threshold _ _ _ hpo hw hp hgain hset =>
    have hs : w.offered ⟨point, logProb⟩ gain threshold = w → (a.next scale c).walkers = c.walkers := by
      intro h
      obtain ⟨hi, rfl⟩ := Array.getElem?_eq_some_iff.mp hw
      rw [hset, h, Array.setIfInBounds_def, dif_pos hi, Array.set_getElem_self]
    by_cases hv : logProb = -infinity
    · have hl : logProb.IsLowest := .inl hv
      refine .inl (hs (Walker.offered_impossible ?_ w _ threshold))
      rcases hgain with rfl | ⟨x, rfl⟩
      · exact hl
      · exact hl.add x
    · cases ha : w.accepts gain threshold with
      | true => exact .inr ⟨i, ⟨point, logProb⟩, hpo, hp, hv, by rw [hset, Walker.offered, ha]; rfl⟩
      | false => exact .inl (hs (by rw [Walker.offered, ha]; rfl))
  | recorded _ hd | thinned _ hd => exact .inl (by rw [hd])

lemma walkers_passed_of_impossible {acts : List Act}
    (h : ∀ p ∈ offers scale c acts, ∀ v, c.target.logProb p = .ok v → v = -infinity) :
    ∀ e ∈ passed scale c acts, e.walkers = c.walkers := by
  induction acts generalizing c with
  | nil => exact forall_mem_singleton.mpr rfl
  | cons a acts ih =>
    have hsame : (a.next scale c).walkers = c.walkers := by
      rcases walkers_next scale c a with h' | ⟨i, v, hv, hp, hne, -⟩
      · exact h'
      · exact absurd (h v.point (mem_append_left _ (by rw [hv]; exact mem_singleton_self _)) _ hp) hne
    have ht : (a.next scale c).target = c.target := (Alike.next ⟨rfl, rfl, rfl⟩ a).target
    refine forall_mem_cons.mpr ⟨rfl, fun e he => (ih (fun p hp => ?_) e he).trans hsame⟩
    rw [ht]
    exact h p (mem_append_right _ hp)

/-- A walker at a possible point stays at possible points. -/
lemma isReal_passed (ht : c.target.IsDensity) {i : Nat} {w : Walker Exact} (hw : c.walkers[i]? = some w)
    (hreal : w.logProb.IsReal) (acts : List Act) :
    ∀ e ∈ passed scale c acts, ∃ v, e.walkers[i]? = some v ∧ v.logProb.IsReal := by
  refine fun e he => (forall_passed (P := fun e => Alike c e ∧ ∃ v, e.walkers[i]? = some v ∧ v.logProb.IsReal)
    (fun e a h => ⟨h.1.next a, ?_⟩) ⟨⟨rfl, rfl, rfl⟩, w, hw, hreal⟩ acts e he).2
  obtain ⟨ha, v, hv, hreal⟩ := h
  rcases walkers_next scale e a with h | ⟨j, v', -, hp, hne, h⟩
  · exact ⟨v, by rw [h, hv], hreal⟩
  · rw [ha.target] at hp
    rw [h, Array.getElem?_setIfInBounds]
    split
    · rename_i hj
      exact ⟨v', if_pos (hj ▸ (Array.getElem?_eq_some_iff.mp hv).1), (ht _ _ hp).resolve_right hne⟩
    · exact ⟨v, hv, hreal⟩

/-! ## Runs -/

/-- By any acts a walker at a possible point only comes to possible points, and nobody moves if every proposal is
impossible. So samples stay in the support, and with impossible proposals they are the start, unless the steps do
not fit in a word. -/
theorem walkers_stay_in_support (ht : c.target.IsDensity) :
    (∀ scale acts (i : Nat) (w : Walker Exact), c.walkers[i]? = some w → w.logProb.IsReal →
      ∀ e ∈ passed scale c acts, ∃ v, e.walkers[i]? = some v ∧ v.logProb.IsReal) ∧
    (∀ scale acts, (∀ p ∈ offers scale c acts, ∀ v, c.target.logProb p = .ok v → v = -infinity) →
      ∀ e ∈ passed scale c acts, e.walkers = c.walkers) ∧
    ∀ s start d, outcome (run s start) c = (.ok (), d) →
      ((∀ p ∈ start, ∀ v, c.target.logProb p = .ok v → v.IsReal) → ∀ k w x, d.entry k w = some x → x.logProb.IsReal) ∧
      ∃ ws acts, ws.map Walker.point = start ∧ (∀ w ∈ ws, c.target.logProb w.point = .ok w.logProb) ∧
        d = after s.scale (begun s c ws) acts ∧
        ((∀ p ∈ offers s.scale (begun s c ws) acts, ∀ v, c.target.logProb p = .ok v → v = -infinity) →
          ∀ (k w : Nat) x, d.entry k w = some x →
            ws[w]? = some x ∨ x = blank c.ndim ∧ (s.thin < 1 ∨ 2147483648 ≤ s.samples * s.thin)) := by
  refine ⟨fun _ acts _ _ hw hreal => isReal_passed ht hw hreal acts, fun _ _ => walkers_passed_of_impossible,
    fun s start d hrun => ?_⟩
  obtain ⟨ws, acts, hws, hp, hd, -, hen⟩ := run_acts hrun
  refine ⟨fun hs k w x hx => ?_, ws, acts, hws, hp, hd, fun hi k w x hx => ?_⟩
  · have hb : ∀ w ∈ (begun s c ws).walkers, w.logProb.IsReal := fun w hw =>
      have hw := List.mem_toArray.mp hw
      hs _ (hws ▸ List.mem_map_of_mem hw) _ (hp w hw)
    rcases hen k w x hx with ⟨e, he, hx⟩ | ⟨rfl, -⟩
    · -- the walker began at a point of the start
      obtain ⟨hw, -⟩ := Array.getElem?_eq_some_iff.mp hx
      rw [(alike_passed _ acts e he).width] at hw
      obtain ⟨v, hv, hreal⟩ := isReal_passed (c := begun s c ws) ht (Array.getElem?_eq_getElem hw)
        (hb _ (Array.getElem_mem hw)) acts e he
      rw [hx] at hv
      exact Option.some.inj hv ▸ hreal
    · exact trivial
  · rcases hen k w x hx with ⟨e, he, hx⟩ | hbl
    · rw [walkers_passed_of_impossible hi e he] at hx
      exact .inl (by simpa [begun] using hx)
    · exact .inr hbl

end Chain

end

/-! A target with probability on one side of zero only. -/

namespace Chain

open scoped Standard

noncomputable def oneSided : Chain Exact where
  target :=
    { transform := .ok
      logPrior := fun _ => .ok 0.0
      logLike := fun p => .ok (if p.any fun x => lt x 0.0 then -infinity else 1.0) }
  ndim := 1
  size := 3
  factor := [[1.0]]
  source := { stream := fun _ => 7 }
  walkers := #[⟨#[1.0], 1.0⟩, ⟨#[2.0], 1.0⟩, ⟨#[-1.0], -infinity⟩]

lemma logProb_oneSided (p : Array Exact) :
    oneSided.target.logProb p = .ok (0.0 + if p.any fun x => lt x 0.0 then -infinity else 1.0) := by
  simp [Target.logProb, oneSided, bind, Except.bind, pure, Except.pure]

noncomputable def nowhere : Chain Exact :=
  { oneSided with target := .impossible }

lemma logProb_nowhere (p : Array Exact) : nowhere.target.logProb p = .ok (-infinity) := by
  simp [Target.logProb, nowhere, Target.impossible, bind, Except.bind, pure, Except.pure]
  rfl

theorem walkers_stay_in_support_oneSided :
    (oneSided.target.IsDensity ∧
      (∀ scale acts, ∃ v, (after scale oneSided acts).walkers[1]? = some v ∧ v.logProb.IsReal) ∧
      ∃ d, outcome (run once spread) oneSided = (.ok (), d) ∧ ∀ k w x, d.entry k w = some x → x.logProb.IsReal) ∧
    nowhere.target.IsDensity ∧
      (∀ scale acts, ∀ e ∈ passed scale nowhere acts, e.walkers = nowhere.walkers) ∧
      ∃ d, outcome (run once spread) nowhere = (.ok (), d) ∧
        ∀ (k w : Nat) x, d.entry k w = some x → spread[w]? = some x.point := by
  have hreturns {c : Chain Exact} {v : Array Exact → Exact} (hv : ∀ p, c.target.logProb p = .ok (v p))
      (hsize : c.size = 3) (hndim : c.ndim = 1) : ∃ d, outcome (run once spread) c = (.ok (), d) := by
    rw [outcome_run_once hv hsize hndim]
    have hacts : Acts (2.0 : Exact) (fun _ => False) (steps 2.0 0.0 1 true 1 0) := acts_steps _ _ _ _ _
    obtain ⟨⟨⟩, d, hd⟩ := hacts.returns (c := begun once c (spread.map fun p => ⟨p, v p⟩)) fun p e h => by
      cases (hv p).symm.trans h
    exact ⟨d, hd⟩
  have ht : oneSided.target.IsDensity := by
    intro p v h
    obtain rfl := Except.ok.inj ((logProb_oneSided p).symm.trans h)
    cases p.any fun x => lt x 0.0 with
    | true => exact .inr rfl
    | false => exact .inl trivial
  have hn (p : Array Exact) (v : Exact) (h : nowhere.target.logProb p = .ok v) : v = -infinity :=
    (Except.ok.inj ((logProb_nowhere p).symm.trans h)).symm
  have hdensity : nowhere.target.IsDensity := fun p v h => .inr (hn p v h)
  obtain ⟨d, hd⟩ := hreturns logProb_oneSided rfl rfl
  obtain ⟨d', hd'⟩ := hreturns logProb_nowhere rfl rfl
  refine ⟨⟨ht, fun scale acts => ?_, d, hd, ?_⟩, hdensity, fun scale acts => ?_, d', hd', ?_⟩
  · exact (walkers_stay_in_support ht).1 scale acts 1 _ rfl trivial _ (after_mem_passed _ acts)
  · refine ((walkers_stay_in_support ht).2.2 once spread d hd).1 fun p hp v h => ?_
    obtain rfl := Except.ok.inj ((logProb_oneSided p).symm.trans h)
    simp only [spread, List.mem_cons, List.not_mem_nil, or_false] at hp
    rcases hp with rfl | rfl | rfl <;> norm_num [Exact.IsReal]
  · exact (walkers_stay_in_support hdensity).2.1 scale acts fun p _ => hn p
  · obtain ⟨-, ws, acts, hws, -, -, hall⟩ := (walkers_stay_in_support hdensity).2.2 once spread d' hd'
    intro k w x hx
    rcases hall (fun p _ => hn p) k w x hx with h | ⟨-, h⟩
    · rw [← hws, List.getElem?_map, h]
      rfl
    · exact absurd h (by decide)

/-- Without a step between the samples there are no steps at all: the samples are not where the walkers are. -/
theorem stuck_unsampled : (∀ p, stuck.target.logProb p = .ok (-infinity)) ∧ ∃ d r x,
    outcome (stuckRun 2 0) stuck = (.ok (), d) ∧ d.records = .ok [r, r] ∧ r[0]? = some x ∧ x.point ≠ #[1.0] :=
  ⟨fun _ => rfl, _, _, _, rfl, rfl, rfl, by decide⟩

end Chain

end GridBayes
