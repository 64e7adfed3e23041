import GridBayes.Proofs.DependencyOrder

/-! The order that sorting finds is the least of all in which the parts can run. Two orders are compared by the
places that their parts have in the input: the first part in which they differ decides. -/
namespace GridBayes.Order
open List Option

variable {α : Type} {p : α → Bool} {xs rest parts : List α} {c : α} {kind : VarKind}

/-! ## The first part that is ready -/

lemma sublist_of_takeFirst? (h : takeFirst? p xs = some (c, rest)) : rest <+ xs := by
  obtain ⟨before, after, rfl, rfl, -⟩ := takeFirst?_eq_some h
  exact (sublist_cons_self c after).append_left before

lemma takeFirst?_first {r : α → α → Prop} (hxs : xs.Pairwise r) (h : takeFirst? p xs = some (c, rest)) :
    ∀ z ∈ xs, p z = true → z = c ∨ r c z := by
  obtain ⟨before, after, rfl, -, -, hb⟩ := takeFirst?_eq_some h
  intro z hz hp
  rcases mem_append.mp hz with hz | hz
  · exact absurd hp (hb z hz)
  · have ha := (pairwise_cons.mp (pairwise_append.mp hxs).2.1).1
    exact (mem_cons.mp hz).imp_right (ha z)

lemma takeFirst?_map {β : Type} (f : β → α) (xs : List β) :
    takeFirst? p (xs.map f) = (takeFirst? (p ∘ f) xs).map (Prod.map f (map f)) := by
  induction xs with
  | nil => rfl
  | cons x xs ih =>
    rw [map_cons, takeFirst?, takeFirst?, ih, Function.comp_apply]
    split
    · rfl
    · cases takeFirst? (p ∘ f) xs <;> rfl

/-! ## Parts with their places -/

variable [Part α]

instance : Part (α × Nat) := ⟨fun c => Part.requires c.1, fun c => Part.provides c.1⟩

variable {provided : SymbolSet} {fuel : Nat} {placed order result : List (α × Nat)}

lemma settle_map_fst : settle kind fuel provided (placed.map Prod.fst) =
    (settle kind fuel provided placed).map (map Prod.fst) := by
  induction fuel generalizing provided placed with
  | zero => cases placed <;> rfl
  | succ fuel ih =>
    cases placed with
    | nil => rfl
    | cons x placed =>
      have htake : takeFirst? (ready kind provided) ((x :: placed).map Prod.fst) =
          (takeFirst? (ready kind provided) (x :: placed)).map (Prod.map Prod.fst (map Prod.fst)) :=
        takeFirst?_map Prod.fst (x :: placed)
      rw [map_cons] at htake ⊢
      simp only [settle, htake]
      cases takeFirst? (ready kind provided) (x :: placed) with
      | none => rfl
      | some found =>
        simp only [Option.map_some, Prod.map, ih, Option.map_map]
        rfl

lemma runsFrom_map_fst : RunsFrom kind provided (order.map Prod.fst) ↔ RunsFrom kind provided order := by
  induction order generalizing provided with
  | nil => exact iff_of_true (runsFrom_nil _ _) (runsFrom_nil _ _)
  | cons c order ih =>
    rw [map_cons, runsFrom_cons, runsFrom_cons, ih]
    rfl

/-- Each time the first ready part is taken, and an order in which the parts can run begins with a ready one. -/
lemma settle_least (hp : placed.Pairwise (·.2 < ·.2)) (h : settle kind fuel provided placed = some result)
    (hperm : order.Perm placed) (ho : RunsFrom kind provided order) :
    result = order ∨ (result.map Prod.snd).Lex (· < ·) (order.map Prod.snd) := by
  induction fuel generalizing provided placed result order with
  | zero =>
    cases placed with
    | nil =>
      cases h
      exact .inl hperm.eq_nil.symm
    | cons x placed => cases h
  | succ fuel ih =>
    cases placed with
    | nil =>
      cases h
      exact .inl hperm.eq_nil.symm
    | cons x placed =>
      simp only [settle] at h
      split at h
      · rename_i c rest htake
        obtain ⟨tail, htail, rfl⟩ := map_eq_some_iff.mp h
        cases order with
        | nil => cases hperm.symm.eq_nil
        | cons z order =>
          obtain ⟨hz, ho⟩ := (runsFrom_cons kind provided z order).mp ho
          rcases takeFirst?_first hp htake z (hperm.subset mem_cons_self) hz with rfl | hless
          · have hrest : order.Perm rest := (hperm.trans (takeFirst?_some htake).2.symm).cons_inv
            rcases ih (hp.sublist (sublist_of_takeFirst? htake)) htail hrest ho with rfl | hless
            · exact .inl rfl
            · exact .inr (.cons hless)
          · exact .inr (.rel hless)
      · cases h

/-! ## Orders by places -/

/-- The parts in the order of some places. -/
def arranged (parts : List α) (places : List Nat) : List α :=
  places.filterMap (parts[·]?)

/-- Each part has its place once, and in this order they can run. -/
def IsRun (kind : VarKind) (parts : List α) (places : List Nat) : Prop :=
  places.Perm (range parts.length) ∧ Runs kind (arranged parts places)

def atPlaces (parts : List α) (places : List Nat) : List (α × Nat) :=
  places.filterMap fun i => parts[i]?.map (·, i)

omit [Part α] in
lemma map_fst_atPlaces (parts : List α) (places : List Nat) :
    (atPlaces parts places).map Prod.fst = arranged parts places := by
  rw [atPlaces, map_filterMap]
  congr 1
  funext i
  cases parts[i]? <;> rfl

omit [Part α] in
lemma map_snd_atPlaces (parts : List α) {places : List Nat} (h : ∀ i ∈ places, i < parts.length) :
    (atPlaces parts places).map Prod.snd = places := by
  induction places with
  | nil => rfl
  | cons i places ih =>
    obtain ⟨hi, h⟩ := forall_mem_cons.mp h
    rw [atPlaces, filterMap_cons_some (by rw [getElem?_eq_getElem hi]; rfl)]
    exact congrArg (i :: ·) (ih h)

omit [Part α] in
lemma arranged_range (parts : List α) : arranged parts (range parts.length) = parts := by
  induction parts with
  | nil => rfl
  | cons c parts ih =>
    rw [arranged, length_cons, range_succ_eq_map, filterMap_cons_some getElem?_cons_zero, filterMap_map]
    exact congrArg (c :: ·) ih

omit [Part α] in
lemma arranged_map_snd {places : List Nat} (h : order ⊆ atPlaces parts places) :
    arranged parts (order.map Prod.snd) = order.map Prod.fst := by
  rw [arranged, filterMap_map]
  refine filterMap_eq_map_iff_forall_eq_some.mpr fun c hc => ?_
  obtain ⟨i, -, hi⟩ := mem_filterMap.mp (h hc)
  obtain ⟨d, hd, rfl⟩ := map_eq_some_iff.mp hi
  exact hd

lemma sort_of_runs (hvars : OnlyVariables parts) (h : Runs kind parts) : sort kind parts = .ok parts := by
  have hs : ∀ fuel provided (xs : List α), xs.length ≤ fuel → RunsFrom kind provided xs →
      settle kind fuel provided xs = some xs := by
    intro fuel
    induction fuel with
    | zero => intro provided xs hlen _; rw [length_eq_zero_iff.mp (Nat.le_zero.mp hlen)]; rfl
    | succ fuel ih =>
      intro provided xs hlen hruns
      cases xs with
      | nil => rfl
      | cons c xs =>
        obtain ⟨hc, hruns⟩ := (runsFrom_cons kind provided c xs).mp hruns
        simp only [settle, takeFirst?, hc, if_true]
        rw [ih _ xs (Nat.le_of_succ_le_succ hlen) hruns]
        rfl
  have hp : (if kind = .localVar then unprovided? parts else none) = none := by
    split
    · rename_i hk
      subst hk
      exact unprovided?_none (Perm.refl _) h
    · rfl
  simp [sort, badSymbol?_none_iff.mpr hvars, hp,
    hs parts.length [] parts (Nat.le_refl _) ((runsFrom_empty kind parts).mpr h)]

/-- The order found is the least of all in which the parts can run. So parts that run as given stay, and sorting
again changes nothing. -/
theorem sort_least (kind : VarKind) (parts : List α) :
    (∀ result, sort kind parts = .ok result → ∃ places, arranged parts places = result ∧ IsRun kind parts places ∧
      ∀ others, IsRun kind parts others → places = others ∨ places.Lex (· < ·) others) ∧
    (OnlyVariables parts → Runs kind parts → sort kind parts = .ok parts) ∧
    ∀ result, sort kind parts = .ok result → sort kind result = .ok result := by
  refine ⟨fun result h => ?_, sort_of_runs, fun result h => ?_⟩
  · have hsnd := map_snd_atPlaces parts fun i hi => mem_range.mp hi
    have hin : (atPlaces parts (range parts.length)).Pairwise (·.2 < ·.2) :=
      pairwise_map.mp (hsnd.symm ▸ pairwise_lt_range)
    have hs := sort_eq_ok h
    rw [show settle kind parts.length [] parts = (settle kind parts.length [] (atPlaces parts (range parts.length))).map
      (map Prod.fst) by rw [← settle_map_fst, map_fst_atPlaces, arranged_range]] at hs
    obtain ⟨order, hor, rfl⟩ := Option.map_eq_some_iff.mp hs
    have hperm := (settle_sound _ _ _ _ _ hor).1
    have ha := arranged_map_snd hperm.subset
    refine ⟨order.map Prod.snd, ha, ⟨hsnd ▸ hperm.map _, ha ▸ (sort_sound h).2⟩, fun others ⟨ho, hruns⟩ => ?_⟩
    have hp := map_snd_atPlaces parts fun i hi => mem_range.mp (ho.subset hi)
    rw [← runsFrom_empty, ← map_fst_atPlaces, runsFrom_map_fst] at hruns
    rcases settle_least hin hor (ho.filterMap _) hruns with rfl | hless
    · exact .inl hp
    · exact .inr (hp ▸ hless)
  · obtain ⟨hperm, hruns⟩ := sort_sound h
    exact sort_of_runs ((onlyVariables_of_sort h).perm hperm.symm) hruns

/-- An assignment after one that needs its variable: what needs nothing goes first. -/
theorem sort_least_swapped :
    let a : Component := .assignment (.var .localVar "a") [.var .param "x"] "\x7bp__x\x7d"
    let b : Component := .assignment (.var .localVar "b") [.var .localVar "a"] "\x7bv__a\x7d"
    sort .localVar [b, a, a] = .ok [a, b, a] ∧ sort .localVar [a, b, a] = .ok [a, b, a] ∧
      ∃ places, arranged [b, a, a] places = [a, b, a] ∧ ∀ others, IsRun .localVar [b, a, a] others →
        places = others ∨ places.Lex (· < ·) others := by
  intro a b
  have hsort : sort .localVar [b, a, a] = .ok [a, b, a] := rfl
  obtain ⟨hl, -, hag⟩ := sort_least .localVar [b, a, a]
  obtain ⟨places, ha, -, ho⟩ := hl _ hsort
  exact ⟨hsort, hag _ hsort, places, ha, ho⟩

end GridBayes.Order
