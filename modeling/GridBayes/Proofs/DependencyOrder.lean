import GridBayes.Program.Order
import GridBayes.Proofs.SymbolSet

/-! Ordering by dependency is sound and complete: it finds an order in which the parts can run
whenever there is one, and what it finds is such an order of the very parts it was given. -/
namespace GridBayes.Order
open List SymbolSet

variable {α : Type}

/-! ## Taking the first part -/

variable {p : α → Bool} {xs parts result parts' : List α} {c : α} {kind : VarKind}

lemma takeFirst?_eq_some {rest : List α} (h : takeFirst? p xs = some (c, rest)) :
    ∃ before after, xs = before ++ c :: after ∧ rest = before ++ after ∧ p c = true ∧ ∀ z ∈ before, ¬ p z = true := by
  induction xs generalizing rest with
  | nil => cases h
  | cons x xs ih =>
    unfold takeFirst? at h
    split at h
    · rename_i hx
      cases h
      exact ⟨[], xs, rfl, rfl, hx, by simp⟩
    · rename_i hx
      obtain ⟨⟨d, others⟩, hd, he⟩ := Option.map_eq_some_iff.mp h
      cases he
      obtain ⟨before, after, rfl, rfl, hc, hb⟩ := ih hd
      exact ⟨x :: before, after, rfl, rfl, hc, forall_mem_cons.mpr ⟨hx, hb⟩⟩

lemma takeFirst?_some {rest : List α} (h : takeFirst? p xs = some (c, rest)) : p c = true ∧ (c :: rest).Perm xs := by
  obtain ⟨before, after, rfl, rfl, hc, -⟩ := takeFirst?_eq_some h
  exact ⟨hc, perm_middle.symm⟩

lemma takeFirst?_none (h : takeFirst? p xs = none) : ∀ c ∈ xs, p c = false := by
  induction xs with
  | nil => simp
  | cons x xs ih =>
    unfold takeFirst? at h
    split at h
    · simp at h
    · rename_i hx
      have hxs := ih (Option.map_eq_none_iff.mp h)
      intro c hc
      rcases mem_cons.mp hc with rfl | hc
      · simpa using hx
      · exact hxs c hc

variable [Part α]

/-! ## Orders in which parts can run -/

/-- All that a part requires of the kind is provided from the start or by an earlier part. -/
def RunsFrom (kind : VarKind) (provided : SymbolSet) (order : List α) : Prop :=
  ∀ (before : List α) (c : α) (after : List α), order = before ++ c :: after →
    ∀ s ∈ Part.requires c, s.isKind kind = true → s ∈ provided ∨ ∃ d ∈ before, s ∈ Part.provides d

def Runs (kind : VarKind) (order : List α) : Prop :=
  ∀ (before : List α) (c : α) (after : List α), order = before ++ c :: after →
    ∀ s ∈ Part.requires c, s.isKind kind = true → ∃ d ∈ before, s ∈ Part.provides d

lemma runsFrom_empty (kind : VarKind) (order : List α) : RunsFrom kind [] order ↔ Runs kind order := by
  simp [RunsFrom, Runs]

lemma runsFrom_nil (kind : VarKind) (provided : SymbolSet) : RunsFrom kind provided ([] : List α) := by
  intro before c after h
  simp at h

lemma ready_iff (kind : VarKind) (provided : SymbolSet) (c : α) : ready kind provided c = true ↔
      ∀ s ∈ Part.requires c, s.isKind kind = true → s ∈ provided := by
  unfold ready
  rw [all_eq_true]
  refine forall_congr' fun s => imp_congr_right fun _ => ?_
  cases hk : s.isKind kind <;> simp

lemma runsFrom_cons (kind : VarKind) (provided : SymbolSet) (c : α) (order : List α) :
    RunsFrom kind provided (c :: order) ↔ ready kind provided c = true ∧
        RunsFrom kind (union (Part.provides c) provided) order := by
  rw [ready_iff]
  constructor
  · intro h
    refine ⟨fun s hs hk => ?_, fun before d after hd s hs hk => ?_⟩
    · simpa using h [] c order rfl s hs hk
    · have hsp : c :: order = (c :: before) ++ d :: after := by rw [hd]; rfl
      rcases h (c :: before) d after hsp s hs hk with hp | ⟨e, he, hse⟩
      · exact Or.inl ((mem_union _ _ _).mpr (Or.inr hp))
      · rcases mem_cons.mp he with rfl | he
        · exact Or.inl ((mem_union _ _ _).mpr (Or.inl hse))
        · exact Or.inr ⟨e, he, hse⟩
  · rintro ⟨hc, h⟩ before d after hd s hs hk
    cases before with
    | nil =>
      cases hd
      exact Or.inl (hc s hs hk)
    | cons b before =>
      obtain ⟨rfl, hrest⟩ := cons.inj hd
      rcases h before d after hrest s hs hk with hp | ⟨e, he, hse⟩
      · rcases (mem_union _ _ _).mp hp with hp | hp
        · exact Or.inr ⟨c, mem_cons_self, hp⟩
        · exact Or.inl hp
      · exact Or.inr ⟨e, mem_cons_of_mem c he, hse⟩

/-- A part that is ready may be put first: the others lose nothing. -/
lemma RunsFrom.move_first {provided : SymbolSet} {left right : List α}
    (h : RunsFrom kind provided (left ++ c :: right)) :
    RunsFrom kind (union (Part.provides c) provided) (left ++ right) := by
  induction left generalizing provided with
  | nil => exact ((runsFrom_cons kind provided c right).mp h).2
  | cons b left ih =>
    obtain ⟨hb, h⟩ := (runsFrom_cons kind provided b (left ++ c :: right)).mp h
    refine (runsFrom_cons kind _ b (left ++ right)).mpr ⟨?_, ?_⟩
    · rw [ready_iff] at hb ⊢
      intro s hs hk
      exact (mem_union _ _ _).mpr (Or.inr (hb s hs hk))
    · intro before d after hd s hs hk
      have hmem := ih h before d after hd s hs hk
      simp only [mem_union] at hmem ⊢
      rcases hmem with (hc | hb | hp) | he
      · exact Or.inl (Or.inr (Or.inl hc))
      · exact Or.inl (Or.inl hb)
      · exact Or.inl (Or.inr (Or.inr hp))
      · exact Or.inr he

/-! ## Taking ready parts again and again -/

lemma settle_sound (kind : VarKind) (fuel : Nat) (provided : SymbolSet) (parts result : List α)
    (h : settle kind fuel provided parts = some result) : result.Perm parts ∧ RunsFrom kind provided result := by
  induction fuel generalizing provided parts result with
  | zero =>
    cases parts with
    | nil =>
      obtain rfl : [] = result := by simpa [settle] using h
      exact ⟨Perm.refl _, runsFrom_nil kind provided⟩
    | cons c parts => simp [settle] at h
  | succ fuel ih =>
    cases parts with
    | nil =>
      obtain rfl : [] = result := by simpa [settle] using h
      exact ⟨Perm.refl _, runsFrom_nil kind provided⟩
    | cons x parts =>
      simp only [settle] at h
      split at h
      · rename_i c rest htake
        obtain ⟨tail, htail, rfl⟩ := Option.map_eq_some_iff.mp h
        obtain ⟨hre, hperm⟩ := takeFirst?_some htake
        obtain ⟨hp, hr⟩ := ih _ _ _ htail
        exact ⟨(hp.cons c).trans hperm, (runsFrom_cons kind provided c tail).mpr ⟨hre, hr⟩⟩
      · simp at h

lemma settle_complete (kind : VarKind) (fuel : Nat) (provided : SymbolSet)
    (parts order : List α) (hfuel : parts.length ≤ fuel) (hperm : order.Perm parts)
    (ho : RunsFrom kind provided order) : ∃ result, settle kind fuel provided parts = some result := by
  induction fuel generalizing provided parts order with
  | zero =>
    obtain rfl : parts = [] := length_eq_zero_iff.mp (Nat.le_zero.mp hfuel)
    exact ⟨[], rfl⟩
  | succ fuel ih =>
    cases parts with
    | nil => exact ⟨[], rfl⟩
    | cons x parts =>
      simp only [settle]
      cases htake : takeFirst? (ready kind provided) (x :: parts) with
      | none =>
        -- The first part of the order is ready, so something would have been taken.
        cases order with
        | nil => simp at hperm
        | cons b order =>
          have hb := ((runsFrom_cons kind provided b order).mp ho).1
          have hb' := takeFirst?_none htake b (hperm.subset mem_cons_self)
          rw [hb] at hb'
          cases hb'
      | some found =>
        obtain ⟨c, rest⟩ := found
        obtain ⟨-, hrest⟩ := takeFirst?_some htake
        have hc : c ∈ order := (hrest.trans hperm.symm).subset mem_cons_self
        obtain ⟨left, right, rfl⟩ := append_of_mem hc
        have hleft : (left ++ right).Perm rest := ((perm_middle.symm.trans hperm).trans hrest.symm).cons_inv
        have hlen : rest.length ≤ fuel := by
          have := hrest.length_eq
          simp only [length_cons] at this hfuel
          omega
        obtain ⟨result, hr⟩ := ih _ rest (left ++ right) hlen hleft ho.move_first
        exact ⟨c :: result, by simp [hr]⟩

/-! ## The checks before -/

lemma mem_symbols (s : Symbol) (parts : List α) :
    s ∈ symbols parts ↔ ∃ c ∈ parts, s ∈ Part.requires c ∨ s ∈ Part.provides c := by
  unfold symbols
  induction parts with
  | nil => simp
  | cons c parts ih =>
    rw [foldr_cons, mem_union, ih]
    simp

/-- No number stands among the symbols of the parts. -/
def OnlyVariables (parts : List α) : Prop :=
  ∀ c ∈ parts, ∀ s, s ∈ Part.requires c ∨ s ∈ Part.provides c → s.isLiteral = false

lemma badSymbol?_none_iff : badSymbol? parts = none ↔ OnlyVariables parts := by
  unfold badSymbol? OnlyVariables
  rw [findSome?_eq_none_iff]
  refine forall_congr' fun c => imp_congr_right fun _ => ?_
  rw [find?_eq_none]
  refine forall_congr' fun s => ?_
  rw [mem_union, Bool.not_eq_true]

lemma unprovided?_none {order : List α} (hperm : order.Perm parts) (ho : Runs .localVar order) :
    unprovided? parts = none := by
  unfold unprovided?
  rw [find?_eq_none]
  intro s hs
  obtain ⟨c, hc, hsc⟩ := (mem_symbols s parts).mp hs
  have hp : s.isKind .localVar = true → ∃ d ∈ parts, s ∈ Part.provides d := by
    intro hk
    rcases hsc with hreq | hprov
    · obtain ⟨before, after, hsp⟩ := append_of_mem (hperm.symm.subset hc)
      obtain ⟨d, hd, hsd⟩ := ho before c after hsp s hreq hk
      have hdo : d ∈ order := by rw [hsp]; exact mem_append_left _ hd
      exact ⟨d, hperm.subset hdo, hsd⟩
    · exact ⟨c, hc, hprov⟩
  cases hk : s.isKind .localVar with
  | false => simp
  | true => simpa using hp hk

lemma sort_eq_ok (h : sort kind parts = .ok result) : settle kind parts.length [] parts = some result := by
  unfold sort at h
  split at h
  · cases h
  · split at h
    · cases h
    · split at h
      · rename_i found hf
        cases h
        exact hf
      · cases h

lemma onlyVariables_of_sort (h : sort kind parts = .ok result) : OnlyVariables parts := by
  unfold sort at h
  split at h
  · cases h
  · rename_i hnone
    exact badSymbol?_none_iff.mp hnone

lemma sort_sound (h : sort kind parts = .ok result) : result.Perm parts ∧ Runs kind result := by
  obtain ⟨hperm, hruns⟩ := settle_sound kind _ _ _ _ (sort_eq_ok h)
  exact ⟨hperm, (runsFrom_empty kind result).mp hruns⟩

lemma sort_error_kind {e : Fault} (hvars : OnlyVariables parts) (h : sort kind parts = .error e) :
    e.kind = .lookup := by
  unfold sort at h
  rw [badSymbol?_none_iff.mpr hvars] at h
  dsimp only at h
  split at h
  · cases h
    rfl
  · split at h
    · cases h
    · cases h
      rfl

/-! ## The symbols of parts -/

lemma sorted_symbols (h : OnlyVariables parts) : Sorted (symbols parts) := by
  unfold symbols
  induction parts with
  | nil => exact sorted_nil
  | cons c parts ih =>
    refine Sorted.union (fun s hs => h c mem_cons_self s ?_) (ih fun d hd => h d (mem_cons_of_mem c hd))
    exact (mem_union s _ _).mp hs

lemma OnlyVariables.perm (h : OnlyVariables parts) (hperm : parts.Perm parts') : OnlyVariables parts' :=
  fun c hc => h c (hperm.mem_iff.mpr hc)

lemma symbols_perm (h : OnlyVariables parts) (hperm : parts.Perm parts') : symbols parts = symbols parts' := by
  refine (sorted_symbols h).ext (sorted_symbols (h.perm hperm)) fun s => ?_
  rw [mem_symbols, mem_symbols]
  exact exists_congr fun c => and_congr_left' hperm.mem_iff

/-! ## Sorting -/

/-- Parts of variables are sorted exactly if they can run in some order, into such an order of the same parts.
Otherwise the refusal is a failed look-up. -/
theorem sort_ok_iff_runs (kind : VarKind) (parts : List α) (hvars : OnlyVariables parts) :
    ((∃ result, sort kind parts = .ok result) ↔ ∃ order : List α, order.Perm parts ∧ Runs kind order) ∧
      (∀ result, sort kind parts = .ok result → result.Perm parts ∧ Runs kind result) ∧
      ((¬ ∃ order : List α, order.Perm parts ∧ Runs kind order) →
        ∃ e : Fault, sort kind parts = .error e ∧ e.kind = .lookup) := by
  have hs : ∀ result, sort kind parts = .ok result →
      result.Perm parts ∧ Runs kind result := fun result h => sort_sound h
  have hc : (∃ order : List α, order.Perm parts ∧ Runs kind order) → ∃ result, sort kind parts = .ok result := by
    rintro ⟨order, hperm, ho⟩
    obtain ⟨result, hr⟩ := settle_complete kind parts.length [] parts order (Nat.le_refl _) hperm
      ((runsFrom_empty kind order).mpr ho)
    have hp : (if kind = .localVar then unprovided? parts else none) = none := by
      split
      · rename_i hk
        subst hk
        exact unprovided?_none hperm ho
      · rfl
    exact ⟨result, by simp [sort, badSymbol?_none_iff.mpr hvars, hp, hr]⟩
  refine ⟨⟨fun ⟨result, h⟩ => ⟨result, hs result h⟩, hc⟩, hs, fun hnone => ?_⟩
  cases h : sort kind parts with
  | ok result => exact absurd ⟨result, hs result h⟩ hnone
  | error e => exact ⟨e, rfl, sort_error_kind hvars h⟩

/-- Of two equal assignments, one comes before and one after what needs their variable. -/
theorem sort_twins :
    let a : Component := .assignment (.var .localVar "a") [.var .param "x"] "\x7bp__x\x7d"
    let b : Component := .assignment (.var .localVar "b") [.var .localVar "a"] "\x7bv__a\x7d"
    OnlyVariables [b, a, a] ∧ sort .localVar [b, a, a] = .ok [a, b, a] ∧
      ([a, b, a].Perm [b, a, a] ∧ Runs .localVar [a, b, a]) := by
  intro a b
  have hvars : OnlyVariables [b, a, a] := badSymbol?_none_iff.mp rfl
  have hsort : sort .localVar [b, a, a] = .ok [a, b, a] := by rfl
  exact ⟨hvars, hsort, (sort_ok_iff_runs .localVar [b, a, a] hvars).2.1 _ hsort⟩

end GridBayes.Order
