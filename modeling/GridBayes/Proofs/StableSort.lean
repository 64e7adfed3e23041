import GridBayes.Text.Basic

/-! Sorting by a text. The sort is stable, so its result is known from the elements of each key, in
the order in which they were given. Where different elements have different keys the order of the
elements plays no part. -/
namespace GridBayes.Text
open List

@[simp] theorem le_iff (a b : String) : le a b = true ↔ a ≤ b := by
  rw [le, Bool.not_eq_true', decide_eq_false_iff_not, String.not_lt]

variable {α : Type} {key : α → String}

def keyed (key : α → String) (x : String) (l : List α) : List α :=
  l.filter fun a => key a == x

variable {l m : List α}

theorem mem_keyed {a : α} {x : String} : a ∈ keyed key x l ↔ a ∈ l ∧ key a = x := by simp [keyed]

theorem keyed_insertBy (x : String) (a : α) (l : List α) : keyed key x (insertBy key a l) = keyed key x (a :: l) := by
  induction l with
  | nil => rfl
  | cons b l ih =>
    unfold insertBy
    split
    · rfl
    · rename_i hlt
      -- what stands before has another key
      have hne : key a ≠ key b := fun h => hlt ((le_iff _ _).mpr (h ▸ String.le_refl _))
      simp only [keyed, filter_cons] at ih ⊢
      rw [ih]
      by_cases ha : key a = x
      · simp [← ha, hne.symm]
      · simp [ha]

theorem keyed_sortBy (x : String) (l : List α) : keyed key x (sortBy key l) = keyed key x l := by
  induction l with
  | nil => rfl
  | cons a l ih =>
    refine (keyed_insertBy x a (sortBy key l)).trans ?_
    simp only [keyed, filter_cons] at ih ⊢
    rw [ih]

theorem pairwise_sortBy (l : List α) : (sortBy key l).Pairwise fun a b => key a ≤ key b := by
  induction l with
  | nil => exact .nil
  | cons a l ih =>
    change (insertBy key a (sortBy key l)).Pairwise _
    generalize sortBy key l = sorted at ih
    induction sorted with
    | nil => exact pairwise_singleton _ a
    | cons b l ih' =>
      obtain ⟨hb, hl⟩ := pairwise_cons.mp ih
      unfold insertBy
      split
      · rename_i hle
        rw [le_iff] at hle
        exact pairwise_cons.mpr ⟨forall_mem_cons.mpr ⟨hle, fun c hc => String.le_trans hle (hb c hc)⟩, ih⟩
      · rename_i hlt
        rw [le_iff] at hlt
        refine pairwise_cons.mpr ⟨fun c hc => ?_, ih' hl⟩
        rcases mem_cons.mp ((insertBy_perm key a l).subset hc) with rfl | hc
        · exact (String.le_total _ _).resolve_left hlt
        · exact hb c hc

theorem eq_of_keyed (hl : l.Pairwise fun a b => key a ≤ key b) (hm : m.Pairwise fun a b => key a ≤ key b)
    (h : ∀ x, keyed key x l = keyed key x m) : l = m := by
  have hmem : ∀ {l m : List α}, (∀ x, keyed key x l = keyed key x m) → ∀ a ∈ l, a ∈ m := by
    intro l m h a ha
    have hk : a ∈ keyed key (key a) m := h (key a) ▸ mem_keyed.mpr ⟨ha, rfl⟩
    exact (mem_keyed.mp hk).1
  induction l generalizing m with
  | nil =>
    cases m with
    | nil => rfl
    | cons b m => exact absurd (hmem (fun x => (h x).symm) b mem_cons_self) (by simp)
  | cons a l ih =>
    cases m with
    | nil => exact absurd (hmem h a mem_cons_self) (by simp)
    | cons b m =>
      have hkey : key a = key b := by
        have hb := hmem (fun x => (h x).symm) b mem_cons_self
        have ha := hmem h a mem_cons_self
        have hab : key a ≤ key b := by
          rcases mem_cons.mp hb with hb | hb
          · exact hb ▸ String.le_refl _
          · exact (pairwise_cons.mp hl).1 b hb
        have hba : key b ≤ key a := by
          rcases mem_cons.mp ha with ha | ha
          · exact ha ▸ String.le_refl _
          · exact (pairwise_cons.mp hm).1 a ha
        exact String.le_antisymm hab hba
      have hf := h (key a)
      simp only [keyed, filter_cons, beq_self_eq_true, if_true, ← hkey] at hf
      obtain ⟨rfl, -⟩ := List.cons.inj hf
      refine congrArg (a :: ·) (ih (pairwise_cons.mp hl).2 (pairwise_cons.mp hm).2 fun x => ?_)
      have hx := h x
      simp only [keyed, filter_cons] at hx
      split at hx
      · exact (List.cons.inj hx).2
      · exact hx

theorem sortBy_congr (h : ∀ x, keyed key x l = keyed key x m) : sortBy key l = sortBy key m :=
  eq_of_keyed (pairwise_sortBy l) (pairwise_sortBy m) fun x => by rw [keyed_sortBy, keyed_sortBy, h x]

theorem sortBy_map {β : Type} {f : β → α} (l : List β) : sortBy key (l.map f) = (sortBy (key ∘ f) l).map f := by
  have hi (b : β) (l : List β) : insertBy key (f b) (l.map f) = (insertBy (key ∘ f) b l).map f := by
    induction l with
    | nil => rfl
    | cons c l ih =>
      rw [map_cons, insertBy, insertBy, apply_ite (map f), map_cons, map_cons, map_cons, ih]
      rfl
  induction l with
  | nil => rfl
  | cons b l ih =>
    refine Eq.trans ?_ (hi b _)
    exact congrArg (insertBy key (f b)) ih

theorem keyed_of_perm (hperm : l.Perm m) (hkeys : ∀ a ∈ l, ∀ b ∈ l, key a = key b → a = b) (x : String) :
    keyed key x l = keyed key x m := by
  have hany : ∀ l : List α, l.Pairwise fun _ _ => True := fun l => pairwise_of_forall fun _ _ => trivial
  refine (hperm.filter fun a => key a == x).eq_of_pairwise ?_ (hany _) (hany _)
  intro a b ha hb _ _
  obtain ⟨ha, hax⟩ := mem_keyed.mp ha
  obtain ⟨hb, hbx⟩ := mem_keyed.mp hb
  exact hkeys a ha b (hperm.mem_iff.mpr hb) (hax.trans hbx.symm)

theorem sort_perm {xs ys : List String} (h : xs.Perm ys) : sort xs = sort ys :=
  have hk : ∀ x, keyed id x xs = keyed id x ys := keyed_of_perm h fun _ _ _ _ he => he
  sortBy_congr hk

end GridBayes.Text
