import GridBayes.Symbol
import Mathlib.Data.List.Perm.Basic

/-! Sets of symbols as the sets that they stand for: what is a member after each operation. Sets of
variables are sorted by their texts, so they are equal if they have the same members. -/
namespace GridBayes.SymbolSet
open List

/-! ## Members -/

@[simp] lemma mem_insert (s t : Symbol) (a : SymbolSet) : s ∈ insert t a ↔ s = t ∨ s ∈ a := by
  induction a with
  | nil => simp [insert]
  | cons u rest ih =>
    unfold insert
    split
    · rename_i htu
      subst htu
      simp
    · split
      · simp
      · rw [mem_cons, ih, mem_cons]
        exact or_left_comm

@[simp] lemma mem_ofList (s : Symbol) (xs : List Symbol) : s ∈ ofList xs ↔ s ∈ xs := by
  unfold ofList
  induction xs with
  | nil => simp
  | cons x xs ih => rw [foldr_cons, mem_insert, ih, mem_cons]

@[simp] lemma mem_union (s : Symbol) (a b : SymbolSet) : s ∈ union a b ↔ s ∈ a ∨ s ∈ b := by
  unfold union
  induction a with
  | nil => simp
  | cons x a ih => rw [foldr_cons, mem_insert, ih, mem_cons, or_assoc]

@[simp] lemma mem_diff (s : Symbol) (a b : SymbolSet) : s ∈ diff a b ↔ s ∈ a ∧ s ∉ b := by simp [diff]

/-! ## Sets of variables -/

lemma text_inj {s t : Symbol} (hs : s.isLiteral = false) (ht : t.isLiteral = false)
    (h : s.text = t.text) : s = t := by
  cases s with
  | literal _ => cases hs
  | var k n =>
    cases t with
    | literal _ => cases ht
    | var l m =>
      have hc : k.letter :: '.' :: n.toList = l.letter :: '.' :: m.toList := by
        simpa [Symbol.text] using congrArg String.toList h
      obtain ⟨hl, hrest⟩ := List.cons.inj hc
      have hkind : some k = some l := by rw [← VarKind.ofLetter?_letter k, ← VarKind.ofLetter?_letter l, hl]
      rw [Option.some.inj hkind, String.toList_inj.mp (List.cons.inj hrest).2]

structure Sorted (a : SymbolSet) : Prop where
  onlyVars : ∀ s ∈ a, s.isLiteral = false
  order : a.Pairwise fun s t => s.text < t.text

lemma sorted_nil : Sorted [] := ⟨by simp, List.Pairwise.nil⟩

variable {a b : SymbolSet}

lemma Sorted.insert {s : Symbol} (hs : s.isLiteral = false) (ha : Sorted a) : Sorted (SymbolSet.insert s a) := by
  refine ⟨fun t ht => ?_, ?_⟩
  · rcases (mem_insert t s a).mp ht with rfl | ht
    · exact hs
    · exact ha.onlyVars t ht
  · obtain ⟨hvars, ho⟩ := ha
    induction a with
    | nil => simp [SymbolSet.insert]
    | cons u rest ih =>
      obtain ⟨hf, hrest⟩ := pairwise_cons.mp ho
      unfold SymbolSet.insert
      split
      · exact ho
      · rename_i hne
        split
        · rename_i hlt
          refine pairwise_cons.mpr ⟨fun t ht => ?_, ho⟩
          rcases mem_cons.mp ht with rfl | ht
          · exact hlt
          · exact String.lt_trans hlt (hf t ht)
        · rename_i hnlt
          refine pairwise_cons.mpr ⟨fun t ht => ?_, ?_⟩
          · rcases (mem_insert t s rest).mp ht with rfl | ht
            · by_contra hngt
              have he := String.le_antisymm (String.not_lt.mp hngt) (String.not_lt.mp hnlt)
              exact hne (text_inj hs (hvars u mem_cons_self) he)
            · exact hf t ht
          · exact ih (fun t ht => hvars t (mem_cons_of_mem u ht)) hrest

lemma Sorted.union (ha : ∀ s ∈ a, s.isLiteral = false) (hb : Sorted b) : Sorted (SymbolSet.union a b) := by
  unfold SymbolSet.union
  induction a with
  | nil => exact hb
  | cons s a ih => exact (ih fun t ht => ha t (mem_cons_of_mem s ht)).insert (ha s mem_cons_self)

lemma Sorted.nodup (h : Sorted a) : a.Nodup := by
  refine h.order.imp fun {s t} hlt he => ?_
  rw [he] at hlt
  exact String.lt_irrefl _ hlt

lemma Sorted.ext (ha : Sorted a) (hb : Sorted b) (h : ∀ s, s ∈ a ↔ s ∈ b) : a = b := by
  have hperm : a.Perm b := (perm_ext_iff_of_nodup ha.nodup hb.nodup).mpr h
  exact hperm.eq_of_pairwise (fun s t _ _ hst hts => absurd hts (String.lt_asymm hst)) ha.order hb.order

end GridBayes.SymbolSet
