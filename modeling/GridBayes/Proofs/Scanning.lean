import GridBayes.Text.Scan
import Mathlib.Data.List.TakeWhile

/-! Searching and replacing. Matches are found at places of the text that was searched, and a piece
of the new text that no match can reach into stood in the old text as it is. -/
namespace GridBayes.Text
open List

variable {c : Char} {t before cs : List Char} {k : Nat}

theorem takeWhile_append_of_stop {p : Char → Bool} (hc : p c = false) (a b : List Char) :
    (a ++ c :: b).takeWhile p = a.takeWhile p := by
  induction a with
  | nil => simp [hc]
  | cons d a ih => simp only [cons_append, takeWhile_cons, ih]

theorem append_inj_of_mark {mark : Char} {a b s : List Char} (ha : mark ∉ a) (hb : mark ∉ b)
    (hs : ∀ c ∈ s.head?, c = mark) (ht : ∀ c ∈ t.head?, c = mark) (h : a ++ s = b ++ t) : a = b ∧ s = t := by
  induction a generalizing b with
  | nil =>
    cases b with
    | nil => exact ⟨rfl, h⟩
    | cons c b =>
      have hc : c = mark := hs c (by rw [show s = c :: b ++ t from h]; rfl)
      exact absurd (by rw [hc]; exact mem_cons_self) hb
  | cons c a ih =>
    cases b with
    | nil =>
      have hc : c = mark := ht c (by rw [show t = c :: a ++ s from h.symm]; rfl)
      exact absurd (by rw [hc]; exact mem_cons_self) ha
    | cons d b =>
      obtain ⟨rfl, hrest⟩ := cons.inj h
      simp only [mem_cons, not_or] at ha hb
      obtain ⟨rfl, rfl⟩ := ih ha.2 hb.2 hrest
      exact ⟨rfl, rfl⟩

theorem isWord_of_isAlphanum (h : c.isAlphanum = true) : isWord c = true := by
  have hlt : c.toNat < 128 := by
    rcases Bool.or_eq_true_iff.mp h with hl | hd
    · rcases Bool.or_eq_true_iff.mp hl with hu | hl
      · exact Nat.lt_of_le_of_lt (show c.toNat ≤ 90 from (of_decide_eq_true hu).2) (by decide)
      · exact Nat.lt_of_le_of_lt (show c.toNat ≤ 122 from of_decide_eq_true (Bool.and_eq_true_iff.mp hl).2) (by decide)
    · exact Nat.lt_of_le_of_lt (show c.toNat ≤ 57 from of_decide_eq_true (Bool.and_eq_true_iff.mp hd).2) (by decide)
  simp [isWord, hlt, h]

theorem isWord_of_isDigit (h : c.isDigit = true) : isWord c = true :=
  isWord_of_isAlphanum (by simp [Char.isAlphanum, h])

theorem isWord_of_isNameStart (h : isNameStart c = true) : isWord c = true := by
  simp only [isNameStart, Bool.or_eq_true, beq_iff_eq] at h
  rcases h with h | rfl
  · exact isWord_of_isAlphanum (by simp [Char.isAlphanum, h])
  · decide

theorem isDigit_of_mem_toString {n : Nat} (h : c ∈ (toString n).toList) : c.isDigit = true := by
  have hc : c ∈ Nat.toDigits 10 n := by simpa using h
  exact Nat.isDigit_of_mem_toDigits (by decide) (by decide) hc

/-! ## Words -/

variable {p first : Char → Bool} {w word rest : List Char}

theorem span_append (hw : ∀ d ∈ w, p d = true) (hrest : ∀ d ∈ rest.head?, p d = false) :
    (w ++ rest).takeWhile p = w ∧ (w ++ rest).dropWhile p = rest := by
  rw [takeWhile_append_of_pos hw, dropWhile_append_of_pos hw]
  cases rest with
  | nil => simp
  | cons d rest => simp [hrest d rfl]

theorem wordAt?_some (hfirst : ∀ c, first c = true → isWord c = true) (h : wordAt? first cs = some (word, rest)) :
    (word ≠ [] ∧ ∀ c ∈ word, isWord c = true) ∧ cs = word ++ rest := by
  cases cs with
  | nil => cases h
  | cons c cs =>
    obtain ⟨hc, h⟩ := Option.ite_none_right_eq_some.mp h
    cases h
    refine ⟨⟨cons_ne_nil _ _, forall_mem_cons.mpr ⟨hfirst c hc, fun d => mem_takeWhile_imp⟩⟩, ?_⟩
    rw [cons_append, takeWhile_append_dropWhile]

theorem wordAt?_append (hs : ∃ c cs, w = c :: cs ∧ first c = true) (hw : ∀ c ∈ w, isWord c = true)
    (hrest : ∀ d ∈ rest.head?, isWord d = false) : wordAt? first (w ++ rest) = some (w, rest) := by
  obtain ⟨c, cs, rfl, hc⟩ := hs
  obtain ⟨htake, hdrop⟩ := span_append (forall_mem_cons.mp hw).2 hrest
  rw [cons_append, wordAt?, if_pos hc, htake, hdrop]

variable {α : Type} {rule : Rule α} {read : Reader α}

theorem atWord_eq_some {x : α × List Char} : Rule.atWord read before cs = some x ↔
    afterWord before = false ∧ read cs = some x := by
  simp [Rule.atWord]

/-! ## Where matches are found -/

variable {a : α}

theorem mem_hits_piecesFrom (h : a ∈ hits (piecesFrom rule before k cs)) :
    ∃ b after n, after <:+ cs ∧ rule b after = some (a, n) := by
  induction cs generalizing before k with
  | nil => simp [piecesFrom, hits] at h
  | cons c rest ih =>
    cases k with
    | succ k =>
      obtain ⟨b, after, n, ha, hrule⟩ := ih h
      exact ⟨b, after, n, ha.trans (suffix_cons c rest), hrule⟩
    | zero =>
      unfold piecesFrom at h
      split at h
      · rename_i found n hf
        rcases mem_cons.mp h with rfl | h
        · exact ⟨before, c :: rest, n, suffix_refl _, hf⟩
        · obtain ⟨b, after, n, ha, hrule⟩ := ih h
          exact ⟨b, after, n, ha.trans (suffix_cons c rest), hrule⟩
      · obtain ⟨b, after, n, ha, hrule⟩ := ih h
        exact ⟨b, after, n, ha.trans (suffix_cons c rest), hrule⟩

theorem mem_hits_pieces (h : a ∈ hits (pieces rule cs)) : ∃ b after n, after <:+ cs ∧ rule b after = some (a, n) :=
  mem_hits_piecesFrom h

/-! ## What a replacement leaves -/

variable {f : α → List Char}

theorem fill_congr {g : α → List Char} {pieces : List (Piece α)} (h : ∀ a ∈ hits pieces, f a = g a) :
    fill f pieces = fill g pieces := by
  induction pieces with
  | nil => rfl
  | cons piece rest ih =>
    cases piece with
    | char c => rw [fill, fill, ih h]
    | hit a =>
      have hrest : ∀ b ∈ hits rest, f b = g b := fun b hb => h b (mem_cons_of_mem a hb)
      rw [fill, fill, ih hrest, h a mem_cons_self]

/-- A place of the new text is one of the old outside every match, or lies in what stands for a match. -/
theorem suffix_fill_piecesFrom (h : t <:+ fill f (piecesFrom rule before k cs)) (hne : t ≠ []) :
    (∃ b c rest, (c :: rest) <:+ cs ∧ t = c :: fill f (piecesFrom rule (c :: b) 0 rest)) ∨
      ∃ b after a n u more, after <:+ cs ∧ rule b after = some (a, n) ∧ u <:+ f a ∧ u ≠ [] ∧ t = u ++ more := by
  induction cs generalizing before k with
  | nil => exact absurd (suffix_nil.mp (by exact h)) hne
  | cons c rest ih =>
    -- What is found further on is found here: only the old text gets one character longer.
    have hl : ∀ {before : List Char} {k : Nat}, t <:+ fill f (piecesFrom rule before k rest) →
        (∃ b d more, (d :: more) <:+ c :: rest ∧ t = d :: fill f (piecesFrom rule (d :: b) 0 more)) ∨
          ∃ b after a n u more, after <:+ c :: rest ∧ rule b after = some (a, n) ∧ u <:+ f a ∧
            u ≠ [] ∧ t = u ++ more := by
      intro before k ht
      rcases ih ht with ⟨b, d, more, hd, he⟩ | ⟨b, after, a, n, u, more, ha, hu⟩
      · exact Or.inl ⟨b, d, more, hd.trans (suffix_cons c rest), he⟩
      · exact Or.inr ⟨b, after, a, n, u, more, ha.trans (suffix_cons c rest), hu⟩
    cases k with
    | succ k => exact hl h
    | zero =>
      unfold piecesFrom at h
      split at h
      · rename_i found n hf
        obtain ⟨pre, hpre⟩ := h
        rcases append_eq_append_iff.mp hpre with ⟨u, hu, hmore⟩ | ⟨u, hu, hmore⟩
        · cases u with
          | nil => exact hl ⟨[], by exact hmore⟩
          | cons d u =>
            exact Or.inr ⟨before, c :: rest, found, n, d :: u, _, suffix_refl _, hf,
              ⟨pre, hu.symm⟩, cons_ne_nil d u, hmore⟩
        · exact hl ⟨u, hmore.symm⟩
      · obtain ⟨pre, hpre⟩ := h
        cases pre with
        | nil => exact Or.inl ⟨before, c, rest, suffix_refl _, hpre⟩
        | cons d pre => exact hl ⟨pre, (cons.inj hpre).2⟩

/-- A start of the new text that nothing for a match can reach is one of the old text. -/
theorem prefix_of_fill_piecesFrom {m more : List Char} (h : fill f (piecesFrom rule before 0 cs) = m ++ more)
    (hb : ∀ b after a n u x y, rule b after = some (a, n) → u <:+ m → u ≠ [] → f a ++ x ≠ u ++ y) : m <+: cs := by
  induction m generalizing before cs with
  | nil => exact nil_prefix
  | cons c m ih =>
    cases cs with
    | nil => simp [piecesFrom, fill] at h
    | cons d rest =>
      unfold piecesFrom at h
      split at h
      · rename_i a n hf
        exact absurd h (hb _ _ a n (c :: m) _ _ hf (suffix_refl _) (cons_ne_nil c m))
      · obtain ⟨rfl, htail⟩ := cons.inj h
        have hm := ih htail fun b after a n u x y hf hu => hb b after a n u x y hf (hu.trans (suffix_cons d m))
        exact prefix_cons_inj d |>.mpr hm

end GridBayes.Text
