import GridBayes.Proofs.Equation

/-! Templates that are made from source text. A rule that reads words finds its matches on the two
sides of a place apart from each other, if no word goes over the place. The template of a source without
braces is filled if every variable of the source has a place, and what it is filled to is the source with
the places written for the variables. -/
namespace GridBayes
open List Operation Option

namespace Text

variable {α : Type} {rule : Rule α}

/-! ## Matches on two sides of a place -/

/-- The rule finds what starts with a word, where no word goes on, looking back at one character only. -/
structure Rule.Wordlike (rule : Rule α) : Prop where
  near : ∀ d before before' cs, rule (d :: before) cs = rule (d :: before') cs
  quiet : ∀ before c cs, isWord c = false → rule before (c :: cs) = none
  back : ∀ c before cs, isWord c = false → rule (c :: before) cs = rule [] cs

/-- The same is found whether the second text follows or not. -/
def Rule.Cuts (rule : Rule α) (a b : List Char) : Prop :=
  ∀ before s, s <:+ a → s ≠ [] → rule before (s ++ b) = (rule before s).map (Prod.map id (· ++ b))

variable {read : Reader α} (hquiet : ∀ c cs, isWord c = false → read (c :: cs) = none)

include hquiet

lemma wordlike_atWord : Rule.Wordlike (.atWord read) where
  near _ _ _ _ := rfl
  quiet before c cs hc := by simp [Rule.atWord, hquiet c cs hc]
  back c before cs hc := by simp [Rule.atWord, afterWord, hc]

lemma cuts_atWord {a b : List Char} (h : ∀ k s, k :: s <:+ a → isWord k = true →
      read (k :: (s ++ b)) = (read (k :: s)).map (Prod.map id (· ++ b))) : Rule.Cuts (.atWord read) a b := by
  intro before s hs hne
  obtain ⟨k, s, rfl⟩ := exists_cons_of_ne_nil hne
  unfold Rule.atWord
  split
  · rfl
  · cases hk : isWord k with
    | true => exact h k s hs hk
    | false => rw [cons_append, hquiet k _ hk, hquiet k _ hk, map_none]

omit hquiet

lemma piecesFrom_near (hrule : Rule.Wordlike rule) (d : Char) (before before' : List Char) (k : Nat)
    (cs : List Char) : piecesFrom rule (d :: before) k cs = piecesFrom rule (d :: before') k cs := by
  induction cs generalizing d before before' k with
  | nil => cases k <;> rfl
  | cons c cs ih =>
    cases k with
    | succ k => exact ih c _ _ k
    | zero =>
      rw [piecesFrom, piecesFrom, hrule.near d before before']
      cases rule (d :: before') (c :: cs) with
      | none => exact congrArg _ (ih c _ _ 0)
      | some found => exact congrArg _ (ih c _ _ _)

variable {a b before cs : List Char} {k : Nat} {c : Char} {f : α → List Char}

lemma piecesFrom_append (hcuts : Rule.Cuts rule a b) (before : List Char) (hk : k ≤ a.length) :
    piecesFrom rule before k (a ++ b) = piecesFrom rule before k a ++ piecesFrom rule (a.reverse ++ before) 0 b := by
  induction a generalizing before k with
  | nil =>
    obtain rfl : k = 0 := Nat.le_zero.mp hk
    rfl
  | cons d a ih =>
    have htail : Rule.Cuts rule a b := fun before s hs => hcuts before s (hs.trans (suffix_cons d a))
    have hb : (d :: a).reverse ++ before = a.reverse ++ d :: before := by simp
    rw [hb]
    cases k with
    | succ k => exact ih htail _ (Nat.le_of_succ_le_succ hk)
    | zero =>
      have hcut := hcuts before (d :: a) (suffix_refl _) (cons_ne_nil d a)
      rw [cons_append] at hcut
      rw [cons_append, piecesFrom.eq_3, hcut, piecesFrom.eq_3]
      cases rule before (d :: a) with
      | none => exact congrArg _ (ih htail _ (Nat.zero_le _))
      | some found =>
        have hleft : (a ++ b).length - (found.2 ++ b).length = a.length - found.2.length := by
          rw [length_append, length_append, Nat.add_sub_add_right]
        simp only [map_some, Prod.map, id, hleft]
        exact congrArg _ (ih htail _ (Nat.sub_le _ _))

lemma piecesFrom_after (hrule : Rule.Wordlike rule)
    (hmeet : ∀ c ∈ a.getLast?, ∀ d ∈ b.head?, isWord c = false ∨ isWord d = false) :
    piecesFrom rule a.reverse 0 b = pieces rule b := by
  cases b with
  | nil => rfl
  | cons d b =>
    have hsame : rule a.reverse (d :: b) = rule [] (d :: b) := by
      cases hlast : a.reverse with
      | nil => rfl
      | cons c before =>
        have hc : a.getLast? = some c := by
          rw [getLast?_eq_head?_reverse, hlast]
          rfl
        rcases hmeet c hc d rfl with hword | hword
        · exact hrule.back c before _ hword
        · rw [hrule.quiet _ d b hword, hrule.quiet _ d b hword]
    unfold pieces
    rw [piecesFrom.eq_3, piecesFrom.eq_3, hsame]
    cases rule [] (d :: b) with
    | none => exact congrArg _ (piecesFrom_near hrule d _ _ 0 b)
    | some found => exact congrArg _ (piecesFrom_near hrule d _ _ _ b)

lemma pieces_append (hrule : Rule.Wordlike rule) (hcuts : Rule.Cuts rule a b)
    (hmeet : ∀ c ∈ a.getLast?, ∀ d ∈ b.head?, isWord c = false ∨ isWord d = false) :
    pieces rule (a ++ b) = pieces rule a ++ pieces rule b := by
  have hs := piecesFrom_append hcuts [] (Nat.zero_le _)
  rw [append_nil, piecesFrom_after hrule hmeet] at hs
  exact hs

structure Rule.Breaks (rule : Rule α) (c : Char) : Prop where
  word : isWord c = false
  cuts : ∀ a b, Rule.Cuts rule a (c :: b)

lemma pieces_cons_of_not_word (hrule : Rule.Wordlike rule) (hc : isWord c = false) (cs : List Char) :
    pieces rule (c :: cs) = .char c :: pieces rule cs := by
  have hnear := piecesFrom_after hrule (a := [c]) (b := cs) fun d hd _ _ => Or.inl ((some.inj hd) ▸ hc)
  unfold pieces at hnear ⊢
  rw [piecesFrom.eq_3, hrule.quiet [] c cs hc]
  exact congrArg _ hnear

lemma pieces_append_break (hrule : Rule.Wordlike rule) (hb : Rule.Breaks rule c) (cs more : List Char) :
    pieces rule (cs ++ c :: more) = pieces rule cs ++ .char c :: pieces rule more := by
  rw [pieces_append hrule (hb.cuts cs more) fun _ _ d hd => Or.inr ((some.inj hd) ▸ hb.word),
    pieces_cons_of_not_word hrule hb.word]

lemma fill_append (f : α → List Char) (xs ys : List (Piece α)) : fill f (xs ++ ys) = fill f xs ++ fill f ys := by
  induction xs with
  | nil => rfl
  | cons x xs ih =>
    cases x with
    | char c => simp only [cons_append, fill, ih]
    | hit a => simp only [cons_append, fill, ih, append_assoc]

lemma hits_append (xs ys : List (Piece α)) : hits (xs ++ ys) = hits xs ++ hits ys := by
  induction xs with
  | nil => rfl
  | cons x xs ih =>
    cases x with
    | char c => exact ih
    | hit a => exact congrArg (a :: ·) ih

lemma substitute_append_break (hrule : Rule.Wordlike rule) (hb : Rule.Breaks rule c) (f : α → List Char)
    (cs more : List Char) :
    substitute rule f (cs ++ c :: more) = substitute rule f cs ++ c :: substitute rule f more := by
  unfold substitute
  rw [pieces_append_break hrule hb, fill_append, fill]

lemma mem_of_char_mem (h : Piece.char c ∈ piecesFrom rule before k cs) : c ∈ cs := by
  induction cs generalizing before k with
  | nil => cases k <;> simp [piecesFrom] at h
  | cons d cs ih =>
    cases k with
    | succ k => exact mem_cons_of_mem d (ih h)
    | zero =>
      unfold piecesFrom at h
      split at h
      · rcases mem_cons.mp h with h | h
        · cases h
        · exact mem_cons_of_mem d (ih h)
      · rcases mem_cons.mp h with h | h
        · cases h
          exact mem_cons_self
        · exact mem_cons_of_mem d (ih h)

lemma fill_piecesFrom_eq_nil (hf : ∀ a, f a ≠ []) (h : fill f (piecesFrom rule before 0 cs) = []) : cs = [] := by
  cases cs with
  | nil => rfl
  | cons c cs =>
    rw [piecesFrom.eq_3] at h
    cases hfo : rule before (c :: cs) with
    | none => simp [hfo, fill] at h
    | some found => simp [hfo, fill, hf found.1] at h

lemma getLast?_fill_piecesFrom (hf : ∀ a, f a ≠ []) (h : (fill f (piecesFrom rule before k cs)).getLast? = some c) :
    cs.getLast? = some c ∨ ∃ a, (f a).getLast? = some c := by
  induction cs generalizing before k with
  | nil => cases k <;> simp [piecesFrom, fill] at h
  | cons d cs ih =>
    have hl : ∀ {before : List Char} {k : Nat}, (fill f (piecesFrom rule before k cs)).getLast? = some c →
        (d :: cs).getLast? = some c ∨ ∃ a, (f a).getLast? = some c := by
      intro before k hlast
      rcases ih hlast with hcs | hm
      · exact Or.inl (by rw [getLast?_cons, hcs]; rfl)
      · exact Or.inr hm
    cases k with
    | succ k => exact hl h
    | zero =>
      rw [piecesFrom.eq_3] at h
      cases hfo : rule before (d :: cs) with
      | none =>
        simp only [hfo, fill] at h
        by_cases hnil : fill f (piecesFrom rule (d :: before) 0 cs) = []
        · obtain rfl := fill_piecesFrom_eq_nil hf hnil
          exact Or.inl h
        · rw [getLast?_cons_of_ne_nil hnil] at h
          exact hl h
      | some found =>
        simp only [hfo, fill] at h
        by_cases hnil : fill f (piecesFrom rule (d :: before) (cs.length - found.2.length) cs) = []
        · rw [hnil, append_nil] at h
          exact Or.inr ⟨found.1, h⟩
        · rw [getLast?_append_of_ne_nil _ hnil] at h
          exact hl h

lemma pieces_of_none (h : ∀ before s, s <:+ a → s ≠ [] → rule before s = none) : pieces rule a = a.map .char := by
  have hfrom : ∀ before, piecesFrom rule before 0 a = a.map .char := by
    induction a with
    | nil => exact fun _ => rfl
    | cons c a ih =>
      intro before
      rw [piecesFrom.eq_3, h before (c :: a) (suffix_refl _) (cons_ne_nil c a)]
      exact congrArg _ (ih (fun before s hs => h before s (hs.trans (suffix_cons c a))) _)
  exact hfrom []

lemma fill_map_char (f : α → List Char) (cs : List Char) : fill f (cs.map (.char : Char → Piece α)) = cs := by
  induction cs with
  | nil => rfl
  | cons c cs ih => rw [map_cons, fill, ih]

lemma hits_map_char (cs : List Char) : hits (cs.map (.char : Char → Piece α)) = [] := by
  induction cs with
  | nil => rfl
  | cons c cs ih => exact ih

lemma fill_pieces_self (hf : ∀ before after a left, rule before after = some (a, left) → f a ≠ [] ∧ after = f a ++ left)
    (cs : List Char) : fill f (pieces rule cs) = cs := by
  have hfrom : ∀ before k, fill f (piecesFrom rule before k cs) = cs.drop k := by
    induction cs with
    | nil => exact fun before k => by cases k <;> rfl
    | cons c cs ih =>
      intro before k
      cases k with
      | succ k => exact ih (c :: before) k
      | zero =>
        rw [piecesFrom.eq_3]
        cases hfo : rule before (c :: cs) with
        | none =>
          simp only [fill]
          rw [ih]
          rfl
        | some found =>
          obtain ⟨a, left⟩ := found
          obtain ⟨hne, hleft⟩ := hf _ _ a left hfo
          obtain ⟨d, ds, hds⟩ := exists_cons_of_ne_nil hne
          rw [hds, cons_append] at hleft
          cases hleft
          simp only [fill]
          rw [ih, hds, length_append, Nat.add_sub_cancel, drop_left]
          rfl
  exact hfrom [] 0

lemma piecesFrom_skip (before : List Char) (a b : List Char) :
    piecesFrom rule before a.length (a ++ b) = piecesFrom rule (a.reverse ++ before) 0 b := by
  induction a generalizing before with
  | nil => rfl
  | cons c a ih =>
    have hb : (c :: a).reverse ++ before = a.reverse ++ c :: before := by simp
    rw [hb, ← ih (c :: before)]
    rfl

lemma pieces_hit (hrule : Rule.Wordlike rule) {x : α} (hf : rule [] (c :: a ++ b) = some (x, b))
    (hmeet : ∀ c' ∈ (c :: a).getLast?, ∀ d ∈ b.head?, isWord c' = false ∨ isWord d = false) :
    pieces rule (c :: a ++ b) = .hit x :: pieces rule b := by
  have hrest : piecesFrom rule [c] ((a ++ b).length - b.length) (a ++ b) = pieces rule b := by
    rw [length_append, Nat.add_sub_cancel, piecesFrom_skip, ← piecesFrom_after hrule hmeet, reverse_cons]
  unfold pieces at hrest ⊢
  rw [cons_append] at hf
  rw [cons_append, piecesFrom.eq_3, hf]
  exact congrArg _ hrest

/-! ## Texts between which no word goes on -/

def Parted (a b : List Char) : Prop :=
  ∀ c ∈ a.getLast?, ∀ d ∈ b.head?, (isWord c = true → isWord d = false ∧ d ≠ '.') ∧ (isWord d = true → c ≠ '.')

lemma parted_of_stop (hword : isWord c = false) (hp : c ≠ '.') (a b : List Char) : Parted a (c :: b) := by
  rintro e - d ⟨⟩
  exact ⟨fun _ => ⟨hword, hp⟩, fun h => absurd h (by simp [hword])⟩

namespace Parted

variable {s : List Char}

lemma meet (h : Parted a b) : ∀ c ∈ a.getLast?, ∀ d ∈ b.head?, isWord c = false ∨ isWord d = false := by
  intro c hc d hd
  cases hword : isWord c with
  | false => exact Or.inl rfl
  | true => exact Or.inr ((h c hc d hd).1 hword).1

lemma of_suffix (h : Parted a b) (hs : s <:+ a) (hne : s ≠ []) : Parted s b := by
  obtain ⟨front, rfl⟩ := hs
  intro c hc
  exact h c (by rwa [getLast?_append_of_ne_nil front hne])

lemma tail {a b : List Char} {c e : Char} (h : Parted (c :: e :: a) b) : Parted (e :: a) b :=
  h.of_suffix (suffix_cons c _) (cons_ne_nil e a)

lemma span (h : Parted (c :: a) b) (hc : isWord c = true) {p : Char → Bool}
    (hp : ∀ d, p d = true → isWord d = true) :
    (a ++ b).takeWhile p = a.takeWhile p ∧ (a ++ b).dropWhile p = a.dropWhile p ++ b := by
  induction a generalizing c with
  | nil =>
    have hb : ∀ d ∈ b.head?, p d = false := fun d hd => by
      by_contra hpd
      exact absurd (hp d (by simpa using hpd)) (by simp [((h c rfl d hd).1 hc).1])
    simpa using span_append (w := []) (by simp) hb
  | cons e a ih =>
    by_cases he : p e = true
    · obtain ⟨htake, hdrop⟩ := ih h.tail (hp e he)
      simp [he, htake, hdrop]
    · simp [he]

lemma wordAt? {first : Char → Bool} (hfirst : ∀ c, first c = true → isWord c = true) (h : Parted ('.' :: a) b) :
    wordAt? first (a ++ b) = (wordAt? first a).map (Prod.map id (· ++ b)) := by
  cases a with
  | nil =>
    cases b with
    | nil => rfl
    | cons d b =>
      have hd : first d = false := by
        by_contra hs
        exact (h '.' rfl d rfl).2 (hfirst d (by simpa using hs)) rfl
      simp [Text.wordAt?, hd]
  | cons c a =>
    by_cases hc : first c = true
    · obtain ⟨htake, hdrop⟩ := h.tail.span (hfirst c hc) fun _ hd => hd
      simp [Text.wordAt?, hc, htake, hdrop]
    · simp [Text.wordAt?, hc]

lemma variableAt? (h : Parted (c :: a) b) (hc : isWord c = true) : Symbol.variableAt? (c :: (a ++ b)) =
    (Symbol.variableAt? (c :: a)).map (Prod.map id (· ++ b)) := by
  cases a with
  | nil =>
    cases b with
    | nil => rfl
    | cons d b => simp [Symbol.variableAt?, ((h c rfl d rfl).1 hc).2]
  | cons e a =>
    by_cases he : e = '.'
    · subst he
      simp only [cons_append, Symbol.variableAt?, h.tail.wordAt? fun _ => isWord_of_isNameStart]
      cases VarKind.ofLetter? c <;> cases Text.wordAt? isNameStart a <;> rfl
    · simp [Symbol.variableAt?, he]

end Parted

end Text

/-! ## Variables in a source -/

namespace Symbol
open Text

variable {a b : List Char} {c : Char} {s : Symbol}

lemma variableAt?_quiet (c : Char) (cs : List Char) (hc : isWord c = false) : variableAt? (c :: cs) = none := by
  refine eq_none_iff_forall_not_mem.mpr fun ⟨⟨kind, name⟩, rest⟩ hv => ?_
  rw [(cons.inj (variableAt?_some hv).2).1] at hc
  cases kind <;> exact absurd hc (by decide)

lemma variableAt?_unpointed {cs : List Char} (h : '.' ∉ cs) : variableAt? cs = none := by
  refine eq_none_iff_forall_not_mem.mpr fun ⟨⟨kind, name⟩, rest⟩ hv => ?_
  rw [(variableAt?_some hv).2] at h
  simp at h

lemma symbolAt?_quiet (c : Char) (cs : List Char) (hc : isWord c = false) : symbolAt? (c :: cs) = none := by
  rw [symbolAt?, variableAt?_quiet c cs hc, map_none]

lemma variableRule_wordlike : Rule.Wordlike variableRule := wordlike_atWord symbolAt?_quiet

lemma variableRule_cuts (h : Parted a b) : Rule.Cuts variableRule a b :=
  cuts_atWord symbolAt?_quiet fun k s hs hk => by
    rw [symbolAt?, symbolAt?, (h.of_suffix hs (cons_ne_nil k s)).variableAt? hk, Option.map_map, Option.map_map]
    rfl

lemma variableRule_breaks (hword : isWord c = false) (hp : c ≠ '.') : Rule.Breaks variableRule c where
  word := hword
  cuts a b := variableRule_cuts (parted_of_stop hword hp a b)

lemma var_of_mem_hits {source : String} (h : s ∈ Text.hits (Template.variablePieces source)) :
    ∃ (kind : VarKind) (name : List Char), s = .var kind (String.ofList name) ∧ ∀ c ∈ name, Text.isWord c = true := by
  obtain ⟨before, after, n, -, hrule⟩ := mem_hits_pieces h
  obtain ⟨kind, name, hs, hword, -⟩ := symbolAt?_some (atWord_eq_some.mp hrule).2
  exact ⟨kind, name, hs, hword⟩

end Symbol

/-! ## Filling the template of a source -/

namespace Template

def Fields.valueOf (fields : Fields) (name : String) : String :=
  (fields.values.lookup name).getD ""

section

variable {α : Type} {fields : Fields} {inner : List Char → Except Fault (List Char)} {out : List Char}
  {name : α → List Char} {pieces : List (Text.Piece α)}
  (hch : ∀ c, Text.Piece.char c ∈ pieces → c ≠ '\x7b' ∧ c ≠ '\x7d')

include hch

lemma fillChars_pieces (hna : ∀ a ∈ Text.hits pieces, IsFieldName (name a)) :
    fillChars fields inner (Text.fill (fun a => '\x7b' :: (name a ++ ['\x7d'])) pieces) = .ok out ↔
      (∀ a ∈ Text.hits pieces, (fields.values.lookup (String.ofList (name a))).isSome = true) ∧
        out = Text.fill (fun a => (fields.valueOf (String.ofList (name a))).toList) pieces := by
  induction pieces generalizing out with
  | nil =>
    exact ⟨fun h => ⟨fun a ha => absurd ha not_mem_nil, (Except.ok.inj h).symm⟩, fun h => congrArg Except.ok h.2.symm⟩
  | cons piece pieces ih =>
    have ih {out} := @ih out fun c hc => hch c (mem_cons_of_mem piece hc)
    cases piece with
    | char c =>
      obtain ⟨hopen, hcl⟩ := hch c mem_cons_self
      rw [Text.fill, fillChars_char hopen hcl, map_eq_ok]
      simp only [ih hna]
      constructor
      · rintro ⟨cs, ⟨hall, rfl⟩, rfl⟩
        exact ⟨hall, rfl⟩
      · rintro ⟨hall, rfl⟩
        exact ⟨_, ⟨hall, rfl⟩, rfl⟩
    | hit a =>
      obtain ⟨ha, hrest⟩ := forall_mem_cons.mp hna
      rw [Text.fill, cons_append, append_assoc, singleton_append, fillChars_named ha]
      simp only [Text.hits, Text.fill, forall_mem_cons]
      unfold Fields.valueOf
      cases hv : fields.values.lookup (String.ofList (name a)) with
      | none => simp
      | some value =>
        simp only [map_eq_ok, isSome_some, true_and]
        constructor
        · rintro ⟨cs, hcs, rfl⟩
          obtain ⟨hall, rfl⟩ := (ih hrest).mp hcs
          exact ⟨hall, rfl⟩
        · rintro ⟨hall, rfl⟩
          exact ⟨_, (ih hrest).mpr ⟨hall, rfl⟩, rfl⟩

lemma isFieldName_of_fillChars
    (hna : ∀ a ∈ Text.hits pieces, (∀ c ∈ name a, c ∉ ['\x7b', '\x7d', ':', '!', '[', '.']) ∧ name a ≠ [])
    (h : fillChars fields inner (Text.fill (fun a => '\x7b' :: (name a ++ ['\x7d'])) pieces) = .ok out) :
    ∀ a ∈ Text.hits pieces, IsFieldName (name a) := by
  induction pieces generalizing out with
  | nil => exact fun a ha => absurd ha not_mem_nil
  | cons piece pieces ih =>
    have ih {out} := @ih out fun c hc => hch c (mem_cons_of_mem piece hc)
    cases piece with
    | char c =>
      obtain ⟨hopen, hcl⟩ := hch c mem_cons_self
      rw [Text.fill, fillChars_char hopen hcl] at h
      obtain ⟨cs, hcs, -⟩ := map_eq_ok.mp h
      exact ih hna hcs
    | hit a =>
      obtain ⟨⟨hm, hne⟩, hrest⟩ := forall_mem_cons.mp hna
      rw [Text.fill, cons_append, append_assoc, singleton_append, fillChars_unmarked hm hne] at h
      obtain ⟨value, hv, h⟩ := bind_eq_ok.mp h
      obtain ⟨cs, hcs, -⟩ := map_eq_ok.mp h
      exact forall_mem_cons.mpr ⟨isFieldName_of_filled hm hne hv, ih hrest hcs⟩

end

/-- The text of a source with values in the places of its variables. -/
def placed (values : List (String × String)) (source : String) : String :=
  String.ofList (Text.substitute Symbol.variableRule (fun s => ((values.lookup s.ident).getD "").toList) source.toList)

/-- The template of a source without braces is filled to the source with values in the places of its variables. -/
lemma fillNamed_ofSource {values : List (String × String)} {source code : String}
    (hopen : '\x7b' ∉ source.toList) (hcl : '\x7d' ∉ source.toList) :
    fillNamed values (ofSource source) = .ok code ↔
      (∀ s ∈ symbols source, (values.lookup s.ident).isSome = true) ∧ code = placed values source := by
  have hf : ∀ s ∈ Text.hits (variablePieces source), s.bracketed.toList = '\x7b' :: (s.ident.toList ++ ['\x7d']) := by
    intro s hs
    obtain ⟨kind, name, rfl, -⟩ := Symbol.var_of_mem_hits hs
    rw [Symbol.bracketed_var, Symbol.ident_var]
    simp
  have hname : ∀ s ∈ Text.hits (variablePieces source), IsFieldName s.ident.toList := by
    intro s hs
    obtain ⟨kind, name, rfl, hword⟩ := Symbol.var_of_mem_hits hs
    rw [Symbol.ident_var, String.toList_ofList]
    exact (Symbol.isPlainName_ident kind hword).isFieldName
  have hch : ∀ c, Text.Piece.char c ∈ variablePieces source → c ≠ '\x7b' ∧ c ≠ '\x7d' := by
    intro c hc
    have hmem := Text.mem_of_char_mem hc
    exact ⟨fun h => hopen (h ▸ hmem), fun h => hcl (h ▸ hmem)⟩
  have ht : (ofSource source).toList =
      Text.fill (fun s => '\x7b' :: (s.ident.toList ++ ['\x7d'])) (variablePieces source) := by
    unfold ofSource
    rw [String.toList_ofList]
    exact Text.fill_congr hf
  unfold fillNamed
  rw [fill_eq_ok, ht, fillChars_pieces hch hname]
  simp only [String.ofList_toList, symbols, SymbolSet.mem_ofList]
  rw [← String.toList_inj, placed, String.toList_ofList]
  rfl

end Template

end GridBayes
