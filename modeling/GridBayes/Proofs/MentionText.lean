import GridBayes.Proofs.Placeholder
import GridBayes.Proofs.SourceTemplate

/-! Running text from which mentions of deferred variables are extracted. The two rules that rewrite such a
text read words with points and indices, and they find nothing that goes over a place between words. So a
variable with an index is rewritten in the same way wherever it stands: its index is joined to its name. -/
namespace GridBayes
open List Option

namespace Text

/-- No word, no mention and no index goes on from the first text to the second. -/
structure Severed (a b : List Char) : Prop where
  parted : Parted a b
  dashes : ∀ c ∈ a.getLast?, ∀ d ∈ b.head?, (isWord c = true → ¬ ['-', '-'] <+: b) ∧
    (isWord d = true → ¬ ['-', '-'] <:+ a) ∧ ¬ (c = '-' ∧ d = '-')

lemma Severed.of_suffix {a b s : List Char} (h : Severed a b) (hs : s <:+ a) (hne : s ≠ []) : Severed s b where
  parted := h.parted.of_suffix hs hne
  dashes c hc d hd := by
    obtain ⟨front, rfl⟩ := hs
    obtain ⟨hleft, hr, hdash⟩ := h.dashes c (by rwa [getLast?_append_of_ne_nil front hne]) d hd
    exact ⟨hleft, fun hword hends => hr hword (hends.trans (suffix_append front s)), hdash⟩

end Text

namespace Deferred
open Text

/-! ## Rules that read words with points and indices -/

section

variable {ok : Char → Bool} {cs a b before name : List Char} {c : Char}

lemma indexAt_none (h : ¬ ['-', '-'] <+: cs) : indexAt ok cs = (none, cs) := by
  unfold indexAt
  split
  · rename_i rest
    exact absurd ⟨rest, rfl⟩ h
  · rfl

lemma indexAt_severed (hok : ∀ d, ok d = true → isWord d = true) (hname : IsWord name) (h : Severed (name ++ a) b) :
    indexAt ok (a ++ b) = Prod.map id (· ++ b) (indexAt ok a) := by
  obtain ⟨front, c, rfl⟩ := eq_nil_or_concat name |>.resolve_left hname.1
  have hc : isWord c = true := hname.2 c (by simp)
  replace h : Severed (c :: a) b := h.of_suffix ⟨front, by simp⟩ (cons_ne_nil c a)
  by_cases hh : ['-', '-'] <+: a
  · obtain ⟨a, rfl⟩ := hh
    have hspan : (a ++ b).takeWhile ok = a.takeWhile ok ∧ (a ++ b).dropWhile ok = a.dropWhile ok ++ b := by
      cases a with
      | nil =>
        refine span_append (w := []) (by simp) fun d hd => ?_
        by_contra hokd
        exact (h.dashes '-' rfl d hd).2.1 (hok d (by simpa using hokd)) ⟨[c], rfl⟩
      | cons f a =>
        by_cases hf : ok f = true
        · obtain ⟨htake, hdrop⟩ := h.parted.tail.tail.tail.span (hok f hf) hok
          simp [hf, htake, hdrop]
        · simp [hf]
    simp only [cons_append, nil_append, indexAt, hspan.1, hspan.2]
    split <;> rfl
  · -- the two hyphens would have to stand in the second text, or one of them in each
    have hnone : ¬ ['-', '-'] <+: a ++ b := by
      rintro ⟨rest, hrest⟩
      rcases a with _ | ⟨e, _ | ⟨e', a⟩⟩
      · cases b with
        | nil => cases hrest
        | cons d b => exact (h.dashes c rfl d rfl).1 hc ⟨rest, hrest⟩
      · cases b with
        | nil => cases hrest
        | cons d b =>
          obtain ⟨rfl, htail⟩ := cons.inj hrest
          exact (h.dashes '-' rfl d rfl).2.2 ⟨rfl, (cons.inj htail).1.symm⟩
      · obtain ⟨rfl, htail⟩ := cons.inj hrest
        cases htail
        exact hh ⟨a, rfl⟩
    rw [indexAt_none hh, indexAt_none hnone]
    rfl

lemma unmarked_key {w : List Char} {i : Option (List Char)} (hw : IsWord w) (hi : ∀ j ∈ i, IsIndex j) :
    ∀ c ∈ w ++ indexPart i, c ∉ ['\x7b', '\x7d', ':', '!', '[', '.'] := by
  intro c hc
  rcases isWord_or_dash hw hi hc with hword | rfl
  · exact Template.not_mark_of_isWord hword
  · decide

lemma namedAt?_severed (grid : Option (List Char)) (h : Severed ('.' :: a) b) :
    namedAt? grid (a ++ b) = (namedAt? grid a).map (Prod.map id (· ++ b)) := by
  unfold namedAt?
  rw [h.parted.wordAt? fun _ => isWord_of_startsName]
  cases hf : wordAt? startsName a with
  | none => rfl
  | some found =>
    obtain ⟨hname, rfl⟩ := wordAt?_some (fun _ => isWord_of_startsName) hf
    have hrest := indexAt_severed (fun _ => isWord_of_isIndexChar) hname
      (h.of_suffix (suffix_cons '.' _) (by simp [hname.1]))
    simp only [map_some, Prod.map, id, hrest]

lemma griddedAt?_severed (h : Severed ('.' :: a) b) :
    griddedAt? (a ++ b) = (griddedAt? a).map (Prod.map id (· ++ b)) := by
  unfold griddedAt?
  rw [h.parted.wordAt? fun _ => isWord_of_startsGrid]
  cases hf : wordAt? startsGrid a with
  | none => rfl
  | some found =>
    obtain ⟨grid, rest⟩ := found
    obtain ⟨hgrid, rfl⟩ := wordAt?_some (fun _ => isWord_of_startsGrid) hf
    have hs : Severed (grid ++ rest) b := h.of_suffix (suffix_cons '.' _) (by simp [hgrid.1])
    cases rest with
    | nil =>
      -- no point follows the word
      cases b with
      | nil => rfl
      | cons d b =>
        rw [append_nil] at hs
        have hlast := getLast?_eq_some_getLast hgrid.1
        have hd := ((hs.parted _ hlast d rfl).1 (hgrid.2 _ (getLast_mem hgrid.1))).2
        simp [hd]
    | cons e rest =>
      by_cases he : e = '.'
      · subst he
        have hnamed := namedAt?_severed (some grid) (hs.of_suffix (suffix_append grid _) (cons_ne_nil '.' rest))
        simp only [map_some, Prod.map, id, cons_append, hnamed]
        split <;> rfl
      · simp [he]

lemma referenceAt?_none (h : ¬ ['g', '.'] <+: cs) : referenceAt? cs = none := by
  unfold referenceAt?
  split
  · rename_i rest
    exact absurd ⟨rest, rfl⟩ h
  · rfl

lemma referenceAt?_quiet (c : Char) (cs : List Char) (hc : isWord c = false) : referenceAt? (c :: cs) = none := by
  refine referenceAt?_none fun hp => ?_
  rw [← (cons_prefix_cons.mp hp).1] at hc
  exact absurd hc (by decide)

lemma referenceRule_none (h : ¬ ['g', '.'] <+: cs) : referenceRule before cs = none := by
  rw [referenceRule, Rule.atWord, referenceAt?_none h, ite_self]

lemma referenceRule_wordlike : Rule.Wordlike referenceRule := wordlike_atWord referenceAt?_quiet

lemma referenceRule_cuts (h : Severed a b) : Rule.Cuts referenceRule a b :=
  cuts_atWord referenceAt?_quiet fun k s hs hk => by
    replace hs := h.of_suffix hs (cons_ne_nil k s)
    cases s with
    | nil =>
      -- a letter alone in the first text is not followed by a point
      have hnone : ¬ ['g', '.'] <+: k :: b := by
        rintro ⟨rest, hrest⟩
        have hb : '.' :: rest = b := (cons.inj hrest).2
        exact ((hs.parted k rfl '.' (by rw [← hb]; rfl)).1 hk).2 rfl
      rw [nil_append, referenceAt?_none hnone, referenceAt?_none (by simp), map_none]
    | cons e s =>
      by_cases hst : 'g' = k ∧ '.' = e
      · obtain ⟨rfl, rfl⟩ := hst
        have hrest : Severed ('.' :: s) b := hs.of_suffix (suffix_cons _ _) (cons_ne_nil _ _)
        simp only [cons_append, referenceAt?, griddedAt?_severed hrest, namedAt?_severed none hrest]
        cases griddedAt? s <;> rfl
      · have hnone (cs : List Char) : ¬ ['g', '.'] <+: k :: e :: cs := by simpa using hst
        rw [cons_append, referenceAt?_none (hnone _), referenceAt?_none (hnone s), map_none]

lemma indexedAt?_quiet (c : Char) (cs : List Char) (hc : isWord c = false) : indexedAt? (c :: cs) = none := by
  rw [indexedAt?, Symbol.variableAt?_quiet c cs hc, map_none]

lemma indexedRule_wordlike : Rule.Wordlike indexedRule := wordlike_atWord indexedAt?_quiet

lemma indexedRule_none (h : '.' ∉ cs) : indexedRule before cs = none := by
  simp [indexedRule, Rule.atWord, indexedAt?, Symbol.variableAt?_unpointed h]

lemma indexedRule_cuts (h : Severed a b) : Rule.Cuts indexedRule a b :=
  cuts_atWord indexedAt?_quiet fun k s hs hk => by
    replace hs := h.of_suffix hs (cons_ne_nil k s)
    unfold indexedAt?
    rw [hs.parted.variableAt? hk]
    cases hv : Symbol.variableAt? (k :: s) with
    | none => rfl
    | some found =>
      obtain ⟨⟨kind, name⟩, rest⟩ := found
      obtain ⟨hname, heq⟩ := variableAt?_some hv
      have hrest : Severed (name ++ rest) b := hs.of_suffix ⟨[kind.letter, '.'], heq.symm⟩ (by simp [hname.1])
      simp only [map_some, Prod.map, id, indexAt_severed (fun _ hd => hd) hname hrest]

end

/-! ## Texts after extraction -/

lemma fill_keys (cs : List Char) :
    fill (fun k : Key => '\x7b' :: (k.text.toList ++ ['\x7d'])) (pieces keyRule cs) = cs := by
  refine fill_pieces_self (fun before after k left h => ⟨cons_ne_nil _ _, ?_⟩) cs
  obtain ⟨word, index, -, -, rfl, rfl⟩ := keyRule_some h
  rw [text_keyOfWord]
  simp [braced]

section
variable {current : Option String} {a b : List Char}

def placed (current : Option String) (cs : List Char) : List Char :=
  fill (fun r => '\x7b' :: (Reference.key current r).text.toList ++ ['\x7d']) (pieces referenceRule cs)

def joined (current : Option String) (cs : List Char) : List Char :=
  substitute indexedRule (fun v => (v.text current).toList) cs

/-- What is extracted from a text, apart from the list of mentions. -/
def normal (current : Option String) (cs : List Char) : List Char :=
  joined current (placed current cs)

lemma normal_of_extract {known mentions : List String} {source code : String}
    (h : extract known source current = .ok (mentions, code)) : code.toList = normal current source.toList := by
  unfold extract at h
  dsimp only at h
  split at h
  · cases h
  · obtain ⟨-, rfl⟩ := Prod.mk.inj (Except.ok.inj h)
    exact String.toList_ofList

lemma placed_append (h : Severed a b) : placed current (a ++ b) = placed current a ++ placed current b := by
  unfold placed
  rw [pieces_append referenceRule_wordlike (referenceRule_cuts h) h.parted.meet, fill_append]

lemma joined_append (h : Severed a b) : joined current (a ++ b) = joined current a ++ joined current b := by
  unfold joined substitute
  rw [pieces_append indexedRule_wordlike (indexedRule_cuts h) h.parted.meet, fill_append]

variable {c : Char}

lemma placed_cons (hc : isWord c = false) (cs : List Char) : placed current (c :: cs) = c :: placed current cs := by
  unfold placed
  rw [pieces_cons_of_not_word referenceRule_wordlike hc, fill]

lemma joined_cons (hc : isWord c = false) (cs : List Char) : joined current (c :: cs) = c :: joined current cs := by
  unfold joined substitute
  rw [pieces_cons_of_not_word indexedRule_wordlike hc, fill]

lemma normal_cons (hc : isWord c = false) (cs : List Char) : normal current (c :: cs) = c :: normal current cs := by
  unfold normal
  rw [placed_cons hc, joined_cons hc]

structure Separates (c : Char) : Prop where
  word : isWord c = false
  point : c ≠ '.'

lemma Separates.severed (hc : Separates c) (hleft : c = '-' → a.getLast? ≠ some '-')
    (hr : c = '-' → b.head? ≠ some '-') : Severed a (c :: b) ∧ Severed (a ++ [c]) b := by
  refine ⟨⟨parted_of_stop hc.word hc.point a b, fun e he d hd => ?_⟩, ⟨fun e he d hd => ?_, fun e he d hd => ?_⟩⟩
  · cases hd
    refine ⟨fun _ hp => ?_, fun hword => ?_, ?_⟩
    · obtain ⟨rest, hrest⟩ := hp
      cases hrest
      exact hr rfl rfl
    · rw [hc.word] at hword
      cases hword
    · rintro ⟨rfl, rfl⟩
      exact hleft rfl he
  · rw [getLast?_concat] at he
    cases he
    exact ⟨fun hword => absurd hword (by simp [hc.word]), fun _ => hc.point⟩
  · rw [getLast?_concat] at he
    cases he
    refine ⟨fun hword => ?_, fun _ hs => ?_, ?_⟩
    · rw [hc.word] at hword
      cases hword
    · obtain ⟨front, hf⟩ := hs
      have ha : front ++ ['-'] ++ ['-'] = a ++ [c] := by simpa using hf
      obtain ⟨rfl, hlast⟩ := append_inj' ha rfl
      exact hleft (cons.inj hlast).1.symm (getLast?_concat)
    · rintro ⟨rfl, rfl⟩
      exact hr rfl hd

lemma getLast?_placed (h : (placed current a).getLast? = some c) : a.getLast? = some c ∨ c = '\x7d' := by
  rcases getLast?_fill_piecesFrom (fun r => cons_ne_nil _ _) h with hlast | ⟨r, hlast⟩
  · exact Or.inl hlast
  · have hb : (('\x7b' :: (Reference.key current r).text.toList) ++ ['\x7d']).getLast? = some c := hlast
    rw [getLast?_concat] at hb
    exact Or.inr (some.inj hb).symm

inductive Opens : List Char → Prop where
  | nil : Opens []
  | snoc {a : List Char} {c : Char} (separates : Separates c) (dash : c = '-' → a.getLast? ≠ some '-') :
      Opens (a ++ [c])

def Closes (b : List Char) : Prop :=
  ∀ d ∈ b.head?, Separates d

lemma Closes.parted (h : Closes b) (a : List Char) : Parted a b := by
  intro c _ d hd
  exact ⟨fun _ => ⟨(h d hd).word, (h d hd).point⟩, fun hword => absurd hword (by simp [(h d hd).word])⟩

lemma Opens.severed (h : Opens a) (hb : b.head? ≠ some '-') : Severed a b := by
  cases h with
  | nil => exact ⟨fun c hc => (by cases hc), fun c hc => (by cases hc)⟩
  | snoc hc hdash => exact (hc.severed hdash fun _ => hb).2

lemma Opens.placed (h : Opens a) : Opens (placed current a) := by
  cases h with
  | nil => exact .nil
  | @snoc a c hc hdash =>
    have hp := (hc.severed (b := []) hdash fun _ => by simp).1
    rw [placed_append hp, placed_cons hc.word]
    refine .snoc hc fun hh hlast => ?_
    rcases getLast?_placed hlast with h | h
    · exact hdash hh h
    · exact absurd h (by decide)

lemma Closes.placed (h : Closes b) : Closes (placed current b) := by
  cases b with
  | nil => exact h
  | cons d b =>
    rw [placed_cons (h d rfl).word]
    exact h

end

/-! ## Variables with an index -/

structure IndexedVariable where
  kind : VarKind
  name : List Char
  index : List Char
  starts : ∃ c rest, name = c :: rest ∧ startsGrid c = true
  word : ∀ c ∈ name, isWord c = true
  isIndex : IsWord index

namespace IndexedVariable

variable (x : IndexedVariable)

def written : List Char :=
  x.kind.letter :: '.' :: (x.name ++ '-' :: '-' :: x.index)

/-- The variable with the index joined to its name, or without it if that is the sign of no current index. -/
def joinedName (current : Option String) : List Char :=
  x.name ++ (((actualIndex current (some (String.ofList x.index))).map ("__" ++ ·)).getD "").toList

variable {b : List Char}

lemma indexedRule_written (hb : Closes b) : indexedRule [] (x.written ++ b) =
      some (⟨x.kind.letter, String.ofList x.name, some (String.ofList x.index)⟩, b) := by
  have hw : x.written ++ b = x.kind.letter :: '.' :: (x.name ++ (indexPart (some x.index) ++ b)) := by
    simp [written, indexPart]
  have hdash : ∀ d ∈ (indexPart (some x.index) ++ b).head?, isWord d = false := by
    rintro _ ⟨⟩
    decide
  have hi : indexAt isWord (indexPart (some x.index) ++ b) = (some x.index, b) :=
    indexAt_append (by simpa [IsWord] using x.isIndex) (fun d hd => (hb d hd).word) (by simp)
  rw [hw]
  simp [indexedRule, Rule.atWord, afterWord, indexedAt?, variableAt?_append x.starts x.word hdash, hi]

lemma joined_written (current : Option String) (hb : Closes b) : joined current (x.written ++ b) =
      x.kind.letter :: '.' :: x.joinedName current ++ joined current b := by
  have hp : pieces indexedRule (x.written ++ b) = .hit _ :: pieces indexedRule b :=
    pieces_hit indexedRule_wordlike (x.indexedRule_written hb) fun _ _ d hd => Or.inr (hb d hd).word
  unfold joined substitute
  rw [hp, fill, indexedText_toList, String.toList_ofList]
  rfl

lemma point_not_mem : '.' ∉ x.name ++ '-' :: '-' :: x.index := by
  have hname := not_mem_of_isWord ⟨by obtain ⟨c, rest, h, -⟩ := x.starts; simp [h], x.word⟩
    (show isWord '.' = false by decide)
  have hi := not_mem_of_isWord x.isIndex (show isWord '.' = false by decide)
  simp [hname, hi]

lemma not_reference {s : List Char} (hs : s <:+ x.written) (hne : s ≠ []) (hb : Closes b) :
    ¬ ['g', '.'] <+: s ++ b := by
  rintro ⟨rest, hrest⟩
  rcases suffix_cons_iff.mp hs with rfl | hs
  · have hl := (cons.inj hrest).1
    cases hkind : x.kind <;> rw [hkind] at hl <;> exact absurd hl (by decide)
  rcases suffix_cons_iff.mp hs with rfl | hs
  · exact absurd (cons.inj hrest).1 (by decide)
  rcases s with _ | ⟨d, _ | ⟨d', s⟩⟩
  · exact hne rfl
  · cases b with
    | nil => cases hrest
    | cons e b => exact (hb e rfl).point (cons.inj (cons.inj hrest).2).1.symm
  · obtain rfl := (cons.inj (cons.inj hrest).2).1
    exact x.point_not_mem (hs.subset (by simp))

lemma placed_written (current : Option String) (hb : Closes b) :
    placed current (x.written ++ b) = x.written ++ placed current b := by
  have hnone : ∀ before s, s <:+ x.written → s ≠ [] → referenceRule before s = none := by
    intro before s hs hne
    have hnot := x.not_reference hs hne (b := []) fun d hd => by cases hd
    rw [append_nil] at hnot
    exact referenceRule_none hnot
  have hcuts : Rule.Cuts referenceRule x.written b := by
    intro before s hs hne
    rw [hnone before s hs hne, referenceRule_none (x.not_reference hs hne hb), map_none]
  unfold placed
  rw [pieces_append referenceRule_wordlike hcuts fun _ _ d hd => Or.inr (hb d hd).word, fill_append,
    pieces_of_none hnone, fill_map_char]

lemma normal_around (current : Option String) {a : List Char} (ha : Opens a) (hb : Closes b) :
    normal current (a ++ (x.written ++ b)) =
      normal current a ++ (x.kind.letter :: '.' :: x.joinedName current ++ normal current b) := by
  have hle : ∀ cs : List Char, (x.written ++ cs).head? ≠ some '-' := by
    intro cs h
    have hl : x.kind.letter = '-' := some.inj h
    cases hkind : x.kind <;> rw [hkind] at hl <;> exact absurd hl (by decide)
  unfold normal
  rw [placed_append (ha.severed (hle b)), x.placed_written current hb,
    joined_append (ha.placed.severed (hle _)), x.joined_written current hb.placed]

end IndexedVariable

end Deferred

end GridBayes
