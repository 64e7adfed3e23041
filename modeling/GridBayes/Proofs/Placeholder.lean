import GridBayes.Deferred.Reference
import GridBayes.Proofs.Equation

/-! The written form of placeholders and of mentions of deferred variables. A key is determined by
its text, and the placeholders in a text from which mentions were extracted are those of the
mentions and those that stood there before. -/
namespace GridBayes.Deferred
open List Text

/-! ## Words -/

def IsWord (w : List Char) : Prop :=
  w ≠ [] ∧ ∀ c ∈ w, isWord c = true

def IsIndex (i : List Char) : Prop :=
  i ≠ [] ∧ ∀ c ∈ i, isIndexChar c = true

def indexPart : Option (List Char) → List Char
  | none => []
  | some i => '-' :: '-' :: i

/-- How the name of a grid is joined to a name in a key. -/
def stem : Option (List Char) → List Char → List Char
  | none, name => name
  | some grid, name => grid ++ '_' :: '_' :: name

def dotted : Option (List Char) → List Char → List Char
  | none, name => name
  | some grid, name => grid ++ '.' :: name

def braced (word : List Char) (index : Option (List Char)) : List Char :=
  '\x7b' :: (word ++ (indexPart index ++ ['\x7d']))

/-! ## Characters -/

variable {c : Char} {cs name grid before after w rest more : List Char} {i index : Option (List Char)}
  {k : Key} {current : Option String} {v : Indexed}

lemma isWord_of_startsName (h : startsName c = true) : isWord c = true := by
  refine isWord_of_isAlphanum ?_
  simp only [startsName, Bool.or_eq_true, Bool.and_eq_true] at h
  rw [Char.isAlphanum, Bool.or_eq_true]
  exact h.imp_right And.left

lemma isWord_of_startsGrid (h : startsGrid c = true) : isWord c = true := isWord_of_isNameStart h

lemma inRanges_of_digit {z n : Nat} (hz : z ∈ digitZeros) (h1 : z ≤ n) (h2 : n ≤ z + 9) :
    inRanges wordRanges n = true := by
  have hall : (digitZeros.all fun z => wordRanges.any fun r =>
      Nat.ble r.1 z && Nat.ble (z + 9) r.2) = true := by
    decide +kernel
  obtain ⟨r, hr, hb⟩ := any_eq_true.mp (all_eq_true.mp hall z hz)
  simp only [Bool.and_eq_true, Nat.ble_eq] at hb
  refine any_eq_true.mpr ⟨r, hr, ?_⟩
  simp only [Bool.and_eq_true, decide_eq_true_eq]
  omega

lemma isWord_of_isIndexChar (h : isIndexChar c = true) : isWord c = true := by
  unfold isIndexChar isDigit at h
  rcases Bool.or_eq_true_iff.mp h with h | h
  · exact isWord_of_isAlphanum (Bool.or_eq_true_iff.mpr (.inl (Bool.or_eq_true_iff.mpr (.inr h))))
  · unfold digitValue? at h
    dsimp only at h
    split at h
    · split at h
      · rename_i hd
        exact isWord_of_isDigit hd
      · cases h
    · rename_i ha
      obtain ⟨n, hn⟩ := Option.isSome_iff_exists.mp h
      obtain ⟨z, hz, -⟩ := Option.map_eq_some_iff.mp hn
      have hr := find?_some hz
      rw [Bool.and_eq_true, decide_eq_true_eq, decide_eq_true_eq] at hr
      rw [isWord, if_neg ha]
      exact inRanges_of_digit (mem_of_find?_eq_some hz) hr.1 hr.2

lemma isWord_or_dash (hw : IsWord w) (hi : ∀ j ∈ i, IsIndex j) (hc : c ∈ w ++ indexPart i) :
    isWord c = true ∨ c = '-' := by
  rcases mem_append.mp hc with hc | hc
  · exact Or.inl (hw.2 c hc)
  · cases i with
    | none => cases hc
    | some j =>
      simp only [indexPart, mem_cons] at hc
      rcases hc with rfl | rfl | hc
      · exact Or.inr rfl
      · exact Or.inr rfl
      · exact Or.inl (isWord_of_isIndexChar ((hi j rfl).2 c hc))

/-! ## Reading parts of keys and mentions -/

lemma indexAt_eq (ok : Char → Bool) (cs : List Char) : (∀ i ∈ (indexAt ok cs).1, i ≠ [] ∧ ∀ c ∈ i, ok c = true) ∧
    cs = indexPart (indexAt ok cs).1 ++ (indexAt ok cs).2 := by
  unfold indexAt
  split
  · split
    · exact ⟨by simp, rfl⟩
    · rename_i rest hne
      refine ⟨?_, by simp [indexPart]⟩
      rintro _ ⟨⟩
      exact ⟨by simpa using hne, fun c => mem_takeWhile_imp⟩
  · exact ⟨by simp, rfl⟩

lemma indexAt_append {ok : Char → Bool} (hi : ∀ j ∈ i, j ≠ [] ∧ ∀ c ∈ j, ok c = true)
    (hrest : ∀ d ∈ rest.head?, ok d = false) (hnone : i = none → rest.head? ≠ some '-') :
    indexAt ok (indexPart i ++ rest) = (i, rest) := by
  cases i with
  | none =>
    unfold indexAt
    split
    · rename_i heq
      exact absurd (by rw [show rest = _ from heq]; rfl) (hnone rfl)
    · rfl
  | some j =>
    obtain ⟨hne, hall⟩ := hi j rfl
    obtain ⟨htake, hdrop⟩ := span_append hall hrest
    simp [indexPart, indexAt, htake, hdrop, hne]

lemma namedAt?_some {grid : Option (List Char)} {r : Reference} (h : namedAt? grid cs = some (r, rest)) :
    ∃ name index, IsWord name ∧ (∀ i ∈ index, IsIndex i) ∧
      r = ⟨grid.map String.ofList, String.ofList name, index.map String.ofList⟩ ∧
      cs = name ++ (indexPart index ++ rest) := by
  obtain ⟨⟨name, more⟩, hname, he⟩ := Option.map_eq_some_iff.mp h
  cases he
  obtain ⟨hword, rfl⟩ := wordAt?_some (fun _ => isWord_of_startsName) hname
  obtain ⟨hi, hmore⟩ := indexAt_eq isIndexChar more
  exact ⟨name, _, hword, hi, rfl, by rw [← hmore]⟩

lemma referenceRule_some {r : Reference} (h : referenceRule before after = some (r, rest)) :
    ∃ grid name index, (∀ g ∈ grid, IsWord g) ∧ IsWord name ∧ (∀ i ∈ index, IsIndex i) ∧
      r = ⟨grid.map String.ofList, String.ofList name, index.map String.ofList⟩ ∧
      after = 'g' :: '.' :: (dotted grid name ++ (indexPart index ++ rest)) := by
  have hread := (atWord_eq_some.mp h).2
  unfold referenceAt? at hread
  split at hread
  · rcases Option.or_eq_some_iff.mp hread with hgridded | ⟨-, hnamed⟩
    · unfold griddedAt? at hgridded
      split at hgridded
      · rename_i grid more hgrid
        obtain ⟨hword, rfl⟩ := wordAt?_some (fun _ => isWord_of_startsGrid) hgrid
        obtain ⟨name, index, hname, hi, rfl, rfl⟩ := namedAt?_some (Option.ite_none_right_eq_some.mp hgridded).2
        exact ⟨some grid, name, index, by simpa [IsWord] using hword, hname, hi, rfl, by simp [dotted]⟩
      · cases hgridded
    · obtain ⟨name, index, hname, hi, rfl, rfl⟩ := namedAt?_some hnamed
      exact ⟨none, name, index, by simp, hname, hi, rfl, rfl⟩
  · cases hread

lemma keyRule_some (h : keyRule before after = some (k, rest)) : ∃ word index, IsWord word ∧
    (∀ i ∈ index, IsIndex i) ∧ after = braced word index ++ rest ∧ k = keyOfWord word index := by
  unfold keyRule keyAt? at h
  split at h
  · obtain ⟨⟨word, more⟩, hword, hkey⟩ := Option.bind_eq_some_iff.mp h
    obtain ⟨hw, rfl⟩ := wordAt?_some (fun _ hc => hc) hword
    obtain ⟨hi, hmore⟩ := indexAt_eq isIndexChar more
    dsimp only at hkey
    split at hkey
    · rename_i index rest heq
      cases hkey
      rw [heq] at hi hmore
      exact ⟨word, index, hw, hi, by rw [hmore]; simp [braced], rfl⟩
    · cases hkey
  · cases h

/-! ## Keys and their texts -/

lemma splitGrid_some {done : List Char} (h : splitGrid done cs = some (grid, name)) :
    done ++ cs = grid ++ '_' :: '_' :: name := by
  induction cs generalizing done with
  | nil => cases h
  | cons c rest ih =>
    unfold splitGrid at h
    split at h
    · split at h
      · simpa using ih h
      · obtain ⟨rfl, rfl⟩ := Prod.mk.inj (Option.some.inj h)
        rfl
    · simpa using ih h

lemma text_keyOfWord (word : List Char) (index : Option (List Char)) :
    (keyOfWord word index).text = String.ofList (word ++ indexPart index) := by
  have hi : ((index.map String.ofList).map ("--" ++ ·)).getD "" =
      String.ofList (indexPart index) := by
    cases index with
    | none => rfl
    | some i =>
      show "--" ++ String.ofList i = String.ofList (['-', '-'] ++ i)
      rw [String.ofList_append]
  unfold keyOfWord
  split
  · rename_i grid name hs
    have hword : word = grid ++ '_' :: '_' :: name := splitGrid_some hs
    show String.ofList grid ++ "__" ++ String.ofList name ++ ((index.map String.ofList).map ("--" ++ ·)).getD "" = _
    rw [hi, hword]
    show _ = String.ofList (grid ++ (['_', '_'] ++ name) ++ indexPart index)
    rw [String.ofList_append, String.ofList_append, String.ofList_append, ← String.append_assoc]
  · show "" ++ String.ofList word ++ ((index.map String.ofList).map ("--" ++ ·)).getD "" = _
    rw [hi, String.ofList_append, String.empty_append]

lemma read_braced (hw : IsWord w) (hi : ∀ j ∈ i, IsIndex j) (rest : List Char) :
    wordAt? isWord (w ++ (indexPart i ++ '\x7d' :: rest)) = some (w, indexPart i ++ '\x7d' :: rest) ∧
      indexAt isIndexChar (indexPart i ++ '\x7d' :: rest) = (i, '\x7d' :: rest) := by
  obtain ⟨c, cs, rfl⟩ := exists_cons_of_ne_nil hw.1
  refine ⟨wordAt?_append ⟨c, cs, rfl, hw.2 c mem_cons_self⟩ hw.2 ?_, indexAt_append hi ?_ (by simp)⟩
  · cases i <;> rintro _ ⟨⟩ <;> decide
  · rintro _ ⟨⟩
    decide

lemma keyRule_braced (hw : IsWord w) (hi : ∀ j ∈ i, IsIndex j) (before rest : List Char) :
    keyRule before (braced w i ++ rest) = some (keyOfWord w i, rest) := by
  obtain ⟨hword, hindex⟩ := read_braced hw hi rest
  have hs : braced w i ++ rest = '\x7b' :: (w ++ (indexPart i ++ '\x7d' :: rest)) := by simp [braced]
  rw [hs]
  simp only [keyRule, keyAt?, hword, Option.bind_some, hindex]

lemma braced_inj {w' : List Char} {i' : Option (List Char)} {rest' : List Char} (hw : IsWord w) (hw' : IsWord w')
    (hi : ∀ j ∈ i, IsIndex j) (hi' : ∀ j ∈ i', IsIndex j) (h : braced w i ++ rest = braced w' i' ++ rest') :
    w = w' ∧ i = i' := by
  have hbody : w ++ (indexPart i ++ '\x7d' :: rest) = w' ++ (indexPart i' ++ '\x7d' :: rest') := by
    simpa [braced] using h
  obtain ⟨hword, hindex⟩ := read_braced hw hi rest
  obtain ⟨hword', hindex'⟩ := read_braced hw' hi' rest'
  rw [hbody, hword'] at hword
  obtain ⟨rfl, htail⟩ := Prod.mk.inj (Option.some.inj hword)
  rw [← htail, hindex'] at hindex
  exact ⟨rfl, (Prod.mk.inj hindex).1.symm⟩

/-! ## The index of a mention -/

def IsCurrent (current : Option String) : Prop :=
  ∀ c ∈ current, ∀ d ∈ c.toList, isIndexChar d = true

lemma actualIndex_cases (current mentioned : Option String) :
    actualIndex current mentioned = none ∨ actualIndex current mentioned = mentioned ∨
      actualIndex current mentioned = current ∧ ∀ c ∈ current, c ≠ "" := by
  unfold actualIndex
  split
  · exact Or.inl rfl
  · split
    · exact Or.inl rfl
    · exact Or.inl rfl
    · rename_i c hc
      refine Or.inr (Or.inr ⟨rfl, fun d hd => ?_⟩)
      cases hd
      intro he
      exact hc (by rw [he])
  · exact Or.inr (Or.inl rfl)

def actualPart (current : Option String) (index : Option (List Char)) : Option (List Char) :=
  (actualIndex current (index.map String.ofList)).map String.toList

lemma actualPart_cases (current : Option String) (index : Option (List Char)) :
    actualPart current index = none ∨ actualPart current index = index ∨
      ∃ c ∈ current, c ≠ "" ∧ actualPart current index = some c.toList := by
  unfold actualPart
  rcases actualIndex_cases current (index.map String.ofList) with h | h | ⟨h, hne⟩
  · exact Or.inl (by rw [h]; rfl)
  · rw [h]
    cases index <;> simp
  · rw [h]
    cases current with
    | none => exact Or.inl rfl
    | some c => exact Or.inr (Or.inr ⟨c, rfl, hne c rfl, rfl⟩)

lemma isIndex_actualPart (hcur : IsCurrent current) (hi : ∀ i ∈ index, IsIndex i) :
    ∀ i ∈ actualPart current index, IsIndex i := by
  rcases actualPart_cases current index with h | h | ⟨c, hc, hne, h⟩
  · simp [h]
  · rwa [h]
  · rw [h]
    intro i hmem
    cases hmem
    exact ⟨by simpa using hne, hcur c hc⟩

lemma braced_key (current : Option String) (grid : Option (List Char)) (name : List Char)
    (index : Option (List Char)) :
    '\x7b' :: (Reference.key current ⟨grid.map String.ofList, String.ofList name,
        index.map String.ofList⟩).text.toList ++ ['\x7d'] =
      braced (stem grid name) (actualPart current index) := by
  have hi : (((actualIndex current (index.map String.ofList)).map ("--" ++ ·)).getD "").toList =
      indexPart (actualPart current index) := by
    unfold actualPart
    cases actualIndex current (index.map String.ofList) with
    | none => rfl
    | some i => simp [indexPart]
  unfold Reference.key Key.text braced
  rw [String.toList_append, hi]
  cases grid with
  | none => simp [stem]
  | some g => simp [stem]

/-! ## Placeholders after extraction -/

lemma not_mem_of_isWord (hw : IsWord w) (hc : isWord c = false) : c ∉ w := fun h => by simpa [hc] using hw.2 c h

lemma not_mem_of_isIndex {i : List Char} (hi : IsIndex i) (hc : isIndexChar c = false) : c ∉ i :=
  fun h => by simpa [hc] using hi.2 c h

lemma isWord_stem {grid : Option (List Char)} (hg : ∀ g ∈ grid, IsWord g) (hn : IsWord name) :
    IsWord (stem grid name) := by
  cases grid with
  | none => exact hn
  | some g =>
    refine ⟨by simp [stem], fun c hc => ?_⟩
    simp only [stem, mem_append, mem_cons] at hc
    rcases hc with hc | rfl | rfl | hc
    · exact (hg g rfl).2 c hc
    · decide
    · decide
    · exact hn.2 c hc

lemma not_mem_body (hw : IsWord w) (hi : ∀ j ∈ i, IsIndex j) (hword : isWord c = false) (hdash : c ≠ '-')
    (hc : c ≠ '\x7d') : c ∉ w ++ (indexPart i ++ ['\x7d']) := by
  rw [← append_assoc, mem_append, mem_singleton, not_or]
  refine ⟨fun hmem => ?_, hc⟩
  rcases isWord_or_dash hw hi hmem with h | h
  · simp [hword] at h
  · exact hdash h

lemma indexedRule_some (h : indexedRule before after = some (v, rest)) :
    isWord v.kind = true ∧ (∀ d ∈ v.name.toList, isWord d = true) ∧
      ∀ i ∈ v.index, ∀ d ∈ i.toList, isWord d = true := by
  obtain ⟨⟨⟨kind, name⟩, more⟩, hv, he⟩ := Option.map_eq_some_iff.mp (atWord_eq_some.mp h).2
  cases he
  refine ⟨by cases kind <;> rfl, ?_, fun i hi => ?_⟩
  · rw [String.toList_ofList]
    exact (variableAt?_some hv).1.2
  · obtain ⟨j, hj, rfl⟩ := Option.map_eq_some_iff.mp hi
    rw [String.toList_ofList]
    exact ((indexAt_eq isWord more).1 j hj).2

lemma indexedText_toList (current : Option String) (v : Indexed) :
    (v.text current).toList = v.kind :: '.' :: (v.name.toList ++
      (((actualIndex current v.index).map ("__" ++ ·)).getD "").toList) := by
  unfold Indexed.text
  rw [String.toList_append, String.toList_append, String.toList_ofList]
  rfl

/-- Only words and points come into a text when indices are joined to the names of other variables. -/
lemma not_mem_indexedText (hcur : IsCurrent current) (h : indexedRule before after = some (v, rest))
    (hword : isWord c = false) (hp : c ≠ '.') : c ∉ (v.text current).toList := by
  obtain ⟨hkind, hname, hin⟩ := indexedRule_some h
  have hindex : ∀ i ∈ actualIndex current v.index, ∀ d ∈ i.toList, isWord d = true := by
    rcases actualIndex_cases current v.index with he | he | ⟨he, -⟩
    · simp [he]
    · rwa [he]
    · rw [he]
      exact fun i hi d hd => isWord_of_isIndexChar (hcur i hi d hd)
  have hline : c ≠ '_' := by
    rintro rfl
    exact absurd hword (by decide)
  rw [indexedText_toList]
  intro hmem
  simp only [mem_cons, mem_append] at hmem
  rcases hmem with rfl | rfl | hn | hi
  · simp [hword] at hkind
  · exact hp rfl
  · simpa [hword] using hname _ hn
  · cases ha : actualIndex current v.index with
    | none => simp [ha] at hi
    | some i =>
      rw [ha] at hi
      have hi : c ∈ i.toList := by simpa [hline] using hi
      simpa [hword] using hindex i ha _ hi

lemma braced_of_joined (hcur : IsCurrent current) {placed : List Char} (hw : IsWord w) (hi : ∀ j ∈ i, IsIndex j)
    (h : braced w i ++ more <:+ substitute indexedRule (fun v => (v.text current).toList) placed) :
    ∃ more', braced w i ++ more' <:+ placed := by
  rcases suffix_fill_piecesFrom h (by simp [braced]) with
    ⟨b, c, rest, hs, he⟩ | ⟨b, after, v, n, u, more', -, hrule, hu, hne, he⟩
  · have hb : braced w i ++ more = '\x7b' :: ((w ++ (indexPart i ++ ['\x7d'])) ++ more) := by simp [braced]
    obtain ⟨rfl, hfill⟩ := cons.inj (hb.symm.trans he)
    have hp : w ++ (indexPart i ++ ['\x7d']) <+: rest := by
      refine prefix_of_fill_piecesFrom hfill.symm fun b' after v n u x y hrule hu hne => ?_
      -- A joined name has a point as its second character, and the placeholder has none.
      rw [indexedText_toList]
      intro heq
      obtain ⟨pre, hpre⟩ := hu
      match u, hne with
      | [d], _ =>
        have hd : d = '\x7d' := by
          have := congrArg getLast? hpre
          simpa  using this
        have hkind := (indexedRule_some hrule).1
        rw [(cons.inj heq).1, hd] at hkind
        exact absurd hkind (by decide)
      | d :: e :: u, _ =>
        obtain rfl : '.' = e := (cons.inj (cons.inj heq).2).1
        refine not_mem_body hw hi (c := '.') (by decide) (by decide) (by decide) ?_
        rw [← hpre]
        simp
    obtain ⟨more', rfl⟩ := hp
    exact ⟨more', by exact hs⟩
  · -- The brace would stand in what was joined.
    cases u with
    | nil => exact absurd rfl hne
    | cons d u =>
      obtain rfl : '\x7b' = d := by
        have : '\x7b' :: (w ++ (indexPart i ++ ['\x7d']) ++ more) = d :: (u ++ more') := by exact he
        exact (cons.inj this).1
      exact absurd (hu.subset mem_cons_self) (not_mem_indexedText hcur hrule (by decide) (by decide))

def Mentions (source : List Char) (grid : Option (List Char)) (name : List Char) (index : Option (List Char)) : Prop :=
  (∀ g ∈ grid, IsWord g) ∧ IsWord name ∧ (∀ i ∈ index, IsIndex i) ∧
    ∃ rest, 'g' :: '.' :: (dotted grid name ++ (indexPart index ++ rest)) <:+ source

lemma braced_of_placed (hcur : IsCurrent current) {source : List Char} (hw : IsWord w) (hi : ∀ j ∈ i, IsIndex j)
    (h : braced w i ++ more <:+ fill (fun r => '\x7b' :: (Reference.key current r).text.toList ++ ['\x7d'])
      (pieces referenceRule source)) :
    (∃ grid name index, Mentions source grid name index ∧ w = stem grid name ∧
        i = actualPart current index) ∨ braced w i <:+: source := by
  have hb : braced w i ++ more = '\x7b' :: ((w ++ (indexPart i ++ ['\x7d'])) ++ more) := by simp [braced]
  have hc : '\x7b' ∉ w ++ (indexPart i ++ ['\x7d']) :=
    not_mem_body hw hi (by decide) (by decide) (by decide)
  rcases suffix_fill_piecesFrom h (by simp [braced]) with
    ⟨b, c, rest, hs, he⟩ | ⟨b, after, r, n, u, more', ha, hrule, hu, hne, he⟩
  · obtain ⟨rfl, hfill⟩ := cons.inj (hb.symm.trans he)
    have hp : w ++ (indexPart i ++ ['\x7d']) <+: rest := by
      refine prefix_of_fill_piecesFrom hfill.symm fun b' after r n u x y hrule hu hne => ?_
      intro heq
      cases u with
      | nil => exact hne rfl
      | cons d u =>
        obtain rfl : '\x7b' = d := (cons.inj heq).1
        exact hc (hu.subset mem_cons_self)
    obtain ⟨more', rfl⟩ := hp
    refine Or.inr (IsInfix.trans ?_ hs.isInfix)
    exact ⟨[], more', by simp [braced]⟩
  · obtain ⟨grid, name, index, hg, hn, hin, rfl, rfl⟩ := referenceRule_some hrule
    rw [braced_key] at hu
    have hact := isIndex_actualPart hcur hin
    have hstem := isWord_stem hg hn
    -- The brace of the placeholder is the one at the start of what stands for the mention.
    have hst : u = braced (stem grid name) (actualPart current index) := by
      obtain ⟨pre, hpre⟩ := hu
      cases pre with
      | nil => exact hpre
      | cons d pre =>
        have hmem : '\x7b' ∈ u := by
          cases u with
          | nil => exact absurd rfl hne
          | cons d u =>
            obtain rfl : '\x7b' = d := (cons.inj (hb.symm.trans he)).1
            exact mem_cons_self
        have htail : pre ++ u = stem grid name ++ (indexPart (actualPart current index) ++ ['\x7d']) :=
          (cons.inj hpre).2
        refine absurd (htail ▸ mem_append_right pre hmem) ?_
        exact not_mem_body hstem hact (by decide) (by decide) (by decide)
    rw [hst] at he
    obtain ⟨rfl, rfl⟩ := braced_inj hw hstem hi hact he
    exact Or.inl ⟨grid, name, index, ⟨hg, hn, hin, _, ha⟩, rfl, rfl⟩

/-- The keys of an extracted text: those of the mentions, with their indices, and those of earlier placeholders. -/
lemma extract_keys {known : List String} {source body : String} {mentions : List String} (hcur : IsCurrent current)
    (h : extract known source current = .ok (mentions, body)) (hk : k ∈ hits (pieces keyRule body.toList)) :
    ∃ word index, IsWord word ∧ (∀ i ∈ index, IsIndex i) ∧ k = keyOfWord word index ∧
      ((∃ grid name mentioned, Mentions source.toList grid name mentioned ∧
          word = stem grid name ∧ index = actualPart current mentioned) ∨
        braced word index <:+: source.toList) := by
  unfold extract at h
  dsimp only at h
  split at h
  · cases h
  · obtain ⟨-, rfl⟩ := Prod.mk.inj (Except.ok.inj h)
    rw [String.toList_ofList] at hk
    obtain ⟨b, after, n, hs, hrule⟩ := mem_hits_pieces hk
    obtain ⟨word, index, hword, hi, rfl, rfl⟩ := keyRule_some hrule
    obtain ⟨more, hp⟩ := braced_of_joined hcur hword hi hs
    exact ⟨word, index, hword, hi, rfl, braced_of_placed hcur hword hi hp⟩

end GridBayes.Deferred
