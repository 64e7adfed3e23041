import GridBayes.Proofs.MentionText
import GridBayes.Proofs.ModelAssembly

/-! Variables with an index in the parts of a model. A statement, the right-hand side or the target of an
assignment, a measured variable and the variable of a prior read `p.x--1` as the variable `p.x__1`. The
parameters of a distribution do not: there it is the variable `p.x` with `--1` after it. -/
namespace GridBayes
open List Text Operation Deferred GridBayes.Symbol DistributionCall

namespace Deferred

variable {current : Option String}

variable {cs w rest a b name : List Char} {c : Char} {fields : Template.Fields} {t text : String}
  {values : List (String × String)} {kind : VarKind}

lemma joined_unpointed (h : '.' ∉ cs) : joined current cs = cs := by
  unfold joined substitute
  rw [pieces_of_none fun _ s hs _ => indexedRule_none fun hp => h (hs.subset hp), fill_map_char]

lemma not_mem_joined (hcur : IsCurrent current) (hword : isWord c = false) (hp : c ≠ '.') (h : c ∉ cs) :
    c ∉ joined current cs := by
  intro hmem
  obtain ⟨front, rest, hsp⟩ := append_of_mem hmem
  have hs : c :: rest <:+ joined current cs := ⟨front, hsp.symm⟩
  rcases suffix_fill_piecesFrom hs (cons_ne_nil c rest) with
    ⟨_, d, more, hd, he⟩ | ⟨_, after, v, n, u, more, -, hrule, hu, hne, he⟩
  · exact h (hd.subset (by rw [(cons.inj he).1]; exact mem_cons_self))
  · cases u with
    | nil => exact hne rfl
    | cons d u =>
      obtain rfl := (cons.inj he).1
      exact not_mem_indexedText hcur hrule hword hp (hu.subset mem_cons_self)

lemma isSeparator (hc : c = '\x7b' ∨ c = '\x7d') : Separates c ∧ c ≠ '-' := by
  rcases hc with rfl | rfl
  · exact ⟨⟨by decide, by decide⟩, by decide⟩
  · exact ⟨⟨by decide, by decide⟩, by decide⟩

lemma joined_braced {run : List Char} (hw : '.' ∉ w) : joined current (run ++ ('\x7b' :: (w ++ '\x7d' :: rest))) =
      joined current run ++ '\x7b' :: (w ++ '\x7d' :: joined current rest) := by
  have hopen := isSeparator (c := '\x7b') (Or.inl rfl)
  have hc := isSeparator (c := '\x7d') (Or.inr rfl)
  rw [joined_append (hopen.1.severed (fun h => absurd h hopen.2) fun h => absurd h hopen.2).1,
    joined_cons hopen.1.word, joined_append (hc.1.severed (fun h => absurd h hc.2) fun h => absurd h hc.2).1,
    joined_cons hc.1.word, joined_unpointed hw]

def markedKey (current : Option String) (r : Reference) : List Char :=
  '\x7b' :: (Reference.key current r).text.toList ++ ['\x7d']

/-- The key that stands for a mention; the word of a mention may name a grid without a point. -/
def Reference.placedKey (current : Option String) (r : Reference) : Key :=
  keyOfWord (stem (r.grid.map String.toList) r.name.toList) (actualPart current (r.index.map String.toList))

/-- Joining indices leaves the placeholder of a mention as it is. -/
lemma joined_fill_hit (hcur : IsCurrent current) {r : Reference}
    (hr : ∃ before after n, referenceRule before after = some (r, n)) (run : List Char) (ps : List (Piece Reference)) :
    ∃ w i, IsWord w ∧ (∀ j ∈ i, IsIndex j) ∧ r.placedKey current = keyOfWord w i ∧
      joined current (run ++ fill (markedKey current) (.hit r :: ps)) =
        joined current run ++ '\x7b' :: ((w ++ indexPart i) ++ '\x7d' :: joined current (fill (markedKey current) ps)) := by
  obtain ⟨before, after, n, hrule⟩ := hr
  obtain ⟨grid, name, index, hgrid, hname, hi, rfl, -⟩ := referenceRule_some hrule
  have hword := isWord_stem hgrid hname
  have ha := isIndex_actualPart hcur hi
  refine ⟨_, _, hword, ha, ?_, ?_⟩
  · unfold Reference.placedKey
    cases grid <;> cases index <;> simp
  · rw [fill, markedKey, braced_key, ← joined_braced fun hpo => unmarked_key hword ha '.' hpo (by simp)]
    simp [braced]

lemma closed_joined_fill (hcur : IsCurrent current) (ps : List (Piece Reference))
    (hch : ∀ c, Piece.char c ∈ ps → c ≠ '\x7b' ∧ c ≠ '\x7d')
    (hhits : ∀ r ∈ hits ps, ∃ before after n, referenceRule before after = some (r, n)) (run : List Char)
    (hopen : '\x7b' ∉ run) (hcl : '\x7d' ∉ run) :
    Template.Closed (joined current (run ++ fill (markedKey current) ps)) := by
  have htext (run : List Char) (hopen : '\x7b' ∉ run) (hcl : '\x7d' ∉ run) : Template.Closed (joined current run) :=
    Template.closed_text (not_mem_joined hcur (by decide) (by decide) hopen)
      (not_mem_joined hcur (by decide) (by decide) hcl)
  -- by the pieces of the text; `run` is what stands before the next placeholder
  induction ps generalizing run with
  | nil =>
    rw [fill, append_nil]
    exact htext run hopen hcl
  | cons p ps ih =>
    have hc' := fun c hc => hch c (mem_cons_of_mem p hc)
    cases p with
    | char c =>
      obtain ⟨hco, hcc⟩ := hch c mem_cons_self
      have hnext := ih hc' hhits (run ++ [c]) (by simp [hopen, Ne.symm hco]) (by simp [hcl, Ne.symm hcc])
      rw [append_assoc] at hnext
      exact hnext
    | hit r =>
      obtain ⟨w, i, hw, hi, -, heq⟩ := joined_fill_hit hcur (hhits r mem_cons_self) run ps
      rw [heq]
      have hrest := ih hc' (fun r hr => hhits r (mem_cons_of_mem _ hr)) [] not_mem_nil not_mem_nil
      exact (htext run hopen hcl).append (Template.closed_field (unmarked_key hw hi) (by simp [hw.1]) hrest)

lemma rule_of_mem_hits {r : Reference} (hr : r ∈ hits (pieces referenceRule cs)) :
    ∃ before after n, referenceRule before after = some (r, n) := by
  obtain ⟨before, after, n, -, hrule⟩ := mem_hits_pieces hr
  exact ⟨before, after, n, hrule⟩

lemma closed_normal (hcur : IsCurrent current) (hopen : '\x7b' ∉ cs) (hcl : '\x7d' ∉ cs) :
    Template.Closed (normal current cs) := by
  refine closed_joined_fill hcur (pieces referenceRule cs) (fun c hc => ?_) (fun _ => rule_of_mem_hits) [] not_mem_nil
    not_mem_nil
  have hmem := mem_of_char_mem hc
  exact ⟨fun h => hopen (h ▸ hmem), fun h => hcl (h ▸ hmem)⟩

lemma normal_snoc (hc : Separates c) (hdash : c = '-' → a.getLast? ≠ some '-') :
    normal current (a ++ [c]) = normal current a ++ [c] := by
  have hp : (placed current a).getLast? = some '-' → a.getLast? = some '-' := by
    intro hlast
    rcases getLast?_placed hlast with h | h
    · exact h
    · exact absurd h (by decide)
  have hnil : c = '-' → ([] : List Char).head? ≠ some '-' := by simp
  unfold normal
  rw [placed_append (hc.severed hdash hnil).1, placed_cons hc.word]
  show joined current (placed current a ++ [c]) = joined current (placed current a) ++ [c]
  rw [joined_append (hc.severed (fun h hlast => hdash h (hp hlast)) hnil).1]
  rfl

lemma fill_of_text {m : List Char} (hopen : '\x7b' ∉ m) (hc : '\x7d' ∉ m)
    (h : Template.fill fields (String.ofList (m ++ rest)) = .ok t) :
    ∃ s, Template.fill fields (String.ofList rest) = .ok s ∧ t.toList = m ++ s.toList := by
  rw [String.ofList_append] at h
  obtain ⟨first, s, hf, hs, rfl⟩ := (Template.fill_append_iff (by
    rw [String.toList_ofList]; exact Template.closed_text hopen hc)).mp h
  rw [Template.fill_text (by rwa [String.toList_ofList]) (by rwa [String.toList_ofList])] at hf
  cases hf
  exact ⟨s, hs, by rw [String.toList_append, String.toList_ofList]⟩

lemma Closes.fill (hb : Closes b) (hopen : '\x7b' ∉ b) (hc : '\x7d' ∉ b)
    (h : Template.fill fields (String.ofList (normal current b)) = .ok t) : Closes t.toList := by
  cases b with
  | nil =>
    have hnil : Template.fill fields (String.ofList ([] : List Char)) = .ok "" := by
      exact Template.fill_text (by simp) (by simp)
    obtain rfl : "" = t := Except.ok.inj (hnil.symm.trans h)
    exact hb
  | cons d b =>
    simp only [mem_cons, not_or] at hopen hc
    rw [normal_cons (hb d rfl).word, ← singleton_append] at h
    obtain ⟨s, -, hs⟩ := fill_of_text (by simp [hopen.1]) (by simp [hc.1]) h
    rw [hs]
    exact hb

lemma IndexedVariable.joinedName_word (x : IndexedVariable) : ∀ c ∈ x.joinedName (some ""), isWord c = true := by
  intro c hc
  rcases mem_append.mp hc with hc | hc
  · exact x.word c hc
  · rcases actualIndex_cases (some "") (some (String.ofList x.index)) with h | h | ⟨-, h⟩
    · simp [h] at hc
    · simp only [h, Option.map_some, Option.getD_some, String.toList_append, String.toList_ofList, mem_append] at hc
      rcases hc with hc | hc
      · exact all_eq_true.mp (show ("__".toList.all isWord) = true by decide) c hc
      · exact x.isIndex.2 c hc
    · exact absurd rfl (h "" rfl)

/-- What a source becomes when its deferred variables are extracted and have these values. -/
def Filled (values : List (String × String)) (source : List Char) (text : String) : Prop :=
  Template.fill ⟨.strict, values⟩ (String.ofList (normal (some "") source)) = .ok text

lemma filled_nil (values : List (String × String)) : Filled values [] "" :=
  Template.fill_text (show '\x7b' ∉ ([] : List Char) by simp) (show '\x7d' ∉ ([] : List Char) by simp)

lemma Filled.of_nil (h : Filled values [] text) : text = "" := Except.ok.inj (h.symm.trans (filled_nil values))

/-- No word goes on to a variable or from it, and there are no braces. -/
structure Around (a b : List Char) : Prop where
  opens : Opens a
  closes : Closes b
  noOpen : '\x7b' ∉ a ++ b
  noClose : '\x7d' ∉ a ++ b

lemma IndexedVariable.filled_around (x : IndexedVariable) (h : Around a b)
    (htext : Filled values (a ++ (x.written ++ b)) text) :
    ∃ before after, Filled values a before ∧ Filled values b after ∧
      text.toList = before.toList ++ (x.kind.letter :: '.' :: x.joinedName (some "") ++ after.toList) ∧
      (∀ c ∈ before.toList.getLast?, Separates c) ∧ Closes after.toList := by
  have hcur : IsCurrent (some "") := by
    intro c hc d hd
    cases hc
    cases hd
  obtain ⟨ha, hb, hopen, hcl⟩ := h
  simp only [mem_append, not_or] at hopen hcl
  have hword : ∀ c, isWord c = false → c ≠ '.' → c ∉ x.kind.letter :: '.' :: x.joinedName (some "") := by
    intro c hc hp hmem
    simp only [mem_cons] at hmem
    rcases hmem with rfl | rfl | hmem
    · cases hkind : x.kind <;> rw [hkind] at hc <;> exact absurd hc (by decide)
    · exact hp rfl
    · rw [x.joinedName_word c hmem] at hc
      cases hc
  have hm : ∀ {rest : List Char} {t : String}, Template.fill ⟨.strict, values⟩ (String.ofList
        (x.kind.letter :: '.' :: x.joinedName (some "") ++ rest)) = .ok t →
      ∃ s, Template.fill ⟨.strict, values⟩ (String.ofList rest) = .ok s ∧
        t.toList = x.kind.letter :: '.' :: x.joinedName (some "") ++ s.toList :=
    fun h => fill_of_text (hword _ (by decide) (by decide)) (hword _ (by decide) (by decide)) h
  unfold Filled at htext
  rw [x.normal_around _ ha hb] at htext
  cases ha with
  | nil =>
    obtain ⟨after, haf, ht⟩ := hm htext
    exact ⟨"", after, filled_nil values, haf, ht, by simp, hb.fill hopen.2 hcl.2 haf⟩
  | @snoc a c hc hdash =>
    simp only [mem_append, not_or] at hopen hcl
    rw [normal_snoc hc hdash, append_assoc, String.ofList_append] at htext
    obtain ⟨first, rest, hf, hrest, rfl⟩ := (Template.fill_append_iff (by
      rw [String.toList_ofList]; exact closed_normal hcur hopen.1.1 hcl.1.1)).mp htext
    have hc_open : '\x7b' ∉ [c] := by exact hopen.1.2
    have hc_close : '\x7d' ∉ [c] := by exact hcl.1.2
    obtain ⟨s, hs, ht⟩ := fill_of_text hc_open hc_close hrest
    obtain ⟨after, haf, ht'⟩ := hm hs
    have hbe : Filled values (a ++ [c]) (first ++ String.ofList [c]) := by
      unfold Filled
      rw [normal_snoc hc hdash, String.ofList_append]
      exact Template.fill_append hf (Template.fill_text
        (by rw [String.toList_ofList]; exact hc_open) (by rw [String.toList_ofList]; exact hc_close))
    refine ⟨_, after, hbe, haf, ?_, fun d hd => ?_, hb.fill hopen.2 hcl.2 haf⟩
    · rw [String.toList_append, String.toList_append, String.toList_ofList, ht, ht', append_assoc]
    · rw [String.toList_append, String.toList_ofList, getLast?_concat] at hd
      exact Option.some.inj hd ▸ hc

/-! ## Variables in templates -/

lemma variablePieces_around {kind : VarKind} {name before after : List Char}
    (hs : ∃ c rest, name = c :: rest ∧ isNameStart c = true) (hword : ∀ c ∈ name, isWord c = true)
    (hb : ∀ c ∈ before.getLast?, Separates c) (ha : Closes after) :
    pieces variableRule (before ++ (kind.letter :: '.' :: name ++ after)) = pieces variableRule before ++
        .hit (.var kind (String.ofList name)) :: pieces variableRule after := by
  have hf : variableRule [] (kind.letter :: '.' :: name ++ after) = some (.var kind (String.ofList name), after) := by
    simp [variableRule, Rule.atWord, afterWord, symbolAt?, variableAt?_append hs hword fun d hd => (ha d hd).word]
  have hparted : Parted before (kind.letter :: '.' :: name ++ after) := fun c hc _ _ =>
    ⟨fun hword => absurd hword (by simp [(hb c hc).word]), fun _ => (hb c hc).point⟩
  rw [pieces_append variableRule_wordlike (variableRule_cuts hparted) hparted.meet,
    pieces_hit variableRule_wordlike hf (ha.parted _).meet]

lemma ofSource_around {before after : List Char} (hs : ∃ c rest, name = c :: rest ∧ isNameStart c = true)
    (hword : ∀ c ∈ name, isWord c = true) (hb : ∀ c ∈ before.getLast?, Separates c) (ha : Closes after)
    (htext : text.toList = before ++ (kind.letter :: '.' :: name ++ after)) :
    Template.ofSource text = Template.ofSource (String.ofList before) ++
        (var kind (String.ofList name)).bracketed ++ Template.ofSource (String.ofList after) ∧
      var kind (String.ofList name) ∈ Template.symbols text := by
  have hp := @variablePieces_around kind name before after hs hword hb ha
  constructor
  · apply String.toList_inj.mp
    simp only [Template.ofSource, Template.variablePieces, htext, hp, fill_append, fill,
      String.toList_append, String.toList_ofList, append_assoc]
  · unfold Template.symbols Template.variablePieces
    rw [SymbolSet.mem_ofList, htext, hp, hits_append]
    exact mem_append_right _ mem_cons_self

lemma map_dashes (hw : ∀ c ∈ w, isWord c = true) : (w.map fun c => if c == '-' then '_' else c) = w := by
  have hid : (w.map fun c => if c == '-' then '_' else c) = w.map id := by
    refine map_congr_left fun c hc => if_neg ?_
    rw [beq_iff_eq]
    rintro rfl
    exact absurd (hw '-' hc) (by decide)
  rw [hid, map_id]

lemma parse_var {s : String} {written : List Char} (hs : s.toList = kind.letter :: '.' :: written)
    (hm : ∀ c ∈ ['\x7b', ' ', '\x7d'], c ∉ written) (hname : (written.map fun c => if c == '-' then '_' else c) = name)
    (hst : ∃ c rest, name = c :: rest ∧ isNameStart c = true) (hword : ∀ c ∈ name, isWord c = true) :
    parse s = .ok (.var kind (String.ofList name)) := by
  have hstr : stripOf ['\x7b', ' ', '\x7d'] s = s := by
    refine stripOf_self fun c hc => ?_
    rw [hs]
    have hl : c ≠ kind.letter ∧ c ≠ '.' := by
      simp only [mem_cons, not_mem_nil, or_false] at hc
      rcases hc with rfl | rfl | rfl <;> cases kind <;> decide
    simp [hl, hm c hc]
  have hbody : (replaceChar '-' '_' s).toList = kind.letter :: '.' :: name := by
    have hl : (kind.letter == '-') = false := by cases kind <;> rfl
    unfold replaceChar
    rw [String.toList_ofList, hs, map_cons, map_cons, hname, hl]
    rfl
  have hv : variableAt? (kind.letter :: '.' :: (name ++ [])) = some ((kind, name), []) :=
    variableAt?_append hst hword (by simp)
  rw [append_nil] at hv
  unfold parse
  rw [float?_letter kind hs]
  dsimp only
  rw [hstr, hbody, ofVariable?, symbolAt?, hv]
  rfl

namespace IndexedVariable

variable (x : IndexedVariable)

def symbol : Symbol :=
  .var x.kind (String.ofList (x.name ++ '_' :: '_' :: x.index))

def bare : Symbol :=
  .var x.kind (String.ofList x.name)

/-- What the variable is in running text, where `i` stands for no index. -/
def inText : Symbol :=
  if x.index = ['i'] then x.bare else x.symbol

lemma joinedName_top :
    x.joinedName (some "") = if x.index = ['i'] then x.name else x.name ++ '_' :: '_' :: x.index := by
  unfold joinedName actualIndex
  by_cases hi : x.index = ['i']
  · rw [hi]
    exact append_nil _
  · rw [if_neg hi]
    split
    · rename_i h
      cases h
    · rename_i h
      have hc := congrArg String.toList (Option.some.inj h)
      rw [String.toList_ofList] at hc
      exact absurd hc hi
    · rename_i h
      rw [← Option.some.inj h]
      simp

lemma inText_eq : x.inText = .var x.kind (String.ofList (x.joinedName (some ""))) := by
  unfold inText bare symbol
  rw [joinedName_top]
  split <;> rfl

lemma joinedName_starts (current : Option String) :
    ∃ c rest, x.joinedName current = c :: rest ∧ isNameStart c = true := by
  obtain ⟨c, rest, hname, hc⟩ := x.starts
  unfold joinedName
  rw [hname]
  exact ⟨c, _, rfl, hc⟩

variable {a b : List Char} {text : String}

/-- A source with the variable becomes a text with its field between the templates of the two sides. -/
lemma template_around {values : List (String × String)} (h : Around a b)
    (htext : Filled values (a ++ (x.written ++ b)) text) :
    (∃ before after, Filled values a before ∧ Filled values b after ∧ Template.ofSource text =
        Template.ofSource before ++ x.inText.bracketed ++ Template.ofSource after) ∧
      x.inText ∈ Template.symbols text := by
  obtain ⟨before, after, ha, hb, hc, hbe, haf⟩ := x.filled_around h htext
  obtain ⟨ht, hmem⟩ := ofSource_around (x.joinedName_starts _) x.joinedName_word hbe haf hc
  rw [String.ofList_toList, String.ofList_toList, ← inText_eq] at ht
  rw [← inText_eq] at hmem
  exact ⟨⟨before, after, ha, hb, ht⟩, hmem⟩

/-! ### The variable alone -/

lemma not_mem_written {c : Char} (hword : isWord c = false) (hp : c ≠ '.') (hdash : c ≠ '-') : c ∉ x.written := by
  intro hmem
  simp only [written, mem_cons, mem_append] at hmem
  rcases hmem with rfl | rfl | hmem | rfl | rfl | hmem
  · cases hkind : x.kind <;> rw [hkind] at hword <;> exact absurd hword (by decide)
  · exact hp rfl
  · rw [x.word c hmem] at hword
    cases hword
  · exact hdash rfl
  · exact hdash rfl
  · rw [x.isIndex.2 c hmem] at hword
    cases hword

lemma parse_written : parse (String.ofList x.written) = .ok x.symbol := by
  refine parse_var (String.toList_ofList) (fun c hc hmem => ?_) ?_ ?_ ?_
  · have hw : c ∈ x.written := mem_cons_of_mem _ (mem_cons_of_mem _ hmem)
    simp only [mem_cons, not_mem_nil, or_false] at hc
    rcases hc with rfl | rfl | rfl <;> exact x.not_mem_written (by decide) (by decide) (by decide) hw
  · rw [map_append, map_cons, map_cons, map_dashes x.word, map_dashes x.isIndex.2]
    rfl
  · obtain ⟨c, rest, hname, hc⟩ := x.starts
    exact ⟨c, _, by rw [hname]; rfl, hc⟩
  · intro c hc
    simp only [mem_append, mem_cons] at hc
    rcases hc with hc | rfl | rfl | hc
    · exact x.word c hc
    · decide
    · decide
    · exact x.isIndex.2 c hc

lemma parse_joined {s : String}
    (hs : s.toList = x.kind.letter :: '.' :: x.joinedName (some "")) : parse s = .ok x.inText := by
  rw [inText_eq]
  refine parse_var hs (fun c hc hmem => ?_) (map_dashes x.joinedName_word) (x.joinedName_starts _) x.joinedName_word
  have hword := x.joinedName_word c hmem
  simp only [mem_cons, not_mem_nil, or_false] at hc
  rcases hc with rfl | rfl | rfl <;> exact absurd hword (by decide)

/-! ### The variable in a parameter -/

lemma pieces_index (hb : Closes b) : pieces variableRule (x.index ++ b) =
      x.index.map .char ++ pieces variableRule b := by
  have hp : '.' ∉ x.index := not_mem_of_isWord x.isIndex (by decide)
  have hnone : ∀ before s, s <:+ x.index → s ≠ [] → variableRule before s = none := by
    intro before s hs _
    have hv : variableAt? s = none := variableAt?_unpointed fun hmem => hp (hs.subset hmem)
    simp [variableRule, Rule.atWord, symbolAt?, hv]
  rw [pieces_append variableRule_wordlike (variableRule_cuts (hb.parted _)) (hb.parted _).meet, pieces_of_none hnone]

/-- A text made into a template as it is: the index is left after the variable, with the two hyphens. -/
lemma template_of_parameter (ha : ∀ c ∈ a.getLast?, Separates c) (hb : Closes b)
    (htext : text.toList = a ++ (x.written ++ b)) :
    Template.ofSource text = Template.ofSource (String.ofList a) ++ x.bare.bracketed ++ "--" ++
        String.ofList x.index ++ Template.ofSource (String.ofList b) ∧
      x.bare ∈ Template.symbols text := by
  have hdash : Separates '-' := ⟨by decide, by decide⟩
  have haf : Closes ('-' :: '-' :: (x.index ++ b)) := fun d hd => Option.some.inj hd ▸ hdash
  have hrest : Template.ofSource (String.ofList ('-' :: '-' :: (x.index ++ b))) =
      "--" ++ String.ofList x.index ++ Template.ofSource (String.ofList b) := by
    apply String.toList_inj.mp
    simp only [Template.ofSource, Template.variablePieces, String.toList_ofList,
      pieces_cons_of_not_word variableRule_wordlike hdash.word, x.pieces_index hb, fill, fill_append, fill_map_char]
    simp
  have hch : text.toList = a ++ (x.kind.letter :: '.' :: x.name ++ '-' :: '-' :: (x.index ++ b)) := by
    rw [htext]
    simp [written]
  obtain ⟨ht, hmem⟩ := ofSource_around x.starts x.word ha haf hch
  refine ⟨?_, hmem⟩
  rw [ht, hrest]
  simp only [bare, String.append_assoc]

end IndexedVariable

end Deferred

/-! ## The parts of a builder -/

lemma Component.code_ofExpression {text : String} {c : Component} (h : ofExpression text = .ok c) :
    c.code = Template.ofSource text ∧ ∀ s ∈ Template.symbols text, s ∈ c.requires ∨ s ∈ c.provides := by
  obtain ⟨provided, -, he⟩ := bind_eq_ok.mp h
  cases he
  refine ⟨rfl, fun s hs => ?_⟩
  by_cases hp : s ∈ provided
  · exact Or.inr hp
  · exact Or.inl ((SymbolSet.mem_diff s _ _).mpr ⟨hs, hp⟩)

namespace DistributionCall

def parameterTexts (var : Value) (name : String) (params : Value) : Except Fault (List String) := do
  let items ← writtenParams var name params
  let p ← preset var name items
  return (p.parameters items).map Value.text

lemma params_ofValues {var params : Value} {name : String} {call : DistributionCall}
    (h : ofValues var (.str name) params = .ok call) :
    ofValue var = .ok call.var ∧ ∃ texts, parameterTexts var name params = .ok texts ∧
      ∀ text ∈ texts, Template.ofSource text ∈ call.params ∧ ∀ s ∈ Template.symbols text, s ∈ call.requires := by
  obtain ⟨name', hname, h⟩ := bind_eq_ok.mp h
  obtain rfl : name = name' := Except.ok.inj hname
  obtain ⟨items, hi, h⟩ := bind_eq_ok.mp h
  obtain ⟨p, hp, h⟩ := bind_eq_ok.mp h
  obtain ⟨symbol, hsy, h⟩ := bind_eq_ok.mp h
  cases h
  refine ⟨hsy, (p.parameters items).map Value.text, ?_, fun text htext => ?_⟩
  · unfold parameterTexts
    rw [hi]
    show (preset var name items >>= _) = _
    rw [hp]
    rfl
  · refine ⟨mem_map_of_mem htext, fun s hs => ?_⟩
    generalize (p.parameters items).map Value.text = texts at htext
    induction texts with
    | nil => cases htext
    | cons t texts ih =>
      rw [foldr_cons, SymbolSet.mem_union]
      rcases mem_cons.mp htext with rfl | htext
      · exact Or.inl hs
      · exact Or.inr (ih htext)

end DistributionCall

namespace Builder

variable {b t : Builder}

variable {s var code param source : String} {dist params : Value} {library : Except Fault Registry}
  {x : IndexedVariable} {values : List (String × String)} {d : DeferredConstraint} {c : Component}
  {a z : List Char}

lemma kept_expression (h : outcome (expression (.str s)) b = (.ok (), t)) :
    ∃ found, Deferred.Resolution.extract b.library (replaceWord "\t" "    " s) (some "") = .ok found ∧
      t.expressions = b.expressions ++ [⟨found.1, found.2⟩] := by
  have hf : Follows (expression (.str s)) b
      (Deferred.Resolution.extract b.library (replaceWord "\t" "    " s) (some ""))
      fun found _ t => t.expressions = b.expressions ++ [⟨found.1, found.2⟩] := by
    obtain ⟨said, hsaid⟩ := outcome_remark ("  ModelBuilder.expression('" ++
      (if 50 < s.length then dropFirst 50 s ++ "..." else s) ++ "')") b
    refine .step hsaid ?_
    rw [← bind_pure (Deferred.Resolution.extract _ _ _)]
    refine (follows_extract _ _).bind fun found found' u hu => ?_
    obtain ⟨rfl, rfl⟩ := hu
    exact .ok (outcome_modify _ _) rfl
  exact hf.of_outcome h

lemma kept_assign (h : outcome (assign (.str var) (.str code)) b = (.ok (), t)) :
    ∃ d, assignmentOf b.library var code = .ok d ∧ t.assignments = b.assignments ++ [d] := by
  have hf : Follows (assign (.str var) (.str code)) b (assignmentOf b.library var code)
      fun d _ t => t.assignments = b.assignments ++ [d] := by
    rw [← bind_pure (assignmentOf b.library var code)]
    refine (follows_assignment var code b).bind fun d d' u hu => ?_
    obtain ⟨rfl, said, rfl⟩ := hu
    exact .ok (outcome_modify _ _) rfl
  exact hf.of_outcome h

lemma kept_constraint (h : outcome (constraint (.str var) dist params) b = (.ok (), t)) :
    ∃ found, Deferred.Resolution.extract b.library var (some "") = .ok found ∧
      t.constraints = b.constraints ++ [⟨found.1, found.2, dist, params⟩] := by
  obtain ⟨said, hsaid⟩ := outcome_remark ("  ModelBuilder.constraint('" ++ (Value.str var).text ++ "', '" ++
    dist.text ++ "', " ++ params.text ++ ")") b
  have htext : ∀ u : Builder, outcome (ofExcept ((Value.str var).needText .badArgument) : BuilderM String) u =
      (.ok var, u) := fun u => outcome_ofExcept (.ok var) u
  unfold constraint at h
  rw [outcome_bind_ok hsaid, outcome_bind_ok (htext _)] at h
  obtain ⟨found, u, hf, h⟩ := outcome_bind_eq_ok.mp h
  obtain ⟨found', hf', rfl, rfl⟩ := (follows_extract var _).of_outcome hf
  dsimp only at h
  split at h
  · cases h
  · obtain ⟨-, rfl⟩ := Prod.mk.inj h
    exact ⟨found', hf', rfl⟩

lemma kept_prior (h : outcome (prior (.str param) dist params) b = (.ok (), t)) :
    t.priors = b.priors ++ [⟨if startsWith "p." param then param else "p." ++ param, dist, params⟩] := by
  have htext : outcome (ofExcept ((Value.str param).needText .missingPart) : BuilderM String) b =
      (.ok param, b) := outcome_ofExcept (.ok param) b
  unfold prior at h
  rw [outcome_bind_ok htext] at h
  dsimp only at h
  split at h
  · cases h
  · generalize (if startsWith "p." param then param else "p." ++ param) = name at h ⊢
    split at h
    · cases h
    · obtain ⟨u, v, hr, h⟩ := outcome_bind_eq_ok.mp h
      obtain ⟨said, hsaid⟩ := outcome_remark ("  ModelBuilder.prior('" ++ name ++ "', '" ++ dist.text ++
        "', " ++ params.text ++ ")") b
      cases hsaid.symm.trans hr
      cases h
      rfl

lemma extracted_chars {found : List String × String}
    (h : Deferred.Resolution.extract library source (some "") = .ok found) :
    found.2 = String.ofList (normal (some "") source.toList) := by
  have hc : ∀ known, Deferred.extract known source (some "") = .ok found →
      found.2 = String.ofList (normal (some "") source.toList) := fun known hk => by
    rw [← normal_of_extract hk, String.ofList_toList]
  unfold Resolution.extract at h
  split at h
  · obtain ⟨known, -, h⟩ := bind_eq_ok.mp h
    exact hc known h
  · exact hc [] h

/-! ## How a variable with an index is read -/

/-- A parameter for each text with the variable, which is there without its index, left after it. -/
def BareIn (x : IndexedVariable) (call : DistributionCall) (texts : List String) : Prop :=
  ∀ text ∈ texts, ∀ a z, text.toList = a ++ (x.written ++ z) → (∀ c ∈ a.getLast?, Separates c) →
    Closes z → x.bare ∈ call.requires ∧
      Template.ofSource (String.ofList a) ++ x.bare.bracketed ++ "--" ++ String.ofList x.index ++
        Template.ofSource (String.ofList z) ∈ call.params

/-- The places of a model that can hold a variable with an index. -/
structure ReadsIndexed (b : Builder) (x : IndexedVariable) : Prop where
  statement : ∀ {s t a z}, Around a z → (replaceWord "\t" "    " s).toList = a ++ (x.written ++ z) →
    outcome (expression (.str s)) b = (.ok (), t) →
    ∃ e, t.expressions = b.expressions ++ [e] ∧ ∀ values c, expressionPart values e = .ok c →
      (∃ before after, Filled values a before ∧ Filled values z after ∧ c.code =
        Template.ofSource before ++ x.inText.bracketed ++ Template.ofSource after) ∧
      (x.inText ∈ c.requires ∨ x.inText ∈ c.provides)
  rightSide : ∀ {var s t a z}, Around a z → s.toList = a ++ (x.written ++ z) →
    outcome (assign (.str var) (.str s)) b = (.ok (), t) →
    ∃ d, t.assignments = b.assignments ++ [d] ∧ ∀ values c, assignmentPart values d = .ok c →
      ∃ target requires before after, Filled values a before ∧ Filled values z after ∧ c = .assignment target requires
          (Template.ofSource before ++ x.inText.bracketed ++ Template.ofSource after) ∧
        (x.inText ∈ requires ∨ x.inText = target)
  target : x.kind = .localVar → ∀ {code t},
    outcome (assign (.str (String.ofList x.written)) (.str code)) b = (.ok (), t) →
    ∃ d, t.assignments = b.assignments ++ [d] ∧ ∀ values c, assignmentPart values d = .ok c → c.provides = [x.symbol]
  measured : ∀ {dist params t}, outcome (constraint (.str (String.ofList x.written)) dist params) b = (.ok (), t) →
    ∃ d, t.constraints = b.constraints ++ [d] ∧ ∀ values c, constraintPart values d = .ok c →
      ∃ call, c = .likelihood call ∧ call.var = x.inText
  ofPrior : x.kind = .param → ∀ {dist params t},
    outcome (prior (.str (String.ofList x.written)) dist params) b = (.ok (), t) →
    ∃ d, t.priors = b.priors ++ [d] ∧ ∀ p, priorPart d = .ok p → p.call.var = x.symbol
  measuredParameter : ∀ {var dist params t}, outcome (constraint (.str var) (.str dist) params) b = (.ok (), t) →
    ∃ d, t.constraints = b.constraints ++ [d] ∧ ∀ values c, constraintPart values d = .ok c →
      ∃ var name call texts, Template.fill ⟨.strict, values⟩ d.var = .ok var ∧
        Template.fill ⟨.strict, values⟩ dist = .ok name ∧ c = .likelihood call ∧
        parameterTexts (.str var) name params = .ok texts ∧ BareIn x call texts
  priorParameter : ∀ {param dist params t}, outcome (prior (.str param) (.str dist) params) b = (.ok (), t) →
    ∃ d, t.priors = b.priors ++ [d] ∧ ∀ p, priorPart d = .ok p →
      ∃ texts, parameterTexts (.str d.param) (Transform.split dist).2 params = .ok texts ∧ BareIn x p.call texts

lemma bareIn_of_texts {call : DistributionCall} {texts : List String}
    (h : ∀ text ∈ texts, Template.ofSource text ∈ call.params ∧
      ∀ s ∈ Template.symbols text, s ∈ call.requires) : BareIn x call texts := by
  intro text hmem a z htext ha hz
  obtain ⟨ht, hbare⟩ := x.template_of_parameter ha hz htext
  obtain ⟨hp, hr⟩ := h text hmem
  exact ⟨hr _ hbare, ht ▸ hp⟩

lemma parameters_of_constraint {dist : String} (hdist : d.dist = .str dist) (h : constraintPart values d = .ok c) :
    ∃ var name call texts, Template.fill ⟨.strict, values⟩ d.var = .ok var ∧
      Template.fill ⟨.strict, values⟩ dist = .ok name ∧ c = .likelihood call ∧
      parse var = .ok call.var ∧
      parameterTexts (.str var) name d.params = .ok texts ∧
      ∀ text ∈ texts, Template.ofSource text ∈ call.params ∧ ∀ s ∈ Template.symbols text, s ∈ call.requires := by
  obtain ⟨-, -, h⟩ := bind_eq_ok.mp h
  obtain ⟨var, hvar, h⟩ := bind_eq_ok.mp h
  obtain ⟨text, htext, h⟩ := bind_eq_ok.mp h
  rw [hdist] at htext
  obtain rfl : dist = text := Except.ok.inj htext
  obtain ⟨name, hname, h⟩ := bind_eq_ok.mp h
  obtain ⟨call, hcall, rfl⟩ := map_eq_ok.mp h
  obtain ⟨hs, texts, ht, hp⟩ := params_ofValues hcall
  exact ⟨var, name, call, texts, hvar, hname, rfl, hs, ht, hp⟩

lemma parameters_of_prior {d : PriorSpec} {dist : String} (hdist : d.dist = .str dist) {p : Prior}
    (h : priorPart d = .ok p) :
    parse d.param = .ok p.call.var ∧ ∃ texts,
      parameterTexts (.str d.param) (Transform.split dist).2 d.params = .ok texts ∧
      ∀ text ∈ texts, Template.ofSource text ∈ p.call.params ∧ ∀ s ∈ Template.symbols text, s ∈ p.call.requires := by
  obtain ⟨-, -, h⟩ := bind_eq_ok.mp h
  obtain ⟨name, hname, h⟩ := bind_eq_ok.mp h
  rw [hdist] at hname
  obtain rfl : dist = name := Except.ok.inj hname
  obtain ⟨items, hi, h⟩ := bind_eq_ok.mp h
  unfold Prior.create at h
  obtain ⟨call, hcall, h⟩ := bind_eq_ok.mp h
  have hv : ofValues (.str d.param) (.str (Transform.split dist).2) d.params = .ok call :=
    bind_eq_ok.mpr ⟨_, rfl, bind_eq_ok.mpr ⟨items, hi, hcall⟩⟩
  split at h
  · cases h
  · obtain rfl := Except.ok.inj h
    obtain ⟨hs, ht⟩ := params_ofValues hv
    have hp : parse d.param = .ok call.var := hs
    exact ⟨hp, ht⟩

lemma dist_of_constraint (h : constraintPart values d = .ok c) : ∃ dist, d.dist = .str dist := by
  obtain ⟨_, _, h⟩ := bind_eq_ok.mp h
  obtain ⟨_, _, h⟩ := bind_eq_ok.mp h
  obtain ⟨dist, hdist, -⟩ := bind_eq_ok.mp h
  exact ⟨dist, Program.needText_eq_ok hdist⟩

lemma assignment_of_part {d : DeferredAssignment} (hd : assignmentOf library var source = .ok d)
    (hc : assignmentPart values d = .ok c) :
    ∃ target code, Filled values source.toList code ∧ Template.fill ⟨.strict, values⟩
        (if startsWith "v." var then var else "v." ++ stripOf [' ', '\x7b', '\x7d'] var) = .ok target ∧
      ∃ symbol, parse (if startsWith "v." target then target else "v." ++ target) = .ok symbol ∧
        c = .assignment symbol (SymbolSet.diff (Template.symbols code) [symbol]) (Template.ofSource code) := by
  unfold assignmentOf at hd
  dsimp only at hd
  split at hd
  · cases hd
  · obtain ⟨found, hf, hd⟩ := bind_eq_ok.mp hd
    cases hd
    obtain ⟨-, -, hc⟩ := bind_eq_ok.mp hc
    obtain ⟨target, ht, hc⟩ := bind_eq_ok.mp hc
    obtain ⟨code, hcode, hc⟩ := bind_eq_ok.mp hc
    obtain ⟨symbol, hs, hc⟩ := bind_eq_ok.mp hc
    cases hc
    refine ⟨target, code, ?_, ht, symbol, hs, rfl⟩
    unfold Filled
    rw [← extracted_chars hf]
    exact hcode

lemma around_nil : Around [] [] := ⟨.nil, fun d hd => by (cases hd), by simp, by simp⟩

lemma startsWith_written {kind : VarKind} (hkind : x.kind = kind) {start : String}
    (hs : start.toList = [kind.letter, '.']) : startsWith start (String.ofList x.written) = true := by
  unfold startsWith IndexedVariable.written
  rw [hs, hkind]
  simp [afterStart?]

/-- A variable with an index is read as the one with the joined name in statements, assignments, measurements and
priors, but without its index in the parameters of a distribution. -/
theorem reads_indexed (b : Builder) (x : IndexedVariable) : b.ReadsIndexed x where
  statement {s t a z} ha hso h := by
    obtain ⟨found, hf, hkept⟩ := kept_expression h
    refine ⟨_, hkept, fun values c hc => ?_⟩
    obtain ⟨-, -, hc⟩ := bind_eq_ok.mp hc
    obtain ⟨text, htext, hc⟩ := bind_eq_ok.mp hc
    rw [show found.2 = _ from extracted_chars hf, hso] at htext
    obtain ⟨hcode, hs⟩ := Component.code_ofExpression hc
    obtain ⟨ht, hmem⟩ := x.template_around ha htext
    rw [hcode]
    exact ⟨ht, hs _ hmem⟩
  rightSide {var s t a z} ha hso h := by
    obtain ⟨d, hd, hkept⟩ := kept_assign h
    refine ⟨d, hkept, fun values c hc => ?_⟩
    obtain ⟨-, code, hcode, -, symbol, -, rfl⟩ := assignment_of_part hd hc
    rw [hso] at hcode
    obtain ⟨⟨before, after, hb, haf, ht⟩, hmem⟩ := x.template_around ha hcode
    rw [ht]
    refine ⟨symbol, _, before, after, hb, haf, rfl, ?_⟩
    by_cases hs : x.inText = symbol
    · exact Or.inr hs
    · exact Or.inl ((SymbolSet.mem_diff _ _ _).mpr ⟨hmem, by simpa using hs⟩)
  target hkind {code t} h := by
    obtain ⟨d, hd, hkept⟩ := kept_assign h
    refine ⟨d, hkept, fun values c hc => ?_⟩
    obtain ⟨var, text, -, hvar, symbol, hs, rfl⟩ := assignment_of_part hd hc
    rw [if_pos (startsWith_written hkind rfl), Template.fill_text] at hvar
    · obtain rfl := Except.ok.inj hvar
      rw [if_pos (startsWith_written hkind rfl), x.parse_written] at hs
      cases hs
      rfl
    · rw [String.toList_ofList]
      exact x.not_mem_written (by decide) (by decide) (by decide)
    · rw [String.toList_ofList]
      exact x.not_mem_written (by decide) (by decide) (by decide)
  measured {dist params t} h := by
    obtain ⟨found, hfo, hkept⟩ := kept_constraint h
    refine ⟨_, hkept, fun values c hc => ?_⟩
    obtain ⟨name, hname⟩ := dist_of_constraint hc
    obtain ⟨var, -, call, -, hvar, -, rfl, hs, -⟩ := parameters_of_constraint hname hc
    have hf : Filled values ([] ++ (x.written ++ [])) var := by
      unfold Filled
      rw [nil_append, append_nil, ← @String.toList_ofList x.written, ← extracted_chars hfo]
      exact hvar
    obtain ⟨before, after, hb, ha, hch, -⟩ := x.filled_around around_nil hf
    rw [hb.of_nil, ha.of_nil] at hch
    have hp := x.parse_joined (hch.trans (append_nil _))
    exact ⟨call, rfl, Except.ok.inj (hs.symm.trans hp)⟩
  ofPrior hkind {dist params t} h := by
    have hkept := kept_prior h
    rw [if_pos (startsWith_written hkind rfl)] at hkept
    refine ⟨_, hkept, fun p hp => ?_⟩
    obtain ⟨name, hname, -⟩ := bind_eq_ok.mp hp
    have hvar := (parameters_of_prior (Program.needText_eq_ok hname) hp).1
    exact Except.ok.inj (hvar.symm.trans x.parse_written)
  measuredParameter {var dist params t} h := by
    obtain ⟨found, -, hkept⟩ := kept_constraint h
    refine ⟨_, hkept, fun values c hc => ?_⟩
    obtain ⟨var, name, call, texts, hvar, hname, rfl, -, ht, hp⟩ := parameters_of_constraint rfl hc
    exact ⟨var, name, call, texts, hvar, hname, rfl, ht, bareIn_of_texts hp⟩
  priorParameter {param dist params t} h := by
    refine ⟨_, kept_prior h, fun p hp => ?_⟩
    obtain ⟨-, texts, ht, hpa⟩ := parameters_of_prior rfl hp
    exact ⟨texts, ht, bareIn_of_texts hpa⟩

def firstMass : IndexedVariable where
  kind := .param
  name := "mass".toList
  index := ['1']
  starts := ⟨'m', "ass".toList, rfl, rfl⟩
  word := all_eq_true.mp rfl
  isIndex := ⟨by decide, all_eq_true.mp rfl⟩

/-- The statement and the measured variable have the joined name, the parameter has no index. -/
theorem reads_indexed_firstMass :
    (∃ t e c, outcome (expression (.str "v.y = 2*p.mass--1")) ({ library := .ok [] } : Builder) = (.ok (), t) ∧
      t.expressions = [e] ∧ expressionPart [] e = .ok c ∧
      (.var .param "mass__1" ∈ c.requires ∨ .var .param "mass__1" ∈ c.provides)) ∧
    (∃ t d call, outcome (constraint (.str "p.mass--1") (.str "normal") (.list [.str "p.mass--1", .str "1.0"]))
        ({ library := .ok [] } : Builder) = (.ok (), t) ∧
      t.constraints = [d] ∧ constraintPart [] d = .ok (.likelihood call) ∧
      call.var = .var .param "mass__1" ∧ .var .param "mass" ∈ call.requires ∧
      "\x7bp__mass\x7d--1" ∈ call.params) := by
  have hr := reads_indexed { library := .ok [] } firstMass
  have ha : Around "v.y = 2*".toList [] :=
    ⟨.snoc (a := "v.y = 2".toList) (c := '*') ⟨by decide, by decide⟩ (by decide), fun d hd => by (cases hd),
      by decide, by decide⟩
  constructor
  · obtain ⟨e, he, hread⟩ := hr.statement (s := "v.y = 2*p.mass--1") ha rfl rfl
    obtain rfl : e = ⟨[], "v.y = 2*p.mass__1"⟩ := (List.cons.inj he).1.symm
    obtain ⟨c, hpart⟩ := exists_ok (x := expressionPart [] ⟨[], "v.y = 2*p.mass__1"⟩) (by decide +kernel)
    exact ⟨_, _, c, rfl, rfl, hpart, (hread [] _ hpart).2⟩
  · have hrun : outcome (constraint (.str "p.mass--1") (.str "normal") (.list [.str "p.mass--1", .str "1.0"]))
        ({ library := .ok [] } : Builder) = (.ok (), _) := rfl
    obtain ⟨d, hd, hvar⟩ := hr.measured hrun
    obtain ⟨d', hd', hpa⟩ := hr.measuredParameter hrun
    obtain rfl : d = d' := (List.cons.inj (hd.symm.trans hd')).1
    obtain rfl : d = ⟨[], "p.mass__1", .str "normal", .list [.str "p.mass--1", .str "1.0"]⟩ :=
      (List.cons.inj hd).1.symm
    obtain ⟨call, hcall, hs⟩ := hvar [] _ rfl
    obtain ⟨var, name, call', texts, hfill, hname, hcall', ht, hbare⟩ := hpa [] _ rfl
    obtain rfl : call = call' := Component.likelihood.inj (hcall.symm.trans hcall')
    obtain rfl : "p.mass__1" = var := Except.ok.inj hfill
    obtain rfl : "normal" = name := Except.ok.inj hname
    obtain rfl : ["p.mass--1", "1.0"] = texts := Except.ok.inj ht
    obtain ⟨hre, hp⟩ := hbare "p.mass--1" List.mem_cons_self [] [] rfl (by simp) (by
      intro d hd
      cases hd)
    exact ⟨_, _, call, hrun, rfl, congrArg Except.ok hcall, hs, hre, hp⟩

/-- The index of a variable is lost in the parameter of a distribution. -/
theorem parameter_without_index :
    ∃ t d call, outcome (constraint (.str "p.y") (.str "normal") (.list [.str "p.x--1", .str "1.0"]))
        ({ library := .ok [] } : Builder) = (.ok (), t) ∧
      t.constraints = [d] ∧ constraintPart [] d = .ok (.likelihood call) ∧
      call.requires = [.var .param "x"] ∧ call.params = ["\x7bp__x\x7d--1", "1.0"] := by
  refine ⟨_, _, _, rfl, rfl, rfl, ?_, ?_⟩
  · decide +kernel
  · decide +kernel

end Builder

end GridBayes
