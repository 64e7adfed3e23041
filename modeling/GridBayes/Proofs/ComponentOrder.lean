import GridBayes.Proofs.ExtractedText
import GridBayes.Proofs.OverrideScope

/-! The order in which look-ups find values and generate code. Every look-up, also one that is refused, only
adds to the values that were there, and a key gets its value after the keys that it depends on. So a local
variable that stands in generated code has code of its own before that. -/
namespace GridBayes.Deferred
open List Relation Operation Resolution Builder Definition
open Template (Unbraced)
open Text

/-! ## Keys in the order in which they get their values -/

def InOrder (src : Sources) (ks : List Key) : Prop :=
  ∀ before k after, ks = before ++ k :: after → ∀ k', src.Depends k k' → k' ∈ before

lemma InOrder.snoc {src : Sources} {ks : List Key} {k : Key} (h : InOrder src ks)
    (hk : ∀ k', src.Depends k k' → k' ∈ ks) : InOrder src (ks ++ [k]) := by
  intro before x after hs k' hdep
  rcases eq_nil_or_concat after with rfl | ⟨after, y, rfl⟩
  · obtain ⟨rfl, hx⟩ := append_inj' hs rfl
    obtain rfl := (cons.inj hx).1
    exact hk k' hdep
  · rw [concat_eq_append, ← cons_append, ← append_assoc] at hs
    obtain ⟨rfl, -⟩ := append_inj' hs rfl
    exact h before x after rfl k' hdep

variable {src : Sources} {k : Key} {ks : List Key} {s t : Resolution} {c : Char}
  {overrides multiplicity : List (String × Value)}

lemma InOrder.of_reaches {before after : List Key} {k' : Key} (h : InOrder src (before ++ after)) (hk : k ∈ before)
    (hr : src.Reaches k k') : k' ∈ before := by
  induction hr with
  | refl => exact hk
  | @tail x y _ hdep ih =>
    obtain ⟨front, back, rfl⟩ := append_of_mem ih
    have hs : front ++ x :: back ++ after = front ++ x :: (back ++ after) := by simp
    exact mem_append_left _ (h front x (back ++ after) hs y hdep)

structure Orderly (src : Sources) (ks : List Key) (s : Resolution) : Prop extends Knows src ks s where
  inOrder : InOrder src ks
  once : s.log.length = s.values.length

lemma Orderly.prefix_values {new : List Key} (hs : Orderly src ks s) (ht : Orderly src (ks ++ new) t) :
    s.values <+: t.values := by
  rw [hs.values, ht.values, map_append]
  exact prefix_append _ _

lemma Orderly.nodup_values (h : Orderly src ks s) : (s.values.map Prod.fst).Nodup := by
  rw [h.values, List.map_map]
  exact h.distinct.map_on fun k hk k' hk' => (h.written k hk).text_inj (h.written k' hk')

lemma preserved_orderly (src : Sources) : Preserved src fun es s => Orderly src (done es) s where
  knows h := h.toKnows
  entered h hk hnew hd :=
    ⟨(preserved_knows src).entered h.toKnows hk hnew hd, (done_entered _ _).symm ▸ h.inOrder, h.once⟩
  refused h hk hnew hd := ⟨(preserved_knows src).refused h.toKnows hk hnew hd, h.inOrder, h.once⟩
  left {es s k d stack} h hk hnew hd hkeys hs hmet := by
    refine ⟨(preserved_knows src).left h.toKnows hk hnew hd hkeys hs hmet, ?_, ?_⟩
    · rw [done_left]
      refine h.inOrder.snoc fun k' hdep => ?_
      obtain ⟨d', hd', hmem⟩ := Sources.depends_iff.mp hdep
      cases hd.symm.trans hd'
      exact hkeys k' hmem
    · have hnone : s.values.lookup k.text = none := by rw [h.lookup hk, if_neg hnew]
      show (s.log ++ [_]).length = (setEntry s.values k.text _).length
      rw [setEntry_of_lookup_none hnone, length_append, length_append, h.once]
      rfl

/-- Whatever comes of a request, it has only added values, in order. -/
lemma orderly_resolveEach (names : List String) (h : Orderly src ks s) :
    ∃ new, Orderly src (ks ++ new) (outcome (resolveEach names) s).2 := by
  rw [← done_map_left ks] at h
  rcases outcome_resolveEach (preserved_orderly src) names _ h with ⟨new, t, hout, ht, -⟩ | ⟨e, new, t, hout, ht, -⟩
  all_goals
    rw [done_append, done_map_left] at ht
    exact ⟨done new, hout ▸ ht⟩

lemma written_keyOfWord {word : List Char} {index : Option (List Char)} (hword : IsWord word)
    (hin : ∀ i ∈ index, IsIndex i) : (keyOfWord word index).Written := by
  refine ⟨max word.length ((index.map length).getD 0), word, index, hword, hin, rfl, le_max_left _ _, fun i hi => ?_⟩
  obtain rfl : index = some i := hi
  exact (le_max_right _ _).trans (Nat.le_add_right _ 3)

lemma written_of_mem_hits {cs : List Char} (h : k ∈ hits (pieces keyRule cs)) : k.Written := by
  obtain ⟨before, after, n, -, hrule⟩ := mem_hits_pieces h
  obtain ⟨word, index, hword, hi, -, rfl⟩ := keyRule_some hrule
  exact written_keyOfWord hword hi

/-! ## Values without braces -/

/-- The overrides and the mappings of inputs have no braces. -/
structure Sources.PlainTexts (src : Sources) : Prop where
  overrides : ∀ key text, src.overrides.lookup key = some (.str text) → Unbraced text
  mappings : ∀ k grid, src.HasGrid k grid → ∀ name text, grid.mapping name = .str text → Unbraced text

namespace Sources

variable {src : Sources} {k : Key}

lemma unbraced_of_gives (hp : src.PlainTexts) {grid : Grid} (hk : src.HasGrid k grid) {name text : String}
    (hg : grid.Gives name text) (hcode : (!grid.inputs.contains name) = false) : Unbraced text := by
  cases hg with
  | input _ hm => exact hp.mappings k grid hk name _ hm
  | output hin | derived hin => simp [hin] at hcode

lemma unbraced_of_text (hp : src.PlainTexts) {w : Wording} (h : src.wording k = .ok w)
    (hcode : w.isCode = false) : Unbraced w.text := by
  cases wording_eq_ok.mp h with
  | override ho hw =>
    rw [hw]
    rcases override?_str_iff.mp ho with hf | ⟨-, hf⟩
    · exact hp.overrides _ _ hf
    · exact hp.overrides _ _ hf
  | composite _ _ _ _ _ hw => cases hcode.symm.trans (congrArg Wording.isCode hw)
  | grid _ _ hk _ hg hw =>
    rw [hw] at hcode ⊢
    exact unbraced_of_gives hp hk hg hcode
  | transform ht hg hw =>
    rw [hw] at hcode ⊢
    exact unbraced_of_gives hp ht.known hg hcode

variable {d : Definition}

lemma normal_of_definition (h : src.definition k = .ok d) : d.body.toList = normal k.index d.text.toList := by
  obtain ⟨w, -, hbody⟩ := bind_eq_ok.mp h
  obtain ⟨⟨mentions, body⟩, hex, he⟩ := bind_eq_ok.mp hbody
  cases he
  obtain ⟨known, hk⟩ := extract_known hex
  exact normal_of_extract hk

lemma unbraced_filled (hk : k.Written) (hd : src.definition k = .ok d) (htext : Unbraced d.text)
    {value : Key → String} (hv : ∀ k' ∈ d.keys, Unbraced (value k')) : Unbraced (d.filled value) := by
  obtain ⟨n, hw⟩ := hk
  have hcur := hw.isCurrent
  have hp : pieces keyRule d.body.toList = bodyPieces k.index [] (pieces referenceRule d.text.toList) := by
    rw [normal_of_definition hd, pieces_normal hcur htext.1]
  have hkeys : ∀ r ∈ hits (pieces referenceRule d.text.toList), r.placedKey k.index ∈ d.keys := by
    intro r hr
    unfold Definition.keys
    rw [hp, hits_bodyPieces]
    exact mem_map_of_mem hr
  have ha : ∀ c, isWord c = false → c ≠ '.' → c ∉ d.text.toList →
      (∀ k' ∈ d.keys, c ∉ (value k').toList) → c ∉ (d.filled value).toList := by
    intro c hword hpo hc hva
    unfold Definition.filled
    rw [String.toList_ofList, hp]
    exact not_mem_fill_bodyPieces hcur hword hpo _ (fun h => hc (mem_of_char_mem h)) []
      not_mem_nil fun r hr => hva _ (hkeys r hr)
  exact ⟨ha _ (by decide) (by decide) htext.1 fun k' hk' => (hv k' hk').1,
    ha _ (by decide) (by decide) htext.2 fun k' hk' => (hv k' hk').2⟩

end Sources

/-! ## Names of local variables -/

lemma splitWordFrom_cons {sep rest : List Char} (h : ¬ sep <+: c :: rest) : splitWordFrom sep 0 (c :: rest) =
      match splitWordFrom sep 0 rest with
      | [] => [[c]]
      | piece :: more => (c :: piece) :: more := by
  refine if_neg fun hs => ?_
  obtain ⟨after, ha⟩ := Option.isSome_iff_exists.mp hs
  exact h ⟨after, (afterStart?_some ha).symm⟩

lemma splitWordFrom_free {sep cs : List Char} (h : ¬ sep <:+: cs) : splitWordFrom sep 0 cs = [cs] := by
  induction cs with
  | nil => rfl
  | cons c rest ih => rw [splitWordFrom_cons fun hs => h hs.isInfix, ih fun hi => h (infix_cons hi)]

lemma splitWordFrom_plain {more cs : List Char} (h : c ∉ cs) : splitWordFrom (c :: more) 0 cs = [cs] :=
  splitWordFrom_free fun hi => h (hi.subset mem_cons_self)

lemma splitWordFrom_inside (sep a b : List Char) : splitWordFrom sep a.length (a ++ b) = splitWordFrom sep 0 b := by
  induction a with
  | nil => rfl
  | cons d a ih => exact ih

lemma afterStart?_append (start text : List Char) : afterStart? start (start ++ text) = some text := by
  induction start with
  | nil => rfl
  | cons d start ih => simp [afterStart?, ih]

lemma splitWordFrom_start (c : Char) (more b : List Char) :
    splitWordFrom (c :: more) 0 (c :: more ++ b) = [] :: splitWordFrom (c :: more) 0 b := by
  rw [cons_append, splitWordFrom, ← cons_append, afterStart?_append, ← splitWordFrom_inside (c :: more) more b]
  rfl

lemma two_le_length_splitWordFrom {more cs : List Char} (h : c :: more <:+: cs) :
    2 ≤ (splitWordFrom (c :: more) 0 cs).length := by
  have hpos (cs : List Char) : splitWordFrom (c :: more) 0 cs ≠ [] := by
    cases cs with
    | nil => exact cons_ne_nil _ _
    | cons d rest =>
      rw [splitWordFrom]
      split
      · exact cons_ne_nil _ _
      · split <;> exact cons_ne_nil _ _
  induction cs with
  | nil => cases infix_nil.mp h
  | cons d rest ih =>
    by_cases hs : c :: more <+: d :: rest
    · obtain ⟨after, ha⟩ := hs
      rw [← ha, splitWordFrom_start]
      exact Nat.succ_le_succ (length_pos_iff.mpr (hpos after))
    · have hrest := ih ((infix_cons_iff.mp h).resolve_left hs)
      rw [splitWordFrom_cons hs]
      cases hsplit : splitWordFrom (c :: more) 0 rest with
      | nil => exact absurd hsplit (hpos rest)
      | cons piece pieces => simpa [hsplit] using hrest

lemma splitWordFrom_once {more a b : List Char} (ha : c ∉ a) (hb : c ∉ b) :
    splitWordFrom (c :: more) 0 (a ++ c :: (more ++ b)) = [a, b] := by
  induction a with
  | nil => exact (splitWordFrom_start c more b).trans (by rw [splitWordFrom_plain hb])
  | cons d a ih =>
    simp only [mem_cons, not_or] at ha
    rw [cons_append, splitWordFrom_cons fun hs => ha.1 (cons_prefix_cons.mp hs).1, ih ha.2]

lemma Key.Spelled.localOf (h : k.Spelled) :
    localOf k.text = "v." ++ ((k.grid.map (· ++ "__")).getD "" ++ k.name ++ (k.index.map ("__" ++ ·)).getD "") := by
  have hword : '-' ∉ ((k.grid.map (· ++ "__")).getD "" ++ k.name).toList := fun hmem =>
    absurd (h.isWord_stem '-' hmem) (by decide)
  unfold Resolution.localOf replaceWord splitWord Key.text
  generalize (k.grid.map (· ++ "__")).getD "" ++ k.name = word at hword ⊢
  cases hi : k.index with
  | none =>
    have hs : splitWordFrom ['-', '-'] 0 word.toList = [word.toList] := splitWordFrom_plain hword
    have hjoin : join "__" [word] = word := rfl
    simp [hs, hjoin]
  | some i =>
    have hin : '-' ∉ i.toList := fun hmem => by
      have hchar : isIndexChar '-' = false := by decide
      simpa [hchar] using h.index i hi '-' hmem
    have hs : splitWordFrom ['-', '-'] 0 (word.toList ++ '-' :: '-' :: i.toList) = [word.toList, i.toList] :=
      splitWordFrom_once hword hin
    have hjoin : join "__" [word, i] = word ++ "__" ++ i := rfl
    simp [hs, hjoin, String.append_assoc]

lemma Key.Spelled.assigned_iff (h : k.Spelled) : "v." ++ k.localName = Resolution.localOf k.text ↔ k.grid ≠ none := by
  rw [h.localOf]
  unfold Key.localName
  cases k.grid with
  | none =>
    refine ⟨fun heq => ?_, fun hne => absurd rfl hne⟩
    have hl := congrArg (fun s => s.toList.length) heq
    simp only [String.toList_append, length_append] at hl
    have hnone : (none.getD "None" : String).toList.length = 4 := rfl
    have he : ((Option.map (· ++ "__") none).getD "" : String).toList.length = 0 := rfl
    omega
  | some g => simp

lemma Key.Spelled.unbraced_localOf (h : k.Spelled) : Unbraced (Resolution.localOf k.text) := by
  have ha : ∀ c ∈ (Resolution.localOf k.text).toList, (isWord c || c == '.') = true := by
    rw [h.localOf, String.toList_append, String.toList_append, forall_mem_append, forall_mem_append]
    exact ⟨all_eq_true.mp rfl, fun c hc => by rw [h.isWord_stem c hc]; rfl,
      fun c hc => by rw [h.isWord_index c hc]; rfl⟩
  exact ⟨fun hc => absurd (ha _ hc) (by decide), fun hc => absurd (ha _ hc) (by decide)⟩

namespace Sources

variable {src : Sources} {k x : Key} {d : Definition}

/-! ## Code and its keys -/

lemma spelled_base (hl : Yields Listed src.library) (hk : k.Written)
    (hd : src.definition k = .ok d) (hcode : d.isCode = true) : d.base.Spelled := by
  obtain ⟨c, hc, hkey, -⟩ := d.exists_generated_base hcode k (d.filled src.meaning)
  rw [← generatedBy_eq hd] at hc
  rw [← hkey]
  exact spelled_of_generatedBy hl hk hc

lemma Resolves.unbraced (hl : Yields Listed src.library) (hp : src.PlainTexts) {v : String}
    (hk : k.Written) (h : src.Resolves k v) : Unbraced v := by
  induction h with
  | @byDefinition k d value hd _ ih =>
    have hkeys : ∀ k' ∈ d.keys, Unbraced (value k') := fun k' hk' => ih k' hk' (written_of_mem_hits hk')
    cases ht : d.transform with
    | some function =>
      have hv : d.value k (d.filled value) = localOf k.text := by
        unfold Definition.value
        rw [ht]
      rw [hv]
      exact hk.spelled.unbraced_localOf
    | none =>
      cases hcode : d.isCode with
      | true =>
        have hv : d.value k (d.filled value) = localOf d.base.text := by
          unfold Definition.value Definition.baseValue
          rw [ht, hcode]
          rfl
        rw [hv]
        exact (spelled_base hl hk hd hcode).unbraced_localOf
      | false =>
        rw [d.value_of_text hcode ht]
        obtain ⟨hw, -⟩ := expands_of_definition hd value
        exact unbraced_filled hk hd (unbraced_of_text hp hw hcode) hkeys

lemma base_eq (hl : Yields Listed src.library) (hd : src.definition k = .ok d) (hdi : d.transform = none) :
    d.base = k := by
  rcases base_cases hl hd with ⟨-, hbase⟩ | ⟨_, _, ht, -⟩
  · exact hbase
  · cases hdi.symm.trans ht

lemma named_of_code (hl : Yields Listed src.library) (hd : src.definition k = .ok d)
    (hcode : d.isCode = true) : (¬ d.base.Plain ∧ d.base = k) ∨ (d.base.Plain ∧ d.base.index = k.index ∧
      ∃ grid, src.HasGrid d.base grid ∧ d.base.name ∈ grid.names ∧ grid.Gives d.base.name d.text) := by
  cases origin_of_definition hd with
  | override _ hw => cases hcode.symm.trans (congrArg Wording.isCode hw)
  | composite _ hi hworded _ _ hw =>
    rw [hw]
    exact .inl ⟨fun hp => absurd (hp _ hi) (by simp [hworded]), rfl⟩
  | grid _ hp hk hn hg hw =>
    rw [hw, gridWording, ← hk.grid_eq hl]
    exact .inr ⟨hp, rfl, _, hk, hn, hg⟩
  | transform ht hg hw =>
    obtain ⟨hp, hk, hn⟩ := ht.named
    rw [hw, gridWording, ← ht.known.grid_eq hl, ← ht.same]
    exact .inr ⟨hp, by rw [ht.same], _, hk, hn, hg⟩

variable {function : String} {k' : Key} {d' : Definition}

lemma keys_of_code (hl : Yields Listed src.library) (hd : src.definition k = .ok d)
    (hd' : src.definition k' = .ok d') (hcode : d.isCode = true) (hcode' : d'.isCode = true)
    (hbase : d.base = d'.base) : d.keys = d'.keys := by
  rcases named_of_code hl hd hcode with ⟨hwo, hk⟩ | ⟨hp, hi, grid, hgrid, -, hg⟩
  · rcases named_of_code hl hd' hcode' with ⟨-, hk'⟩ | ⟨hp', -⟩
    · obtain rfl : k = k' := hk.symm.trans (hbase.trans hk')
      rw [Except.ok.inj (hd.symm.trans hd')]
    · exact absurd (hbase ▸ hp') hwo
  · rcases named_of_code hl hd' hcode' with ⟨hwo', -⟩ | ⟨-, hi', grid', hgrid', -, hg'⟩
    · exact absurd (hbase ▸ hp) hwo'
    · rw [← hbase] at hgrid' hg' hi'
      obtain rfl := hgrid.unique hgrid'
      have hbody : d.body.toList = d'.body.toList := by
        rw [normal_of_definition hd, normal_of_definition hd', hg.unique hg', ← hi, hi']
      unfold Definition.keys
      rw [hbody]

lemma base_ne_of_transform (hl : Yields Listed src.library) (hd : src.definition k = .ok d)
    (hcode : d.isCode = true) (hd' : src.definition k' = .ok d') (h : d'.transform = some function) : d.base ≠ k' := by
  rintro rfl
  obtain ⟨_, grid, ht⟩ := through_of_transform hd' h
  rcases named_of_code hl hd hcode with ⟨hworded, -⟩ | ⟨-, -, grid', hgrid', hn, -⟩
  · exact hworded ht.plain
  · obtain rfl := ht.known.unique hgrid'
    exact ht.unnamed hn

/-! ## Local variables in values and in code -/

/-- The local variable of a key is the value of another, or stands in it by a key of its text. -/
inductive Stands (src : Sources) : Key → Key → Prop where
  | own {k : Key} {d : Definition} (defined : src.definition k = .ok d)
      (generated : d.isCode = true ∨ d.transform.isSome = true) : Stands src k k
  | inside {k k' x : Key} {d : Definition} (defined : src.definition k = .ok d)
      (text : d.isCode = false) (direct : d.transform = none) (mem : k' ∈ d.keys)
      (stands : Stands src k' x) : Stands src k x

/-- The local variable of a key stands in another's code: by a key of its text, or as the base of a transform. -/
inductive Feeds (src : Sources) (b x : Key) : Prop where
  | code {k k' : Key} {d : Definition} (defined : src.definition k = .ok d) (isCode : d.isCode = true)
      (base : d.base = b) (mem : k' ∈ d.keys) (stands : src.Stands k' x)
  | argument {k' : Key} {d : Definition} {function : String} (defined : src.definition b = .ok d)
      (through : d.transform = some function) (text : d.isCode = false) (mem : k' ∈ d.keys)
      (stands : src.Stands k' x)
  | start {d : Definition} {function : String} (defined : src.definition b = .ok d)
      (through : d.transform = some function) (isCode : d.isCode = true) (base : d.base = x)

lemma Stands.reaches (h : src.Stands k x) : src.Reaches k x := by
  induction h with
  | own _ _ => exact .refl
  | inside hd _ _ hmem _ ih => exact .head (depends_iff.mpr ⟨_, hd, hmem⟩) ih

lemma Stands.generated (hl : Yields Listed src.library) (h : src.Stands k x) :
    ∃ c ∈ src.generatedBy x, c.key = x := by
  induction h with
  | inside _ _ _ _ _ ih => exact ih
  | @own k d hd hg =>
    rw [generatedBy_eq hd]
    cases ht : d.transform with
    | some function =>
      obtain ⟨c, hc, hkey, -⟩ := d.exists_generated_transform ht k (d.filled src.meaning)
      exact ⟨c, hc, hkey⟩
    | none =>
      have hcode : d.isCode = true := by
        rw [ht] at hg
        simpa using hg
      obtain ⟨c, hc, hkey, -⟩ := d.exists_generated_base hcode k (d.filled src.meaning)
      exact ⟨c, hc, hkey.trans (base_eq hl hd ht)⟩

lemma infix_filled (h : k ∈ d.keys) (value : Key → String) : (value k).toList <:+: (d.filled value).toList := by
  have hpart : ∀ ps : List (Piece Key), k ∈ hits ps → (value k).toList <:+: fill (fun k => (value k).toList) ps := by
    intro ps hmem
    induction ps with
    | nil => cases hmem
    | cons piece rest ih =>
      cases piece with
      | char c => exact (ih hmem).trans (suffix_cons c _).isInfix
      | hit k' =>
        rcases mem_cons.mp hmem with rfl | hmem
        · exact (prefix_append _ _).isInfix
        · exact (ih hmem).trans (suffix_append _ _).isInfix
  unfold Definition.filled
  rw [String.toList_ofList]
  exact hpart _ h

lemma Stands.infix_meaning (hl : Yields Listed src.library) (h : src.Stands k x)
    (hk : src.Meaningful k) : (localOf x.text).toList <:+: (src.meaning k).toList := by
  have hva : ∀ k d, src.definition k = .ok d → src.Meaningful k →
      src.meaning k = d.value k (d.filled src.meaning) ∧ ∀ k' ∈ d.keys, src.Meaningful k' := by
    intro k d hd hk
    have hkeys : ∀ k' ∈ d.keys, src.Meaningful k' := fun k' hk' => by
      obtain ⟨v, hv⟩ := hk.of_depends (depends_iff.mpr ⟨d, hd, hk'⟩)
      exact hv.meaningful
    exact ⟨(meaningful_of_keys hd hkeys).2, hkeys⟩
  induction h with
  | @own k d hd hg =>
    rw [(hva k d hd hk).1]
    unfold value baseValue
    cases ht : d.transform with
    | some function => exact infix_refl _
    | none =>
      have hcode : d.isCode = true := by
        rw [ht] at hg
        simpa using hg
      rw [hcode, base_eq hl hd ht]
      exact infix_refl _
  | @inside k k' x d hd htext hdi hmem _ ih =>
    obtain ⟨hm, hkeys⟩ := hva k d hd hk
    rw [hm, d.value_of_text htext hdi]
    exact (ih (hkeys k' hmem)).trans (infix_filled hmem src.meaning)

end Sources

/-! ## Code in order -/

lemma exists_of_flatMap_eq {α β : Type} {f : α → List β} {as : List α} {front back : List β} {b : β}
    (h : as.flatMap f = front ++ b :: back) : ∃ before a after front' back', as = before ++ a :: after ∧
      f a = front' ++ b :: back' ∧ front = before.flatMap f ++ front' := by
  induction as generalizing front with
  | nil => simp at h
  | cons a as ih =>
    rcases append_eq_append_iff.mp h with ⟨mid, rfl, hmid⟩ | ⟨mid, hfa, hmid⟩
    · obtain ⟨before, a', after, front', back', rfl, ha', rfl⟩ := ih hmid
      exact ⟨a :: before, a', after, front', back', rfl, ha', by simp⟩
    · cases mid with
      | nil =>
        have hrest : as.flatMap f = [] ++ b :: back := hmid.symm
        obtain ⟨before, a', after, front', back', rfl, ha', hf⟩ := ih hrest
        refine ⟨a :: before, a', after, front', back', rfl, ha', ?_⟩
        rw [flatMap_cons, hfa, append_nil, append_assoc, ← hf, append_nil]
      | cons m mid =>
        cases hmid
        exact ⟨[], a, as, front, mid, rfl, hfa, rfl⟩

lemma Orderly.feeds_before (h : Orderly src ks t) (hl : Yields Listed src.library)
    {front back : List Generated} {c : Generated} (hsp : t.components = front ++ c :: back) {x : Key}
    (hfe : src.Feeds c.key x) : (localOf x.text).toList <:+: c.code.toList ∧ ∃ c' ∈ front, c'.key = x ∧ x.Spelled := by
  rw [h.components] at hsp
  obtain ⟨before, k, after, front', back', rfl, hg, rfl⟩ := exists_of_flatMap_eq hsp
  have hmem : k ∈ before ++ k :: after := by simp
  obtain ⟨d, hd⟩ := h.definition hmem
  have hc : c ∈ d.generated k (d.filled src.meaning) := by
    rw [← Sources.generatedBy_eq hd, hg]
    simp
  -- What stands in the value of a key of the text has its code from an earlier key.
  have he : ∀ k' ∈ d.keys, src.Stands k' x → (localOf x.text).toList <:+: (d.filled src.meaning).toList ∧
        ∃ c' ∈ before.flatMap src.generatedBy ++ front', c'.key = x ∧ x.Spelled := by
    intro k' hk' hs
    have hb : k' ∈ before := h.inOrder before k after rfl k' (Sources.depends_iff.mpr ⟨d, hd, hk'⟩)
    have hx : x ∈ before := h.inOrder.of_reaches hb hs.reaches
    obtain ⟨c', hc', hkey⟩ := hs.generated hl
    have hspe : c'.key.Spelled := spelled_of_generatedBy hl (h.written x (mem_append_left _ hx)) hc'
    refine ⟨?_, c', mem_append_left _ (mem_flatMap.mpr ⟨x, hx, hc'⟩), hkey, hkey ▸ hspe⟩
    have hm := h.meaningful k' (mem_append_left _ hb)
    exact (hs.infix_meaning hl hm).trans (Sources.infix_filled hk' src.meaning)
  rcases Sources.mem_generated hc with ⟨hcode, hkey, hf⟩ | ⟨function, ht, hkey, hf⟩
  · rw [hf]
    cases hfe with
    | code hd' hcode' hbase hk' hs =>
      rw [← Sources.keys_of_code hl hd hd' hcode hcode' (hkey.symm.trans hbase.symm)] at hk'
      exact he _ hk' hs
    | argument hd' ht _ _ _ | start hd' ht _ _ =>
      exact absurd hkey.symm (Sources.base_ne_of_transform hl hd hcode hd' ht)
  · have hi : ∀ text : List Char, text <:+: (d.baseValue (d.filled src.meaning)).toList → text <:+: c.code.toList := by
      intro text htext
      refine htext.trans ⟨(function ++ "(").toList, ")".toList, ?_⟩
      rw [hf]
      unfold transformed
      simp
    rw [hkey] at hfe
    cases hfe with
    | code hd' hcode' hbase _ _ => exact absurd hbase (Sources.base_ne_of_transform hl hd' hcode' hd ht)
    | argument hd' _ htext hk' hs =>
      cases hd.symm.trans hd'
      obtain ⟨hpart, hcode⟩ := he _ hk' hs
      refine ⟨hi _ ?_, hcode⟩
      unfold baseValue
      rw [htext]
      exact hpart
    | start hd' _ hcode hbase =>
      cases hd.symm.trans hd'
      refine ⟨hi _ ?_, ?_⟩
      · unfold baseValue
        rw [hcode, hbase]
        exact infix_refl _
      -- The two entries of one definition: the base comes first.
      · have hpair : d.generated k (d.filled src.meaning) =
            [⟨d.base.grid, d.base.index, d.base.name, d.filled src.meaning⟩,
              ⟨k.grid, k.index, k.name, d.transformed function (d.filled src.meaning)⟩] := by
          unfold Definition.generated
          rw [hcode, ht]
          rfl
        have hne : d.base ≠ k := Sources.base_ne_of_transform hl hd hcode hd ht
        rw [Sources.generatedBy_eq hd, hpair] at hg
        cases front' with
        | nil =>
          cases hg
          exact absurd hkey hne
        | cons e front' =>
          obtain ⟨rfl, -⟩ := cons.inj hg
          exact ⟨_, mem_append_right _ mem_cons_self, hbase,
            hbase ▸ Sources.spelled_base hl (h.written k hmem) hd hcode⟩

lemma Orderly.unbraced_values (h : Orderly src ks t) (hl : Yields Listed src.library) (hp : src.PlainTexts) :
    ∀ entry ∈ t.values, Unbraced entry.2 := by
  intro entry he
  rw [h.values] at he
  obtain ⟨k, hk, rfl⟩ := mem_map.mp he
  exact (h.meaningful k hk).unbraced hl hp (h.written k hk)

lemma orderly_start (library : Except Fault Registry) (overrides multiplicity : List (String × Value)) :
    Orderly (start library overrides multiplicity).toSources [] (start library overrides multiplicity) where
  toKnows := knows_start library overrides multiplicity
  inOrder := by simp [InOrder]
  once := rfl

/-- The state after some requests, one after another, whatever comes of them. -/
def Resolution.afterRequests (s : Resolution) (requests : List (List String × Agenda)) : Resolution :=
  requests.foldl (fun s request => (outcome (resolveAll request.1 request.2) s).2) s

lemma exists_orderly_afterRequests (h : Orderly src ks s) (requests : List (List String × Agenda)) :
    ∃ new, Orderly src (ks ++ new) (s.afterRequests requests) := by
  induction requests generalizing ks s with
  | nil => exact ⟨[], by rwa [append_nil]⟩
  | cons request requests ih =>
    obtain ⟨new, ht⟩ := orderly_resolveEach (request.2.order (requested request.1)) h
    obtain ⟨new', hu⟩ := ih ht
    rw [append_assoc] at hu
    exact ⟨new ++ new', hu⟩

/-- Requests only add values, each written once, and without braces if overrides and mappings have none. Code is the
definition's text with the values in it, and comes after the code of the keys it mentions, which is assigned to
their local variables exactly if these are of a grid. -/
theorem components_in_order (w : Session) (overrides multiplicity : List (String × Value))
    (requests : List (List String × Agenda)) (names : List String) (agenda : Agenda)
    (hplain : (start w.library overrides multiplicity).toSources.PlainTexts) :
    let src := (start w.library overrides multiplicity).toSources
    let s := (start w.library overrides multiplicity).afterRequests requests
    let t := ((resolveAll names agenda).run.run s).2
    s.values <+: t.values ∧ (t.values.map Prod.fst).Nodup ∧ t.log.length = t.values.length ∧
    (∀ entry ∈ t.values, Unbraced entry.2 ∧ ∃ k, entry.1 = k.text ∧ src.Recorded t k) ∧
    (∀ c ∈ t.components, ∃ k d, src.definition k = .ok d ∧ c ∈ d.generated k (d.filled t.valueOf)) ∧
    ∀ front c back, t.components = front ++ c :: back → ∀ x, src.Feeds c.key x →
      (localOf x.text).toList <:+: c.code.toList ∧
      ∃ c' ∈ front, c'.key = x ∧ ∀ library a, Builder.assignmentFor library c' = .ok a →
        (a.var = localOf x.text ↔ x.grid ≠ none) := by
  intro src s t
  have hl : Yields Listed src.library := listed_library w
  obtain ⟨ks, hs⟩ := exists_orderly_afterRequests (orderly_start w.library overrides multiplicity) requests
  rw [List.nil_append] at hs
  obtain ⟨new, ht⟩ := orderly_resolveEach (agenda.order (requested names)) hs
  have ht : Orderly src (ks ++ new) t := ht
  refine ⟨hs.prefix_values ht, ht.nodup_values, ht.once, fun entry he => ?_, fun c hc => ?_, ?_⟩
  · refine ⟨ht.unbraced_values hl hplain entry he, ?_⟩
    rw [ht.values] at he
    obtain ⟨k, hk, rfl⟩ := List.mem_map.mp he
    exact ⟨k, rfl, ht.recorded hk⟩
  · rw [ht.components] at hc
    obtain ⟨k, hk, hc⟩ := List.mem_flatMap.mp hc
    obtain ⟨d, hd⟩ := ht.definition hk
    rw [Sources.generatedBy_eq hd, ← ht.filled hk hd] at hc
    exact ⟨k, d, hd, hc⟩
  · intro front c back hspl x hf
    obtain ⟨hpart, c', hc', rfl, hsp⟩ := ht.feeds_before hl hspl hf
    refine ⟨hpart, c', hc', rfl, fun library a ha => ?_⟩
    rw [Builder.var_of_assignmentFor hsp ha]
    exact hsp.assigned_iff

/-! The input of one copy is overridden by a text that names another output. -/

def copyOverrides : List (String × Value) :=
  [("t.x--1", .str "2 * g.t__z")]

lemma grid_line {grid : Grid} (h : (start lineSession.library overrides multiplicity).toSources.HasGrid k grid) :
    grid = lineGrid := by
  obtain ⟨grids, g, hg, -, hl⟩ := h
  cases library_lineSession.symm.trans hg
  simpa using mem_of_lookup hl

lemma mapping_line {name text : String} (h : lineGrid.mapping name = .str text) : text = "p.x--i" := by
  unfold Grid.mapping at h
  cases hname : lineGrid.mappings.lookup (.str name) with
  | none =>
    rw [hname] at h
    cases h
  | some v =>
    rw [hname] at h
    obtain rfl : v = .str "p.x--i" := by simpa [lineGrid] using mem_of_lookup hname
    exact (Value.str.inj h).symm

lemma plainTexts_line (h : ∀ entry ∈ (start lineSession.library overrides multiplicity).overrides, Unbraced entry.2.text) :
    (start lineSession.library overrides multiplicity).toSources.PlainTexts where
  overrides key text hf := by
    obtain ⟨key', hmem⟩ := mem_of_lookup hf
    exact h _ hmem
  mappings k grid hgrid name text hm := by
    obtain rfl := grid_line hgrid
    obtain rfl := mapping_line hm
    exact ⟨by decide, by decide⟩

lemma plainTexts_copyOverrides : (start lineSession.library copyOverrides []).toSources.PlainTexts :=
  plainTexts_line (by decide +kernel)

lemma components_copyOverrides : ((resolveAll ["t.y--1"] backwards).run.run
      ((start lineSession.library copyOverrides []).afterRequests [(["t.x"], backwards)])).2.components =
      [⟨some "t", none, "z", "c.grid__t__z._interp1d(p.x)"⟩] ++
        ⟨some "t", some "1", "y", "c.grid__t__y._interp1d(2 * v.t__z)"⟩ :: [] := by
  decide +kernel

lemma feeds_copyOverrides : (start lineSession.library copyOverrides []).toSources.Feeds
    ⟨some "t", "y", some "1"⟩ ⟨some "t", "z", none⟩ := by
  obtain ⟨y, hy, hcode, hbase, hx⟩ := exists_ok_of (x := (start lineSession.library copyOverrides []).definition
      ⟨some "t", "y", some "1"⟩)
    (P := fun d => d.isCode = true ∧ d.base = ⟨some "t", "y", some "1"⟩ ∧ ⟨some "t", "x", some "1"⟩ ∈ d.keys)
    (by decide +kernel)
  obtain ⟨x, hxd, hte, hno, hz⟩ := exists_ok_of (x := (start lineSession.library copyOverrides []).definition
      ⟨some "t", "x", some "1"⟩)
    (P := fun d => d.isCode = false ∧ d.transform = none ∧ ⟨some "t", "z", none⟩ ∈ d.keys) (by decide +kernel)
  obtain ⟨z, hzd, hzc⟩ := exists_ok_of (x := (start lineSession.library copyOverrides []).definition
    ⟨some "t", "z", none⟩) (P := fun d => d.isCode = true) (by decide +kernel)
  exact .code hy hcode hbase hx (.inside hxd hte hno hz (.own hzd (Or.inl hzc)))

theorem components_in_order_copyOverrides : ∃ a,
    ((resolveAll ["t.y--1"] Builder.backwards).run.run
      ((start Builder.lineSession.library copyOverrides []).afterRequests
        [(["t.x"], Builder.backwards)])).2.components =
      [⟨some "t", none, "z", "c.grid__t__z._interp1d(p.x)"⟩] ++
        ⟨some "t", some "1", "y", "c.grid__t__y._interp1d(2 * v.t__z)"⟩ :: [] ∧
    Builder.assignmentFor Builder.lineSession.library
      ⟨some "t", none, "z", "c.grid__t__z._interp1d(p.x)"⟩ = .ok a ∧ a.var = "v.t__z" := by
  obtain ⟨-, -, -, -, -, ho⟩ := components_in_order Builder.lineSession copyOverrides []
    [(["t.x"], Builder.backwards)] ["t.y--1"] Builder.backwards plainTexts_copyOverrides
  obtain ⟨-, c', hc', -, hass⟩ := ho _ _ _ components_copyOverrides _ feeds_copyOverrides
  obtain rfl := List.mem_singleton.mp hc'
  have hl : localOf (Key.text ⟨some "t", "z", none⟩) = "v.t__z" := by decide +kernel
  rw [hl] at hass
  obtain ⟨a, ha⟩ := Operation.exists_ok (x := Builder.assignmentFor Builder.lineSession.library
    ⟨some "t", none, "z", "c.grid__t__z._interp1d(p.x)"⟩) (by decide +kernel)
  exact ⟨a, components_copyOverrides, ha, (hass _ a ha).mpr (by simp)⟩

def sumOverrides : List (String × Value) :=
  [("t.x", .str "g.foo--sum"), ("foo--1", .str "p.x"), ("foo--2", .str "p.y")]

lemma plainTexts_sumOverrides : (start lineSession.library sumOverrides [("foo", .int 2)]).toSources.PlainTexts :=
  plainTexts_line (by decide +kernel)

/-- The sum of copies of a name without a grid enters code by a local variable that is never assigned. -/
theorem local_never_assigned : (start Builder.lineSession.library sumOverrides [("foo", .int 2)]).toSources.PlainTexts ∧
    ∃ t, (resolveAll ["t.y"] Builder.backwards).run.run
        (start Builder.lineSession.library sumOverrides [("foo", .int 2)]) = (.ok (), t) ∧
      t.components = [⟨none, some "sum", "foo", "p.x + p.y"⟩,
        ⟨some "t", none, "y", "c.grid__t__y._interp1d(v.foo__sum)"⟩] ∧
      ∀ c ∈ t.components, ∀ a, Builder.assignmentFor Builder.lineSession.library c = .ok a → a.var ≠ "v.foo__sum" := by
  have hco : ((resolveAll ["t.y"] Builder.backwards).run.run
      (start Builder.lineSession.library sumOverrides [("foo", .int 2)])).2.components =
      [⟨none, some "sum", "foo", "p.x + p.y"⟩, ⟨some "t", none, "y", "c.grid__t__y._interp1d(v.foo__sum)"⟩] := by
    decide +kernel
  refine ⟨plainTexts_sumOverrides, _, run_of_ok (by decide +kernel), hco, fun c hc a ha => ?_⟩
  rw [hco] at hc
  simp only [List.mem_cons, List.not_mem_nil, or_false] at hc
  rcases hc with rfl | rfl
  · obtain rfl := Except.ok.inj ha
    decide +kernel
  · obtain rfl := Except.ok.inj ha
    decide +kernel

end GridBayes.Deferred
