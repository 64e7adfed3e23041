import GridBayes.Proofs.DefiningText
import GridBayes.Proofs.KeyLength

/-! A bound on the keys of a look-up. The keys that can be met from a name are no longer than the
sources allow, and there are fewer of them than the depth to which keys are looked up. -/
namespace GridBayes.Deferred
open List Operation Option Sources

/-! ## Written keys -/

/-- A key that can be written, with a word of at most `n` characters. -/
def Key.Within (n : Nat) (k : Key) : Prop :=
  ∃ word index, IsWord word ∧ (∀ i ∈ index, IsIndex i) ∧ k = keyOfWord word index ∧
    word.length ≤ n ∧ ∀ i ∈ index, i.length ≤ n + 3

lemma index_keyOfWord (word : List Char) (index : Option (List Char)) :
    (keyOfWord word index).index = index.map String.ofList := by
  unfold keyOfWord
  split <;> rfl

variable {n m : Nat} {k k' : Key} {code : String} {grid : Grid} {index : Option String} {w : Wording} {src : Sources}

lemma Key.Within.text_inj (h : k.Within n) (h' : k'.Within m) (ht : k.text = k'.text) : k = k' := by
  obtain ⟨word, index, hword, hi, rfl, -⟩ := h
  obtain ⟨word', index', hword', hi', rfl, -⟩ := h'
  rw [text_keyOfWord, text_keyOfWord] at ht
  have hc : word ++ indexPart index = word' ++ indexPart index' := by
    have := congrArg String.toList ht
    rwa [String.toList_ofList, String.toList_ofList] at this
  have hb : braced word index ++ [] = braced word' index' ++ [] := by simp only [braced, ← append_assoc, hc]
  obtain ⟨rfl, rfl⟩ := braced_inj hword hword' hi hi' hb
  rfl

lemma Key.Within.length_text (h : k.Within n) : k.text.toList.length ≤ 2 * n + 5 := by
  obtain ⟨word, index, -, -, rfl, hword, hin⟩ := h
  rw [text_keyOfWord, String.toList_ofList, length_append]
  cases index with
  | none =>
    have : (indexPart none).length = 0 := rfl
    omega
  | some i =>
    have hi := hin i rfl
    have : (indexPart (some i)).length = i.length + 2 := rfl
    omega

lemma Key.Within.isCurrent (h : k.Within n) : IsCurrent k.index := by
  obtain ⟨word, index, -, hin, rfl, -⟩ := h
  intro c hc d hd
  rw [index_keyOfWord] at hc
  obtain ⟨i, hi, rfl⟩ := map_eq_some_iff.mp hc
  rw [String.toList_ofList] at hd
  exact (hin i hi).2 d hd

lemma Key.Within.length_index (h : k.Within n) : ∀ c ∈ k.index, c.toList.length ≤ n + 3 := by
  obtain ⟨word, index, -, -, rfl, -, hin⟩ := h
  intro c hc
  rw [index_keyOfWord] at hc
  obtain ⟨i, hi, rfl⟩ := map_eq_some_iff.mp hc
  rw [String.toList_ofList]
  exact hin i hi

lemma Key.ofText?_some {s : String} (h : Key.ofText? s = some k) : k.text = s ∧ ∀ n, s.length ≤ n → k.Within n := by
  unfold Key.ofText? at h
  split at h
  · rename_i found hrule
    cases h
    change keyRule [] _ = _ at hrule
    obtain ⟨word, index, hword, hin, hs, rfl⟩ := keyRule_some hrule
    have hc : s.toList = word ++ indexPart index := by
      have htail : s.toList ++ ['\x7d'] = (word ++ indexPart index) ++ ['\x7d'] := by simpa [braced] using hs
      exact append_cancel_right htail
    have hsize : s.length = word.length + (indexPart index).length := by
      rw [← String.length_toList, hc, length_append]
    refine ⟨?_, fun m hm => ⟨word, index, hword, hin, rfl, by omega, fun i hi => ?_⟩⟩
    · rw [text_keyOfWord, ← hc, String.ofList_toList]
    · obtain rfl := hi
      have : (indexPart (some i)).length = i.length + 2 := rfl
      omega
  · simp at h

def Key.Written (k : Key) : Prop :=
  ∃ n, k.Within n

lemma Key.Written.text_inj (h : k.Written) (h' : k'.Written) (ht : k.text = k'.text) : k = k' := by
  obtain ⟨n, h⟩ := h
  obtain ⟨m, h'⟩ := h'
  exact h.text_inj h' ht

lemma Key.Written.ofText? (h : k.Written) : Key.ofText? k.text = some k := by
  obtain ⟨n, word, index, hword, hi, rfl, -⟩ := h
  have hb : '\x7b' :: (keyOfWord word index).text.toList ++ ['\x7d'] = braced word index := by
    simp [text_keyOfWord, braced]
  have hread : keyAt? (braced word index ++ []) = _ := keyRule_braced hword hi [] []
  rw [append_nil] at hread
  rw [Key.ofText?, hb, hread]

/-! ## The texts of definitions -/

lemma le_greatest {ns : List Nat} (h : n ∈ ns) : n ≤ greatest ns := by
  induction ns with
  | nil => simp at h
  | cons m ns ih =>
    rcases mem_cons.mp h with rfl | h
    · exact Nat.le_max_left _ _
    · exact (ih h).trans (Nat.le_max_right _ _)

lemma lookup_le_greatest {α β : Type} [BEq α] {entries : List (α × β)} {a : α} {b : β}
    (h : entries.lookup a = some b) (size : β → Nat) : size b ≤ greatest (entries.map fun e => size e.2) := by
  obtain ⟨a', hmem⟩ := mem_of_lookup h
  exact le_greatest (mem_map_of_mem (f := fun e => size e.2) hmem)

lemma length_le_of_lookup {α : Type} [BEq α] {entries : List (α × Value)} {a : α} {text : String}
    (h : entries.lookup a = some (.str text)) :
    text.length ≤ greatest (entries.map fun e => codeLength e.2) :=
  lookup_le_greatest h codeLength

lemma length_le_of_gives {name text : String} (h : grid.Gives name text) : text.length ≤ gridLength grid := by
  unfold gridLength
  cases h with
  | input _ hm =>
    cases hl : grid.mappings.lookup (.str name) with
    | none => simp [Grid.mapping, hl] at hm
    | some v =>
      obtain rfl : v = .str text := by simpa [Grid.mapping, hl] using hm
      have := length_le_of_lookup hl
      omega
  | output _ hout =>
    have := le_greatest (mem_map_of_mem (f := fun name => (Resolution.interpolation grid name).length) hout)
    omega
  | derived _ _ hcode =>
    have := length_le_of_lookup hcode
    omega

lemma wording_cases (h : src.wording k = .ok w) (n : Nat) : w.text.length ≤ src.wordLength n ∨
      ∃ index multi m, Resolution.combination index k.text k.path multi = .ok w.text ∧
        Resolution.copies multi = .ok m ∧ 2 * (m + multi.text.length) ≤ src.wordLength n := by
  have hgives : src.Gives k w.text := wording_iff.mp ⟨w, h, rfl⟩
  unfold wordLength
  cases hgives with
  | override hf | general _ hf =>
    have := length_le_of_lookup hf
    exact .inl (by omega)
  | @composite _ _ multi _ _ _ hmu hcomb =>
    obtain ⟨m, hm, -⟩ := combination_cases hcomb
    have hcopies : copyLength multi = m + multi.text.length := by simp only [copyLength, hm]
    have hsize := lookup_le_greatest hmu copyLength
    exact .inr ⟨_, _, m, hcomb, hm, by omega⟩
  | grid _ _ hk _ hg | transform _ _ hk _ _ hg =>
    obtain ⟨grids, g, hgr, -, hl⟩ := hk
    have hlen := length_le_of_gives hg
    have hsize := lookup_le_greatest hl gridLength
    rw [hgr]
    exact .inl (by dsimp only; omega)

/-! ## Keys do not grow -/

lemma count_point_of_isWord {w : List Char} (hw : IsWord w) : w.count '.' = 0 :=
  count_eq_zero.mpr (not_mem_of_isWord hw (by decide))

lemma path_keyOfWord {word : List Char} (hword : IsWord word) (index : Option (List Char)) :
    weight (keyOfWord word index).path.toList = word.length ∧ '\x7b' ∉ (keyOfWord word index).path.toList := by
  have hb : ('\x7b' : Char) ∉ word := not_mem_of_isWord hword (by decide)
  have hp := count_point_of_isWord hword
  unfold keyOfWord Key.path
  split
  · rename_i grid name hs
    obtain rfl : word = grid ++ '_' :: '_' :: name := splitGrid_some hs
    have hc : (((some (String.ofList grid)).map (· ++ ".")).getD "" ++
        String.ofList name).toList = grid ++ '.' :: name := by
      simp
    rw [hc]
    simp only [mem_append, mem_cons, not_or] at hb
    simp only [count_append, count_cons] at hp
    refine ⟨?_, ?_⟩
    · simp only [weight, length_append, length_cons, count_append, count_cons_self]
      omega
    · simp only [mem_append, mem_cons, not_or]
      exact ⟨hb.1, by decide, hb.2.2.2⟩
  · have hc : (((none : Option String).map (· ++ ".")).getD "" ++ String.ofList word).toList = word := by simp
    rw [hc]
    exact ⟨by rw [weight, hp, Nat.add_zero], hb⟩

lemma Key.Within.path (h : k.Within n) : weight k.path.toList ≤ n ∧ '\x7b' ∉ k.path.toList := by
  obtain ⟨word, index, hword, -, rfl, hlen, -⟩ := h
  obtain ⟨hw, hp⟩ := path_keyOfWord hword index
  exact ⟨hw.trans_le hlen, hp⟩

lemma length_actualPart {current : Option String} {mentioned : Option (List Char)}
    (hcur : ∀ c ∈ current, c.toList.length ≤ m) (hm : ∀ i ∈ mentioned, i.length ≤ m) :
    ∀ i ∈ actualPart current mentioned, i.length ≤ m := by
  rcases actualPart_cases current mentioned with h | h | ⟨c, hc, -, h⟩
  · simp [h]
  · rwa [h]
  · rw [h]
    intro i hi
    cases hi
    exact hcur c hc

lemma length_le_of_braced {source word : List Char} {index : Option (List Char)} (h : braced word index <:+: source) :
    word.length ≤ source.length ∧ ∀ i ∈ index, i.length ≤ source.length := by
  have hlen := h.length_le
  simp only [braced, length_cons, length_append] at hlen
  refine ⟨by omega, fun i hi => ?_⟩
  obtain rfl := hi
  have : (indexPart (some i)).length = i.length + 2 := rfl
  omega

lemma extract_known {library : Except Fault Registry} {source : String} {found : List String × String}
    (h : Resolution.extract library source index = .ok found) : ∃ known, extract known source index = .ok found := by
  unfold Resolution.extract at h
  split at h
  · obtain ⟨known, -, hk⟩ := bind_eq_ok.mp h
    exact ⟨known, hk⟩
  · exact ⟨[], h⟩

lemma Key.Within.of_mem_keys {d : Definition} (hk : k.Within (src.wordLength n)) (hd : src.definition k = .ok d)
    (hmem : k' ∈ d.keys) : k'.Within (src.wordLength n) := by
  obtain ⟨w, hw, hd⟩ := bind_eq_ok.mp hd
  obtain ⟨⟨mentions, body⟩, he, hd⟩ := bind_eq_ok.mp hd
  cases hd
  obtain ⟨known, he⟩ := extract_known he
  obtain ⟨word, index, hword, hi, rfl, hfrom⟩ := extract_keys hk.isCurrent he hmem
  refine ⟨word, index, hword, hi, rfl, ?_⟩
  have hcur := hk.length_index
  rcases wording_cases hw n with hlen | ⟨i, multi, m, hcomb, hc, hm⟩
  · rw [← String.length_toList] at hlen
    rcases hfrom with ⟨grid, name, mentioned, hmen, rfl, rfl⟩ | hb
    · obtain ⟨hstem, hme⟩ := hmen.length_le
      exact ⟨hstem.trans hlen, length_actualPart hcur fun j hj => by
        have := hme j hj
        omega⟩
    · obtain ⟨hle, hl⟩ := length_le_of_braced hb
      exact ⟨hle.trans hlen, fun j hj => by
        have := hl j hj
        omega⟩
  · obtain ⟨hwe, hp⟩ := hk.path
    have hla : 40 ≤ src.wordLength n := Nat.le_add_left _ _
    have htame : Tame (src.wordLength n + 3) w.text.toList :=
      tame_combination hcomb hc (by omega) hp (by omega) (by omega)
    rcases hfrom with ⟨grid, name, mentioned, hmen, rfl, rfl⟩ | hb
    · obtain ⟨hstem, hme⟩ := hmen.length_le_of_tame htame
      exact ⟨hstem, length_actualPart hcur hme⟩
    · exact absurd (hb.subset mem_cons_self) htame.plain

/-! ## Counting texts -/

def numeral : List Char → Nat
  | [] => 0
  | c :: cs => c.toNat + 1 + (0x110000 + 1) * numeral cs

lemma toNat_lt (c : Char) : c.toNat < 0x110000 := by
  rcases c.valid with h | ⟨-, h⟩
  · exact Nat.lt_trans h (by decide)
  · exact h

lemma numeral_lt (cs : List Char) : numeral cs < Nat.pow (0x110000 + 1) cs.length := by
  induction cs with
  | nil => exact Nat.one_pos
  | cons c cs ih =>
    have hc := toNat_lt c
    have hpow : Nat.pow (0x110000 + 1) (c :: cs).length = Nat.pow (0x110000 + 1) cs.length * (0x110000 + 1) := rfl
    rw [numeral]
    omega

lemma numeral_inj {a b : List Char} (h : numeral a = numeral b) : a = b := by
  induction a generalizing b with
  | nil =>
    cases b with
    | nil => rfl
    | cons d b => simp only [numeral] at h; omega
  | cons c a ih =>
    cases b with
    | nil => simp only [numeral] at h; omega
    | cons d b =>
      have hc := toNat_lt c
      have hd := toNat_lt d
      simp only [numeral] at h
      have hchar : c = d := Char.toNat_inj.mp (by omega)
      have hrest : numeral a = numeral b := by omega
      rw [hchar, ih hrest]

lemma length_le_of_nodup {texts : List String} (hn : texts.Nodup) (hs : ∀ t ∈ texts, t.toList.length ≤ m) :
    texts.length ≤ Nat.pow (0x110000 + 1) m := by
  have hinj : Function.Injective fun t : String => numeral t.toList := fun s t h => String.toList_inj.mp (numeral_inj h)
  have hsub : texts.map (fun t => numeral t.toList) ⊆ range (Nat.pow (0x110000 + 1) m) := by
    intro x hx
    obtain ⟨t, ht, rfl⟩ := mem_map.mp hx
    refine mem_range.mpr ((numeral_lt t.toList).trans_le ?_)
    exact Nat.pow_le_pow_right (by decide) (hs t ht)
  have hc := (subperm_of_subset (hn.map hinj) hsub).length_le
  rwa [length_map, length_range] at hc

lemma length_lt_depth {stack : List String} (hn : stack.Nodup)
    (hs : ∀ t ∈ stack, ∃ k : Key, k.Within (src.wordLength n) ∧ k.text = t) : stack.length < src.depth n := by
  refine Nat.lt_succ_of_le (length_le_of_nodup hn fun t ht => ?_)
  obtain ⟨k, hk, rfl⟩ := hs t ht
  exact hk.length_text

end GridBayes.Deferred
