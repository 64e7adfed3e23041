import GridBayes.Proofs.IndexedNames

/-! What extraction makes of a text without braces, piece by piece: every mention becomes the placeholder of
a key, and indices are joined to the names of variables in the text between. The placeholders are then the
only matches for keys. -/
namespace GridBayes.Deferred
open List Text

variable {current : Option String}

/-! ## Placeholders among other characters -/

variable {cs word : List Char} {index : Option (List Char)}

lemma keyRule_none {before : List Char} (h : cs.head? ≠ some '\x7b') : keyRule before cs = none := by
  unfold keyRule keyAt?
  split
  · exact absurd rfl h
  · rfl

lemma piecesFrom_keyRule (before : List Char) (k : Nat) (cs : List Char) :
    piecesFrom keyRule before k cs = piecesFrom keyRule [] k cs := by
  induction cs generalizing before k with
  | nil => cases k <;> rfl
  | cons c cs ih =>
    have hsame : keyRule before (c :: cs) = keyRule [] (c :: cs) := rfl
    cases k with
    | succ k => rw [piecesFrom, piecesFrom, ih, ih [c]]
    | zero =>
      rw [piecesFrom.eq_3, piecesFrom.eq_3, hsame]
      cases keyRule [] (c :: cs) with
      | none => exact congrArg _ ((ih _ 0).trans (ih [c] 0).symm)
      | some found => exact congrArg _ ((ih _ _).trans (ih [c] _).symm)

lemma pieces_keyRule_plain {plain : List Char} (h : '\x7b' ∉ plain) (rest : List Char) :
    pieces keyRule (plain ++ rest) = plain.map .char ++ pieces keyRule rest := by
  induction plain with
  | nil => rfl
  | cons c plain ih =>
    simp only [mem_cons, not_or] at h
    obtain ⟨hc, hp⟩ := h
    have hnone : keyRule [] (c :: (plain ++ rest)) = none := by
      refine keyRule_none fun hb => hc ?_
      exact (Option.some.inj hb).symm
    rw [cons_append, map_cons, cons_append, ← ih hp]
    unfold pieces
    rw [piecesFrom.eq_3, hnone, piecesFrom_keyRule]

lemma pieces_keyRule_braced (hword : IsWord word) (hi : ∀ i ∈ index, IsIndex i) (rest : List Char) :
    pieces keyRule (braced word index ++ rest) = .hit (keyOfWord word index) :: pieces keyRule rest := by
  have hrule := keyRule_braced hword hi [] rest
  have hs : braced word index ++ rest = '\x7b' :: (word ++ (indexPart index ++ ['\x7d']) ++ rest) := rfl
  unfold pieces
  rw [hs] at hrule ⊢
  rw [piecesFrom.eq_3, hrule]
  dsimp only
  rw [length_append, Nat.add_sub_cancel, piecesFrom_skip, piecesFrom_keyRule]

/-! ## Texts without braces -/

def bodyPieces (current : Option String) : (run : List Char) → List (Piece Reference) → List (Piece Key)
  | run, [] => (joined current run).map .char
  | run, .char c :: ps => bodyPieces current (run ++ [c]) ps
  | run, .hit r :: ps => (joined current run).map .char ++ .hit (r.placedKey current) :: bodyPieces current [] ps

lemma pieces_joined_fill (hcur : IsCurrent current) (ps : List (Piece Reference))
    (hch : ∀ c, Piece.char c ∈ ps → c ≠ '\x7b')
    (hhits : ∀ r ∈ hits ps, ∃ before after n, referenceRule before after = some (r, n))
    (run : List Char) (hrun : '\x7b' ∉ run) :
    pieces keyRule (joined current (run ++ fill (markedKey current) ps)) = bodyPieces current run ps := by
  have hpl : ∀ run : List Char, '\x7b' ∉ run → '\x7b' ∉ joined current run :=
    fun run h => not_mem_joined hcur (by decide) (by decide) h
  induction ps generalizing run with
  | nil =>
    have hp := pieces_keyRule_plain (hpl run hrun) []
    rw [append_nil] at hp
    rw [fill, append_nil, hp]
    exact append_nil _
  | cons p ps ih =>
    have hc' : ∀ c, Piece.char c ∈ ps → c ≠ '\x7b' := fun c hc => hch c (mem_cons_of_mem p hc)
    cases p with
    | char c =>
      have hc := hch c mem_cons_self
      have hnext := ih hc' hhits (run ++ [c]) (by simp [hrun, Ne.symm hc])
      rw [append_assoc] at hnext
      exact hnext
    | hit r =>
      obtain ⟨w, i, hw, hi, hkey, heq⟩ := joined_fill_hit hcur (hhits r mem_cons_self) run ps
      have hbraced (more : List Char) : '\x7b' :: ((w ++ indexPart i) ++ '\x7d' :: more) = braced w i ++ more := by
        simp [braced]
      have hrest := ih hc' (fun r hr => hhits r (mem_cons_of_mem _ hr)) [] not_mem_nil
      rw [nil_append] at hrest
      rw [heq, hbraced, pieces_keyRule_plain (hpl run hrun), pieces_keyRule_braced hw hi, hrest, bodyPieces, hkey]

/-- In a text without opening braces the keys of an extracted text are those of its mentions. -/
lemma pieces_normal (hcur : IsCurrent current) (hopen : '\x7b' ∉ cs) :
    pieces keyRule (normal current cs) = bodyPieces current [] (pieces referenceRule cs) :=
  pieces_joined_fill hcur (pieces referenceRule cs) (fun _ hc h => hopen (h ▸ mem_of_char_mem hc))
    (fun _ => rule_of_mem_hits) [] not_mem_nil

lemma hits_bodyPieces (current : Option String) (run : List Char) (ps : List (Piece Reference)) :
    hits (bodyPieces current run ps) = (hits ps).map (Reference.placedKey current) := by
  induction ps generalizing run with
  | nil => exact hits_map_char (joined current run)
  | cons p ps ih =>
    cases p with
    | char c => exact ih _
    | hit r =>
      rw [bodyPieces, hits_append, hits_map_char, nil_append]
      exact congrArg _ (ih [])

/-- A character outside words that is neither between mentions nor in values is not in the filled text. -/
lemma not_mem_fill_bodyPieces (hcur : IsCurrent current) {c : Char} (hword : isWord c = false) (hpo : c ≠ '.')
    {value : Key → List Char}
    (ps : List (Piece Reference)) (hc : Piece.char c ∉ ps) (run : List Char) (hrun : c ∉ run)
    (hv : ∀ r ∈ hits ps, c ∉ value (r.placedKey current)) : c ∉ fill value (bodyPieces current run ps) := by
  have hj : ∀ run : List Char, c ∉ run → c ∉ joined current run := fun run h => not_mem_joined hcur hword hpo h
  induction ps generalizing run with
  | nil =>
    rw [bodyPieces, fill_map_char]
    exact hj run hrun
  | cons p ps ih =>
    simp only [mem_cons, not_or] at hc
    obtain ⟨hp, hps⟩ := hc
    cases p with
    | char d =>
      refine ih hps (run ++ [d]) ?_ hv
      simp only [mem_append, mem_singleton, not_or]
      exact ⟨hrun, fun h => hp (congrArg _ h)⟩
    | hit r =>
      have hrest := ih hps [] not_mem_nil fun r' hr' => hv r' (mem_cons_of_mem _ hr')
      rw [bodyPieces, fill_append, fill_map_char, fill]
      simp only [mem_append, not_or]
      exact ⟨hj run hrun, hv r mem_cons_self, hrest⟩

/-! ## Listed mentions -/

lemma text_placedKey (r : Reference) : (r.placedKey current).text = (r.key current).text := by
  have h := braced_key current (r.grid.map String.toList) r.name.toList (r.index.map String.toList)
  simp only [Option.map_map, Function.comp_def, String.ofList_toList, Option.map_id', braced, cons_append, cons.injEq,
    true_and, ← append_assoc] at h
  rw [Reference.placedKey, text_keyOfWord, ← append_cancel_right h, String.ofList_toList]

/-- Only a mention without a grid is listed without its index. -/
lemma listed_eq_iff (r : Reference) :
    r.listed current = (r.key current).text ↔ (r.grid = none → actualIndex current r.index = none) := by
  unfold Reference.listed
  cases hg : r.grid with
  | some g => simp
  | none =>
    have htext : (r.key current).text = r.name ++ ((actualIndex current r.index).map ("--" ++ ·)).getD "" := by
      simp [Reference.key, Key.text, hg]
    rw [htext]
    cases actualIndex current r.index with
    | none => simp
    | some i =>
      refine iff_of_false (fun h => ?_) (by simp)
      have hlen := congrArg String.length h
      simp at hlen

/-- The placeholders in a text without opening braces are those of its mentions. The listed names are their keys exactly
if no mention without a grid has an index. -/
theorem extract_lists_keys_iff (hcur : IsCurrent current) {known vars : List String} {source out : String}
    (hopen : '\x7b' ∉ source.toList) (h : extract known source current = .ok (vars, out)) :
    (hits (pieces keyRule out.toList)).map Key.text = (references source).map (fun r => (r.key current).text) ∧
    (vars = (hits (pieces keyRule out.toList)).map Key.text ↔
      ∀ r ∈ references source, r.grid = none → actualIndex current r.index = none) := by
  have hvars : vars = (references source).map (·.listed current) := by
    unfold extract at h
    dsimp only at h
    split at h
    · cases h
    · exact (Prod.mk.inj (Except.ok.inj h)).1.symm
  have hkeys : (hits (pieces keyRule out.toList)).map Key.text =
      (references source).map fun r => (r.key current).text := by
    rw [normal_of_extract h, pieces_normal hcur hopen, hits_bodyPieces, map_map]
    exact map_congr_left fun r _ => text_placedKey r
  refine ⟨hkeys, ?_⟩
  rw [hkeys, hvars, map_inj_left]
  exact forall₂_congr fun r _ => listed_eq_iff r

theorem extract_lists_keys_iff_third : ∃ vars out, extract ["gr"] "2*g.gr.n--i + g.m" (some "3") = .ok (vars, out) ∧
    vars = (hits (pieces keyRule out.toList)).map Key.text := by
  have h : extract ["gr"] "2*g.gr.n--i + g.m" (some "3") = .ok (["gr__n--3", "m"], "2*\x7bgr__n--3\x7d + \x7bm\x7d") := by
    decide +kernel
  have hcur : IsCurrent (some "3") := by
    rintro _ ⟨⟩ d hd
    rw [mem_singleton.mp hd]
    decide
  refine ⟨_, _, h, (extract_lists_keys_iff hcur (by decide) h).2.mpr ?_⟩
  decide +kernel

/-- The index of a mention without a grid is not listed. -/
theorem index_unlisted : extract [] "g.m--1" none = .ok (["m"], "\x7bm--1\x7d") ∧
    hits (pieces keyRule "\x7bm--1\x7d".toList) = [⟨none, "m", some "1"⟩] := by
  decide +kernel

end GridBayes.Deferred
