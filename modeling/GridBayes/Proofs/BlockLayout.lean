import GridBayes.Proofs.Entries
import GridBayes.Proofs.ForwardModel
import GridBayes.Proofs.SourceTemplate

/-! The layout of the forward model. A component's code is indented line by line, and then the block
as a whole is shifted once more, but only at its first line. So the lines of a component of one line
stand in the body of the method, and of a longer component only the first line does. -/
namespace GridBayes
open List Operation Text Template

namespace Text

/-! ## Splitting what was joined -/

lemma splitChars_ne_nil (p : Char → Bool) (cs : List Char) : splitChars p cs ≠ [] := by
  cases cs with
  | nil => simp [splitChars]
  | cons c cs =>
    unfold splitChars
    split
    · simp
    · split <;> simp

variable {p : Char → Bool} {c : Char} {cs a : List Char}

lemma splitChars_append (hc : p c = true) (a b : List Char) :
    splitChars p (a ++ c :: b) = splitChars p a ++ splitChars p b := by
  induction a with
  | nil => simp [splitChars, hc]
  | cons d a ih =>
    simp only [cons_append, splitChars, ih]
    by_cases hd : p d = true
    · simp [hd]
    · simp only [hd]
      cases ha : splitChars p a with
      | nil => exact absurd ha (splitChars_ne_nil p a)
      | cons piece more => rfl

lemma splitChars_self (h : ∀ c ∈ cs, p c = false) : splitChars p cs = [cs] := by
  induction cs with
  | nil => rfl
  | cons c cs ih =>
    rw [splitChars, h c mem_cons_self, ih fun d hd => h d (mem_cons_of_mem c hd)]
    rfl

lemma splitAt_join (sep : Char) (x : String) (rest : List String) :
    splitAt sep (join (String.ofList [sep]) (x :: rest)) = (x :: rest).flatMap (splitAt sep) := by
  induction rest generalizing x with
  | nil => simp [join]
  | cons y rest ih =>
    have hs : splitAt sep (x ++ (String.ofList [sep] ++ join (String.ofList [sep]) (y :: rest))) =
        splitAt sep x ++ splitAt sep (join (String.ofList [sep]) (y :: rest)) := by
      unfold splitAt
      rw [String.toList_append, String.toList_append, String.toList_ofList, singleton_append,
        splitChars_append (by simp), map_append]
    rw [join_cons_cons, hs, ih]
    rfl

lemma splitAt_self {sep : Char} {s : String} (h : sep ∉ s.toList) : splitAt sep s = [s] := by
  unfold splitAt
  rw [splitChars_self fun c hc => ?_]
  · simp
  · rw [beq_eq_false_iff_ne]
    rintro rfl
    exact h hc

/-! ## Lines -/

lemma isWord_of_isBlank (h : isBlank c = true) : isWord c = false := by
  have hw : ∀ n ∈ [9, 10, 11, 12, 13, 28, 29, 30, 31, 32, 133, 160, 5760, 8192, 8193, 8194, 8195, 8196, 8197, 8198,
      8199, 8200, 8201, 8202, 8232, 8233, 8239, 8287, 12288], isWord (Char.ofNat n) = false := by decide +kernel
  rw [← Char.ofNat_toNat c]
  refine hw c.toNat ?_
  simp only [isBlank, inRanges, blankRanges, any_cons, any_nil, Bool.or_false] at h
  simp only [mem_cons]
  split at h <;> simp only [Bool.or_eq_true, Bool.and_eq_true, decide_eq_true_eq, beq_iff_eq] at h <;> omega

lemma isWord_of_isLineEnd (h : isLineEnd c = true) : isWord c = false := by
  refine isWord_of_isBlank ?_
  simp only [isLineEnd, Bool.or_eq_true, Bool.and_eq_true, decide_eq_true_eq, beq_iff_eq] at h
  simp only [isBlank, inRanges, blankRanges, any_cons]
  split <;> simp only [Bool.or_eq_true, Bool.and_eq_true, decide_eq_true_eq] <;> omega

lemma ne_point_of_isLineEnd (h : isLineEnd c = true) : c ≠ '.' := by
  rintro rfl
  cases h

lemma lineChars_append {line a : List Char} (ha : ∀ c ∈ a, isLineEnd c = false) (cs : List Char) :
    lineChars line (a ++ cs) = lineChars (a.reverse ++ line) cs := by
  induction a generalizing line with
  | nil => rfl
  | cons c a ih =>
    have hc := ha c mem_cons_self
    rw [cons_append, lineChars.eq_4, hc]
    · simp only [Bool.false_eq_true, if_false]
      rw [ih fun d hd => ha d (mem_cons_of_mem c hd)]
      simp
    · rintro - rfl -
      cases hc

lemma lineChars_last (ha : ∀ c ∈ a, isLineEnd c = false) : lineChars [] a = if a = [] then [] else [a] := by
  have h := @lineChars_append [] a ha []
  rw [append_nil, append_nil] at h
  rw [h]
  cases hr : a.reverse with
  | nil => rw [reverse_eq_nil_iff.mp hr]; rfl
  | cons c r =>
    have hne : a ≠ [] := by
      rintro rfl
      cases hr
    rw [lineChars, if_neg hne, ← hr, reverse_reverse]

lemma lineChars_return (ha : ∀ c ∈ a, isLineEnd c = false) (rest : List Char) :
    lineChars [] (a ++ '\r' :: '\n' :: rest) = a :: lineChars [] rest := by
  rw [lineChars_append ha, lineChars]
  simp

lemma lineChars_end {rest : List Char} (ha : ∀ d ∈ a, isLineEnd d = false) (hc : isLineEnd c = true)
    (hrest : c = '\r' → rest.head? ≠ some '\n') : lineChars [] (a ++ c :: rest) = a :: lineChars [] rest := by
  rw [lineChars_append ha, lineChars.eq_4]
  · simp [hc]
  · intro r hr he
    exact hrest hr (by rw [he]; rfl)

lemma not_isLineEnd_of_mem_lineChars {line l : List Char} (h : l ∈ lineChars line cs)
    (hline : ∀ c ∈ line, isLineEnd c = false) : ∀ c ∈ l, isLineEnd c = false := by
  fun_induction lineChars line cs with
  | case1 => cases h
  | case2 d line =>
    obtain rfl := mem_singleton.mp h
    exact fun c hc => hline c (mem_reverse.mp hc)
  | case3 line rest ih | case4 line d rest _ hd ih =>
    rcases mem_cons.mp h with rfl | h
    · exact fun c hc => hline c (mem_reverse.mp hc)
    · exact ih h (fun c hc => absurd hc not_mem_nil)
  | case5 line d rest _ hd ih =>
    refine ih h fun c hc => ?_
    rcases mem_cons.mp hc with rfl | hc
    · simpa using hd
    · exact hline c hc

lemma newline_not_mem_line {s line : String} (h : line ∈ lines s) : '\n' ∉ line.toList := by
  obtain ⟨cs, hcs, rfl⟩ := mem_map.mp h
  rw [String.toList_ofList]
  intro hmem
  have := not_isLineEnd_of_mem_lineChars hcs (fun c hc => absurd hc not_mem_nil) _ hmem
  cases this

/-! ## Replacing inside lines -/

section

variable {α : Type} {rule : Rule α} {f : α → List Char}

def Inline (f : α → List Char) (a : α) : Prop :=
  f a ≠ [] ∧ ∀ c ∈ f a, isLineEnd c = false

lemma fill_inline {pieces : List (Piece α)} (hf : ∀ a ∈ hits pieces, Inline f a)
    (hch : ∀ c, Piece.char c ∈ pieces → isLineEnd c = false) : ∀ c ∈ fill f pieces, isLineEnd c = false := by
  induction pieces with
  | nil => simp [fill]
  | cons piece pieces ih =>
    have hc' := fun c hc => hch c (mem_cons_of_mem piece hc)
    intro c hc
    cases piece with
    | char d =>
      rcases mem_cons.mp hc with rfl | hc
      · exact hch c mem_cons_self
      · exact ih hf hc' c hc
    | hit a =>
      rcases mem_append.mp hc with hc | hc
      · exact (hf a mem_cons_self).2 c hc
      · exact ih (fun b hb => hf b (mem_cons_of_mem a hb)) hc' c hc

variable {cs : List Char}

lemma head?_substitute (hf : ∀ a ∈ hits (pieces rule cs), Inline f a) {c : Char} (hc : isLineEnd c = true) :
    (substitute rule f cs).head? = some c → cs.head? = some c := by
  unfold substitute pieces at *
  cases cs with
  | nil => exact id
  | cons d cs =>
    rw [piecesFrom.eq_3] at hf ⊢
    cases hfo : rule [] (d :: cs) with
    | none => exact id
    | some found =>
      rw [hfo] at hf
      obtain ⟨hne, hi⟩ := hf found.1 mem_cons_self
      intro h
      simp only [fill] at h
      obtain ⟨e, rest, he⟩ := exists_cons_of_ne_nil hne
      rw [he, cons_append, head?_cons, Option.some.injEq] at h
      have := hi e (by rw [he]; exact mem_cons_self)
      rw [h, hc] at this
      cases this

lemma substitute_eq_nil (hf : ∀ a ∈ hits (pieces rule cs), Inline f a) : substitute rule f cs = [] ↔ cs = [] := by
  unfold substitute pieces at *
  cases cs with
  | nil => exact ⟨fun _ => rfl, fun _ => rfl⟩
  | cons d cs =>
    rw [piecesFrom.eq_3] at hf ⊢
    cases hfo : rule [] (d :: cs) with
    | none => simp [fill]
    | some found =>
      rw [hfo] at hf
      simp [fill, (hf found.1 mem_cons_self).1]

lemma lineChars_substitute (hrule : Rule.Wordlike rule)
    (hbr : ∀ c, isLineEnd c = true → Rule.Breaks rule c) (cs : List Char)
    (hf : ∀ a ∈ hits (pieces rule cs), Inline f a) :
    lineChars [] (substitute rule f cs) = (lineChars [] cs).map (substitute rule f) := by
  -- by the number of characters: the text is its first line, the end of that line, and the rest
  induction hn : cs.length using Nat.strong_induction_on generalizing cs with
  | _ n ih =>
    obtain ⟨a, rest, rfl, ha, hrest⟩ : ∃ a rest, cs = a ++ rest ∧ (∀ c ∈ a, isLineEnd c = false) ∧
        ∀ c, rest.head? = some c → isLineEnd c = true := by
      refine ⟨cs.takeWhile (!isLineEnd ·), cs.dropWhile (!isLineEnd ·), ?_, fun c hc => ?_, fun c hc => ?_⟩
      · exact takeWhile_append_dropWhile.symm
      · simpa using mem_takeWhile_imp hc
      · have := head?_dropWhile_not (!isLineEnd ·) cs
        rw [hc] at this
        simpa using this
    have hi : ∀ part : List Char, (∀ b ∈ hits (pieces rule part), Inline f b) →
        (∀ c ∈ part, isLineEnd c = false) → ∀ c ∈ substitute rule f part, isLineEnd c = false :=
      fun part hpart hch => fill_inline hpart fun c hc => hch c (mem_of_char_mem hc)
    cases rest with
    | nil =>
      rw [append_nil] at hf ⊢
      rw [lineChars_last ha, lineChars_last (hi a hf ha)]
      by_cases hnil : a = []
      · rw [if_pos hnil, if_pos ((substitute_eq_nil hf).mpr hnil)]
        rfl
      · rw [if_neg hnil, if_neg fun h => hnil ((substitute_eq_nil hf).mp h)]
        rfl
    | cons c rest =>
      have hc := hrest c rfl
      rw [pieces_append_break hrule (hbr c hc), hits_append] at hf
      have hfa : ∀ b ∈ hits (pieces rule a), Inline f b := fun b hb => hf b (mem_append_left _ hb)
      have hfr : ∀ b ∈ hits (pieces rule rest), Inline f b := fun b hb => hf b (mem_append_right _ hb)
      rw [substitute_append_break hrule (hbr c hc)]
      simp only [length_append, length_cons] at hn
      by_cases hr : c = '\r' ∧ rest.head? = some '\n'
      · obtain ⟨rfl, hhead⟩ := hr
        obtain ⟨rest, rfl⟩ : ∃ r, rest = '\n' :: r := by
          cases rest with
          | nil => cases hhead
          | cons d r => exact ⟨r, by rw [Option.some.inj hhead]⟩
        have hne := hbr '\n' rfl
        have hsp : substitute rule f ('\n' :: rest) = '\n' :: substitute rule f rest :=
          substitute_append_break hrule hne f [] rest
        have hp : pieces rule ('\n' :: rest) = .char '\n' :: pieces rule rest := pieces_append_break hrule hne [] rest
        rw [hp] at hfr
        rw [hsp, lineChars_return ha, lineChars_return (hi a hfa ha),
          ih rest.length (by rw [← hn, length_cons]; omega) rest hfr rfl, map_cons]
      · have hs : c = '\r' → rest.head? ≠ some '\n' := fun h h' => hr ⟨h, h'⟩
        rw [lineChars_end ha hc hs, lineChars_end (hi a hfa ha) hc fun h h' =>
            hs h (head?_substitute hfr rfl h'),
          ih rest.length (by omega) rest hfr rfl, map_cons]

end

end Text

/-! ## The places of variables are parts of a line -/

def blanks (n : Nat) : String :=
  String.ofList (replicate n ' ')

lemma length_blanks_append (n : Nat) (s : String) : (blanks n ++ s).length = n + s.length := by
  rw [String.length_append, ← String.length_toList, blanks, String.toList_ofList, length_replicate]

variable {vars : Variables} {place source : String}

lemma lookup_places {opening : String} {s : Symbol} (h : (vars.places opening).lookup s.ident = some place) :
    place = "self." ++ s.ident ∨ ∃ i : Nat, place = opening ++ toString i ++ "]" := by
  have hown : ∀ symbols : SymbolSet, (symbols.map fun t => (t.ident, "self." ++ t.ident)).lookup s.ident = some place →
        place = "self." ++ s.ident := by
    intro symbols hl
    rw [Program.lookup_own] at hl
    split at hl
    · exact (Option.some.inj hl).symm
    · cases hl
  unfold Variables.places at h
  rw [lookup_append, lookup_append, Option.or_eq_some_iff, Option.or_eq_some_iff] at h
  rcases h with (h | ⟨-, h⟩) | ⟨-, h⟩
  · exact Or.inl (hown _ h)
  · exact Or.inl (hown _ h)
  · obtain ⟨name, hmem⟩ := mem_of_lookup h
    obtain ⟨entry, -, he⟩ := mem_map.mp hmem
    exact Or.inr ⟨entry.2, (Prod.mk.inj he).2.symm⟩

lemma inline_of_lookup {kind : VarKind} {name : List Char} (hword : ∀ c ∈ name, isWord c = true)
    (hp : vars.mapping.lookup (Symbol.var kind (String.ofList name)).ident = some place) :
    place.toList ≠ [] ∧ ∀ c ∈ place.toList, isLineEnd c = false := by
  have hword' : ∀ c, isWord c = true → isLineEnd c = false := by
    intro c hc
    by_contra hend
    rw [isWord_of_isLineEnd (by simpa using hend)] at hc
    cases hc
  have hf : ∀ s : String, (s.toList.all (!isLineEnd ·)) = true → ∀ c ∈ s.toList, isLineEnd c = false := by simp
  rcases lookup_places hp with rfl | ⟨i, rfl⟩
  · rw [Symbol.ident_var]
    refine ⟨by simp, fun c hc => ?_⟩
    rw [String.toList_append, mem_append] at hc
    rcases hc with hc | hc
    · exact hf "self." rfl c hc
    · rw [String.toList_ofList] at hc
      exact hword' c ((Symbol.isPlainName_ident kind hword).word c hc)
  · refine ⟨by simp, fun c hc => ?_⟩
    rw [String.toList_append, String.toList_append, mem_append, mem_append] at hc
    rcases hc with (hc | hc) | hc
    · exact hf "params[" rfl c hc
    · exact hword' c (isWord_of_isDigit (isDigit_of_mem_toString hc))
    · exact hf "]" rfl c hc

lemma inline_place (hpl : ∀ s ∈ symbols source, (vars.mapping.lookup s.ident).isSome = true) :
    ∀ s ∈ hits (variablePieces source), Text.Inline (fun s => ((vars.mapping.lookup s.ident).getD "").toList) s := by
  intro s hs
  obtain ⟨place, hp⟩ := Option.isSome_iff_exists.mp (hpl s ((SymbolSet.mem_ofList s _).mpr hs))
  obtain ⟨kind, name, rfl, hword⟩ := Symbol.var_of_mem_hits hs
  unfold Text.Inline
  dsimp only
  rw [hp]
  exact inline_of_lookup hword hp

lemma lines_placed (hp : ∀ s ∈ symbols source, (vars.mapping.lookup s.ident).isSome = true) :
    lines (placed vars.mapping source) = (lines source).map (placed vars.mapping) := by
  have hb : ∀ c, isLineEnd c = true → Text.Rule.Breaks Symbol.variableRule c := fun c hc =>
    Symbol.variableRule_breaks (isWord_of_isLineEnd hc) (ne_point_of_isLineEnd hc)
  unfold lines placed
  rw [String.toList_ofList, lineChars_substitute Symbol.variableRule_wordlike hb _ (inline_place hp), map_map, map_map]
  exact map_congr_left fun cs _ => by simp

namespace Program

/-! ## The lines of the method -/

def bodyLines : List String → List String
  | [] => [blanks 4]
  | first :: rest => (blanks 8 ++ first) :: rest.map (blanks 4 ++ ·)

lemma splitAt_block (code : String) : splitAt '\n' ("    " ++ indentLines "    " code) = bodyLines (lines code) := by
  have hline : ∀ (n : Nat), ∀ line ∈ lines code, '\n' ∉ (blanks n ++ line).toList := by
    intro n line hmem h
    rw [String.toList_append, mem_append, blanks, String.toList_ofList, mem_replicate] at h
    rcases h with ⟨-, h⟩ | h
    · cases h
    · exact newline_not_mem_line hmem h
  unfold indentLines
  cases hl : lines code with
  | nil => rfl
  | cons first rest =>
    rw [hl] at hline
    have hs : "    " ++ join "\n" ((first :: rest).map ("    " ++ ·)) =
        join "\n" ((blanks 8 ++ first) :: rest.map (blanks 4 ++ ·)) := by
      have hf : "    " ++ ("    " ++ first) = blanks 8 ++ first := by rfl
      cases rest with
      | nil => exact hf
      | cons second rest =>
        rw [map_cons, map_cons, map_cons, join_cons_cons, join_cons_cons, ← String.append_assoc]
        rfl
    have hsp := splitAt_join '\n' (blanks 8 ++ first) (rest.map (blanks 4 ++ ·))
    have hself : (rest.map (blanks 4 ++ ·)).flatMap (splitAt '\n') = rest.map (blanks 4 ++ ·) := by
      rw [flatMap_map, ← flatMap_singleton' (rest.map (blanks 4 ++ ·)), flatMap_map]
      refine flatMap_congr fun line hmem => ?_
      exact splitAt_self (hline 4 line (mem_cons_of_mem first hmem))
    rw [hs]
    refine hsp.trans ?_
    rw [flatMap_cons, splitAt_self (hline 8 first mem_cons_self), hself]
    rfl

variable {blocks : List String} {code : String}

lemma splitAt_method (hne : blocks ≠ []) : splitAt '\n' (method blocks) =
      blocks.flatMap fun block => splitAt '\n' ("    " ++ block) := by
  obtain ⟨first, rest, rfl⟩ := exists_cons_of_ne_nil hne
  unfold method
  refine (splitAt_join '\n' _ _).trans ?_
  rw [← map_cons, flatMap_map]

lemma indented_of_blocks {places : List (String × String)} {indent : String} {components : List Component}
    (h : Forall₂ (fun c b => block places indent (Component.code c) = .ok b) components blocks) :
    ∃ codes, Forall₂ (fun c code => fillNamed places (Component.code c) = .ok code)
      components codes ∧ blocks = codes.map (indentLines indent) := by
  induction h with
  | nil => exact ⟨[], .nil, rfl⟩
  | cons hb _ ih =>
    obtain ⟨codes, hc, rfl⟩ := ih
    obtain ⟨code, hcode, rfl⟩ := map_eq_ok.mp hb
    exact ⟨code :: codes, .cons hcode hc, rfl⟩

/-- The lines of the components stand between the head of the method and its last statement. -/
lemma splitAt_forwardOf {p : Program} {text : String} (h : p.forwardOf = .ok text) :
    ∃ vars ordered codes rest, p.classified = .ok vars ∧ orderedForward p.components = .ok ordered ∧
      Forall₂ (fun c code => fillNamed vars.mapping c.code = .ok code) ordered codes ∧
      splitAt '\n' text = (blanks 4 ++ "cdef void _forward_model(self, double[:] params):") ::
          codes.flatMap (fun code => bodyLines (lines code)) ++ (blanks 8 ++ "return") :: rest := by
  obtain ⟨vars, ordered, blocks, outs, hvars, ho, hb, rfl⟩ := forwardOf_cases h
  obtain ⟨codes, hc, rfl⟩ := indented_of_blocks hb
  refine ⟨vars, ordered, codes, "" :: (postprocessLines outs).flatMap fun block =>
    splitAt '\n' ("    " ++ block), hvars, ho, hc, ?_⟩
  have hhead : splitAt '\n' ("    " ++ "cdef void _forward_model(self, double[:] params):") =
      [blanks 4 ++ "cdef void _forward_model(self, double[:] params):"] := by rfl
  have hlast : splitAt '\n' ("    " ++ "    return\n") = [blanks 8 ++ "return", ""] := by rfl
  rw [forwardMethod, splitAt_method (by simp)]
  simp only [flatMap_append, flatMap_cons, hhead, hlast, flatMap_map,
    splitAt_block, append_assoc, cons_append, nil_append]

/-! ## Indentation -/

/-- Every line is written after one and the same number of blanks. -/
def EvenlyIndented (lines written : List String) : Prop :=
  ∃ n, ∀ (i : Nat) (line : String), lines[i]? = some line → written[i]? = some (blanks n ++ line)

lemma blanks_inj {m n : Nat} {line : String} (h : blanks m ++ line = blanks n ++ line) : m = n := by
  have hl := congrArg String.length h
  rw [length_blanks_append, length_blanks_append] at hl
  omega

lemma evenlyIndented_bodyLines (lines : List String) : EvenlyIndented lines (bodyLines lines) ↔ lines.length ≤ 1 := by
  constructor
  · rintro ⟨n, h⟩
    rcases lines with _ | ⟨first, _ | ⟨second, rest⟩⟩
    · exact Nat.zero_le 1
    · exact Nat.le_refl 1
    · have hf : blanks 8 ++ first = blanks n ++ first := Option.some.inj (h 0 first rfl)
      have hs : blanks 4 ++ second = blanks n ++ second := Option.some.inj (h 1 second rfl)
      have h8 := blanks_inj hf
      have h4 := blanks_inj hs
      omega
  · intro hl
    refine ⟨8, fun i line hi => ?_⟩
    rcases lines with _ | ⟨first, _ | ⟨second, rest⟩⟩
    · simp at hi
    · obtain ⟨rfl, rfl⟩ : i = 0 ∧ first = line := by
        cases i with
        | zero => exact ⟨rfl, Option.some.inj hi⟩
        | succ i => simp at hi
      rfl
    · simp at hl

/-- The code of a component: the lines of its source with the places of its variables. -/
structure Emitted (vars : Variables) (c : Component) (code : String) : Prop where
  filled : fillNamed vars.mapping c.code = .ok code
  lines : ∀ source, c.code = ofSource source → '\x7b' ∉ source.toList →
    '\x7d' ∉ source.toList → lines code = (lines source).map (placed vars.mapping)

lemma emitted_of_filled {vars : Variables} {c : Component}
    (h : fillNamed vars.mapping c.code = .ok code) : Emitted vars c code where
  filled := h
  lines source hcode hopen hc := by
    rw [hcode, fillNamed_ofSource hopen hc] at h
    obtain ⟨hp, rfl⟩ := h
    exact lines_placed hp

/-- The lines of the components stand between the head of the method and its last statement. The first line of a
component is indented as the body is and every further one as the head is, so only single lines keep their layout.
-/
theorem forwardText_layout {p : Program} {text : String} (h : (forwardText.run.run p).1 = .ok text) :
    ∃ vars ordered codes rest, p.classified = .ok vars ∧ ordered.Perm (p.components.filter (!·.isLikelihood)) ∧
      List.Forall₂ (Emitted vars) ordered codes ∧
      Text.splitAt '\n' text = (blanks 4 ++ "cdef void _forward_model(self, double[:] params):") ::
          codes.flatMap (fun code => bodyLines (Text.lines code)) ++ (blanks 8 ++ "return") :: rest ∧
      ∀ code ∈ codes, EvenlyIndented (Text.lines code) (bodyLines (Text.lines code)) ↔
        (Text.lines code).length ≤ 1 := by
  have hf : p.forwardOf = .ok text := by
    rw [← outcome_forwardText]
    exact h
  obtain ⟨vars, ordered, codes, rest, hvars, ho, hc, hs⟩ := splitAt_forwardOf hf
  have hperm : ordered.Perm (p.components.filter (!·.isLikelihood)) :=
    (Order.sort_sound ho).1.trans (sortBy_perm _ _)
  exact ⟨vars, ordered, codes, rest, hvars, hperm, hc.imp fun c code => emitted_of_filled, hs,
    fun code _ => evenlyIndented_bodyLines _⟩

def twoLines : Component :=
  .expression [.var .param "x"] [.var .localVar "a", .var .localVar "b"] (ofSource "v.a = p.x\nv.b = p.x")

def twoLinesVariables : Variables :=
  ⟨[.var .param "x"], [], [], [.var .localVar "a", .var .localVar "b"]⟩

lemma ofExpression_twoLines : Component.ofExpression "v.a = p.x\nv.b = p.x" = .ok twoLines := by cbv

lemma orderedForward_twoLines : orderedForward [twoLines] = .ok [twoLines] := by cbv

lemma classified_twoLines : ({ components := [twoLines] } : Program).classified = .ok twoLinesVariables := by cbv

lemma forwardOf_twoLines : ∃ text, ({ components := [twoLines] } : Program).forwardOf = .ok text :=
  exists_ok (by decide +kernel)

lemma lines_twoLines (h : Emitted twoLinesVariables twoLines code) :
    lines code = ["self.v__a = params[0]", "self.v__b = params[0]"] := by
  rw [h.lines "v.a = p.x\nv.b = p.x" rfl (by decide +kernel) (by decide +kernel)]
  decide +kernel

theorem forwardText_layout_twoLines : ∃ text rest, (forwardText.run.run { components := [twoLines] }).1 = .ok text ∧
      Text.splitAt '\n' text = (blanks 4 ++ "cdef void _forward_model(self, double[:] params):") ::
        bodyLines ["self.v__a = params[0]", "self.v__b = params[0]"] ++ (blanks 8 ++ "return") :: rest := by
  obtain ⟨text, htext⟩ := forwardOf_twoLines
  have hrun : (forwardText.run.run { components := [twoLines] }).1 = .ok text := (outcome_forwardText _).trans htext
  obtain ⟨vars, ordered, codes, rest, hvars, hperm, hc, hs, -⟩ := forwardText_layout hrun
  obtain rfl := Except.ok.inj (classified_twoLines.symm.trans hvars)
  obtain rfl := List.perm_singleton.mp hperm
  obtain ⟨code, codes, hcode, hnil, rfl⟩ := List.forall₂_cons_left_iff.mp hc
  obtain rfl := List.forall₂_nil_left_iff.mp hnil
  rw [List.flatMap_singleton, lines_twoLines hcode] at hs
  exact ⟨text, rest, hrun, hs⟩

/-- The second line of a statement of two lines stands outside the body of the method. -/
theorem forwardText_uneven : ∃ text, Component.ofExpression "v.a = p.x\nv.b = p.x" = .ok twoLines ∧
      (forwardText.run.run { components := [twoLines] }).1 = .ok text ∧
      ¬ EvenlyIndented ["self.v__a = params[0]", "self.v__b = params[0]"] ((Text.splitAt '\n' text).drop 1) := by
  obtain ⟨text, htext⟩ := forwardOf_twoLines
  refine ⟨text, ofExpression_twoLines, (outcome_forwardText _).trans htext, ?_⟩
  obtain ⟨vars, ordered, codes, rest, hvars, ho, hc, hs⟩ := splitAt_forwardOf htext
  obtain rfl := Except.ok.inj (classified_twoLines.symm.trans hvars)
  obtain rfl := Except.ok.inj (orderedForward_twoLines.symm.trans ho)
  obtain ⟨code, codes, hcode, hnil, rfl⟩ := List.forall₂_cons_left_iff.mp hc
  obtain rfl := List.forall₂_nil_left_iff.mp hnil
  rw [hs, List.flatMap_singleton, lines_twoLines (emitted_of_filled hcode)]
  rintro ⟨n, h⟩
  have hf := blanks_inj (Option.some.inj (h 0 _ rfl))
  have hse := blanks_inj (Option.some.inj (h 1 _ rfl))
  omega

end Program

end GridBayes
