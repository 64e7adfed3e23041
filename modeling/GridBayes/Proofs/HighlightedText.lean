import GridBayes.Highlight
import GridBayes.Proofs.SourceTemplate

/-! Highlighted text. Every pass puts whole codes between the characters and the codes that are there: no match begins
inside a code or goes on into one. So a text is got back by deleting the codes. -/
namespace GridBayes.Highlight
open List Text

def escape : Char :=
  Char.ofNat 27

/-- A text with codes between its characters. -/
abbrev Marked := List (Piece Nat)

def shown : Marked → List Char :=
  fill fun n => (Palette.code n).toList

def bare : Marked → List Char :=
  fill fun _ => []

/-- An escape, an opening bracket, digits and the letter `m`. -/
def codeRule : Rule Unit := fun _ after =>
  match after with
  | first :: '[' :: rest =>
    match wholeAt? rest with
    | some (_, 'm' :: left) => if first = escape then some ((), left) else none
    | _ => none
  | _ => none

def withoutCodes (text : String) : String :=
  String.ofList (substitute codeRule (fun _ => []) text.toList)

/-- What a rule finds is the text at its place, without escapes, and it finds nothing inside a code. -/
structure Apart (rule : Rule (List Char)) : Prop where
  found : ∀ {before after w left}, rule before after = some (w, left) → after = w ++ left ∧ w ≠ [] ∧ escape ∉ w
  inside : ∀ {n a c b}, (Palette.code n).toList = a ++ c :: b →
    ∀ before rest, rule (a.reverse ++ before) (c :: (b ++ rest)) = none

variable {marks : Marked} {before cs rest left w : List Char} {c k : Char} {n : Nat}

lemma toList_code (n : Nat) : (Palette.code n).toList = escape :: '[' :: (Nat.toDigits 10 n ++ ['m']) := by
  simp [Palette.code, escape]

lemma isDigit_of_mem (h : c ∈ Nat.toDigits 10 n) : c.isDigit = true :=
  Nat.isDigit_of_mem_toDigits (by decide) (by decide) h

/-! ## Passes -/

variable {rule : Rule (List Char)}

/-- Without codes nothing changes. -/
lemma Apart.paint_plain (h : Apart rule) (cs : List Char) : paint rule "" "" cs = cs := by
  refine fill_pieces_self (fun before after w left hrule => ?_) cs
  obtain ⟨hafter, hne, -⟩ := h.found hrule
  simpa using ⟨hne, hafter⟩

lemma piecesFrom_code (h : Apart rule) (n : Nat) (before : List Char) :
    piecesFrom rule before 0 ((Palette.code n).toList ++ rest) =
      (Palette.code n).toList.map .char ++ piecesFrom rule ((Palette.code n).toList.reverse ++ before) 0 rest := by
  have hfrom (a b : List Char) (hab : (Palette.code n).toList = a ++ b) :
      piecesFrom rule (a.reverse ++ before) 0 (b ++ rest) =
        b.map .char ++ piecesFrom rule (b.reverse ++ (a.reverse ++ before)) 0 rest := by
    induction b generalizing a with
    | nil => rfl
    | cons c b ih =>
      have hnext := ih (a ++ [c]) (by simpa using hab)
      rw [cons_append, piecesFrom.eq_3, h.inside hab before rest]
      simp_all
  exact hfrom [] _ rfl

/-- A found word stands in the text as characters, since a code begins with an escape. -/
lemma exists_of_found (h : shown marks = w ++ left) (hesc : escape ∉ w) :
    ∃ rest : Marked, marks = w.map .char ++ rest ∧ shown rest = left := by
  induction w generalizing marks with
  | nil => exact ⟨marks, rfl, h⟩
  | cons c w ih =>
    obtain ⟨hc, hword⟩ := not_or.mp (mt mem_cons.mpr hesc)
    rcases marks with _ | ⟨d | n, marks⟩
    · cases h
    · obtain ⟨rfl, hrest⟩ := cons.inj h
      obtain ⟨rest, rfl, hleft⟩ := ih hrest hword
      exact ⟨rest, rfl, hleft⟩
    · rw [shown, fill, toList_code] at h
      exact absurd (cons.inj h).1 hc

/-- A pass only puts in codes, each between two of the characters and codes that were there. -/
def Inserts (pass : List Char → List Char) : Prop :=
  ∀ marks, escape ∉ bare marks → ∃ marks', pass (shown marks) = shown marks' ∧ marks <+ marks' ∧ bare marks' = bare marks

lemma shown_append (marks more : Marked) : shown (marks ++ more) = shown marks ++ shown more := fill_append _ _ _

lemma bare_append (marks more : Marked) : bare (marks ++ more) = bare marks ++ bare more := fill_append _ _ _

lemma shown_chars (w : List Char) : shown (w.map .char) = w := fill_map_char _ w

lemma bare_chars (w : List Char) : bare (w.map .char) = w := fill_map_char _ w

lemma bare_codes (codes : List Nat) : bare (codes.map .hit) = [] := by
  induction codes with
  | nil => rfl
  | cons n codes ih => exact ih

lemma Apart.inserts (h : Apart rule) {on off : String} {first last : List Nat}
    (hon : on.toList = shown (first.map .hit)) (hoff : off.toList = shown (last.map .hit)) :
    Inserts (paint rule on off) := by
  intro marks hesc
  unfold paint substitute pieces
  rw [hon, hoff]
  generalize [] = before
  -- by the number of marks: a match takes several characters at once
  induction hl : marks.length using Nat.strong_induction_on generalizing marks before with
  | _ l ih =>
  rcases marks with _ | ⟨c | n, marks⟩
  · exact ⟨[], rfl, .refl _, rfl⟩
  · obtain ⟨hc, hrest⟩ := not_or.mp (mt mem_cons.mpr hesc)
    rw [show shown (.char c :: marks) = c :: shown marks from rfl, piecesFrom.eq_3]
    rcases hrule : rule before (c :: shown marks) with _ | ⟨w, left⟩
    · obtain ⟨marks', hpass, hsub, hbare⟩ := ih marks.length (by simp [← hl]) marks hrest (c :: before) rfl
      exact ⟨.char c :: marks', congrArg (c :: ·) hpass, hsub.cons_cons _, congrArg (c :: ·) hbare⟩
    · obtain ⟨hw, hne, hescape⟩ := h.found hrule
      obtain ⟨rest, hmarks, rfl⟩ := @exists_of_found (.char c :: marks) _ _ hw hescape
      cases w with
      | nil => exact absurd rfl hne
      | cons d w =>
        rw [map_cons, cons_append] at hmarks
        obtain ⟨hd, rfl⟩ := cons.inj hmarks
        cases hd
        have hrest : escape ∉ bare (w.map .char ++ rest) := hrest
        rw [bare_append] at hrest
        have hlt : rest.length < l := by
          simp only [← hl, length_cons, length_append, length_map]
          omega
        obtain ⟨marks', hpass, hsub, hbare⟩ := ih rest.length hlt rest
          (fun hmem => hrest (mem_append_right _ hmem)) (w.reverse ++ c :: before) rfl
        refine ⟨first.map .hit ++ ((c :: w).map .char ++ (last.map .hit ++ marks')), ?_, ?_, ?_⟩
        · simp only [shown_append, shown_chars, length_append, Nat.add_sub_cancel, piecesFrom_skip, fill, hpass]
          simp only [append_assoc]
        · exact ((hsub.trans (sublist_append_right _ _)).append_left (map .char (c :: w))).trans (sublist_append_right _ _)
        · rw [← cons_append, ← map_cons]
          simp only [bare_append, bare_codes, bare_chars, hbare, nil_append]
  · obtain ⟨marks', hpass, hsub, hbare⟩ := ih marks.length (by simp [← hl]) marks hesc
      ((Palette.code n).toList.reverse ++ before) rfl
    refine ⟨.hit n :: marks', ?_, hsub.cons_cons _, hbare⟩
    rw [show shown (.hit n :: marks) = (Palette.code n).toList ++ shown marks from rfl, piecesFrom_code h, fill_append,
      hpass, fill_map_char]
    rfl

/-! ## Names and numbers -/

lemma mem_code (h : c ∈ (Palette.code n).toList) : c.isDigit = true ∨ c ∈ [escape, '[', 'm'] := by
  rw [toList_code] at h
  simp only [mem_cons, mem_append, not_mem_nil, or_false] at h ⊢
  rcases h with h | h | h | h
  · exact .inr (.inl h)
  · exact .inr (.inr (.inl h))
  · exact .inl (isDigit_of_mem h)
  · exact .inr (.inr (.inr h))

lemma nameRule_none {mark : Char} {first : Char → Bool} (hc : c ≠ k) :
    nameRule k mark first before (c :: cs) = none := by
  unfold nameRule Rule.atWord
  split
  · rfl
  · cases cs with
    | nil => rfl
    | cons d cs => simp [hc]

lemma apart_nameRule (hdigit : k.isDigit = false) (hk : k ∉ [escape, '[', 'm']) : Apart (nameRule k '.' isNameStart) where
  found {before after w left} h := by
    have hread := (atWord_eq_some.mp h).2
    split at hread
    · rename_i a b more
      obtain ⟨hab, hmap⟩ := Option.ite_none_right_eq_some.mp hread
      obtain ⟨⟨word, rest⟩, hword, he⟩ := Option.map_eq_some_iff.mp hmap
      cases he
      obtain ⟨⟨-, hall⟩, rfl⟩ := wordAt?_some (fun _ => isWord_of_isNameStart) hword
      rw [Bool.and_eq_true, beq_iff_eq, beq_iff_eq] at hab
      obtain ⟨rfl, rfl⟩ := hab
      have hesc : escape ∉ word := fun hmem => absurd (hall _ hmem) (by decide)
      have hne : escape ≠ a := fun heq => hk (by rw [← heq]; exact mem_cons_self)
      exact ⟨rfl, cons_ne_nil _ _, by simp [hne, hesc]; decide⟩
    · cases hread
  inside {n a c b} h before rest := by
    refine nameRule_none ?_
    rintro rfl
    rcases mem_code (n := n) (h ▸ mem_append_right a mem_cons_self) with hmem | hmem
    · rw [hmem] at hdigit
      cases hdigit
    · exact hk hmem

lemma wholeAt?_found (h : wholeAt? cs = some (w, left)) : cs = w ++ left ∧ w ≠ [] ∧ escape ∉ w := by
  obtain ⟨hne, h⟩ := Option.ite_none_left_eq_some.mp h
  cases h
  refine ⟨takeWhile_append_dropWhile.symm, by simpa using hne, fun hmem => ?_⟩
  exact absurd (mem_takeWhile_imp hmem) (by decide)

lemma digitsAt?_found (h : digitsAt? cs = some (w, left)) : cs = w ++ left ∧ w ≠ [] ∧ escape ∉ w := by
  unfold digitsAt? at h
  split at h
  · rename_i rest hrest
    split at h
    · rename_i fraction more hf
      cases h
      obtain ⟨rfl, -, hesc⟩ := wholeAt?_found hf
      have hcs : cs.takeWhile Char.isDigit ++ '.' :: (fraction ++ left) = cs := by
        rw [← hrest, takeWhile_append_dropWhile]
      have hdigits : escape ∉ cs.takeWhile Char.isDigit := fun hmem => absurd (mem_takeWhile_imp hmem) (by decide)
      exact ⟨by simp [hcs], by simp, by simp [hdigits, hesc]; decide⟩
    · exact wholeAt?_found h
  · exact wholeAt?_found h

lemma numberRule_none (hdigit : c.isDigit = false) (hc : c ∉ ['.', '+', '-']) : numberRule before (c :: cs) = none := by
  simp only [mem_cons, not_mem_nil, or_false, not_or] at hc
  have hnone : digitsAt? (c :: cs) = none := by simp [digitsAt?, wholeAt?, hdigit, hc.1]
  simp [numberRule, hc.2, hnone]

lemma apart_numberRule : Apart numberRule where
  found {before after w left} h := by
    obtain ⟨-, h⟩ := Option.ite_none_left_eq_some.mp h
    have hsign (sign : Char) (hs : escape ≠ sign) {rest : List Char} {withSign : _ → List Char × List Char}
        (hw : (digitsAt? rest).map withSign = some (w, left))
        (hwith : ∀ word rest, withSign (word, rest) = (sign :: word, rest)) :
        sign :: rest = w ++ left ∧ w ≠ [] ∧ escape ∉ w := by
      obtain ⟨⟨digits, more⟩, hd, he⟩ := Option.map_eq_some_iff.mp hw
      cases (hwith digits more).symm.trans he
      obtain ⟨rfl, -, hesc⟩ := digitsAt?_found hd
      exact ⟨rfl, cons_ne_nil _ _, by simp [hs, hesc]⟩
    split at h
    · exact hsign '+' (by decide) h fun _ _ => rfl
    · exact hsign '-' (by decide) h fun _ _ => rfl
    · exact digitsAt?_found h
  inside {n a c b} h before rest := by
    rcases mem_code (h ▸ mem_append_right a mem_cons_self) with hdigit | hmem
    · rw [toList_code] at h
      rcases a with _ | ⟨x, _ | ⟨y, digits⟩⟩
      · cases h
        cases hdigit
      · cases h
        cases hdigit
      · simp only [cons_append, cons.injEq] at h
        obtain ⟨rfl, rfl, h⟩ := h
        rcases eq_nil_or_concat digits with rfl | ⟨digits, d, rfl⟩
        · simp [numberRule, escape]
        · -- the digit before it is a word character
          have hd : d ∈ Nat.toDigits 10 n := by
            have hlast := congrArg dropLast h
            rw [dropLast_concat, dropLast_append_of_ne_nil (cons_ne_nil c b)] at hlast
            simp [hlast]
          simp [numberRule, afterWord, isWord_of_isDigit (isDigit_of_mem hd)]
    · simp only [mem_cons, not_mem_nil, or_false] at hmem
      rcases hmem with rfl | rfl | rfl <;> exact numberRule_none (by decide) (by decide)

/-! ## The whole text -/

def passes (p : Palette) : List (List Char → List Char) :=
  let name k := nameRule k '.' isNameStart
  [paint (name 'g') (p.bold ++ p.red) p.reset, paint (name 'p') (p.bold ++ p.yellow) p.reset,
    paint (name 'c') (p.bold ++ p.blue) p.reset, paint (name 'v') (p.bold ++ p.green) p.reset,
    paint numberRule p.blue p.reset]

lemma apply_eq (p : Palette) (source : String) :
    apply p source = String.ofList ((passes p).foldl (fun cs pass => pass cs) source.toList) := by
  simp only [apply, passes, foldl_cons, foldl_nil]

lemma inserts_passes : ∀ pass ∈ passes .terminal, Inserts pass := by
  have hbold (n : Nat) : (Palette.code 1 ++ Palette.code n).toList = shown ([1, n].map .hit) := by
    simp [shown, fill]
  have hone (n : Nat) : (Palette.code n).toList = shown ([n].map .hit) := by
    simp [shown, fill]
  simp only [passes, forall_mem_cons, not_mem_nil, IsEmpty.forall_iff, implies_true, and_true]
  refine ⟨?_, ?_, ?_, ?_, apart_numberRule.inserts (hone 34) (hone 0)⟩
  · exact (apart_nameRule (by decide) (by decide)).inserts (hbold 31) (hone 0)
  · exact (apart_nameRule (by decide) (by decide)).inserts (hbold 33) (hone 0)
  · exact (apart_nameRule (by decide) (by decide)).inserts (hbold 34) (hone 0)
  · exact (apart_nameRule (by decide) (by decide)).inserts (hbold 32) (hone 0)

lemma codeRule_code : codeRule before ((Palette.code n).toList ++ rest) = some ((), rest) := by
  have hspan : wholeAt? (Nat.toDigits 10 n ++ 'm' :: rest) = some (Nat.toDigits 10 n, 'm' :: rest) := by
    obtain ⟨htake, hdrop⟩ := @span_append Char.isDigit (Nat.toDigits 10 n) ('m' :: rest) (fun _ => isDigit_of_mem)
      (by rintro _ ⟨⟩; decide)
    simp [wholeAt?, htake, hdrop, Nat.toDigits_ne_nil]
  simp [toList_code, codeRule, hspan]

lemma codeRule_none (hc : escape ≠ c) : codeRule before (c :: cs) = none := by
  unfold codeRule
  split
  · rename_i heq
    rw [← (cons.inj heq).1]
    split
    · simp [hc.symm]
    · rfl
  · rfl

lemma withoutCodes_shown (h : escape ∉ bare marks) : withoutCodes (String.ofList (shown marks)) = String.ofList (bare marks) := by
  suffices hfrom : ∀ before, fill (fun _ => []) (piecesFrom codeRule before 0 (shown marks)) = bare marks by
    rw [withoutCodes, String.toList_ofList, substitute, pieces, hfrom]
  intro before
  induction marks generalizing before with
  | nil => rfl
  | cons piece marks ih =>
    cases piece with
    | char c =>
      obtain ⟨hc, hrest⟩ := not_or.mp (mt mem_cons.mpr h)
      rw [show shown (.char c :: marks) = c :: shown marks from rfl, piecesFrom.eq_3, codeRule_none hc]
      exact congrArg (c :: ·) (ih hrest _)
    | hit n =>
      have hrule := @codeRule_code before (shown marks) n
      rw [show shown (.hit n :: marks) = (Palette.code n).toList ++ shown marks from rfl]
      rw [toList_code, cons_append] at hrule ⊢
      rw [piecesFrom.eq_3, hrule]
      simp only [fill, nil_append, length_append, Nat.add_sub_cancel, piecesFrom_skip]
      exact ih h _

lemma paint_plain_passes : ∀ pass ∈ passes .plain, ∀ cs, pass cs = cs := by
  simp only [passes, forall_mem_cons, not_mem_nil, IsEmpty.forall_iff, implies_true, and_true]
  refine ⟨?_, ?_, ?_, ?_, apart_numberRule.paint_plain⟩
  all_goals exact (apart_nameRule (by decide) (by decide)).paint_plain

variable {ps : List (List Char → List Char)}

lemma exists_shown_foldl (hps : ∀ pass ∈ ps, Inserts pass) (hmarks : escape ∉ bare marks) :
    ∃ marks', ps.foldl (fun cs pass => pass cs) (shown marks) = shown marks' ∧ bare marks' = bare marks := by
  induction ps generalizing marks with
  | nil => exact ⟨marks, rfl, rfl⟩
  | cons pass ps ih =>
    obtain ⟨marks₁, hpass, -, hbare⟩ := hps pass mem_cons_self marks hmarks
    obtain ⟨marks', hrest, hbare'⟩ := ih (fun p hp => hps p (mem_cons_of_mem _ hp)) (hbare ▸ hmarks)
    exact ⟨marks', by rw [foldl_cons, hpass, hrest], hbare'.trans hbare⟩

lemma foldl_same (hps : ∀ pass ∈ ps, ∀ cs, pass cs = cs) (cs : List Char) :
    ps.foldl (fun cs pass => pass cs) cs = cs := by
  induction ps with
  | nil => rfl
  | cons pass ps ih => rw [foldl_cons, hps pass mem_cons_self, ih fun p hp => hps p (mem_cons_of_mem _ hp)]

/-- Highlighting only puts in whole codes, so deleting the codes gives the text back; without a terminal it changes
nothing. -/
theorem withoutCodes_highlighted :
    (∀ source : String, escape ∉ source.toList → withoutCodes (apply .terminal source) = source) ∧
      (∀ pass ∈ passes .terminal, Inserts pass) ∧
      ∀ source, apply .plain source = source := by
  refine ⟨fun source hsource => ?_, inserts_passes, fun source => ?_⟩
  · have hbare := bare_chars source.toList
    obtain ⟨marks, hshown, hmarks⟩ := exists_shown_foldl inserts_passes (hbare.symm ▸ hsource)
    rw [shown_chars] at hshown
    rw [hbare] at hmarks
    rw [apply_eq, hshown, withoutCodes_shown (hmarks.symm ▸ hsource), hmarks, String.ofList_toList]
  · rw [apply_eq, foldl_same paint_plain_passes, String.ofList_toList]

theorem withoutCodes_highlighted_sum : escape ∉ "p.x + 3".toList ∧ withoutCodes (apply .terminal "p.x + 3") = "p.x + 3" :=
  have h : escape ∉ "p.x + 3".toList := by decide
  ⟨h, withoutCodes_highlighted.1 "p.x + 3" h⟩

end GridBayes.Highlight
