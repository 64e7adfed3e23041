import GridBayes.Code.Expr
import GridBayes.Proofs.Scanning
import Mathlib.Data.List.TakeWhile

/-! The words of a text with brackets, commas and blanks. No word goes on across one of these, so the
words of a text are those of its pieces, one after another. -/
namespace GridBayes.Code
open List Option
open Text

/-! ## Where words end -/

def isBreak (c : Char) : Bool :=
  [' ', '(', ')', ',', '[', ']', '\x7b', '\x7d'].contains c

variable {c : Char} {cs : List Char} {n : Nat} {t : Token} {ts : List Token}

lemma isBreak_cases (h : isBreak c = true) :
    isWord c = false ∧ (isNameStart c || c == '_') = false ∧ isDigit c = false ∧ c ≠ '.' ∧
      c ≠ 'e' ∧ c ≠ 'E' ∧ c ≠ '-' ∧ c ≠ '+' ∧ c ≠ '*' ∧ c ≠ '/' := by
  have hmem : c ∈ [' ', '(', ')', ',', '[', ']', '\x7b', '\x7d'] := contains_iff_mem.mp h
  simp only [mem_cons, not_mem_nil, or_false] at hmem
  rcases hmem with rfl | rfl | rfl | rfl | rfl | rfl | rfl | rfl <;> decide

lemma nameChars_cons (afterPoint : Bool) (c d : Char) (rest : List Char) : nameChars afterPoint (c :: d :: rest) =
      if isWord c && (!afterPoint || isNameStart c || c == '_') then c :: nameChars false (d :: rest)
      else if c == '.' && (isNameStart d || d == '_') then '.' :: nameChars true (d :: rest)
      else [] := by
  rw [nameChars]

lemma nameChars_stop (hword : isWord c = false) (hname : (isNameStart c || c == '_') = false)
    (hpo : c ≠ '.') (rest : List Char) {afterPoint : Bool}
    (hs : afterPoint = true → ∃ d ds, cs = d :: ds ∧ (isNameStart d || d == '_') = true) :
    nameChars afterPoint (cs ++ c :: rest) = nameChars afterPoint cs := by
  have hnone : ∀ b, nameChars b (c :: rest) = [] := by cases rest <;> simp [nameChars, hword, hpo]
  induction cs generalizing afterPoint with
  | nil => simp [hnone, nameChars]
  | cons d cs ih =>
    cases cs with
    | nil =>
      have hd : (!afterPoint || isNameStart d || d == '_') = true := by
        cases afterPoint with
        | false => rfl
        | true =>
          obtain ⟨_, _, heq, h⟩ := hs rfl
          cases heq
          exact h
      simp only [cons_append, nil_append, nameChars, hnone, hd, hname, Bool.and_true,
        Bool.and_false, Bool.false_eq_true, if_false]
    | cons e cs =>
      have hpl := ih (by simp : (false = true) → _)
      rw [cons_append, cons_append, nameChars_cons, nameChars_cons]
      split
      · rw [← hpl, cons_append]
      · split
        · rename_i hp
          rw [Bool.and_eq_true] at hp
          have hpart : nameChars true (e :: cs ++ c :: rest) = nameChars true (e :: cs) :=
            ih fun _ => ⟨e, cs, rfl, hp.2⟩
          rw [← hpart, cons_append]
        · rfl

lemma length_digits_le (cs : List Char) : (cs.takeWhile isDigit).length ≤ cs.length := ( takeWhile_prefix _).length_le

def mantissa (cs : List Char) : Nat :=
  match cs.drop (cs.takeWhile isDigit).length with
  | '.' :: after => (cs.takeWhile isDigit).length + (1 + (after.takeWhile isDigit).length)
  | _ => (cs.takeWhile isDigit).length

lemma mantissa_point {after : List Char} (h : cs.drop (cs.takeWhile isDigit).length = '.' :: after) :
    mantissa cs = (cs.takeWhile isDigit).length + (1 + (after.takeWhile isDigit).length) := by
  unfold mantissa
  rw [h]
  rfl

lemma mantissa_whole (h : ∀ after, cs.drop (cs.takeWhile isDigit).length ≠ '.' :: after) :
    mantissa cs = (cs.takeWhile isDigit).length := by
  unfold mantissa
  split
  · rename_i after htail
    exact absurd htail (h after)
  · rfl

lemma mantissa_le (cs : List Char) : mantissa cs ≤ cs.length := by
  have hw := length_digits_le cs
  by_cases h : ∃ after, cs.drop (cs.takeWhile isDigit).length = '.' :: after
  · obtain ⟨after, htail⟩ := h
    have hf := length_digits_le after
    have hl := congrArg length htail
    rw [length_drop, length_cons] at hl
    rw [mantissa_point htail]
    omega
  · rw [mantissa_whole fun after htail => h ⟨after, htail⟩]
    exact hw

section

variable {c : Char} (hdigit : isDigit c = false) (rest : List Char)

include hdigit

lemma exponentAt_append (d sign : Char) (cs : List Char) :
    exponentAt (d :: sign :: cs ++ c :: rest) = exponentAt (d :: sign :: cs) := by
  by_cases hsign : sign = '-'
  · subst hsign
    simp [exponentAt, takeWhile_append_of_stop hdigit]
  · by_cases hsign' : sign = '+'
    · subst hsign'
      simp [exponentAt, takeWhile_append_of_stop hdigit]
    · have htake := takeWhile_append_of_stop hdigit (sign :: cs) rest
      simp only [cons_append] at htake
      simp [exponentAt, hsign, hsign', htake]

lemma numberAt_append (hp : c ≠ '.') {cs : List Char}
    (he : exponentAt (cs.drop (mantissa cs) ++ c :: rest) = exponentAt (cs.drop (mantissa cs))) :
    numberAt (cs ++ c :: rest) = numberAt cs := by
  rw [← drop_append_of_le_length (mantissa_le cs)] at he
  unfold numberAt
  rw [takeWhile_append_of_stop hdigit]
  dsimp only
  rw [drop_append_of_le_length (length_digits_le cs)]
  rcases htail : cs.drop (cs.takeWhile isDigit).length with _ | ⟨d, ds⟩
  · rw [mantissa_whole (by simp [htail])] at he
    simp [hp, he]
  · by_cases hd : d = '.'
    · subst hd
      rw [mantissa_point htail] at he
      simp [takeWhile_append_of_stop hdigit, he]
    · rw [mantissa_whole (by simp [htail, hd])] at he
      simp [hd, he]

end

section

variable {c : Char} (hc : isBreak c = true) (rest : List Char)

include hc

lemma exponentAt_break (cs : List Char) : exponentAt (cs ++ c :: rest) = exponentAt cs := by
  obtain ⟨-, -, hdigit, -, hl, hu, hm, hplus, -, -⟩ := isBreak_cases hc
  rcases cs with _ | ⟨d, _ | ⟨sign, cs⟩⟩
  · simp [exponentAt, hl, hu]
  · simp [exponentAt, hdigit, hm, hplus]
  · exact exponentAt_append hdigit rest d sign cs

omit hc in
lemma not_twice_break {d e : Char} {ds : List Char} (hce : c ≠ e)
    (h : ∀ x, d = e → ds = e :: x → False) (x : List Char) (hd : d = e) (hx : ds ++ c :: rest = e :: x) : False := by
  cases ds with
  | nil => exact hce (cons.inj hx).1
  | cons d' ds => exact h ds hd (by rw [(cons.inj hx).1])

lemma tokenAt_break {cs : List Char} (hcs : cs ≠ []) : tokenAt (cs ++ c :: rest) = tokenAt cs := by
  obtain ⟨hword, hs, hdigit, hp, -, -, -, -, ht, hover⟩ := isBreak_cases hc
  rw [tokenAt.eq_def cs]
  split
  · rfl
  · rfl
  · rename_i d ds hpo hf
    have hn : numberAt (d :: ds ++ c :: rest) = numberAt (d :: ds) :=
      numberAt_append hdigit rest hp (exponentAt_break hc rest _)
    have hname : nameChars false (d :: ds ++ c :: rest) = nameChars false (d :: ds) :=
      nameChars_stop hword hs hp rest (by simp)
    rw [cons_append] at hn hname ⊢
    rw [tokenAt, hn, hname]
    · exact not_twice_break rest ht hpo
    · exact not_twice_break rest hover hf
  · exact absurd rfl hcs

end

/-! ## The length of a word -/

lemma exponentAt_length {e : Int} (h : exponentAt cs = some (e, n)) : 2 ≤ n ∧ n ≤ cs.length := by
  unfold exponentAt at h
  split at h
  · split at h
    · dsimp only at h
      split at h
      all_goals
        split at h
        · cases h
        · rename_i hd
          cases h
          rw [isEmpty_iff_length_eq_zero] at hd
          dsimp only at hd ⊢
          refine ⟨by omega, Nat.le_trans (Nat.add_le_add_left (length_digits_le _) _) ?_⟩
          simp only [length_cons]
          omega
    · cases h
  · cases h

lemma numberAt_size (h : numberAt cs = some (t, n)) :
    0 < mantissa cs ∧ ((exponentAt (cs.drop (mantissa cs)) = none ∧ n = mantissa cs) ∨
      ∃ e k, exponentAt (cs.drop (mantissa cs)) = some (e, k) ∧ n = mantissa cs + k) := by
  unfold numberAt at h
  dsimp only at h
  split at h
  · rename_i after htail
    rw [mantissa_point htail]
    split at h
    · cases h
    · refine ⟨by omega, ?_⟩
      split at h
      · rename_i e k he
        cases h
        exact .inr ⟨e, k, he, rfl⟩
      · rename_i he
        cases h
        exact .inl ⟨he, rfl⟩
  · rename_i htail
    rw [mantissa_whole fun after h => htail after h]
    simp only [isEmpty_nil, Bool.and_true] at h
    split at h
    · cases h
    · rename_i hne
      rw [isEmpty_iff_length_eq_zero] at hne
      refine ⟨Nat.pos_of_ne_zero hne, ?_⟩
      split at h
      · rename_i e k he
        cases h
        exact .inr ⟨e, k, he, rfl⟩
      · rename_i he
        cases h
        exact .inl ⟨he, rfl⟩

lemma numberAt_length (h : numberAt cs = some (t, n)) : 0 < n ∧ n ≤ cs.length := by
  have hle := mantissa_le cs
  obtain ⟨hpos, ⟨-, rfl⟩ | ⟨e, k, he, rfl⟩⟩ := numberAt_size h
  · exact ⟨hpos, hle⟩
  · have hk := (exponentAt_length he).2
    rw [length_drop] at hk
    omega

lemma nameChars_length (afterPoint : Bool) (cs : List Char) : (nameChars afterPoint cs).length ≤ cs.length := by
  induction cs generalizing afterPoint with
  | nil => simp [nameChars]
  | cons c cs ih =>
    cases cs with
    | nil =>
      rw [nameChars]
      split <;> simp
    | cons d cs =>
      rw [nameChars_cons]
      split
      · exact Nat.succ_le_succ (ih _)
      · split
        · exact Nat.succ_le_succ (ih _)
        · exact Nat.zero_le _

lemma nameChars_pos (hc : (isNameStart c || c == '_') = true) : 0 < (nameChars false (c :: cs)).length := by
  have hword : isWord c = true := by
    rcases Bool.or_eq_true_iff.mp hc with h | h
    · exact isWord_of_isNameStart h
    · rw [eq_of_beq h]
      decide
  cases cs with
  | nil => simp [nameChars, hword]
  | cons d cs => simp [nameChars_cons, hword]

lemma tokenAt_length (h : tokenAt cs = some (t, n)) : 0 < n ∧ n ≤ cs.length := by
  unfold tokenAt at h
  split at h
  · obtain ⟨-, rfl⟩ := Prod.mk.inj (some.inj h)
    simp
  · obtain ⟨-, rfl⟩ := Prod.mk.inj (some.inj h)
    simp
  · split at h
    · exact numberAt_length h
    · split at h
      · rename_i hs
        cases h
        exact ⟨nameChars_pos hs, nameChars_length _ _⟩
      · split at h
        · obtain ⟨-, rfl⟩ := Prod.mk.inj (some.inj h)
          simp
        · cases h
  · cases h

/-! ## Words in order -/

def isGap (c : Char) : Bool :=
  c == ' ' || c == '\t'

inductive Lexes : List Char → List Token → Prop where
  | gap {cs : List Char} (h : cs.dropWhile isGap = []) : Lexes cs []
  | word {cs : List Char} {t : Token} {n : Nat} {ts : List Token} (h : tokenAt (cs.dropWhile isGap) = some (t, n))
      (hrest : Lexes ((cs.dropWhile isGap).drop n) ts) : Lexes cs (t :: ts)

lemma lexes_nil : Lexes [] [] := .gap rfl

lemma lexes_of_tokens {fuel : Nat} {cs : List Char} {ts : List Token}
    (h : tokens fuel cs = some ts) : Lexes cs ts := by
  induction fuel generalizing cs ts with
  | zero =>
    unfold tokens at h
    split at h
    · rename_i he
      cases h
      exact .gap (by rw [isEmpty_iff.mp he]; rfl)
    · cases h
  | succ fuel ih =>
    unfold tokens at h
    split at h
    · rename_i hgap
      cases h
      exact .gap hgap
    · split at h
      · cases h
      · rename_i hword
        obtain ⟨us, hus, rfl⟩ := map_eq_some_iff.mp h
        exact .word hword (ih hus)

lemma Lexes.tokens (h : Lexes cs ts) {fuel : Nat} (hfuel : cs.length ≤ fuel) : tokens fuel cs = some ts := by
  induction h generalizing fuel with
  | @gap cs hgap =>
    cases fuel with
    | zero =>
      obtain rfl := length_eq_zero_iff.mp (Nat.le_zero.mp hfuel)
      rfl
    | succ fuel =>
      unfold Code.tokens
      rw [show cs.dropWhile (fun c => c == ' ' || c == '\t') = [] from hgap]
  | @word cs t n ts hword _ ih =>
    obtain ⟨hpos, hle⟩ := tokenAt_length hword
    have hdrop : (cs.dropWhile isGap).length ≤ cs.length := (dropWhile_suffix _).length_le
    cases fuel with
    | zero => omega
    | succ fuel =>
      have hrest : Code.tokens fuel ((cs.dropWhile isGap).drop n) = some ts := ih (by rw [length_drop]; omega)
      unfold Code.tokens
      split
      · rename_i hgap
        rw [show cs.dropWhile isGap = [] from hgap] at hword
        cases hword
      · rw [show tokenAt (cs.dropWhile fun c => c == ' ' || c == '\t') = some (t, n) from hword]
        exact map_eq_some_iff.mpr ⟨ts, hrest, rfl⟩

lemma Lexes.congr {ds : List Char} (h : Lexes cs ts) (hsame : ds.dropWhile isGap = cs.dropWhile isGap) :
    Lexes ds ts := by
  cases h with
  | gap hgap => exact .gap (hsame.trans hgap)
  | word hword hrest => exact .word (hsame ▸ hword) (hsame ▸ hrest)

lemma Lexes.append {rest : List Char} {us : List Token} (h : Lexes cs ts) (hc : isBreak c = true)
    (hrest : Lexes (c :: rest) us) : Lexes (cs ++ c :: rest) (ts ++ us) := by
  induction h with
  | @gap cs hgap =>
    refine hrest.congr ?_
    rw [dropWhile_append, hgap]
    rfl
  | @word cs t n ts hword _ ih =>
    obtain ⟨hpos, hle⟩ := tokenAt_length hword
    have hdrop : (cs ++ c :: rest).dropWhile isGap = cs.dropWhile isGap ++ c :: rest := by
      rw [dropWhile_append, if_neg]
      rw [isEmpty_iff_length_eq_zero]
      omega
    have hne : cs.dropWhile isGap ≠ [] := length_pos_iff.mp (by omega)
    refine .word (n := n) (hdrop ▸ (tokenAt_break hc rest hne).trans hword) ?_
    rw [hdrop, drop_append_of_le_length hle]
    exact ih

lemma Lexes.mark (h : Lexes cs ts) (hc : ['(', ')', ',', '[', ']'].contains c = true) :
    Lexes (c :: cs) (.mark (String.singleton c) :: ts) := by
  have hmem : c ∈ ['(', ')', ',', '[', ']'] := contains_iff_mem.mp hc
  simp only [mem_cons, not_mem_nil, or_false] at hmem
  rcases hmem with rfl | rfl | rfl | rfl | rfl <;> exact .word (n := 1) rfl h

lemma Lexes.blank (h : Lexes cs ts) : Lexes (' ' :: cs) ts := h.congr rfl

/-! ## Whole numbers -/

lemma tokenAt_digits (hne : cs ≠ []) (h : ∀ c ∈ cs, isDigit c = true) :
    tokenAt cs = some (.whole (Decimal.natOfDigits cs), cs.length) := by
  have htake : cs.takeWhile isDigit = cs := takeWhile_eq_self_iff.mpr h
  have hn : numberAt cs = some (.whole (Decimal.natOfDigits cs), cs.length) := by
    simp [numberAt, htake, exponentAt, hne]
  obtain ⟨d, ds, rfl⟩ := exists_cons_of_ne_nil hne
  have hd := h d mem_cons_self
  rw [tokenAt]
  · simp [hd, hn]
  · rintro ds' rfl
    exact absurd hd (by decide)
  · rintro ds' rfl
    exact absurd hd (by decide)

lemma lexes_toString (n : Nat) : Lexes (toString n).toList [.whole n] := by
  have htext : (toString n).toList = Nat.toDigits 10 n := by rw [Nat.toString_eq_ofList_toDigits, String.toList_ofList]
  have hdi : ∀ c ∈ Nat.toDigits 10 n, isDigit c = true := fun c hc => isDigit_of_mem_toString (htext ▸ hc)
  have hv : Decimal.natOfDigits (Nat.toDigits 10 n) = n := Nat.ofDigitChars_ten_toDigits
  have hgap : (Nat.toDigits 10 n).dropWhile isGap = Nat.toDigits 10 n := by
    obtain ⟨d, ds, hds⟩ := exists_cons_of_ne_nil (Nat.toDigits_ne_nil (b := 10) (n := n))
    rw [hds] at hdi ⊢
    refine dropWhile_cons_of_neg fun hd => ?_
    rcases Bool.or_eq_true_iff.mp hd with hd | hd
    · exact absurd (hdi d mem_cons_self) (by rw [eq_of_beq hd]; decide)
    · exact absurd (hdi d mem_cons_self) (by rw [eq_of_beq hd]; decide)
  rw [htext]
  refine .word (n := (Nat.toDigits 10 n).length) ?_ ?_
  · rw [hgap, tokenAt_digits Nat.toDigits_ne_nil hdi, hv]
  · rw [hgap, drop_length]
    exact lexes_nil

end GridBayes.Code
