import GridBayes.Proofs.Phrase
import Mathlib.Data.List.Chain

/-! Texts that are spelled word by word, with or without blanks between the words. In the words of an
expression a mark stands between any two numbers or names, so they stay the same words however they
are spelled. -/
namespace GridBayes.Code
open List Option

/-! ## Words in front of marks and blanks -/

def isStop (c : Char) : Bool :=
  [' ', '\t', '+', '-', '*', '/', '(', ')', ',', '[', ']'].contains c

variable {c : Char} {cs w : List Char} {t : Token} {n : Nat}

lemma isStop_cases (h : isStop c = true) :
    Text.isWord c = false ∧ (Text.isNameStart c || c == '_') = false ∧ isDigit c = false ∧ c ≠ '.' ∧
      c ≠ 'e' ∧ c ≠ 'E' := by
  have hmem : c ∈ [' ', '\t', '+', '-', '*', '/', '(', ')', ',', '[', ']'] := contains_iff_mem.mp h
  simp only [mem_cons, not_mem_nil, or_false] at hmem
  rcases hmem with rfl | rfl | rfl | rfl | rfl | rfl | rfl | rfl | rfl | rfl | rfl <;> decide

lemma numberAt_stop (hc : isStop c = true) (rest : List Char) (h : numberAt cs = some (t, cs.length)) :
    numberAt (cs ++ c :: rest) = some (t, cs.length) := by
  obtain ⟨-, -, hd, hp, hl, hu⟩ := isStop_cases hc
  -- after the mantissa there is either nothing or a whole exponent
  have htail : (cs.drop (mantissa cs)).length ≠ 1 := by
    rw [length_drop]
    obtain ⟨-, ⟨-, hn⟩ | ⟨e, k, he, hn⟩⟩ := numberAt_size h
    · omega
    · have := (exponentAt_length he).1
      omega
  rw [← h]
  refine numberAt_append hd rest hp ?_
  rcases hdrop : cs.drop (mantissa cs) with _ | ⟨d, _ | ⟨sign, ds⟩⟩
  · simp [exponentAt, hl, hu]
  · rw [hdrop] at htail
    exact absurd rfl htail
  · exact exponentAt_append hd rest d sign ds

def Token.isMark : Token → Bool
  | .mark _ => true
  | _ => false

lemma numberAt_not_mark (h : numberAt cs = some (t, n)) : t.isMark = false := by
  unfold numberAt at h
  dsimp only at h
  split at h
  all_goals
    split at h
    · cases h
    · split at h
      · obtain ⟨rfl, -⟩ := Prod.mk.inj (some.inj h)
        rfl
      · cases h
        rfl

def isMarkStart (c : Char) : Bool :=
  "+-*/(),[]".toList.contains c

lemma isMarkStart_cases (h : isMarkStart c = true) :
    (isDigit c || c == '.') = false ∧ (Text.isNameStart c || c == '_') = false ∧ isStop c = true := by
  have hmem : c ∈ "+-*/(),[]".toList := contains_iff_mem.mp h
  simp only [String.reduceToList, mem_cons, not_mem_nil, or_false] at hmem
  rcases hmem with rfl | rfl | rfl | rfl | rfl | rfl | rfl | rfl | rfl <;> decide

lemma tokenAt_isMark (h : tokenAt (c :: cs) = some (t, n)) : t.isMark = isMarkStart c := by
  unfold tokenAt at h
  split at h
  · rename_i heq
    cases heq
    cases h
    rfl
  · rename_i heq
    cases heq
    cases h
    rfl
  · rename_i heq
    cases heq
    split at h
    · rename_i hn
      rw [numberAt_not_mark h]
      cases hmark : isMarkStart c with
      | false => rfl
      | true => rw [(isMarkStart_cases hmark).1] at hn; cases hn
    · split at h
      · rename_i hname
        cases h
        cases hmark : isMarkStart c with
        | false => rfl
        | true => rw [(isMarkStart_cases hmark).2.1] at hname; cases hname
      · split at h
        · rename_i hmark
          cases h
          exact hmark.symm
        · cases h
  · cases h

/-- A word stays the same before what does not go on with it: no second star or slash, and a mark or blank after
others. -/
lemma tokenAt_append (h : tokenAt cs = some (t, cs.length)) (hstop : t.isMark = false → isStop c = true)
    (hstar : t = .mark "*" → c ≠ '*') (hs : t = .mark "/" → c ≠ '/') (rest : List Char) :
    tokenAt (cs ++ c :: rest) = some (t, cs.length) := by
  unfold tokenAt at h
  split at h
  · exact h
  · exact h
  · rename_i d ds hpo hf
    have hmark : isMarkStart d = true → t = .mark (String.singleton d) ∧ ds = [] := by
      intro hd
      obtain ⟨hn, hname, -⟩ := isMarkStart_cases hd
      have hchar : "+-*/(),[]".toList.contains d = true := hd
      rw [hn, hname, if_pos hchar] at h
      obtain ⟨rfl, hl⟩ := Prod.mk.inj (some.inj h)
      exact ⟨rfl, length_eq_zero_iff.mp (Nat.succ.inj hl).symm⟩
    rw [cons_append, tokenAt]
    · split at h
      · rename_i hn
        rw [if_pos hn]
        exact numberAt_stop (hstop (numberAt_not_mark h)) rest h
      · rename_i hn
        rw [if_neg hn]
        split at h
        · rename_i hname
          rw [if_pos hname]
          obtain ⟨rfl, hl⟩ := Prod.mk.inj (some.inj h)
          obtain ⟨hword, hst, -, hp, -⟩ := isStop_cases (hstop rfl)
          have hc : nameChars false (d :: ds ++ c :: rest) = nameChars false (d :: ds) :=
            nameChars_stop hword hst hp rest (by simp)
          rw [cons_append] at hc
          simp only [hc, hl]
        · rename_i hname
          rw [if_neg hname]
          exact h
    · rintro x rfl hx
      obtain ⟨ht, rfl⟩ := hmark (by decide)
      exact hstar ht (cons.inj hx).1
    · rintro x rfl hx
      obtain ⟨ht, rfl⟩ := hmark (by decide)
      exact hs ht (cons.inj hx).1
  · cases h

/-! ## Spelled words -/

/-- The text is made of the given words, each written whole, and of blanks between them. -/
inductive Spelled : List Token → List Char → Prop where
  | nil {gap : List Char} (hgap : ∀ c ∈ gap, isGap c = true) : Spelled [] gap
  | cons {gap w rest : List Char} {t : Token} {ts : List Token} (hgap : ∀ c ∈ gap, isGap c = true)
      (hw : tokenAt w = some (t, w.length)) (hrest : Spelled ts rest) :
      Spelled (t :: ts) (gap ++ (w ++ rest))

lemma Spelled.gap {gap cs : List Char} {ts : List Token} (hgap : ∀ c ∈ gap, isGap c = true)
    (h : Spelled ts cs) : Spelled ts (gap ++ cs) := by
  have hboth : ∀ {gap' : List Char}, (∀ c ∈ gap', isGap c = true) → ∀ c ∈ gap ++ gap', isGap c = true :=
    fun hgap' => forall_mem_append.mpr ⟨hgap, hgap'⟩
  cases h with
  | nil hgap' => exact .nil (hboth hgap')
  | cons hgap' hw hrest =>
    rw [← append_assoc]
    exact .cons (hboth hgap') hw hrest

lemma Spelled.append {ds : List Char} {ts us : List Token} (h : Spelled ts cs) (h' : Spelled us ds) :
    Spelled (ts ++ us) (cs ++ ds) := by
  induction h with
  | nil hgap => exact h'.gap hgap
  | cons hgap hw _ ih =>
    rw [append_assoc, append_assoc]
    exact .cons hgap hw ih

lemma Spelled.start {ts : List Token} (h : Spelled ts (c :: cs)) :
    isGap c = true ∨ ∃ t us n, ts = t :: us ∧ ∃ w, tokenAt (c :: w) = some (t, n) := by
  generalize hc : c :: cs = chars at h
  cases h with
  | nil hgap =>
    rw [← hc] at hgap
    exact .inl (hgap c mem_cons_self)
  | @cons gap w rest t us hgap hw _ =>
    cases gap with
    | cons d gap =>
      cases hc
      exact .inl (hgap c mem_cons_self)
    | nil =>
      cases w with
      | nil => cases hw
      | cons d w =>
        cases hc
        exact .inr ⟨t, us, _, rfl, w, hw⟩

/-- Words that stay apart when they are written without a blank between them. -/
structure Apart (t u : Token) : Prop where
  operand : t.isMark = false → u.isMark = true
  operator : t ∈ [.mark "*", .mark "/"] → u ∉ [.mark "*", .mark "**", .mark "/", .mark "//"]

lemma isStop_of_isGap (h : isGap c = true) : isStop c = true := by
  rcases Bool.or_eq_true_iff.mp h with h | h <;> rw [eq_of_beq h] <;> decide

lemma tokenAt_not_gap {found : Token × Nat} (h : tokenAt (c :: w) = some found) : isGap c = false := by
  cases hgap : isGap c with
  | false => rfl
  | true =>
    rcases Bool.or_eq_true_iff.mp hgap with hc | hc
    · rw [eq_of_beq hc] at h
      cases h
    · rw [eq_of_beq hc] at h
      cases h

lemma tokenAt_twice (hc : c = '*' ∨ c = '/') (h : tokenAt (c :: w) = some (t, n)) :
    t ∈ [.mark "*", .mark "**", .mark "/", .mark "//"] := by
  rcases hc with rfl | rfl
  all_goals
    unfold tokenAt at h
    split at h
    · obtain ⟨rfl, -⟩ := Prod.mk.inj (some.inj h)
      decide
    · obtain ⟨rfl, -⟩ := Prod.mk.inj (some.inj h)
      decide
    · rename_i heq
      cases heq
      cases h
      decide
    · cases h

lemma Spelled.lexes {ts : List Token} (h : Spelled ts cs) (hts : ts.IsChain Apart) : Lexes cs ts := by
  induction h with
  | nil hgap => exact .gap (dropWhile_eq_nil_iff.mpr hgap)
  | @cons gap w rest t ts hgap hw hrest ih =>
    -- the word ends where it should: at a blank, or at the next word, which stays apart from it
    have hword : tokenAt (w ++ rest) = some (t, w.length) := by
      cases rest with
      | nil => rwa [append_nil]
      | cons c rest =>
        rcases hrest.start with hc | ⟨u, us, n, rfl, w', hu⟩
        · refine tokenAt_append hw (fun _ => isStop_of_isGap hc) ?_ ?_ rest
          · rintro - rfl
            cases hc
          · rintro - rfl
            cases hc
        · have ha := (isChain_cons_cons.mp hts).1
          refine tokenAt_append hw (fun ht => ?_) ?_ ?_ rest
          · have hmark := ha.operand ht
            rw [tokenAt_isMark hu] at hmark
            exact (isMarkStart_cases hmark).2.2
          · rintro rfl rfl
            exact ha.operator (by decide) (tokenAt_twice (.inl rfl) hu)
          · rintro rfl rfl
            exact ha.operator (by decide) (tokenAt_twice (.inr rfl) hu)
    have hdrop : (gap ++ (w ++ rest)).dropWhile isGap = w ++ rest := by
      rw [dropWhile_append, dropWhile_eq_nil_iff.mpr hgap]
      cases w with
      | nil => cases hw
      | cons d w => exact dropWhile_cons_of_neg (by rw [tokenAt_not_gap hw]; decide)
    refine .word (n := w.length) (by rw [hdrop]; exact hword) ?_
    rw [hdrop, drop_left]
    exact ih hts.tail

/-! ## Words of expressions -/

/-- Words that an operator may stand before and after. -/
structure Tidy (ts : List Token) : Prop where
  starts : ∃ t us, ts = t :: us ∧ (t.isMark = false ∨ t ∈ [.mark "(", .mark "+", .mark "-"])
  ends : ∃ us t, ts = us ++ [t] ∧ (t.isMark = false ∨ t = .mark ")")
  apart : ts.IsChain Apart

variable {ts us : List Token}

lemma tidy_operand (ht : t.isMark = false) : Tidy [t] where
  starts := ⟨t, [], rfl, .inl ht⟩
  ends := ⟨[], t, rfl, .inl ht⟩
  apart := isChain_singleton t

lemma Tidy.snoc (h : Tidy ts) (s : String) : (ts ++ [Token.mark s]).IsChain Apart := by
  obtain ⟨us, t, rfl, ht⟩ := h.ends
  refine h.apart.append (isChain_singleton _) ?_
  intro x hx y hy
  obtain rfl : t = x := by simpa using hx
  obtain rfl : Token.mark s = y := by simpa using hy
  refine ⟨fun _ => rfl, fun hop => ?_⟩
  rcases ht with ht | rfl
  · rcases mem_pair.mp hop with rfl | rfl <;> cases ht
  · exact absurd hop (by decide)

lemma Tidy.cons (h : Tidy ts) (s : String) : (Token.mark s :: ts).IsChain Apart := by
  obtain ⟨t, us, rfl, ht⟩ := h.starts
  refine isChain_cons_cons.mpr ⟨⟨fun hs => (by cases hs), fun _ hop => ?_⟩, h.apart⟩
  rcases ht with ht | ht
  · simp only [mem_cons, not_mem_nil, or_false] at hop
    rcases hop with rfl | rfl | rfl | rfl <;> cases ht
  · simp only [mem_cons, not_mem_nil, or_false] at ht
    rcases ht with rfl | rfl | rfl <;> exact absurd hop (by decide)

lemma Tidy.between (h : Tidy ts) (h' : Tidy us) (s : String) : Tidy (ts ++ .mark s :: us) where
  starts := by
    obtain ⟨t, rest, rfl, ht⟩ := h.starts
    exact ⟨t, _, rfl, ht⟩
  ends := by
    obtain ⟨rest, t, rfl, ht⟩ := h'.ends
    exact ⟨ts ++ .mark s :: rest, t, by simp, ht⟩
  apart := isChain_split.mpr ⟨h.snoc s, h'.cons s⟩

lemma Tidy.signed (h : Tidy ts) {s : String} (hs : s = "+" ∨ s = "-") : Tidy (.mark s :: ts) where
  starts := ⟨.mark s, ts, rfl, .inr (by rcases hs with rfl | rfl <;> decide)⟩
  ends := by
    obtain ⟨rest, t, rfl, ht⟩ := h.ends
    exact ⟨.mark s :: rest, t, rfl, ht⟩
  apart := h.cons s

lemma Tidy.group (h : Tidy ts) : Tidy (.mark "(" :: (ts ++ [.mark ")"])) where
  starts := ⟨.mark "(", _, rfl, .inr (by decide)⟩
  ends := ⟨.mark "(" :: ts, .mark ")", rfl, .inr rfl⟩
  apart := by
    obtain ⟨t, rest, rfl, -⟩ := h.starts
    exact isChain_cons_cons.mpr ⟨(isChain_cons_cons.mp (h.cons "(")).1, h.snoc ")"⟩

lemma Tidy.call (h : Tidy ts) (s : String) : Tidy (.name s :: .mark "(" :: (ts ++ [.mark ")"])) where
  starts := ⟨.name s, _, rfl, .inl rfl⟩
  ends := ⟨.name s :: .mark "(" :: ts, .mark ")", rfl, .inr rfl⟩
  apart := isChain_cons_cons.mpr ⟨⟨fun _ => rfl, fun hop => absurd hop (by simp)⟩, h.group.apart⟩

lemma tidy_commas {parts : List (List Token)} (hne : parts ≠ []) (h : ∀ ts ∈ parts, Tidy ts) :
    Tidy (commas parts) := by
  induction parts with
  | nil => exact absurd rfl hne
  | cons ts parts ih =>
    have hf := h ts mem_cons_self
    cases parts with
    | nil => exact hf
    | cons us parts => exact hf.between (ih (by simp) fun ts' h' => h ts' (mem_cons_of_mem ts h')) ","

lemma Phrase.tidy {r : Rank} (p : Phrase r) : Tidy p.words := by
  induction p with
  | whole | decimal | name => exact tidy_operand rfl
  | call s args ih =>
    refine (tidy_commas (by simp) fun ts hts => ?_).call s
    obtain ⟨i, rfl⟩ := (mem_ofFn' _ _).mp hts
    exact ih i
  | group a ih => exact ih.group
  | atom a ih | factor a ih | product a ih => exact ih
  | power a b iha ihb => exact iha.between ihb "**"
  | minus a ih => exact ih.signed (.inr rfl)
  | plus a ih => exact ih.signed (.inl rfl)
  | times a b iha ihb => exact iha.between ihb "*"
  | divide a b iha ihb => exact iha.between ihb "/"
  | add a b iha ihb => exact iha.between ihb "+"
  | sub a b iha ihb => exact iha.between ihb "-"

lemma exprs?_of_spelled {p : Phrase .sum} (h : Spelled p.words cs) : exprs? cs = some [p.expr] :=
  exprs?_of_denotes (h.lexes p.tidy.apart) p.denotes

end GridBayes.Code
