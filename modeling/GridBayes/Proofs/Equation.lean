import GridBayes.Program.Component
import GridBayes.Proofs.Scanning
import GridBayes.Proofs.SymbolSet
import GridBayes.Proofs.TemplateFill

/-! Assignments as equations. An assignment gives a local variable the value of its right-hand side; the
local variable is read from the text before the equals sign. -/
namespace GridBayes
open List Operation Text GridBayes.Symbol

structure Equation where
  target : Symbol
  source : String

namespace Equation

def ofCall (target source : String) : Except Fault Equation := do
  return ⟨← parse (if startsWith "v." target then target else "v." ++ target), source⟩

def component (e : Equation) : Component :=
  .assignment e.target (SymbolSet.diff (Template.symbols e.source) [e.target]) (Template.ofSource e.source)

lemma isLikelihood_component (e : Equation) : e.component.isLikelihood = false := rfl

lemma ofAssignment_iff {target source : String} {c : Component} : Component.ofAssignment target source = .ok c ↔
      ∃ e, ofCall target source = .ok e ∧ e.component = c := by
  unfold Component.ofAssignment ofCall
  simp only [bind_eq_ok]
  constructor
  · rintro ⟨symbol, hp, he⟩
    exact ⟨⟨symbol, source⟩, ⟨symbol, hp, rfl⟩, Except.ok.inj he⟩
  · rintro ⟨e, ⟨symbol, hp, he⟩, rfl⟩
    cases he
    exact ⟨symbol, hp, rfl⟩

end Equation

/-! ## The text of a target -/

variable {p : Char → Bool} {c : Char} {s source : String} {rest cs : List Char} {kind : VarKind} {e : Equation}

lemma dropWhile_concat (hc : p c = false) (cs : List Char) : (cs ++ [c]).dropWhile p = cs.dropWhile p ++ [c] := by
  induction cs with
  | nil => simp [hc]
  | cons d cs ih =>
    rw [cons_append, dropWhile_cons, dropWhile_cons]
    split
    · exact ih
    · rfl

lemma trimChars_cons (hc : p c = false) (cs : List Char) : ∃ rest, trimChars p (c :: cs) = c :: rest := by
  unfold trimChars
  rw [dropWhile_cons_of_neg (by simp [hc]), reverse_cons, dropWhile_concat hc]
  simp

lemma float?_letter (kind : VarKind) (hs : s.toList = kind.letter :: rest) : Decimal.float? s = none := by
  have hpad : Decimal.isPadding kind.letter = false := by cases kind <;> decide
  have hp : Decimal.plainDigit kind.letter = kind.letter := by cases kind <;> decide
  have hline : kind.letter ≠ '_' := by cases kind <;> decide
  obtain ⟨more, hmore⟩ := trimChars_cons hpad rest
  have hdrop : Decimal.dropUnderscores false (kind.letter :: more.map Decimal.plainDigit) =
      (Decimal.dropUnderscores kind.letter.isDigit (more.map Decimal.plainDigit)).map (kind.letter :: ·) := by
    rw [Decimal.dropUnderscores]
    · exact if_neg (by simpa using hline)
    · exact fun _ _ h _ => by cases h
  unfold Decimal.float?
  rw [hs, hmore, map_cons, hp]
  dsimp only
  rw [hdrop]
  cases Decimal.dropUnderscores kind.letter.isDigit (more.map Decimal.plainDigit) with
  | none => rfl
  | some cs =>
    have hword : ∀ word : String, word.toList.head? ≠ some kind.letter.toLower →
        (String.ofList ((kind.letter :: cs).map Char.toLower) == word) = false := by
      intro word hne
      rw [beq_eq_false_iff_ne]
      rintro rfl
      exact hne (by rw [String.toList_ofList]; rfl)
    have hsign : Decimal.takeSign (kind.letter :: cs) = (false, kind.letter :: cs) := by
      cases kind <;> simp [Decimal.takeSign, VarKind.letter]
    have hu : Decimal.unsigned? (kind.letter :: cs) = none := by cases kind <;> simp [Decimal.unsigned?, VarKind.letter]
    simp only [Option.map_some, bind, Option.bind, hsign, hword "inf" (by cases kind <;> decide),
      hword "infinity" (by cases kind <;> decide), hword "nan" (by cases kind <;> decide), hu]
    rfl

lemma startsWith_local (h : startsWith "v." s = true) : ∃ rest, s.toList = 'v' :: rest := by
  unfold startsWith at h
  cases hs : s.toList with
  | nil => simp [hs, afterStart?] at h
  | cons c rest =>
    have hc : 'v' = c := by
      by_contra hne
      simp [hs, afterStart?, hne] at h
    exact ⟨rest, by rw [hc]⟩

lemma letter_of_ofLetter? (h : VarKind.ofLetter? c = some kind) : c = kind.letter := by
  unfold VarKind.ofLetter? at h
  split at h <;> cases h <;> rfl

lemma variableAt?_some {name : List Char} (h : variableAt? cs = some ((kind, name), rest)) :
    (name ≠ [] ∧ ∀ c ∈ name, isWord c = true) ∧ cs = kind.letter :: '.' :: (name ++ rest) := by
  unfold variableAt? at h
  split at h
  · split at h
    · rename_i hkind hword
      cases h
      obtain ⟨hname, rfl⟩ := wordAt?_some (fun _ => isWord_of_isNameStart) hword
      exact ⟨hname, by rw [letter_of_ofLetter? hkind]⟩
    · cases h
  · cases h

lemma variableAt?_append {name : List Char} (hs : ∃ c cs, name = c :: cs ∧ isNameStart c = true)
    (hword : ∀ c ∈ name, isWord c = true) (hrest : ∀ d ∈ rest.head?, isWord d = false) :
    variableAt? (kind.letter :: '.' :: (name ++ rest)) = some ((kind, name), rest) := by
  simp [variableAt?, wordAt?_append hs hword hrest]

lemma symbolAt?_some {s : Symbol} (h : symbolAt? cs = some (s, rest)) :
    ∃ (kind : VarKind) (name : List Char), s = .var kind (String.ofList name) ∧
      (∀ c ∈ name, isWord c = true) ∧ cs = kind.letter :: '.' :: (name ++ rest) := by
  obtain ⟨⟨⟨kind, name⟩, rest⟩, hv, he⟩ := Option.map_eq_some_iff.mp h
  cases he
  obtain ⟨⟨-, hword⟩, hcs⟩ := variableAt?_some hv
  exact ⟨kind, name, rfl, hword, hcs⟩

lemma ofVariable?_some {s : Symbol} (h : ofVariable? cs = some s) :
    ∃ (kind : VarKind) (name : List Char), s = .var kind (String.ofList name) ∧
      (∀ c ∈ name, isWord c = true) ∧ cs = kind.letter :: '.' :: name := by
  unfold ofVariable? at h
  split at h
  · rename_i hs
    cases h
    simpa using symbolAt?_some hs
  · cases h

lemma parse_local {s : Symbol} (hs : source.toList = 'v' :: rest) (h : parse source = .ok s) :
    ∃ name : List Char, s = .var .localVar (String.ofList name) ∧ ∀ c ∈ name, isWord c = true := by
  obtain ⟨rest', hbody⟩ : ∃ rest', (replaceChar '-' '_'
      (stripOf ['\x7b', ' ', '\x7d'] source)).toList = 'v' :: rest' := by
    obtain ⟨more, hmore⟩ := trimChars_cons (p := (['\x7b', ' ', '\x7d'].contains ·)) (c := 'v') (by decide) rest
    unfold replaceChar stripOf
    rw [hs, hmore]
    exact ⟨more.map fun c => if c == '-' then '_' else c, by simp⟩
  unfold parse at h
  rw [float?_letter .localVar hs] at h
  dsimp only at h
  rw [hbody] at h
  split at h
  · rename_i found hf
    cases h
    obtain ⟨kind, name, rfl, hword, hc⟩ := ofVariable?_some hf
    cases kind with
    | localVar => exact ⟨name, rfl, hword⟩
    | param | const => exact absurd (cons.inj hc).1 (by decide)
  · cases h

def Equation.IsLocal (e : Equation) : Prop :=
  ∃ name : List Char, e.target = .var .localVar (String.ofList name) ∧ ∀ c ∈ name, isWord c = true

lemma target_ofCall {target : String} (h : Equation.ofCall target source = .ok e) : e.IsLocal := by
  obtain ⟨symbol, hp, he⟩ := bind_eq_ok.mp h
  cases he
  split at hp
  · rename_i hs
    obtain ⟨rest, hrest⟩ := startsWith_local hs
    exact parse_local hrest hp
  · have hs : ("v." ++ target).toList = 'v' :: '.' :: target.toList := by simp
    exact parse_local hs hp

lemma Equation.IsLocal.isKind (h : e.IsLocal) : e.target.isKind .localVar = true := by
  obtain ⟨name, hname, -⟩ := h
  rw [hname]
  rfl

lemma Equation.IsLocal.isLiteral (h : e.IsLocal) : e.target.isLiteral = false := by
  obtain ⟨name, hname, -⟩ := h
  rw [hname]
  rfl

/-! ## The fields of variables -/

namespace Symbol

lemma ident_var (kind : VarKind) (name : List Char) :
    (var kind (String.ofList name)).ident = String.ofList (kind.letter :: '_' :: '_' :: name) := by
  apply String.toList_inj.mp
  simp [ident, label, Symbol.name, text, takeFirst, dropFirst]

lemma bracketed_var (kind : VarKind) (name : List Char) : (var kind (String.ofList name)).bracketed =
      "\x7b" ++ String.ofList (kind.letter :: '_' :: '_' :: name) ++ "\x7d" := by
  rw [← ident_var]
  rfl

lemma isPlainName_ident (kind : VarKind) {name : List Char} (hword : ∀ c ∈ name, isWord c = true) :
    Template.IsPlainName (kind.letter :: '_' :: '_' :: name) := by
  refine ⟨⟨kind.letter, '_' :: '_' :: name, rfl, by cases kind <;> decide⟩, fun c hc => ?_⟩
  simp only [mem_cons] at hc
  rcases hc with rfl | rfl | rfl | hc
  · cases kind <;> decide
  · decide
  · decide
  · exact hword c hc

lemma var_of_ofValue {v : Value} {s : Symbol} (h : ofValue v = .ok s) (hs : s.isLiteral = false) :
    ∃ (kind : VarKind) (name : List Char), s = .var kind (String.ofList name) ∧ ∀ c ∈ name, isWord c = true := by
  have hn : ∀ x : Float, ofFloat x ≠ s := by
    rintro x rfl
    cases hs
  unfold ofValue at h
  split at h
  · unfold parse at h
    split at h
    · exact absurd (Except.ok.inj h) (hn _)
    · dsimp only at h
      split at h
      · rename_i found hf
        cases h
        obtain ⟨kind, name, hvar, hword, -⟩ := ofVariable?_some hf
        exact ⟨kind, name, hvar, hword⟩
      · cases h
  · exact absurd (Except.ok.inj h) (hn _)
  · exact absurd (Except.ok.inj h) (hn _)
  · split at h
    · exact absurd (Except.ok.inj h) (hn _)
    · cases h
  all_goals cases h

end Symbol

/-! ## Targets that are read as they are written -/

lemma trimChars_self (h : ∀ c ∈ cs, p c = false) : trimChars p cs = cs := by
  have hdrop : ∀ ds : List Char, (∀ c ∈ ds, p c = false) → ds.dropWhile p = ds := by
    intro ds hds
    cases ds with
    | nil => rfl
    | cons d ds => rw [dropWhile_cons_of_neg (by simp [hds d mem_cons_self])]
  unfold trimChars
  rw [hdrop cs h, hdrop cs.reverse fun c hc => h c (mem_reverse.mp hc), reverse_reverse]

lemma stripOf_self {marks : List Char} (h : ∀ c ∈ marks, c ∉ s.toList) : stripOf marks s = s := by
  unfold stripOf
  rw [trimChars_self fun c hc => ?_, String.ofList_toList]
  by_contra hmark
  exact h c (contains_iff_mem.mp (by simpa using hmark)) hc

lemma replaceChar_self {old new : Char} (h : old ∉ s.toList) : replaceChar old new s = s := by
  have hmap : (s.toList.map fun c => if c == old then new else c) = s.toList.map id := by
    refine map_congr_left fun c hc => if_neg ?_
    rw [beq_iff_eq]
    rintro rfl
    exact h hc
  unfold replaceChar
  rw [hmap, map_id, String.ofList_toList]

lemma text_of_parse {name : String} {s : Symbol} (hp : ∀ c ∈ ['\x7b', ' ', '\x7d', '-'], c ∉ name.toList)
    (h : parse ("v." ++ name) = .ok s) : s.text = "v." ++ name := by
  have hch : ("v." ++ name).toList = 'v' :: '.' :: name.toList := by simp
  have hmem : ∀ c ∈ ['\x7b', ' ', '\x7d', '-'], c ∉ ("v." ++ name).toList := by
    intro c hc
    have hv : c ≠ 'v' ∧ c ≠ '.' := by
      simp only [mem_cons, not_mem_nil, or_false] at hc
      rcases hc with rfl | rfl | rfl | rfl <;> decide
    simp [hv, hp c hc]
  unfold parse at h
  rw [float?_letter .localVar hch] at h
  dsimp only at h
  rw [stripOf_self fun c hc => hmem c (mem_append_left ['-'] hc), replaceChar_self (hmem '-' (by decide)), hch] at h
  split at h
  · rename_i found hf
    cases h
    obtain ⟨kind, word, rfl, -, hword⟩ := ofVariable?_some hf
    show String.ofList [kind.letter, '.'] ++ String.ofList word = "v." ++ name
    rw [← String.ofList_append, cons_append, cons_append, nil_append, ← hword, ← hch, String.ofList_toList]
  · cases h

end GridBayes
