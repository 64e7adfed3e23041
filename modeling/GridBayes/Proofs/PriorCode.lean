import GridBayes.Code.Statement
import GridBayes.Proofs.ChangeOfVariable
import GridBayes.Proofs.CodeReading
import GridBayes.Proofs.Equation
import GridBayes.Proofs.PriorCalls

/-! The code of priors with a transform, as statements. The texts of the variable and of the parameters are
pasted between pieces of code that depend on the transform; what the whole reads as follows from what its
parts read as. -/
namespace GridBayes
open List Code Template Option

/-! ## Words in parentheses -/

namespace Code

def Spells (text : String) (e : Expr) : Prop :=
  ∃ ts, Lexes text.toList ts ∧ Denotes ts e

lemma Lexes.enclosed {cs rest : List Char} {ts us : List Token} (h : Lexes cs ts) (hrest : Lexes rest us) :
    Lexes ('(' :: (cs ++ ')' :: rest)) (.mark "(" :: (ts ++ .mark ")" :: us)) :=
  (h.append (by decide) (hrest.mark (by decide))).mark (by decide)

lemma lexes_join {texts : List String} {es : List Expr} (h : Forall₂ Spells texts es)
    (hne : texts ≠ []) : ∃ ts, Lexes (Text.join ", " texts).toList ts ∧ Lists ts es := by
  induction h with
  | nil => exact absurd rfl hne
  | @cons text e texts es hf hrest ih =>
    obtain ⟨ts, hts, hd⟩ := hf
    cases hrest with
    | nil => exact ⟨ts, by exact hts, .single hd⟩
    | @cons text' e' texts es _ _ =>
      obtain ⟨us, hus, hl⟩ := ih (by simp)
      refine ⟨ts ++ .mark "," :: us, ?_, .cons hd hl⟩
      have htext : (Text.join ", " (text :: text' :: texts)).toList =
          text.toList ++ ',' :: ' ' :: (Text.join ", " (text' :: texts)).toList := by
        simp [Text.join]
      rw [htext]
      exact hts.append (by decide) (hus.blank.mark (by decide))

/-! ## Statements by their sides -/

variable {left right : List Char} {target value : Expr}

lemma splitEquals_append (h : '=' ∉ left) (right : List Char) :
    splitEquals (left ++ '=' :: right) = some (left, right) := by
  have hleft : ∀ c ∈ left, (c != '=') = true := by
    intro c hc
    exact bne_iff_ne.mpr fun he => h (he ▸ hc)
  unfold splitEquals
  rw [dropWhile_append_of_pos hleft, takeWhile_append_of_pos hleft]
  simp

lemma simple?_increase (h : '=' ∉ left) (ht : exprs? left = some [target])
    (hv : exprs? right = some [value]) : simple? (left ++ '+' :: '=' :: right) = some (.increase target value) := by
  have hplus : '=' ∉ left ++ ['+'] := by simpa using h
  have hs := splitEquals_append hplus right
  rw [append_assoc, singleton_append] at hs
  unfold simple?
  simp only [hs, bind_eq_bind, bind_some, reverse_append, reverse_singleton, singleton_append, reverse_reverse, ht, hv]

lemma simple?_assign (h : '=' ∉ left) (ht : exprs? (left ++ [' ']) = some [target])
    (hv : exprs? right = some [value]) : simple? (left ++ ' ' :: '=' :: right) = some (.assign [target] [value]) := by
  have hb : '=' ∉ left ++ [' '] := by simpa using h
  have hs := splitEquals_append hb right
  rw [append_assoc, singleton_append] at hs
  unfold simple?
  simp only [hs, bind_eq_bind, bind_some, reverse_append, ht, hv]
  rfl

/-! ## The variable -/

def entryText (i : Nat) : String :=
  "params[" ++ toString i ++ "]"

def entryWords (i : Nat) : List Token :=
  [.name "params", .mark "[", .whole i, .mark "]"]

lemma lexes_entry (i : Nat) : Lexes (entryText i).toList (entryWords i) := by
  have hname : Lexes "params".toList [.name "params"] := @lexes_of_tokens 1 _ _ rfl
  have hc : Lexes [']'] [.mark "]"] := lexes_nil.mark (by decide)
  have htext : (entryText i).toList = "params".toList ++ '[' :: ((toString i).toList ++ [']']) := by simp [entryText]
  rw [htext]
  exact hname.append (by decide) (((lexes_toString i).append (by decide) hc).mark (by decide))

lemma not_mem_entryText (i : Nat) : '=' ∉ (entryText i).toList := by
  have hd : '=' ∉ (toString i).toList := fun h => by
    have hdi := Text.isDigit_of_mem_toString h
    revert hdi
    decide
  simpa [entryText] using hd

lemma denotes_entry (i : Nat) : Denotes (entryWords i) (.entry "params" i) := ⟨4, rfl⟩

end Code

/-! ## Transforms -/

namespace Transform

def words : Transform → List Token
  | exp10 => [.whole 10, .mark "**"]
  | t => [.name t.forward]

def applied : Transform → Expr → Expr
  | exp10, e => .power (.whole 10) e
  | t, e => .call t.forward [e]

lemma lexes_forward (t : Transform) : Lexes t.forward.toList t.words := by
  cases t <;> exact @lexes_of_tokens 2 _ _ rfl

lemma denotes_applied (t : Transform) {ts : List Token} {e : Expr} (h : Denotes ts e) :
    Denotes (t.words ++ .mark "(" :: (ts ++ [.mark ")"])) (t.applied e) := by
  cases t with
  | exp10 => exact denotes_power h
  | log10 | ln | exp | expit | logit => exact denotes_call_alone (.single h)

def jacobianWords : Transform → List Token
  | log10 | exp10 => [.mark "-", .name "math.log", .mark "(", .whole 10, .mark ")", .mark "-"]
  | ln => [.mark "-"]
  | exp => [.mark "+"]
  | expit => [.mark "-", .name "logddx_logit"]
  | logit => [.name "logddx_logit"]

/-- An expression plus the term. For the common logarithm and exponential it is two terms: the variable is
subtracted. -/
def corrected : Transform → Expr → Expr → Expr
  | log10, a, x | exp10, a, x => .sub (.add a (.negate (.call "math.log" [.whole 10]))) x
  | ln, a, x => .add a (.negate x)
  | exp, a, x => .add a x
  | expit, a, x => .add a (.negate (.call "logddx_logit" [x]))
  | logit, a, x => .add a (.call "logddx_logit" [x])

lemma lexes_logJacobian (t : Transform) : Lexes t.logJacobian.toList t.jacobianWords := by
  cases t <;> exact @lexes_of_tokens 6 _ _ rfl

lemma reads_corrected (t : Transform) (a : Expr) (i : Nat) :
    Reads (.rest .sum a) (.mark "+" :: (t.jacobianWords ++ .mark "(" :: (entryWords i ++ [.mark ")"])))
      (t.corrected a (.entry "params" i)) [] :=
  reads_of_read (show read? 20 _ _ = _ by cases t <;> rfl)

end Transform

/-! ## Statements -/

namespace Prior
open Template (fill fill_append fill_literal)

variable {fields : Template.Fields} {p : Prior} {t : Transform} {var var' params params' : String}

lemma fill_family (f : Family) : fill fields f.name = .ok f.name := by cases f <;> exact fill_literal _ rfl

lemma fill_densityCode (hw : fill fields p.written = .ok p.written)
    (hvar : fill fields var = .ok var') (hp : fill fields params = .ok params') :
    fill fields (p.densityCode var params) = .ok (p.densityCode var' params') := by
  have hf : ∀ t : Transform, fill fields t.forward = .ok t.forward := fun t => by cases t <;> exact fill_literal _ rfl
  have hj : ∀ t : Transform, fill fields t.logJacobian = .ok t.logJacobian := fun t => by
    cases t <;> exact fill_literal _ rfl
  have hcall := fill_append (fill_append (fill_literal "logP += " rfl) hw) (fill_literal "_lpdf(" rfl)
  unfold densityCode
  cases p.transform with
  | none =>
    exact fill_append (fill_append (fill_append (fill_append hcall hvar) (fill_literal ", " rfl)) hp)
      (fill_literal ")" rfl)
  | some t =>
    have ha := fill_append (fill_append (fill_append hcall (hf t)) (fill_literal "(" rfl)) hvar
    have hd := fill_append (fill_append (fill_append ha (fill_literal "), " rfl)) hp) (fill_literal ") + " rfl)
    exact fill_append (fill_append (fill_append (fill_append hd (hj t))
      (fill_literal "(" rfl)) hvar) (fill_literal ")" rfl)

lemma fill_quantileCode (hw : fill fields p.written = .ok p.written)
    (hvar : fill fields var = .ok var') (hp : fill fields params = .ok params') :
    fill fields (p.quantileCode var params) = .ok (p.quantileCode var' params') := by
  have hi : ∀ t : Transform, fill fields t.inverse = .ok t.inverse := fun t => by cases t <;> exact fill_literal _ rfl
  have hcall := fill_append (fill_append hw (fill_literal "_ppf(" rfl)) hvar
  have hdraw := fill_append (fill_append (fill_append hcall (fill_literal ", " rfl)) hp) (fill_literal ")" rfl)
  unfold quantileCode
  cases p.transform with
  | none => exact fill_append (fill_append hvar (fill_literal " = " rfl)) hdraw
  | some t =>
    exact fill_append (fill_append (fill_append (fill_append (fill_append hvar
      (fill_literal " = " rfl)) (hi t)) (fill_literal "(" rfl)) hdraw) (fill_literal ")" rfl)

lemma lexes_function (f : Family) (ending : String) (h : ending = "_lpdf" ∨ ending = "_ppf") :
    Lexes (f.name ++ ending).toList [.name (f.name ++ ending)] := by
  rcases h with rfl | rfl <;> cases f <;> exact @lexes_of_tokens 1 _ _ rfl

variable {i : Nat} {ts : List Token} {es : List Expr}

lemma lexes_call {f : Family} {ending : String} (h : ending = "_lpdf" ∨ ending = "_ppf")
    {args rest : List Char} {us : List Token} (hargs : Lexes args ts) (hrest : Lexes rest us) :
    Lexes (f.name.toList ++ (ending.toList ++ '(' :: (args ++ ')' :: rest)))
      (.name (f.name ++ ending) :: .mark "(" :: (ts ++ .mark ")" :: us)) := by
  have hf := (lexes_function f ending h).append (by decide) (hargs.enclosed hrest)
  rwa [String.toList_append, append_assoc] at hf

lemma simple?_densityCode (ht : p.transform = some t) (hname : p.written = p.call.family.name)
    (hp : Lexes params.toList ts) (hes : Lists ts es) :
    simple? (p.densityCode (entryText i) params).toList = some (.increase (.place "logP") (t.corrected
        (.call (p.call.family.name ++ "_lpdf") (t.applied (.entry "params" i) :: es))
        (.entry "params" i))) := by
  -- the arguments: the transformed variable and the parameters
  have hargs := (t.lexes_forward.append (by decide) ((lexes_entry i).enclosed (hp.blank.mark (c := ',') (by decide))))
  have hl : Lists (t.words ++ .mark "(" :: (entryWords i ++ .mark ")" :: .mark "," :: ts))
      (t.applied (.entry "params" i) :: es) := by
    have h := Lists.cons (t.denotes_applied (denotes_entry i)) hes
    simpa using h
  -- the term after the call
  have hterm := t.lexes_logJacobian.append (by decide) ((lexes_entry i).enclosed lexes_nil)
  have hplus : Lexes (' ' :: '+' :: ' ' :: (t.logJacobian.toList ++ '(' :: ((entryText i).toList ++ [')'])))
      (.mark "+" :: (t.jacobianWords ++ .mark "(" :: (entryWords i ++ [.mark ")"]))) :=
    .blank (.word (n := 1) rfl hterm.blank)
  have hcall := lexes_call (f := p.call.family) (.inl rfl) hargs hplus
  have hv := exprs?_of_denotes hcall.blank (denotes_call hl (.inr ⟨_, rfl⟩) (t.reads_corrected _ i))
  have htext : (p.densityCode (entryText i) params).toList = "logP ".toList ++ '+' :: '=' :: (' ' ::
      (p.call.family.name.toList ++ ("_lpdf".toList ++ '(' :: ((t.forward.toList ++ '(' ::
        ((entryText i).toList ++ ')' :: ',' :: ' ' :: params.toList)) ++ ')' :: (' ' :: '+' :: ' ' ::
          (t.logJacobian.toList ++ '(' :: ((entryText i).toList ++ [')']))))))) := by
    unfold densityCode
    rw [ht, hname]
    simp
  rw [htext]
  exact simple?_increase (by decide) rfl hv

lemma simple?_quantileCode (ht : p.transform = some t) (hname : p.written = p.call.family.name)
    (hp : Lexes params.toList ts) (hes : Lists ts es) :
    simple? (p.quantileCode (entryText i) params).toList = some (.assign [.entry "params" i]
        [t.dual.applied (.call (p.call.family.name ++ "_ppf") (.entry "params" i :: es))]) := by
  have hargs := (lexes_entry i).append (by decide) (hp.blank.mark (c := ',') (by decide))
  have hcall := lexes_call (f := p.call.family) (.inr rfl) hargs lexes_nil
  have hdraw := t.dual.lexes_forward.append (by decide) (hcall.enclosed lexes_nil)
  have hv := exprs?_of_denotes hdraw.blank (t.dual.denotes_applied (denotes_call_alone (.cons (denotes_entry i) hes)))
  have hta : exprs? ((entryText i).toList ++ [' ']) = some [.entry "params" i] := by
    have hw := (lexes_entry i).append (c := ' ') (by decide) lexes_nil.blank
    exact exprs?_of_denotes hw (denotes_entry i)
  have htext : (p.quantileCode (entryText i) params).toList = (entryText i).toList ++ ' ' :: '=' ::
      (' ' :: (t.dual.forward.toList ++ '(' :: ((p.call.family.name.toList ++ ("_ppf".toList ++ '(' ::
        (((entryText i).toList ++ ',' :: ' ' :: params.toList) ++ [')']))) ++ [')']))) := by
    unfold quantileCode
    rw [ht, hname, ← t.inverse_eq]
    simp
  rw [htext]
  exact simple?_assign (not_mem_entryText i) hta hv

/-- The statement that a template is, once its fields are filled. -/
def statement? (places : List (String × String)) (template : String) : Option Statement :=
  match fillNamed places template with
  | .ok text => simple? text.toList
  | .error _ => none

lemma arity_pos (f : Family) : 0 < f.arity := by cases f <;> decide

variable {name place : String} {places : List (String × String)} {v : Value} {given : List Value}

lemma fillNamed_var {kind : VarKind} {name : List Char} (hword : ∀ c ∈ name, Text.isWord c = true) :
    fillNamed places (Symbol.var kind (String.ofList name)).bracketed = .ok place ↔
      places.lookup (Symbol.var kind (String.ofList name)).ident = some place := by
  have hp := Symbol.isPlainName_ident kind hword
  rw [Symbol.bracketed_var, Symbol.ident_var]
  constructor
  · intro h
    have hc : ("\x7b" ++ String.ofList (kind.letter :: '_' :: '_' :: name) ++ "\x7d").toList =
        '\x7b' :: ((kind.letter :: '_' :: '_' :: name) ++ ['\x7d']) := by
      simp
    unfold fillNamed at h
    rw [fill_eq_ok, hc, fillChars_named hp.isFieldName] at h
    split at h
    · rename_i value hv
      obtain ⟨rest, hrest, he⟩ := Operation.map_eq_ok.mp h
      cases hrest
      rw [append_nil] at he
      rw [hv, String.toList_inj.mp he]
    · cases h
  · intro h
    exact fill_field hp h

lemma fill_bracketed (hp : create v name given = .ok p) (hvar : p.call.var.isKind .param = true)
    (hpl : places.lookup p.call.var.ident = some place) : fillNamed places p.call.var.bracketed = .ok place := by
  obtain ⟨-, hcall⟩ := create_eq_ok hp
  obtain ⟨-, -, -, -, hs⟩ := DistributionCall.create_eq_ok hcall
  have hl : p.call.var.isLiteral = false := by
    cases h : p.call.var with
    | var kind name => rfl
    | literal text =>
      rw [h] at hvar
      cases hvar
  obtain ⟨kind, word, hv, hword⟩ := Symbol.var_of_ofValue hs hl
  rw [hv] at hpl ⊢
  exact (fillNamed_var hword).mpr hpl

lemma statement?_code {texts : List String} (hp : create v name given = .ok p) (ht : p.transform = some t)
    (hname : p.written = p.call.family.name) (hvar : p.call.var.isKind .param = true)
    (hpl : places.lookup p.call.var.ident = some (entryText i))
    (hte : Forall₂ (fun template text => fillNamed places template = .ok text) p.call.params texts)
    (hes : Forall₂ Spells texts es) :
    es.length = p.call.family.arity ∧ statement? places p.quantile = some (.assign [.entry "params" i]
        [t.dual.applied (.call (p.call.family.name ++ "_ppf") (.entry "params" i :: es))]) ∧
      statement? places p.density = some (.increase (.place "logP") (t.corrected
        (.call (p.call.family.name ++ "_lpdf") (t.applied (.entry "params" i) :: es))
        (.entry "params" i))) := by
  obtain ⟨-, hcall⟩ := create_eq_ok hp
  obtain ⟨-, -, -, hle, -⟩ := DistributionCall.create_eq_ok hcall
  have ha : es.length = p.call.family.arity := by rw [← hes.length_eq, ← hte.length_eq, hle]
  have hne : texts ≠ [] := by
    have hpos := arity_pos p.call.family
    rw [← ha, ← hes.length_eq] at hpos
    exact length_pos_iff.mp hpos
  have hf := fill_bracketed hp hvar hpl
  have hpa : fillNamed places p.call.paramText = .ok (Text.join ", " texts) := fill_join (by decide) (by decide) hte
  obtain ⟨ts, hts, hl⟩ := lexes_join hes hne
  have hw : fillNamed places p.written = .ok p.written := by
    rw [hname]
    exact fill_family _
  have hq : fillNamed places p.quantile = _ := fill_quantileCode hw hf hpa
  have hd : fillNamed places p.density = _ := fill_densityCode hw hf hpa
  unfold statement?
  rw [hq, hd]
  exact ⟨ha, simple?_quantileCode ht hname hts hl, simple?_densityCode ht hname hts hl⟩

end Prior

end GridBayes
