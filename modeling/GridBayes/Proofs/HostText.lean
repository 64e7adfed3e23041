import GridBayes.Proofs.Expansion
import GridBayes.Proofs.SourceTemplate
import GridBayes.Proofs.Spelling

/-! Texts of expressions with places in them. A place stands for a variable of the host. When texts that
spell expressions are put in the places, the result spells the host with these expressions in it, if
none of them falls apart. Then it means what the host means where its variables hold the values of the
texts. -/
namespace GridBayes.Code
open List Text
open Text (Piece fill hits)

/-! ## Hosts -/

section

variable {α : Type}

/-- The text is made of the words, each whole, and blanks; places are words for their names, and no other word is
such a name. -/
inductive SpelledHost (name : α → String) : List Token → List (Piece α) → Prop where
  | nil {gap : List Char} (hgap : ∀ c ∈ gap, isGap c = true) : SpelledHost name [] (gap.map .char)
  | word {gap w : List Char} {rest : List (Piece α)} {t : Token} {ts : List Token}
      (hgap : ∀ c ∈ gap, isGap c = true) (hw : tokenAt w = some (t, w.length))
      (hplain : ∀ a, t ≠ .name (name a)) (hrest : SpelledHost name ts rest) :
      SpelledHost name (t :: ts) (gap.map .char ++ (w.map .char ++ rest))
  | place {gap : List Char} {rest : List (Piece α)} {a : α} {ts : List Token}
      (hgap : ∀ c ∈ gap, isGap c = true) (hrest : SpelledHost name ts rest) :
      SpelledHost name (.name (name a) :: ts) (gap.map .char ++ (.hit a :: rest))

variable {name : α → String} {ts : List Token} {ps : List (Piece α)}

lemma SpelledHost.fill (h : SpelledHost name ts ps) {text : α → List Char} {put : Token → List Token}
    (hput : ∀ a ∈ hits ps, Spelled (put (.name (name a))) (text a))
    (hp : ∀ t, (∀ a, t ≠ .name (name a)) → put t = [t]) : Spelled (ts.flatMap put) (fill text ps) := by
  induction h with
  | nil hgap =>
    rw [fill_map_char]
    exact .nil hgap
  | word hgap hw ht _ ih =>
    simp only [hits_append, hits_map_char] at hput
    rw [fill_append, fill_append, fill_map_char, fill_map_char, flatMap_cons, hp _ ht]
    exact .cons hgap hw (ih hput)
  | place hgap _ ih =>
    simp only [hits_append, hits_map_char, nil_append, hits, forall_mem_cons] at hput
    rw [Text.fill_append, Text.fill_map_char]
    exact (hput.1.append (ih hput.2)).gap hgap

variable {c : Char} {places : List α} {meaning : α → Phrase .sum}

lemma not_mem_of_tokenAt {w : List Char} {t : Token} (h : tokenAt w = some (t, w.length))
    (hc : c = '\x7b' ∨ c = '\x7d') : c ∉ w := by
  intro hmem
  have hb : isBreak c = true := by rcases hc with rfl | rfl <;> rfl
  obtain ⟨u, v, rfl⟩ := append_of_mem hmem
  by_cases hu : u = []
  · subst hu
    rcases hc with rfl | rfl <;> cases h
  · rw [tokenAt_break hb v hu] at h
    have hl := (tokenAt_length h).2
    rw [length_append, length_cons] at hl
    omega

lemma SpelledHost.unbraced (h : SpelledHost name ts ps) (hc : c = '\x7b' ∨ c = '\x7d') : Piece.char c ∉ ps := by
  have hchar (cs : List Char) : Piece.char c ∈ cs.map (.char : Char → Piece α) ↔ c ∈ cs := by simp
  have hgap' {gap : List Char} (hgap : ∀ d ∈ gap, isGap d = true) : c ∉ gap := by
    intro hmem
    have hb := hgap c hmem
    rcases hc with rfl | rfl <;> cases hb
  induction h with
  | nil hgap =>
    rw [hchar]
    exact hgap' hgap
  | word hgap hw _ _ ih =>
    rw [mem_append, mem_append, hchar, hchar]
    rintro (h | h | h)
    · exact hgap' hgap h
    · exact not_mem_of_tokenAt hw hc h
    · exact ih h
  | place hgap _ ih =>
    rw [mem_append, hchar, mem_cons]
    rintro (h | h | h)
    · exact hgap' hgap h
    · cases h
    · exact ih h

/-- A text with places as an expression. The names of places are words, of one place each, and not infinity's. -/
structure Hosts (name : α → String) (host : Phrase .sum) (ps : List (Piece α)) : Prop where
  spelled : SpelledHost name host.words ps
  word : ∀ a ∈ hits ps, tokenAt (name a).toList = some (.name (name a), (name a).toList.length)
  distinct : ∀ a ∈ hits ps, ∀ b ∈ hits ps, name a = name b → a = b
  finite : ∀ a ∈ hits ps, name a ≠ "math.INFINITY"

def definitions (name : α → String) (places : List α) (meaning : α → Phrase .sum) (s : String) : Option (Phrase .sum) :=
  (places.find? fun a => name a == s).map meaning

lemma definitions_none {s : String} (h : ∀ a ∈ places, name a ≠ s) : definitions name places meaning s = none := by
  have hfind : places.find? (fun a => name a == s) = none := by
    rw [find?_eq_none]
    intro a ha hname
    exact h a ha (eq_of_beq hname)
  unfold definitions
  rw [hfind]
  rfl

lemma definitions_some (hd : ∀ a ∈ places, ∀ b ∈ places, name a = name b → a = b) {a : α} (ha : a ∈ places) :
    definitions name places meaning (name a) = some (meaning a) := by
  unfold definitions
  cases hfind : places.find? fun b => name b == name a with
  | none => exact absurd (beq_self_eq_true (name a)) (find?_eq_none.mp hfind a ha)
  | some b =>
    have hname := find?_some hfind
    rw [hd b (mem_of_find?_eq_some hfind) a ha (eq_of_beq hname)]
    rfl

def Env.bind {β : Type} (env : Env β) (name : α → String) (places : List α) (x : α → β) : Env β :=
  { env with places := places.map (fun a => (name a, x a)) ++ env.places }

lemma lookup_map {β : Type} (places : List α) (x : α → β) (s : String) :
    (places.map fun a => (name a, x a)).lookup s = (places.find? fun a => name a == s).map x := by
  induction places with
  | nil => rfl
  | cons a places ih =>
    rw [map_cons, lookup_cons, find?_cons]
    by_cases hs : s = name a
    · simp [hs]
    · have hne : (s == name a) = false := by simpa using hs
      have hne' : (name a == s) = false := by simpa using Ne.symm hs
      rw [hne, hne']
      exact ih

end

/-! ## Values of texts -/

/-- The text is read as one expression, which gives a number or is refused. -/
def Evaluates {β : Type} [Scalar β] (env : Env β) (cs : List Char) (r : Except Fault β) : Prop :=
  ∃ e, exprs? cs = some [e] ∧ e.outcome env = r

section

variable {β : Type} [Scalar β] {env : Env β} {cs : List Char} {r r' : Except Fault β}

lemma evaluates_of_spelled {p : Phrase .sum} (h : Spelled p.words cs) : Evaluates env cs (p.expr.outcome env) :=
  ⟨p.expr, exprs?_of_spelled h, rfl⟩

lemma Evaluates.unique (h : Evaluates env cs r) (h' : Evaluates env cs r') : r = r' := by
  obtain ⟨e, he, rfl⟩ := h
  obtain ⟨e', he', rfl⟩ := h'
  rw [he, Option.some.injEq, cons.injEq] at he'
  rw [he'.1]

lemma outcome_place {s : String} (hs : s ≠ "math.INFINITY") :
    (Expr.place s).outcome env = match env.places.lookup s with
      | some x => .ok x
      | none => .error .missingPart := by
  unfold Expr.outcome
  rw [Expr.eval]
  · cases env.places.lookup s <;> rfl
  · exact hs

end

section

variable [SpecialFunctions] {α : Type} {name : α → String} {places : List α}
  {meaning : α → Phrase .sum} {env : Env Exact} {x : α → Exact}

lemma binds_definitions (hf : ∀ a ∈ places, name a ≠ "math.INFINITY")
    (hx : ∀ a ∈ places, (meaning a).expr.outcome env = .ok (x a)) :
    Binds (definitions name places meaning) env (env.bind name places x) where
  methods := rfl
  places s := by
    by_cases hs : s = "math.INFINITY"
    · subst hs
      rw [definitions_none hf]
      rfl
    · rw [outcome_place hs, outcome_place hs]
      unfold definitions Env.bind
      rw [lookup_append, lookup_map]
      cases hfind : places.find? fun a => name a == s with
      | none => rfl
      | some a => exact (hx a (mem_of_find?_eq_some hfind)).symm

lemma evaluates_fill {host : Phrase .sum} {ps : List (Piece α)} (hhost : Hosts name host ps)
    {text : α → List Char} (htext : ∀ a ∈ hits ps, Spelled (meaning a).words (text a))
    (hfits : host.fits (definitions name (hits ps) meaning) .sum = true)
    (hx : ∀ a ∈ hits ps, Evaluates env (text a) (.ok (x a))) :
    Spelled (host.expand (definitions name (hits ps) meaning)).words (fill text ps) ∧
      ∃ r, Evaluates env (fill text ps) r ∧
        Evaluates (env.bind name (hits ps) x) (fill (fun a => (name a).toList) ps) r := by
  -- the texts are read in one way only, so their values are those of the expressions they spell
  have hv : ∀ a ∈ hits ps, (meaning a).expr.outcome env = .ok (x a) :=
    fun a ha => (evaluates_of_spelled (htext a ha)).unique (hx a ha)
  have hb := binds_definitions hhost.finite hv
  have hr : Spelled (host.expand (definitions name (hits ps) meaning)).words (fill text ps) := by
    rw [Phrase.words_expand hfits]
    refine hhost.spelled.fill (fun a ha => ?_) fun t ht => ?_
    · rw [Phrase.put_of_some (definitions_some hhost.distinct ha)]
      exact htext a ha
    · cases t with
      | name s => exact Phrase.put_of_none (definitions_none fun a _ hname => ht a (by rw [hname]))
      | _ => rfl
  have hn : Spelled host.words (fill (fun a => (name a).toList) ps) := by
    have hword : ∀ a ∈ hits ps, Spelled [.name (name a)] (name a).toList := by
      intro a ha
      have hcons : Spelled [.name (name a)] ([] ++ ((name a).toList ++ [])) :=
        .cons (by simp) (hhost.word a ha) (.nil (by simp))
      rwa [append_nil] at hcons
    have hfill := hhost.spelled.fill hword fun _ _ => rfl
    rwa [flatMap_singleton'] at hfill
  refine ⟨hr, host.expr.outcome (env.bind name (hits ps) x), ?_, evaluates_of_spelled hn⟩
  rw [← Phrase.outcome_expand hb]
  exact evaluates_of_spelled hr

end

end GridBayes.Code
