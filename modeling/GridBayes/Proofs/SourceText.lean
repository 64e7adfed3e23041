import GridBayes.Proofs.PriorText

/-! Texts without braces. The texts of numbers and what the presets make of their parameters have none. The template
of such a text gives the text back when every variable is filled with its own name. -/
namespace GridBayes
open List Operation

/-! ## Numbers -/

namespace Decimal

def isNumeral (c : Char) : Prop :=
  c.isDigit = true ∨ c ∈ ['.', 'e', '+', '-']

variable {n : Nat} {c : Char} {l : Layout}

lemma isNumeral_toDigits (h : c ∈ Nat.toDigits 10 n) : isNumeral c :=
  .inl (Nat.isDigit_of_mem_toDigits (by decide) (by decide) h)

lemma isNumeral_replicate (h : c ∈ replicate n '0') : isNumeral c := by
  rw [(mem_replicate.mp h).2]
  exact .inl rfl

lemma isNumeral_withPoint {whole fraction : List Char} (hw : ∀ c ∈ whole, isNumeral c)
    (hf : ∀ c ∈ fraction, isNumeral c) : ∀ c ∈ withPoint whole fraction, isNumeral c := by
  intro c hc
  unfold withPoint at hc
  split at hc
  · exact hw c hc
  · rcases mem_append.mp hc with hc | hc
    · exact hw c hc
    · rcases mem_cons.mp hc with rfl | hc
      · exact .inr (by decide)
      · exact hf c hc

lemma isNumeral_exponentDigits (e : Int) : ∀ c ∈ exponentDigits e, isNumeral c := by
  intro c hc
  rcases mem_append.mp hc with hc | hc
  · rcases mem_cons.mp hc with rfl | hc
    · split <;> exact .inr (by decide)
    · exact isNumeral_replicate hc
  · exact isNumeral_toDigits hc

lemma Layout.isNumeral_scientific (h : ∀ c ∈ l.digits, isNumeral c) : ∀ c ∈ l.scientific, isNumeral c := by
  intro c hc
  rcases mem_append.mp hc with hc | hc
  · exact isNumeral_withPoint (fun d hd => h d (mem_of_mem_take hd)) (fun d hd => h d (mem_of_mem_drop hd)) c hc
  · rcases mem_cons.mp hc with rfl | hc
    · exact .inr (by decide)
    · exact isNumeral_exponentDigits _ c hc

lemma Layout.isNumeral_split (h : ∀ c ∈ l.digits, isNumeral c) :
    (∀ c ∈ l.split.1, isNumeral c) ∧ ∀ c ∈ l.split.2, isNumeral c := by
  unfold Layout.split
  split
  · refine ⟨fun c hc => .inl (by rw [mem_singleton.mp hc]; rfl), fun c hc => ?_⟩
    exact (mem_append.mp hc).elim isNumeral_replicate (h c)
  · refine ⟨fun c hc => ?_, fun c hc => h c (mem_of_mem_drop hc)⟩
    exact (mem_append.mp hc).elim (fun hc => h c (mem_of_mem_take hc)) isNumeral_replicate

def isNumberChar (c : Char) : Prop :=
  isNumeral c ∨ c ∈ ['a', 'f', 'i', 'n']

lemma isNumberChar_withSign (x : Float) {body : Binary → List Char} (h : ∀ b, ∀ c ∈ body b, isNumeral c) :
    ∀ c ∈ (withSign x body).toList, isNumberChar c := by
  unfold withSign
  split
  · rename_i b _
    have hs : ∀ c ∈ (if b.negative then '-' :: body b else body b), isNumeral c := by
      split
      · exact forall_mem_cons.mpr ⟨.inr (by decide), h b⟩
      · exact h b
    rw [String.toList_ofList]
    exact fun c hc => .inl (hs c hc)
  · split
    · simp [isNumberChar]
    · split <;> simp [isNumberChar, isNumeral]

lemma isNumberChar_shortText (x : Float) : ∀ c ∈ (shortText x).toList, isNumberChar c := by
  refine isNumberChar_withSign x fun b => ?_
  have hzero : ∀ c ∈ ['0'], isNumeral c := forall_mem_singleton.mpr (.inl rfl)
  have hd : ∀ c ∈ (shortest b).layout.digits, isNumeral c := fun c hc => isNumeral_toDigits hc
  obtain ⟨hw, hf⟩ := Layout.isNumeral_split hd
  dsimp only
  split
  · exact @isNumeral_withPoint ['0'] ['0'] hzero hzero
  · split
    · exact Layout.isNumeral_scientific hd
    · refine isNumeral_withPoint hw ?_
      split
      · exact hzero
      · exact hf

end Decimal

/-! ## Presets -/

namespace Preset
open Template

/-- The texts that stand for the parameters of the family: those that were given, if the name is that of the
family. -/
def sources (p : Preset) (given : List Value) : List String :=
  match p with
  | family _ => given.map Value.text
  | p => (p.parameters given).map Value.text

lemma text_parameters (p : Preset) (given : List Value) : (p.parameters given).map Value.text = p.sources given := by
  cases p with
  | family f => simp [parameters, added, sources]
  | _ => rfl

def isFrameChar (c : Char) : Bool :=
  c.isAlphanum || ['.', '+', '-', '*', '/', '(', ')', ',', ' '].contains c

lemma isFrameChar_shortText (x : Float) : ∀ c ∈ (Decimal.shortText x).toList, isFrameChar c = true := by
  intro c hc
  rcases Decimal.isNumberChar_shortText x c hc with (hd | hmark) | hl
  · simp [isFrameChar, Char.isAlphanum, hd]
  · fin_cases hmark <;> rfl
  · fin_cases hl <;> rfl

def MadeOf (given : List Value) (t : String) : Prop :=
  ∀ c ∈ t.toList, isFrameChar c = true ∨ ∃ v ∈ given, c ∈ v.text.toList

variable {given : List Value}

lemma MadeOf.append {a b : String} (ha : MadeOf given a) (hb : MadeOf given b) : MadeOf given (a ++ b) := by
  intro c hc
  rw [String.toList_append, mem_append] at hc
  exact hc.elim (ha c) (hb c)

lemma madeOf_frame (given : List Value) (t : String) (h : t.toList.all isFrameChar = true) : MadeOf given t :=
  fun c hc => .inl (all_eq_true.mp h c hc)

lemma madeOf_sources (p : Preset) (given : List Value) : ∀ t ∈ p.sources given, MadeOf given t := by
  have hfl : ∀ x : Float, MadeOf given (Value.text (.float x)) := fun x c hc => .inl (isFrameChar_shortText x c hc)
  have hg : ∀ v ∈ given, MadeOf given v.text := fun v hv c hc => .inr ⟨v, hv, hc⟩
  have hf : MadeOf given ((given.head?.map Value.text).getD "") := by
    cases given with
    | nil => exact madeOf_frame _ _ rfl
    | cons v given => exact hg v mem_cons_self
  -- the parameters of a preset are its own numbers, or texts around the first one that was given
  have hb : ∀ front back : String, front.toList.all isFrameChar = true → back.toList.all isFrameChar = true →
      MadeOf given (front ++ (given.head?.map Value.text).getD "" ++ back) := fun front back hfr hback =>
    ((madeOf_frame _ front hfr).append hf).append (madeOf_frame _ back hback)
  have hl : ∀ t ∈ (given ++ p.added).map Value.text, MadeOf given t := by
    have ha : ∀ v ∈ p.added, MadeOf given v.text := by cases p <;> simp [added, hfl]
    exact forall_mem_map.mpr (forall_mem_append.mpr ⟨hg, ha⟩)
  cases p with
  | family f => exact forall_mem_map.mpr hg
  | chabrierDisk | chabrierGlobular | chabrierSpheroid => exact hl
  | casagrandeDisk =>
    intro t ht
    simp only [sources, parameters, map_cons, map_nil, mem_cons, not_mem_nil, or_false] at ht
    rcases ht with rfl | rfl | rfl | rfl | rfl <;> exact hfl _
  | apogeeAlpha =>
    intro t ht
    simp only [sources, parameters, map_cons, map_nil, mem_cons, not_mem_nil, or_false] at ht
    rcases ht with rfl | rfl | rfl | rfl | rfl <;> exact hb _ _ rfl rfl
  | galahAlpha =>
    intro t ht
    simp only [sources, parameters, map_cons, map_nil, mem_cons, not_mem_nil, or_false] at ht
    rcases ht with rfl | rfl
    · have hs := hb "math.fmin(0.0305 - 0.2862*" " + 0.186*" rfl rfl
      exact (((hs.append hf).append (madeOf_frame _ "*" rfl)).append hf).append (madeOf_frame _ ", 0.3987)" rfl)
    · exact hb _ _ rfl rfl

lemma unbraced_sources (p : Preset) (h : ∀ v ∈ given, Unbraced v.text) : ∀ t ∈ p.sources given, Unbraced t := by
  intro t ht
  constructor
  · intro hc
    rcases p.madeOf_sources given t ht _ hc with hf | ⟨v, hv, hc⟩
    · cases hf
    · exact (h v hv).1 hc
  · intro hc
    rcases p.madeOf_sources given t ht _ hc with hf | ⟨v, hv, hc⟩
    · cases hf
    · exact (h v hv).2 hc

end Preset

/-! ## Own names -/

namespace Template

variable {s : Symbol} {source : String}

lemma lookup_valuesOf (f : Symbol → String) {symbols : SymbolSet} (hsy : ∀ t ∈ symbols, t.isLiteral = false)
    (hs : s ∈ symbols) : (valuesOf f symbols).lookup s.ident = some (f s) := by
  induction symbols with
  | nil => cases hs
  | cons t symbols ih =>
    obtain ⟨ht, hrest⟩ := forall_mem_cons.mp hsy
    unfold valuesOf
    rw [map_cons, lookup_cons]
    by_cases heq : s = t
    · rw [heq]
      simp
    · have hne : (s.ident == t.ident) = false := beq_eq_false_iff_ne.mpr fun h => heq (Symbol.ident_inj (hsy s hs) ht h)
      rw [hne]
      exact ih hrest ((mem_cons.mp hs).resolve_left heq)

lemma isLiteral_of_mem_symbols (h : s ∈ symbols source) : s.isLiteral = false := by
  obtain ⟨kind, name, rfl, -⟩ := Symbol.var_of_mem_hits ((SymbolSet.mem_ofList s _).mp h)
  rfl

lemma fill_text_variablePieces (source : String) :
    Text.fill (fun s => s.text.toList) (variablePieces source) = source.toList := by
  refine Text.fill_pieces_self (fun before after s left h => ?_) source.toList
  obtain ⟨kind, name, rfl, -, rfl⟩ := symbolAt?_some (Text.atWord_eq_some.mp h).2
  simp [Symbol.text]

lemma fillNamed_names (h : Unbraced source) :
    fillNamed (valuesOf Symbol.text (symbols source)) (ofSource source) = .ok source := by
  have hown : ∀ s ∈ symbols source, (valuesOf Symbol.text (symbols source)).lookup s.ident = some s.text :=
    fun s hs => lookup_valuesOf Symbol.text (fun t ht => isLiteral_of_mem_symbols ht) hs
  refine (fillNamed_ofSource h.1 h.2).mpr ⟨fun s hs => by rw [hown s hs]; rfl, ?_⟩
  apply String.toList_inj.mp
  rw [placed, String.toList_ofList]
  refine (fill_text_variablePieces source).symm.trans (Text.fill_congr fun s hs => ?_)
  rw [hown s ((SymbolSet.mem_ofList s _).mpr hs)]
  rfl

end Template

end GridBayes
