import GridBayes.Proofs.VariablePlaces

/-! The text of priors. Each prior gives one block of each method, whatever its distribution and its transform:
the block of the quantile method starts with the place of the variable and an equals sign, and the block of the
log-prior adds a density whose first argument is the place, perhaps transformed. -/
namespace GridBayes
open List Operation Code Text Except

/-! ## Marks -/

namespace Text

def isMark (c : Char) : Bool :=
  c == '\x7b' || c == '\x7d' || c == '(' || isLineEnd c

variable {c : Char} {s a : String}

lemma isMark_codes (h : isMark c = true) : c.toNat ∈ [123, 125, 40, 10, 11, 12, 13, 28, 29, 30, 133, 8232, 8233] := by
  simp only [isMark, isLineEnd, Bool.or_eq_true, Bool.and_eq_true, decide_eq_true_eq, beq_iff_eq] at h
  simp only [mem_cons]
  rcases h with ((rfl | rfl) | rfl) | h
  · exact .inl rfl
  · exact .inr (.inl rfl)
  · exact .inr (.inr (.inl rfl))
  · omega

lemma lowerChar_of_isMark (h : isMark c = true) : lowerChar c = [c] ∧ c.toNat ≠ 0x3A3 := by
  have hall : ∀ n ∈ [123, 125, 40, 10, 11, 12, 13, 28, 29, 30, 133, 8232, 8233],
      lowerChar (Char.ofNat n) = [Char.ofNat n] ∧ (Char.ofNat n).toNat ≠ 0x3A3 := by decide +kernel
  rw [← Char.ofNat_toNat c]
  exact hall c.toNat (isMark_codes h)

lemma mem_lowerChars (hself : lowerChar c = [c]) (hs : c.toNat ≠ 0x3A3) {before cs : List Char} (h : c ∈ cs) :
    c ∈ lowerChars before cs := by
  induction cs generalizing before with
  | nil => cases h
  | cons d cs ih =>
    rw [lowerChars, mem_append]
    rcases mem_cons.mp h with rfl | h
    · left
      rw [if_neg (by simpa using hs), hself]
      exact mem_cons_self
    · exact .inr (ih h)

lemma unmarked_of_lower (h : ∀ c ∈ (lower s).toList, isMark c = false) : ∀ c ∈ s.toList, isMark c = false := by
  intro c hc
  by_contra hmark
  have hmark : isMark c = true := by simpa using hmark
  obtain ⟨hself, hs⟩ := lowerChar_of_isMark hmark
  have hl : c ∈ (lower s).toList := by
    rw [lower, String.toList_ofList]
    exact mem_lowerChars hself hs hc
  rw [h c hl] at hmark
  cases hmark

/-! ## Starts of texts -/

lemma startsWith_iff : startsWith a s = true ↔ a.toList <+: s.toList := by
  unfold startsWith
  generalize a.toList = start
  generalize s.toList = text
  induction start generalizing text with
  | nil => simp [afterStart?]
  | cons c start ih =>
    cases text with
    | nil => simp [afterStart?]
    | cons d text =>
      rw [afterStart?]
      by_cases h : c = d
      · simp [h, ih]
      · simp [h]

lemma lineChars_begun {line : List Char} (h : line ≠ []) (cs : List Char) :
    ∃ more rest, lineChars line cs = (line.reverse ++ more) :: rest := by
  fun_induction lineChars line cs with
  | case1 => exact absurd rfl h
  | case2 d line => exact ⟨[], [], by simp⟩
  | case3 line rest | case4 line d rest => exact ⟨[], _, by rw [append_nil]⟩
  | case5 line d rest _ _ ih =>
    obtain ⟨more, rest', hmore⟩ := ih (cons_ne_nil d line)
    exact ⟨d :: more, rest', by rw [hmore]; simp⟩

lemma join_cons (sep x : String) (rest : List String) : ∃ more, join sep (x :: rest) = x ++ more := by
  cases rest with
  | nil => exact ⟨"", by simp [join]⟩
  | cons y rest => exact ⟨_, join_cons_cons sep x y rest⟩

lemma inline_literal (h : s.toList.all (!isLineEnd ·) = true) : ∀ c ∈ s.toList, isLineEnd c = false := by
  intro c hc
  simpa using all_eq_true.mp h c hc

lemma inline_append {b : String} (ha : ∀ c ∈ a.toList, isLineEnd c = false)
    (hb : ∀ c ∈ b.toList, isLineEnd c = false) : ∀ c ∈ (a ++ b).toList, isLineEnd c = false := by
  intro c hc
  rw [String.toList_append, mem_append] at hc
  exact hc.elim (ha c) (hb c)

end Text

lemma Program.indentLines_append (indent : String) {a : String} (hne : a.toList ≠ [])
    (ha : ∀ c ∈ a.toList, isLineEnd c = false) (b : String) :
    ∃ more, indentLines indent (a ++ b) = indent ++ a ++ more := by
  have hl : ∃ x rest, lines (a ++ b) = (a ++ x) :: rest := by
    unfold lines
    rw [String.toList_append, lineChars_append ha, append_nil]
    obtain ⟨more, rest, h⟩ := lineChars_begun (reverse_ne_nil_iff.mpr hne) b.toList
    refine ⟨String.ofList more, rest.map String.ofList, ?_⟩
    rw [h, map_cons, reverse_reverse, String.ofList_append, String.ofList_toList]
  obtain ⟨x, rest, hl⟩ := hl
  unfold indentLines
  rw [hl, map_cons]
  obtain ⟨more, hmore⟩ := join_cons "\n" (indent ++ (a ++ x)) (rest.map (indent ++ ·))
  exact ⟨x ++ more, by rw [hmore]; simp only [String.append_assoc]⟩

/-! ## Entries of the vector -/

namespace Code

lemma eq_of_closed {close : Char} {a a' x y : List Char} (ha : close ∉ a) (ha' : close ∉ a')
    (h : a ++ close :: x <+: a' ++ close :: y) : a = a' := by
  induction a generalizing a' with
  | nil =>
    cases a' with
    | nil => rfl
    | cons d a' =>
      rw [nil_append, cons_append, cons_prefix_cons] at h
      exact absurd mem_cons_self (h.1 ▸ ha')
  | cons c a ih =>
    cases a' with
    | nil =>
      rw [nil_append, cons_append, cons_prefix_cons] at h
      exact absurd mem_cons_self (h.1 ▸ ha)
    | cons d a' =>
      rw [cons_append, cons_append, cons_prefix_cons] at h
      rw [h.1, ih (fun hmem => ha (mem_cons_of_mem c hmem)) (fun hmem => ha' (mem_cons_of_mem d hmem)) h.2]

lemma entryText_unique {i j : Nat} {rest : List Char}
    (h : (entryText i).toList <+: (entryText j).toList ++ rest) : i = j := by
  have hc : ∀ n : Nat, ']' ∉ (toString n).toList := fun n hmem => by
    have hdi := isDigit_of_mem_toString hmem
    revert hdi
    decide
  have htext : ∀ n : Nat, (entryText n).toList = "params[".toList ++ ((toString n).toList ++ [']']) := by
    simp [entryText]
  rw [htext, htext, append_assoc, prefix_append_right_inj, append_assoc] at h
  have hd := eq_of_closed (hc i) (hc j) h
  rw [Nat.toString_eq_ofList_toDigits, Nat.toString_eq_ofList_toDigits, String.toList_ofList,
    String.toList_ofList] at hd
  rw [← Nat.ofDigitChars_ten_toDigits (n := i), hd, Nat.ofDigitChars_ten_toDigits]

end Code

namespace Variables

variable {vars : Variables} {s : Symbol} {place : String} {i : Nat}

lemma param_of_start (h : vars.Grouped) (hs : s.isLiteral = false)
    (hp : vars.mapping.lookup s.ident = some place) {rest : List Char}
    (hst : (entryText i).toList <+: place.toList ++ rest) : vars.params[i]? = some s := by
  rcases (lookup_mapping_iff h hs).mp hp with ⟨-, rfl⟩ | ⟨j, hj, rfl⟩
  · simp [entryText] at hst
  · rwa [entryText_unique hst]

lemma place_of_param (h : vars.Grouped) (hs : s.isLiteral = false)
    (hp : vars.mapping.lookup s.ident = some place) (hi : vars.params[i]? = some s) : place = entryText i := by
  have he := (lookup_mapping_iff h hs).mpr (.inr ⟨i, hi, rfl⟩)
  exact Option.some.inj (hp.symm.trans he)

end Variables

/-! ## Priors as they are made -/

lemma Preset.unmarked_name (p : Preset) : ∀ c ∈ p.name.toList, isMark c = false := by
  have hall : p.name.toList.all (!isMark ·) = true := by
    cases p with
    | family f => cases f <;> rfl
    | _ => rfl
  intro c hc
  simpa using all_eq_true.mp hall c hc

variable {name : String}

lemma Preset.name_of_ofName? {p : Preset} (h : ofName? name = some p) : p.name = name := by
  have hname := find?_some h
  exact beq_iff_eq.mp hname

structure DistributionCall.HasSources (d : DistributionCall) (sources : List String) : Prop where
  params : d.params = sources.map Template.ofSource
  requires : ∀ s, s ∈ d.requires ↔ ∃ t ∈ sources, s ∈ Template.symbols t

lemma DistributionCall.hasSources_of_create {var : Value} {params : List Value}
    {d : DistributionCall} {preset : Preset} (hpr : Preset.ofName? (lower name) = some preset)
    (h : create var name params = .ok d) : d.HasSources ((preset.parameters params).map Value.text) := by
  obtain ⟨p, hp, h⟩ := bind_eq_ok.mp h
  obtain ⟨symbol, -, h⟩ := bind_eq_ok.mp h
  cases h
  obtain rfl : p = preset := by
    unfold DistributionCall.preset at hp
    simp only [hpr] at hp
    split at hp
    · exact (ok.inj hp).symm
    · cases hp
  refine ⟨rfl, fun s => ?_⟩
  generalize (p.parameters params).map Value.text = texts
  induction texts with
  | nil => simp
  | cons t texts ih => rw [foldr_cons, SymbolSet.mem_union, ih, exists_mem_cons_iff]

structure Prior.Made (p : Prior) : Prop where
  sources : ∃ sources, p.call.HasSources sources
  written : ∀ c ∈ p.written.toList, isMark c = false
  var : p.call.var.isLiteral = false → ∃ (kind : VarKind) (name : List Char),
    p.call.var = .var kind (String.ofList name) ∧ ∀ c ∈ name, isWord c = true

lemma Prior.made_of_ofValues {var name params : Value} {p : Prior} (h : ofValues var name params = .ok p) :
    p.Made := by
  obtain ⟨name, -, h⟩ := bind_eq_ok.mp h
  obtain ⟨items, -, h⟩ := bind_eq_ok.mp h
  obtain ⟨hw, hcall⟩ := create_eq_ok h
  obtain ⟨preset, hp, -, -, hs⟩ := DistributionCall.create_eq_ok hcall
  refine ⟨⟨_, DistributionCall.hasSources_of_create hp hcall⟩, ?_, Symbol.var_of_ofValue hs⟩
  rw [hw]
  apply unmarked_of_lower
  rw [← Preset.name_of_ofName? hp]
  exact preset.unmarked_name

/-! ## Filled code -/

namespace Template

lemma closed_fill {α : Type} {f : α → List Char} {pieces : List (Text.Piece α)}
    (hch : ∀ c, Text.Piece.char c ∈ pieces → c ≠ '\x7b' ∧ c ≠ '\x7d')
    (hf : ∀ a ∈ Text.hits pieces, Closed (f a)) : Closed (Text.fill f pieces) := by
  induction pieces with
  | nil => exact closed_nil
  | cons piece pieces ih =>
    have hc' : ∀ c, Text.Piece.char c ∈ pieces → c ≠ '\x7b' ∧ c ≠ '\x7d' := fun c hc => hch c (mem_cons_of_mem piece hc)
    cases piece with
    | char c =>
      obtain ⟨hopen, hcl⟩ := hch c mem_cons_self
      exact closed_char hopen hcl (ih hc' hf)
    | hit a => exact (hf a mem_cons_self).append (ih hc' fun b hb => hf b (mem_cons_of_mem a hb))

lemma closed_var {kind : VarKind} {name : List Char} (hword : ∀ c ∈ name, isWord c = true) :
    Closed (Symbol.var kind (String.ofList name)).bracketed.toList := by
  have hp := Symbol.isPlainName_ident kind hword
  have hc : (Symbol.var kind (String.ofList name)).bracketed.toList =
      '\x7b' :: ((kind.letter :: '_' :: '_' :: name) ++ ['\x7d']) := by
    rw [Symbol.bracketed_var]
    simp
  rw [hc]
  exact closed_field hp.isFieldName.unmarked hp.isFieldName.nonempty closed_nil

lemma Unbraced.closed_ofSource {source : String} (h : Unbraced source) : Closed (ofSource source).toList := by
  unfold ofSource
  rw [String.toList_ofList]
  refine closed_fill (fun c hc => ?_) fun s hs => ?_
  · have hmem := mem_of_char_mem hc
    exact ⟨fun he => h.1 (he ▸ hmem), fun he => h.2 (he ▸ hmem)⟩
  · obtain ⟨kind, name, rfl, hword⟩ := Symbol.var_of_mem_hits hs
    exact closed_var hword

variable {sep a b text : String} {templates : List String} {fields : Fields}

lemma closed_join (hsep : Unbraced sep) (h : ∀ t ∈ templates, Closed t.toList) :
    Closed (join sep templates).toList := by
  induction templates with
  | nil => exact closed_nil
  | cons t templates ih =>
    obtain ⟨ht, hrest⟩ := forall_mem_cons.mp h
    cases templates with
    | nil => exact ht
    | cons t' templates =>
      rw [join_cons_cons, String.toList_append, String.toList_append]
      exact ht.append (hsep.closed.append (ih hrest))

lemma forall₂_of_fill_join (hsep : Unbraced sep) (hc : ∀ t ∈ templates, Closed t.toList)
    (h : fill fields (join sep templates) = .ok text) :
    ∃ filled, Forall₂ (fun t s => fill fields t = .ok s) templates filled := by
  induction templates generalizing text with
  | nil => exact ⟨[], .nil⟩
  | cons t templates ih =>
    obtain ⟨ht, hrest⟩ := forall_mem_cons.mp hc
    cases templates with
    | nil =>
      have hjoin : join sep [t] = t := by simp [join]
      exact ⟨[text], .cons h .nil⟩
    | cons t' templates =>
      rw [join_cons_cons] at h
      obtain ⟨first, _, hfi, htail, _⟩ := (fill_append_iff ht).mp h
      obtain ⟨_, rest, _, hj, _⟩ := (fill_append_iff hsep.closed).mp htail
      obtain ⟨filled, hf⟩ := ih hrest hj
      exact ⟨first :: filled, .cons hfi hf⟩

lemma fill_unique {t : String} (ha : fill fields t = .ok a) (hb : fill fields t = .ok b) : a = b :=
  ok.inj (ha.symm.trans hb)

end Template

namespace Prior
open Template

variable {fields : Fields} {p : Prior} {var params text : String}

def opening (p : Prior) : String :=
  match p.transform with
  | none => ""
  | some t => t.forward ++ "("

lemma unbraced_written (h : ∀ c ∈ p.written.toList, isMark c = false) : Unbraced p.written := by
  have hb : ∀ c, isMark c = true → c ∉ p.written.toList := fun c hc hmem => by
    rw [h c hmem] at hc
    cases hc
  exact ⟨hb '\x7b' rfl, hb '\x7d' rfl⟩

lemma inline_opening (p : Prior) : ∀ c ∈ p.opening.toList, isLineEnd c = false := by
  unfold opening
  cases p.transform with
  | none => exact inline_literal rfl
  | some t => cases t <;> exact inline_literal rfl

lemma unbraced_opening (p : Prior) : Unbraced p.opening := by
  unfold opening
  cases p.transform with
  | none => exact ⟨by decide, by decide⟩
  | some t => cases t <;> exact ⟨by decide, by decide⟩

lemma closed_bracketed (hmade : p.Made) (hvar : p.call.var.isLiteral = false) :
    Closed p.call.var.bracketed.toList := by
  obtain ⟨kind, name, hname, hword⟩ := hmade.var hvar
  rw [hname]
  exact closed_var hword

lemma fill_of_quantileCode (hw : Unbraced p.written) (hvar : Closed var.toList)
    (h : fill fields (p.quantileCode var params) = .ok text) :
    (∃ place rest, fill fields var = .ok place ∧ text = place ++ " = " ++ rest) ∧
      (Closed params.toList → ∃ params', fill fields params = .ok params') := by
  have hcall : Closed (p.written ++ ("_ppf(" ++ (var ++ ", "))).toList := by
    simp only [String.toList_append]
    exact hw.closed.append ((closed_text (by decide) (by decide)).append
      (hvar.append (closed_text (by decide) (by decide))))
  obtain ⟨front, back, hf, hcode⟩ : ∃ front back, Closed (String.toList front) ∧
      p.quantileCode var params = var ++ (" = " ++ (front ++ (params ++ back))) := by
    unfold quantileCode
    cases p.transform with
    | none =>
      refine ⟨_, ")", hcall, ?_⟩
      simp only [String.append_assoc]
    | some t =>
      refine ⟨t.inverse ++ ("(" ++ (p.written ++ ("_ppf(" ++ (var ++ ", ")))), ")" ++ ")", ?_, ?_⟩
      · have hi : Closed (t.inverse ++ "(").toList := by cases t <;> exact closed_text (by decide) (by decide)
        rw [← String.append_assoc, String.toList_append]
        exact hi.append hcall
      · simp only [String.append_assoc]
  rw [hcode, fill_append_iff hvar] at h
  obtain ⟨place, rest, hpl, hrest, rfl⟩ := h
  have hsign : Unbraced " = " := ⟨by decide, by decide⟩
  obtain ⟨equals, side, he, hside, rfl⟩ := (fill_append_iff hsign.closed).mp hrest
  obtain rfl := fill_unique he (fill_text hsign.1 hsign.2)
  obtain ⟨_, _, _, htail, _⟩ := (fill_append_iff hf).mp hside
  refine ⟨⟨place, side, hpl, (String.append_assoc ..).symm⟩, fun hp => ?_⟩
  obtain ⟨params', _, hp', _⟩ := (fill_append_iff hp).mp htail
  exact ⟨params', hp'⟩

lemma fill_of_densityCode (hw : Unbraced p.written) (hvar : Closed var.toList)
    (h : fill fields (p.densityCode var params) = .ok text) :
    (∃ place rest, fill fields var = .ok place ∧
      text = "logP += " ++ p.written ++ "_lpdf(" ++ p.opening ++ place ++ rest) ∧
      (Closed params.toList → ∃ params', fill fields params = .ok params') := by
  have hf : Unbraced ("logP += " ++ p.written ++ "_lpdf(" ++ p.opening) := by
    obtain ⟨hopen, hcl⟩ := hw
    obtain ⟨hopen', hc'⟩ := p.unbraced_opening
    constructor <;> simp [*]
  obtain ⟨comma, back, hc, hcode⟩ : ∃ comma back, Unbraced comma ∧ p.densityCode var params =
      ("logP += " ++ p.written ++ "_lpdf(" ++ p.opening) ++ (var ++ (comma ++ (params ++ back))) := by
    unfold densityCode opening
    cases p.transform with
    | none =>
      refine ⟨", ", ")", ⟨by decide, by decide⟩, ?_⟩
      simp only [String.append_assoc, String.empty_append]
    | some t =>
      refine ⟨"), ", ") + " ++ t.logJacobian ++ "(" ++ var ++ ")", ⟨by decide, by decide⟩, ?_⟩
      simp only [String.append_assoc]
  rw [hcode, fill_append_iff hf.closed] at h
  obtain ⟨front, call, hfi, hcall, rfl⟩ := h
  obtain rfl := fill_unique hfi (fill_text hf.1 hf.2)
  obtain ⟨place, rest, hpl, hrest, rfl⟩ := (fill_append_iff hvar).mp hcall
  refine ⟨⟨place, rest, hpl, (String.append_assoc ..).symm⟩, fun hp => ?_⟩
  obtain ⟨_, _, _, htail, _⟩ := (fill_append_iff hc.closed).mp hrest
  obtain ⟨params', _, hp', _⟩ := (fill_append_iff hp).mp htail
  exact ⟨params', hp'⟩

end Prior

/-! ## Blocks -/

namespace Program
open Template Prior

/-- The block of a prior: its code with the places of its variables. -/
def Renders (vars : Variables) (prior : Prior) (code : String → String → String) (block : String) : Prop :=
  ∃ place text, vars.mapping.lookup prior.call.var.ident = some place ∧
    fillNamed vars.mapping (code prior.call.var.bracketed prior.call.paramText) = .ok text ∧
    block = indentLines "    " text ∧
    ∀ sources, prior.call.HasSources sources → (∀ t ∈ sources, Unbraced t) →
      text = code place (join ", " (sources.map (placed vars.mapping)))

variable {vars : Variables} {prior : Prior} {block : String}

lemma paramText_of_fill {sources : List String} {text : String} (h : prior.call.HasSources sources)
    (hs : ∀ t ∈ sources, Unbraced t) (hfill : fillNamed vars.mapping prior.call.paramText = .ok text) :
    text = join ", " (sources.map (placed vars.mapping)) := by
  have hc : Unbraced ", " := ⟨by decide, by decide⟩
  unfold DistributionCall.paramText at hfill
  rw [h.params] at hfill
  have hcl : ∀ t ∈ sources.map ofSource, Closed t.toList := forall_mem_map.mpr fun t ht => (hs t ht).closed_ofSource
  obtain ⟨filled, hf⟩ := forall₂_of_fill_join hc hcl hfill
  obtain rfl := fill_unique hfill (fill_join hc.1 hc.2 hf)
  have hp : Forall₂ (fun t s => s = placed vars.mapping t) sources filled := by
    refine Forall₂.imp ?_ ((forall₂_and_left sources filled).mpr ⟨hs, forall₂_map_left_iff.mp hf⟩)
    exact fun t s ht => ((fillNamed_ofSource ht.1.1 ht.1.2).mp ht.2).2
  congr 1
  rw [← forall₂_eq_eq_eq, forall₂_map_right_iff]
  exact hp.flip

def assignsEntry (i : Nat) (block : String) : Bool :=
  startsWith ("    " ++ entryText i ++ " = ") block

variable {place a b : String} {c : Char}

section

variable (hmade : prior.Made) (hvar : prior.call.var.isLiteral = false)

include hmade hvar

lemma renders_of_block {code : String → String → String}
    (hpar : ∀ {var params text : String}, Closed var.toList → fillNamed vars.mapping (code var params) = .ok text →
      (∃ place, fillNamed vars.mapping var = .ok place) ∧
        (Closed params.toList → ∃ params', fillNamed vars.mapping params = .ok params'))
    (hw : ∀ {var params var' params' : String}, fillNamed vars.mapping var = .ok var' →
      fillNamed vars.mapping params = .ok params' →
      fillNamed vars.mapping (code var params) = .ok (code var' params'))
    (h : Program.block vars.mapping "    " (code prior.call.var.bracketed prior.call.paramText) = .ok block) :
    Renders vars prior code block := by
  obtain ⟨kind, name, hname, hword⟩ := hmade.var hvar
  obtain ⟨text, htext, rfl⟩ := map_eq_ok.mp h
  obtain ⟨⟨place, hp⟩, hpa⟩ := hpar (closed_bracketed hmade hvar) htext
  have hl : vars.mapping.lookup prior.call.var.ident = some place := by
    rw [hname] at hp ⊢
    exact (fillNamed_var hword).mp hp
  refine ⟨place, text, hl, htext, rfl, fun sources hs hu => ?_⟩
  have hj : Closed prior.call.paramText.toList := by
    unfold DistributionCall.paramText
    rw [hs.params]
    exact closed_join ⟨by decide, by decide⟩ (forall_mem_map.mpr fun t ht => (hu t ht).closed_ofSource)
  obtain ⟨params', hp'⟩ := hpa hj
  rw [← paramText_of_fill hs hu hp']
  exact fill_unique htext (hw hp hp')

lemma renders_quantile (h : Program.block vars.mapping "    " prior.quantile = .ok block) :
    Renders vars prior prior.quantileCode block := by
  have hw := unbraced_written hmade.written
  refine renders_of_block hmade hvar (fun hc htext => ?_)
    (fun hpl hp => fill_quantileCode (fill_text hw.1 hw.2) hpl hp) h
  obtain ⟨⟨place, -, hpl, -⟩, hp⟩ := fill_of_quantileCode hw hc htext
  exact ⟨⟨place, hpl⟩, hp⟩

lemma renders_density (h : Program.block vars.mapping "    " prior.density = .ok block) :
    Renders vars prior prior.densityCode block := by
  have hw := unbraced_written hmade.written
  refine renders_of_block hmade hvar (fun hc htext => ?_)
    (fun hpl hp => fill_densityCode (fill_text hw.1 hw.2) hpl hp) h
  obtain ⟨⟨place, -, hpl, -⟩, hp⟩ := fill_of_densityCode hw hc htext
  exact ⟨⟨place, hpl⟩, hp⟩

/-! ## What a block is about -/

lemma fillNamed_place : fillNamed vars.mapping prior.call.var.bracketed = .ok place ↔
      vars.mapping.lookup prior.call.var.ident = some place := by
  obtain ⟨kind, name, hname, hword⟩ := hmade.var hvar
  rw [hname]
  exact fillNamed_var hword

lemma inline_place_var (h : vars.mapping.lookup prior.call.var.ident = some place) : ∀ c ∈ place.toList, isLineEnd c = false := by
  obtain ⟨kind, name, hname, hword⟩ := hmade.var hvar
  rw [hname] at h
  exact (inline_of_lookup hword h).2

lemma quantile_start (h : Renders vars prior prior.quantileCode block) :
    ∃ place more, vars.mapping.lookup prior.call.var.ident = some place ∧
      block = "    " ++ (place ++ " = ") ++ more := by
  obtain ⟨place, text, hp, htext, rfl, -⟩ := h
  obtain ⟨⟨place', rest, hp', rfl⟩, -⟩ :=
    fill_of_quantileCode (unbraced_written hmade.written) (closed_bracketed hmade hvar) htext
  obtain rfl := fill_unique hp' ((fillNamed_place hmade hvar).mpr hp)
  obtain ⟨more, hmore⟩ := indentLines_append "    " (a := place' ++ " = ") (by simp)
    (inline_append (inline_place_var hmade hvar hp) (inline_literal rfl)) rest
  exact ⟨place', more, hp, hmore⟩

lemma density_start (h : Renders vars prior prior.densityCode block) :
    ∃ place more, vars.mapping.lookup prior.call.var.ident = some place ∧
      block = "    " ++ ("logP += " ++ prior.written ++ "_lpdf(" ++ prior.opening ++ place) ++ more := by
  obtain ⟨place, text, hp, htext, rfl, -⟩ := h
  obtain ⟨⟨place', rest, hp', rfl⟩, -⟩ :=
    fill_of_densityCode (unbraced_written hmade.written) (closed_bracketed hmade hvar) htext
  obtain rfl := fill_unique hp' ((fillNamed_place hmade hvar).mpr hp)
  have hw : ∀ c ∈ prior.written.toList, isLineEnd c = false := fun c hc =>
    (Bool.or_eq_false_iff.mp (hmade.written c hc)).2
  have hf := inline_append (inline_append (inline_append
    (inline_literal (s := "logP += ") rfl) hw) (inline_literal (s := "_lpdf(") rfl))
    prior.inline_opening
  obtain ⟨more, hmore⟩ := indentLines_append "    "
    (a := "logP += " ++ prior.written ++ "_lpdf(" ++ prior.opening ++ place') (by simp)
    (inline_append hf (inline_place_var hmade hvar hp)) rest
  exact ⟨place', more, hp, hmore⟩

lemma assignsEntry_iff (hvars : vars.Grouped) (h : Renders vars prior prior.quantileCode block) (i : Nat) :
    assignsEntry i block = true ↔ vars.params[i]? = some prior.call.var := by
  obtain ⟨place, more, hp, rfl⟩ := quantile_start hmade hvar h
  unfold assignsEntry
  rw [startsWith_iff]
  simp only [String.toList_append, append_assoc, prefix_append_right_inj]
  constructor
  · intro hs
    exact Variables.param_of_start hvars hvar hp ((prefix_append _ _).trans hs)
  · intro hi
    rw [Variables.place_of_param hvars hvar hp hi, prefix_append_right_inj]
    exact prefix_append _ _

end

/-- What can stand before the variable in the first argument of a density. -/
def openings : List String :=
  "" :: Transform.all.map fun t => t.forward ++ "("

def argumentOf (block : String) : String :=
  String.ofList ((block.toList.dropWhile (· != '(')).drop 1)

/-- The block adds a density of an entry of the vector, perhaps transformed. -/
def scoresEntry (i : Nat) (block : String) : Bool :=
  startsWith "    logP += " block && openings.any fun opening => startsWith (opening ++ entryText i) (argumentOf block)

lemma opening_mem (p : Prior) : p.opening ∈ openings := by
  unfold Prior.opening
  cases p.transform with
  | none => exact mem_cons_self
  | some t => cases t <;> decide

lemma openings_free (ha : a ∈ openings) (hb : b ∈ openings) (hc : c ∈ ['p', 's'])
    (h : a.toList ++ ['p'] <+: b.toList ++ [c] ∨ b.toList ++ [c] <+: a.toList ++ ['p']) : a = b := by
  have hall : (openings.all fun a => openings.all fun b => ['p', 's'].all fun c =>
      a == b || !((a.toList ++ ['p']).isPrefixOf (b.toList ++ [c]) ||
        (b.toList ++ [c]).isPrefixOf (a.toList ++ ['p']))) = true := by decide +kernel
  have hfree := all_eq_true.mp (all_eq_true.mp (all_eq_true.mp hall a ha) b hb) c hc
  rw [← isPrefixOf_iff_prefix, ← isPrefixOf_iff_prefix, ← Bool.or_eq_true] at h
  rw [h, Bool.not_true, Bool.or_false] at hfree
  exact beq_iff_eq.mp hfree

lemma opening_of_start (ha : a ∈ openings) (hb : b ∈ openings) {rest : List Char} (hc : c ∈ ['p', 's'])
    (hp : place.toList.head? = some c) {i : Nat}
    (h : a.toList ++ (entryText i).toList <+: b.toList ++ (place.toList ++ rest)) : a = b := by
  have hleft : a.toList ++ ['p'] <+: b.toList ++ (place.toList ++ rest) := by
    refine IsPrefix.trans ?_ h
    simp [entryText]
  have hr : b.toList ++ [c] <+: b.toList ++ (place.toList ++ rest) := by
    obtain ⟨cs, hcs⟩ := head?_eq_some_iff.mp hp
    rw [hcs]
    simp
  have hmeet := prefix_or_prefix_of_prefix hleft hr
  exact openings_free ha hb hc hmeet

lemma argumentOf_density {front : String} (rest : String) (h : '(' ∉ front.toList) :
    argumentOf (front ++ "(" ++ rest) = rest := by
  have hf : ∀ c ∈ front.toList, (c != '(') = true := fun c hc => bne_iff_ne.mpr fun he => h (he ▸ hc)
  unfold argumentOf
  rw [String.toList_append, String.toList_append, append_assoc, dropWhile_append_of_pos hf]
  simp

lemma scoresEntry_iff (hmade : prior.Made) (hvar : prior.call.var.isLiteral = false) (hvars : vars.Grouped)
    (h : Renders vars prior prior.densityCode block) (i : Nat) :
    scoresEntry i block = true ↔ vars.params[i]? = some prior.call.var := by
  obtain ⟨place, more, hp, rfl⟩ := density_start hmade hvar h
  have hw : '(' ∉ prior.written.toList := fun hmem => by
    have := hmade.written _ hmem
    cases this
  have ha : argumentOf ("    " ++ ("logP += " ++ prior.written ++ "_lpdf(" ++ prior.opening ++ place)
      ++ more) = prior.opening ++ (place ++ more) := by
    have hfr : '(' ∉ ("    logP += " ++ prior.written ++ "_lpdf").toList := by simp [hw]
    rw [← argumentOf_density (prior.opening ++ (place ++ more)) hfr]
    congr 1
    apply String.toList_inj.mp
    simp
  have hs : startsWith "    logP += " ("    " ++ ("logP += " ++ prior.written ++ "_lpdf("
      ++ prior.opening ++ place) ++ more) = true := by
    rw [startsWith_iff]
    simp
  unfold scoresEntry
  rw [hs, Bool.true_and, ha, any_eq_true]
  simp only [startsWith_iff, String.toList_append]
  constructor
  · rintro ⟨opening, hmem, ho⟩
    obtain ⟨c, hc, hf⟩ : ∃ c ∈ ['p', 's'], place.toList.head? = some c := by
      rcases lookup_places hp with rfl | ⟨j, rfl⟩
      · exact ⟨'s', by decide, by simp⟩
      · exact ⟨'p', by decide, by simp⟩
    obtain rfl := opening_of_start hmem (opening_mem prior) hc hf ho
    rw [prefix_append_right_inj] at ho
    exact Variables.param_of_start hvars hvar hp ho
  · intro hi
    refine ⟨prior.opening, opening_mem prior, ?_⟩
    rw [Variables.place_of_param hvars hvar hp hi, prefix_append_right_inj]
    exact prefix_append _ _

end Program

end GridBayes
