import GridBayes.Proofs.AddedEntries
import GridBayes.Proofs.InsertionOrder
import GridBayes.Proofs.PriorRepetition

/-! The text of a program from the texts that were given to it. Where those have no braces, each of them stands in the
text of the program as it was written, but for the variables, which are replaced by their places; and if there is
no text, then one of the checks of the program says why. -/
namespace GridBayes.Program
open List Operation Template Code Except Variables GridBayes.Order

/-! ## What is written -/

/-- The code is the source with a place for every variable. -/
def Rewritten (vars : Variables) (source code : String) : Prop :=
  (∀ s ∈ symbols source, (vars.mapping.lookup s.ident).isSome = true) ∧ code = placed vars.mapping source

/-- The code of an entry of the forward model or of the likelihood, before it is indented. -/
inductive EntryCode (vars : Variables) : Entry → String → Prop where
  | expression {source code : String} (h : Rewritten vars source code) : EntryCode vars (.expression (.str source)) code
  | assign {target source place code : String} {e : Equation} (he : Equation.ofCall target source = .ok e)
      (hplace : vars.mapping.lookup e.target.ident = some place) (h : Rewritten vars source code) :
      EntryCode vars (.assign (.str target) (.str source)) (place ++ " = " ++ code)
  | constraint {var params : Value} {name place : String} {preset : Preset} {given : List Value}
      {call : DistributionCall} {codes : List String} (hcall : Uses var name params preset given call)
      (hplace : vars.mapping.lookup call.var.ident = some place)
      (h : Forall₂ (Rewritten vars) (preset.sources given) codes) :
      EntryCode vars (.constraint var (.str name) params)
        ("logL += " ++ preset.base.name ++ "_lpdf(" ++ place ++ ", " ++ Text.join ", " codes ++ ")")

/-- The code of a prior, which is made of the place of its variable and of its parameters. -/
inductive PriorEntryCode (vars : Variables) (code : Prior → String → String → String) : Entry → String → Prop where
  | prior {var params : Value} {name place : String} {prior : Prior} {preset : Preset} {given : List Value}
      {codes : List String} (hprior : Prior.ofValues var (.str name) params = .ok prior)
      (hcall : Uses var prior.written params preset given prior.call)
      (hplace : vars.mapping.lookup prior.call.var.ident = some place)
      (h : Forall₂ (Rewritten vars) (preset.sources given) codes) :
      PriorEntryCode vars code (.prior var (.str name) params) (code prior place (Text.join ", " codes))

/-! ## Filling -/

def Covers {α : Type} [Order.Part α] (vars : Variables) (a : α) : Prop :=
  ∀ s, s ∈ Part.requires a ∨ s ∈ Part.provides a → s.isLiteral = false ∧ (vars.mapping.lookup s.ident).isSome = true

variable {vars : Variables}

lemma rewritten_sources {sources : List String}
    (hf : ∀ t ∈ sources, ∀ s ∈ symbols t, (vars.mapping.lookup s.ident).isSome = true) :
    Forall₂ (Rewritten vars) sources (sources.map (placed vars.mapping)) := by
  rw [forall₂_map_right_iff, forall₂_same]
  exact fun t ht => ⟨hf t ht, rfl⟩

variable {var params : Value} {name place : String} {preset : Preset} {given : List Value}
  {call : DistributionCall} {c : Component} {entry : Entry} {components : List Component}
  {priors : List Prior} {α : Type} {entries : List Entry}

lemma Uses.exists_filled (h : Uses var name params preset given call)
    (hpl : ∀ t ∈ (params.parts?.getD []).map Value.text, Unbraced t)
    (hf : ∀ s, s = call.var ∨ s ∈ call.requires → s.isLiteral = false ∧ (vars.mapping.lookup s.ident).isSome = true) :
    ∃ place, vars.mapping.lookup call.var.ident = some place ∧ fillNamed vars.mapping call.var.bracketed = .ok place ∧
      Forall₂ (Rewritten vars) (preset.sources given) ((preset.sources given).map (placed vars.mapping)) ∧
      fillNamed vars.mapping call.paramText =
        .ok (Text.join ", " ((preset.sources given).map (placed vars.mapping))) := by
  obtain ⟨hvar, hsome⟩ := hf call.var (.inl rfl)
  obtain ⟨place, hp⟩ := Option.isSome_iff_exists.mp hsome
  obtain ⟨kind, word, hname, hword⟩ := h.var_of_mem (.inl rfl) hvar
  have hso : ∀ t ∈ preset.sources given, ∀ s ∈ symbols t, (vars.mapping.lookup s.ident).isSome = true :=
    fun t ht s hs => (hf s (.inr ((h.hasSources.requires s).mpr ⟨t, ht, hs⟩))).2
  refine ⟨place, hp, ?_, rewritten_sources hso, ?_⟩
  · rw [hname] at hp ⊢
    exact (Prior.fillNamed_var hword).mpr hp
  · unfold DistributionCall.paramText
    rw [h.hasSources.params]
    exact fillNamed_sources (h.unbraced hpl) hso

lemma exists_code_expression {source : Value} (h : Component.expressionOf source = .ok c)
    (hpl : Unbraced source.text) (hc : Covers vars c) :
    ∃ code, fillNamed vars.mapping c.code = .ok code ∧ EntryCode vars (.expression source) code := by
  obtain ⟨text, provides, rfl, rfl⟩ := expression_of_ok h
  have hf : ∀ s ∈ symbols text, (vars.mapping.lookup s.ident).isSome = true := by
    intro s hs
    refine (hc s ?_).2
    by_cases hp : s ∈ provides
    · exact .inr hp
    · exact .inl ((SymbolSet.mem_diff s _ _).mpr ⟨hs, hp⟩)
  exact ⟨_, (fillNamed_ofSource hpl.1 hpl.2).mpr ⟨hf, rfl⟩, .expression ⟨hf, rfl⟩⟩

lemma exists_code_assignment {target source : String} {e : Equation} (he : Equation.ofCall target source = .ok e)
    (hpl : Unbraced source) (hc : Covers vars e.component) :
    ∃ code, fillNamed vars.mapping e.component.code = .ok code ∧
      EntryCode vars (.assign (.str target) (.str source)) code := by
  obtain rfl := source_ofCall he
  have hf : ∀ s ∈ symbols e.source, (vars.mapping.lookup s.ident).isSome = true :=
    fun s hs => (hc s (mem_component e hs)).2
  obtain ⟨place, hp⟩ := Option.isSome_iff_exists.mp (hc e.target (.inr mem_cons_self)).2
  refine ⟨place ++ " = " ++ placed vars.mapping e.source, ?_, .assign he hp ⟨hf, rfl⟩⟩
  obtain ⟨name, hname, hword⟩ := target_ofCall he
  show fillNamed vars.mapping (e.target.bracketed ++ " = " ++ ofSource e.source) = _
  rw [hname, Symbol.ident_var] at hp
  rw [hname, Symbol.bracketed_var, fillNamed_assignment (Symbol.isPlainName_ident _ hword) hp,
    (fillNamed_ofSource hpl.1 hpl.2).mpr ⟨hf, rfl⟩]
  rfl

lemma fill_constraint (h : Uses var name params preset given call) {text : String}
    (hvar : fillNamed vars.mapping call.var.bracketed = .ok place)
    (hp : fillNamed vars.mapping call.paramText = .ok text) :
    fillNamed vars.mapping (Component.likelihood call).code =
      .ok ("logL += " ++ preset.base.name ++ "_lpdf(" ++ place ++ ", " ++ text ++ ")") := by
  have hf : fillNamed vars.mapping call.family.name = .ok preset.base.name := by
    rw [← h.family]
    cases call.family <;> exact fill_literal _ rfl
  have hfr := fill_append (fill_append (fill_literal "logL += " rfl) hf) (fill_literal "_lpdf(" rfl)
  exact fill_append (fill_append (fill_append (fill_append hfr hvar) (fill_literal ", " rfl)) hp) (fill_literal ")" rfl)

lemma exists_code_constraint (h : Uses var name params preset given call)
    (hpla : ∀ t ∈ (params.parts?.getD []).map Value.text, Unbraced t) (hc : Covers vars (Component.likelihood call)) :
    ∃ code, fillNamed vars.mapping (Component.likelihood call).code = .ok code ∧
      EntryCode vars (.constraint var (.str name) params) code := by
  have hf : ∀ s, s = call.var ∨ s ∈ call.requires → s.isLiteral = false ∧ (vars.mapping.lookup s.ident).isSome = true :=
    fun s hs => hc s (.inl ((SymbolSet.mem_insert s _ _).mpr hs))
  obtain ⟨place, hpl, hvar, hco, hp⟩ := h.exists_filled hpla hf
  exact ⟨_, fill_constraint h hvar hp, .constraint h hpl hco⟩

lemma exists_code (hp : ∀ t ∈ entry.sources, Unbraced t) (hadds : AddsComponent (.add entry) c)
    (hc : Covers vars c) : ∃ code, fillNamed vars.mapping c.code = .ok code ∧ EntryCode vars entry code := by
  cases hadds with
  | expression h => exact exists_code_expression h (hp _ mem_cons_self) hc
  | assign h =>
    obtain ⟨e, heq, rfl⟩ := addsEquation_of_assigned h
    cases heq with
    | assign he => exact exists_code_assignment he (hp _ mem_cons_self) hc
  | constraint h =>
    obtain ⟨call, hcall, rfl⟩ := map_eq_ok.mp h
    obtain ⟨word, preset, given, rfl, huses⟩ := uses_of_ofValues hcall
    exact exists_code_constraint huses hp hc

def FilledByParts (vars : Variables) (code : Prior → String → String → String) : Prop :=
  ∀ {prior : Prior} {var params var' params' : String},
    fillNamed vars.mapping prior.written = .ok prior.written → fillNamed vars.mapping var = .ok var' →
    fillNamed vars.mapping params = .ok params' →
    fillNamed vars.mapping (code prior var params) = .ok (code prior var' params')

lemma exists_code_prior {code : Prior → String → String → String} (hcode : FilledByParts vars code) {prior : Prior}
    (hpla : ∀ t ∈ entry.sources, Unbraced t) (hadds : AddsPrior (.add entry) prior) (hc : Covers vars prior) :
    ∃ text, fillNamed vars.mapping (code prior prior.call.var.bracketed prior.call.paramText) = .ok text ∧
      PriorEntryCode vars code entry text := by
  cases hadds with
  | prior h =>
    have hw := Prior.unbraced_written (Prior.made_of_ofValues h).written
    obtain ⟨word, preset, given, rfl, huses⟩ := uses_of_prior h
    have hf : ∀ s, s = prior.call.var ∨ s ∈ prior.call.requires →
        s.isLiteral = false ∧ (vars.mapping.lookup s.ident).isSome = true :=
      fun s hs => hc s (hs.symm.imp_right mem_singleton.mpr)
    obtain ⟨place, hpl, hvar, hco, hp⟩ := huses.exists_filled hpla hf
    exact ⟨_, hcode (fill_text hw.1 hw.2) hvar hp, .prior h huses hpl hco⟩

/-! ## Places -/

lemma isSome_place (h : collect components priors = .ok vars) {s : Symbol}
    (hs : s ∈ symbols components ∨ s ∈ symbols priors) (hpa : s.isKind .param = true → s ∈ vars.params) :
    s.isLiteral = false ∧ (vars.mapping.lookup s.ident).isSome = true := by
  have hg := grouped_of_collect h
  obtain ⟨⟨hco, hp⟩, hvars⟩ := collect_eq_ok.mp h
  have hvar : s.isLiteral = false := by
    rcases hs with hs | hs
    · obtain ⟨c, hc, hmem⟩ := (mem_symbols s _).mp hs
      exact hco c hc s hmem
    · obtain ⟨prior, hpr, hmem⟩ := (mem_symbols s _).mp hs
      exact hp prior hpr s hmem
  have hboth := (SymbolSet.mem_union s _ _).mpr hs
  refine ⟨hvar, Option.isSome_iff_exists.mpr ?_⟩
  simp only [lookup_mapping_iff hg hvar]
  cases s with
  | literal _ => cases hvar
  | var kind name =>
    cases kind with
    | const =>
      have hmem : Symbol.var .const name ∈ vars.constants := by
        rw [hvars]
        exact mem_filter.mpr ⟨hboth, rfl⟩
      exact ⟨_, .inl ⟨.inl hmem, rfl⟩⟩
    | localVar =>
      have hmem : Symbol.var .localVar name ∈ vars.locals := by
        rw [hvars]
        exact mem_filter.mpr ⟨hboth, rfl⟩
      exact ⟨_, .inl ⟨.inr hmem, rfl⟩⟩
    | param =>
      obtain ⟨i, hi⟩ := mem_iff_getElem?.mp (hpa rfl)
      exact ⟨_, .inr ⟨i, hi, rfl⟩⟩

lemma covers_of_collect (h : collect components priors = .ok vars) : ∀ c ∈ components, Covers vars c := by
  intro c hc s hs
  have hmem : s ∈ Order.symbols components := (Order.mem_symbols s _).mpr ⟨c, hc, hs⟩
  refine isSome_place h (.inl hmem) fun hkind => ?_
  rw [(collect_eq_ok.mp h).2]
  exact mem_filter.mpr ⟨hmem, hkind⟩

lemma place_inj (h : vars.Grouped) {s t : Symbol} (hs : s.isLiteral = false) (ht : t.isLiteral = false)
    (hp : vars.mapping.lookup s.ident = some place) (hp' : vars.mapping.lookup t.ident = some place) : s = t := by
  -- an attribute begins with an s and an entry with a p
  have ha : ∀ (i : Nat) (name : String), entryText i ≠ "self." ++ name := by
    intro i name he
    have hc := congrArg String.toList he
    simp [entryText] at hc
  rcases (lookup_mapping_iff h hs).mp hp with ⟨-, rfl⟩ | ⟨i, hi, rfl⟩
  · rcases (lookup_mapping_iff h ht).mp hp' with ⟨-, he⟩ | ⟨j, -, he⟩
    · exact Symbol.ident_inj hs ht (String.append_right_inj _ |>.mp he)
    · exact absurd he.symm (ha j _)
  · rcases (lookup_mapping_iff h ht).mp hp' with ⟨-, he⟩ | ⟨j, hj, he⟩
    · exact absurd he (ha i _)
    · obtain rfl : i = j := @entryText_unique i j [] (by rw [he, append_nil])
      exact Option.some.inj (hi.symm.trans hj)

/-! ## Checks -/

def isCheck : Fault → Bool
  | .notAVariable _ | .uninitialized _ | .circularComponents | .priorsMissing _ | .priorsUnused _ => true
  | _ => false

lemma isCheck_of_sort [Order.Part α] (kind : VarKind) (parts : List α) :
    RefusesOnly (isCheck · = true) (sort kind parts) := by
  unfold sort
  split
  · exact refusesOnly_error.mpr rfl
  · split
    · exact refusesOnly_error.mpr rfl
    · split
      · exact refusesOnly_ok _
      · exact refusesOnly_error.mpr rfl

lemma isCheck_of_collect (components : List Component) (priors : List Prior) :
    RefusesOnly (isCheck · = true) (collect components priors) := by
  unfold collect
  split
  · exact refusesOnly_error.mpr rfl
  · split
    · exact refusesOnly_error.mpr rfl
    · exact refusesOnly_ok _

lemma isCheck_of_checkPriors (vars : Variables) : RefusesOnly (isCheck · = true) (checkPriors vars) := by
  unfold checkPriors
  dsimp only
  split
  · exact refusesOnly_error.mpr rfl
  · split
    · exact refusesOnly_error.mpr rfl
    · exact refusesOnly_ok _

/-! ## Methods -/

def Indents (code : Entry → String → Prop) (entry : Entry) (block : String) : Prop :=
  ∃ text, code entry text ∧ block = indentLines "    " text

/-- The lines of a likelihood term: its code, below a test of its constants if optional. -/
def Adds (vars : Variables) (optional : Bool) (entry : Entry) (lines : List String) : Prop :=
  ∃ code, EntryCode vars entry code ∧ (lines = [indentLines "    " code] ∨
    optional = true ∧ ∃ test, lines = [test, indentLines "        " code])

lemma exists_mapM {β : Type} {makes : Entry → α → Prop} {gives : Entry → β → Prop} {f : α → Except Fault β}
    {parts : List α} (hmade : Forall₂ makes entries parts)
    (hf : ∀ entry ∈ entries, ∀ a ∈ parts, makes entry a → ∃ b, f a = .ok b ∧ gives entry b) :
    ∃ items, parts.mapM f = .ok items ∧ Forall₂ gives entries items := by
  induction hmade with
  | nil => exact ⟨[], rfl, .nil⟩
  | @cons entry a entries parts ha _ ih =>
    obtain ⟨b, hb, hg⟩ := hf entry mem_cons_self a mem_cons_self ha
    obtain ⟨items, hi, hrest⟩ := ih fun entry' he a' ha' =>
      hf entry' (mem_cons_of_mem entry he) a' (mem_cons_of_mem a ha')
    refine ⟨b :: items, ?_, .cons hg hrest⟩
    rw [mapM_cons, hb, hi]
    rfl

lemma exists_reordered {makes : Entry → α → Prop} {parts ordered : List α}
    (hmade : Forall₂ makes entries parts) (hperm : ordered.Perm parts) :
    ∃ entries', entries'.Perm entries ∧ Forall₂ makes entries' ordered := by
  obtain ⟨entries', hmade', hperm'⟩ := perm_comp_forall₂ hperm hmade.flip
  exact ⟨entries', hperm', hmade'.flip⟩

lemma exists_block {code : Entry → String → Prop} {template : String}
    (h : ∃ text, fillNamed vars.mapping template = .ok text ∧ code entry text) :
    ∃ b, block vars.mapping "    " template = .ok b ∧ Indents code entry b := by
  obtain ⟨text, htext, hcode⟩ := h
  refine ⟨indentLines "    " text, ?_, text, hcode, rfl⟩
  unfold block
  rw [htext]
  rfl

lemma fill_tests (h : Uses var name params preset given call) (hc : Covers vars (Component.likelihood call)) :
    fillNamed vars.mapping ("    if " ++ Text.join " and " ((guards (.likelihood call)).map fun s =>
        "math.isfinite(" ++ s.bracketed ++ ")") ++ ":") =
      .ok ("    if " ++ Text.join " and " ((guards (.likelihood call)).map fun s =>
        "math.isfinite(" ++ (vars.mapping.lookup s.ident).getD "" ++ ")") ++ ":") := by
  have ht : ∀ s ∈ guards (.likelihood call), fillNamed vars.mapping ("math.isfinite(" ++ s.bracketed ++ ")") =
      .ok ("math.isfinite(" ++ (vars.mapping.lookup s.ident).getD "" ++ ")") := by
    intro s hs
    obtain ⟨hr, -⟩ := mem_filter.mp hs
    obtain ⟨hvar, hsome⟩ := hc s (.inl hr)
    obtain ⟨place, hp⟩ := Option.isSome_iff_exists.mp hsome
    obtain ⟨kind, word, rfl, hword⟩ := h.var_of_mem ((SymbolSet.mem_insert s _ _).mp hr) hvar
    rw [hp]
    exact fill_append (fill_append (fill_literal "math.isfinite(" rfl) ((Prior.fillNamed_var hword).mpr hp))
      (fill_literal ")" rfl)
  have hj := @fill_join ⟨.open, vars.mapping⟩ " and " (by decide) (by decide) _ _
    (forall₂_map_left_iff.mpr (forall₂_map_right_iff.mpr (forall₂_same.mpr ht)))
  exact fill_append (fill_append (fill_literal "    if " rfl) hj) (fill_literal ":" rfl)

lemma exists_term (optional : Bool) (hp : ∀ t ∈ entry.sources, Unbraced t)
    (hadds : AddsComponent (.add entry) c) (he : entry.isConstraint = true) (hc : Covers vars c) :
    ∃ lines, likelihoodBlocks vars optional c = .ok lines ∧ Adds vars optional entry lines := by
  obtain ⟨code, hfill, hcode⟩ := exists_code hp hadds hc
  unfold likelihoodBlocks
  rw [hfill]
  dsimp only
  split
  · rename_i hg
    obtain ⟨ho, -⟩ := (Bool.and_eq_true _ _).mp hg
    cases hadds with
    | expression | assign => cases he
    | constraint h =>
      obtain ⟨call, hcall, rfl⟩ := map_eq_ok.mp h
      obtain ⟨word, preset, given, rfl, huses⟩ := uses_of_ofValues hcall
      rw [fill_tests huses hc]
      exact ⟨_, rfl, code, hcode, .inr ⟨ho, _, rfl⟩⟩
  · exact ⟨_, rfl, code, hcode, .inl rfl⟩

/-! ## The text -/

/-- The blocks of a program, each from an added entry: the forward model and priors in some order, likelihood terms
as they were added. -/
structure Writing (p : Program) (entries : List Entry) (vars : Variables) where
  forward : List Entry
  priors : List Entry
  draws : List String
  scores : List String
  blocks : List String
  terms : List (List String)
  forward_perm : forward.Perm (entries.filter (·.isForward))
  priors_perm : priors.Perm (entries.filter (·.isPrior))
  draws_code : Forall₂ (Indents (PriorEntryCode vars Prior.quantileCode)) priors draws
  scores_code : Forall₂ (Indents (PriorEntryCode vars Prior.densityCode)) priors scores
  blocks_code : Forall₂ (Indents (EntryCode vars)) forward blocks
  terms_code : Forall₂ (Adds vars p.optionalTerms.isOn) (entries.filter (·.isConstraint)) terms

def Writing.text {p : Program} {entries : List Entry} {vars : Variables} (w : Writing p entries vars) : String :=
  Text.join "\n" (renderHeader p vars ++ [quantileMethod w.draws, logPriorMethod w.scores,
    forwardMethod w.blocks [], likelihoodMethod w.terms.flatten]) ++ "\n"

section

variable {steps : List Step} {p : Program}

lemma Assembled.classified (h : Assembled steps p) : p.classified = collect p.components p.priors := by
  unfold Program.classified
  rw [h.frozen]

lemma mem_of_added {entry : Entry} (h : entry ∈ added steps) : .add entry ∈ steps := by
  obtain ⟨s, hs, he⟩ := mem_filterMap.mp h
  cases s with
  | add entry' =>
    dsimp only at he
    split at he
    · rwa [← Option.some.inj he]
    · cases he
  | _ => cases he

lemma Assembled.filtered (h : Assembled steps p) {kind : Entry → Bool} {isKind : Component → Bool}
    (hkind : ∀ entry c, AddsComponent (.add entry) c → kind entry = isKind c)
    (hp : ∀ entry, kind entry = true → entry.isPrior = false) :
    Forall₂ (fun entry => AddsComponent (.add entry)) ((added steps).filter kind) (p.components.filter isKind) := by
  have hf : ((added steps).filter (!·.isPrior)).filter kind = (added steps).filter kind := by
    rw [filter_filter]
    refine filter_congr fun entry _ => ?_
    cases he : kind entry with
    | false => rfl
    | true => simp [hp entry he]
  rw [← hf]
  refine rel_filter (fun entry c hadds => ?_) h.components
  show kind entry = true ↔ isKind c = true
  rw [hkind entry c hadds]

lemma exists_priorBlocks {code : Prior → String → String → String} {entries : List Entry} {ordered : List Prior}
    (hcode : FilledByParts vars code) (hmade : Forall₂ (fun entry => AddsPrior (.add entry)) entries ordered)
    (hp : ∀ entry ∈ entries, ∀ t ∈ entry.sources, Unbraced t) (hc : ∀ q ∈ ordered, Covers vars q) :
    ∃ blocks, ordered.mapM (fun q =>
        block vars.mapping "    " (code q q.call.var.bracketed q.call.paramText)) = .ok blocks ∧
      Forall₂ (Indents (PriorEntryCode vars code)) entries blocks :=
  exists_mapM hmade fun entry he q hq hadds => exists_block (exists_code_prior hcode (hp entry he) hadds (hc q hq))

variable {ordered : List Component} {sorted : List Prior}

lemma forwardOf_of_blocks {blocks : List String} (hd : p.defects = {}) (hou : p.outputs = [])
    (ho : orderedForward p.components = .ok ordered)
    (hb : ordered.mapM (fun c => block vars.mapping "    " c.code) = .ok blocks) :
    forwardOf { p with frozen := some vars } = .ok (forwardMethod blocks []) := by
  unfold forwardOf renderForward outputLines
  rw [classified_frozen rfl]
  rw [ho, hd, hou]
  dsimp only [bind, Except.bind] at hb ⊢
  rw [hb]
  rfl

lemma logLikeOf_of_terms {terms : List (List String)}
    (ht : (p.components.filter (·.isLikelihood)).mapM (likelihoodBlocks vars p.optionalTerms.isOn) = .ok terms) :
    p.logLikeOf vars = .ok (likelihoodMethod terms.flatten) := by
  unfold logLikeOf
  split
  · unfold renderLogLike
    rw [ht]
    rfl
  · rename_i hnone
    have he : p.components.filter (·.isLikelihood) = [] := by simpa using hnone
    rw [he] at ht
    rw [← ok.inj ht]
    rfl

lemma plain_added (hs : ∀ s ∈ steps, s.Plain) : ∀ entry ∈ added steps, ∀ t ∈ entry.sources, Unbraced t :=
  fun _ he => hs _ (mem_of_added he)

lemma Assembled.covers (h : Assembled steps p) (hvars : p.classified = .ok vars)
    (hch : checkPriors vars = .ok ()) : (∀ c ∈ p.components, Covers vars c) ∧ ∀ q ∈ p.priors, Covers vars q := by
  have hc := h.classified.symm.trans hvars
  refine ⟨covers_of_collect hc, fun q hq s hs => ?_⟩
  have hmem : s ∈ symbols p.priors := (mem_symbols s _).mpr ⟨q, hq, hs⟩
  refine isSome_place hc (.inr hmem) fun hkind => ?_
  rw [checkPriors_iff.mp hch, (collect_eq_ok.mp hc).2]
  exact mem_filter.mpr ⟨hmem, hkind⟩

lemma Assembled.exists_priorMethods (h : Assembled steps p) (hst : ∀ s ∈ steps, s.Plain)
    (hvars : p.classified = .ok vars) (hc : checkPriors vars = .ok ()) (hp : orderedPriors p.priors = .ok sorted) :
    ∃ priors draws scores, priors.Perm ((added steps).filter (·.isPrior)) ∧
      Forall₂ (Indents (PriorEntryCode vars Prior.quantileCode)) priors draws ∧
      Forall₂ (Indents (PriorEntryCode vars Prior.densityCode)) priors scores ∧
      renderQuantile vars p.priors = .ok (quantileMethod draws) ∧
      renderLogPrior vars p.priors = .ok (logPriorMethod scores) := by
  have hs : sorted.Perm p.priors := (Order.sort_sound hp).1.trans (Text.sortBy_perm _ _)
  obtain ⟨priors, hperm, hmade⟩ := exists_reordered h.priors hs
  have hpl : ∀ entry ∈ priors, ∀ t ∈ entry.sources, Unbraced t :=
    fun entry he => plain_added hst entry (mem_filter.mp (hperm.subset he)).1
  have hco : ∀ q ∈ sorted, Covers vars q := fun q hq => (h.covers hvars hc).2 q (hs.subset hq)
  obtain ⟨draws, hdr, hd⟩ := exists_priorBlocks Prior.fill_quantileCode hmade hpl hco
  obtain ⟨scores, hsco, hsc⟩ := exists_priorBlocks Prior.fill_densityCode hmade hpl hco
  refine ⟨priors, draws, scores, hperm, hd, hsc, ?_, ?_⟩
  · exact bind_eq_ok.mpr ⟨(), hc, bind_eq_ok.mpr ⟨sorted, hp, bind_eq_ok.mpr ⟨draws, hdr, rfl⟩⟩⟩
  · exact bind_eq_ok.mpr ⟨(), hc, bind_eq_ok.mpr ⟨sorted, hp, bind_eq_ok.mpr ⟨scores, hsco, rfl⟩⟩⟩

lemma Assembled.exists_forward (h : Assembled steps p) (hs : ∀ s ∈ steps, s.Plain)
    (hco : ∀ c ∈ p.components, Covers vars c) (hf : orderedForward p.components = .ok ordered) :
    ∃ forward blocks, forward.Perm ((added steps).filter (·.isForward)) ∧
      Forall₂ (Indents (EntryCode vars)) forward blocks ∧
      forwardOf { p with frozen := some vars } = .ok (forwardMethod blocks []) := by
  have ho : ordered.Perm (p.components.filter (!·.isLikelihood)) := (sort_sound hf).1.trans (Text.sortBy_perm _ _)
  have hkept := h.filtered (fun entry c hadds => (isConstraint_of_adds hadds).1) fun _ => Entry.isPrior_of_isForward
  obtain ⟨forward, hperm, hmade⟩ := exists_reordered hkept ho
  obtain ⟨blocks, hb, hcode⟩ := exists_mapM hmade fun entry he c hc hadds =>
    exists_block (exists_code (plain_added hs entry (mem_filter.mp (hperm.subset he)).1) hadds
      (hco c (mem_filter.mp (ho.subset hc)).1))
  exact ⟨forward, blocks, hperm, hcode, forwardOf_of_blocks h.defects h.outputs hf hb⟩

lemma Assembled.exists_terms (h : Assembled steps p) (hs : ∀ s ∈ steps, s.Plain)
    (hco : ∀ c ∈ p.components, Covers vars c) :
    ∃ terms, Forall₂ (Adds vars p.optionalTerms.isOn) ((added steps).filter (·.isConstraint)) terms ∧
      p.logLikeOf vars = .ok (likelihoodMethod terms.flatten) := by
  have hkept := h.filtered (fun entry c hadds => (isConstraint_of_adds hadds).2) fun _ => Entry.isPrior_of_isConstraint
  obtain ⟨terms, ht, hl⟩ := exists_mapM hkept fun entry he c hc hadds =>
    exists_term p.optionalTerms.isOn (plain_added hs entry (mem_filter.mp he).1) hadds
      (mem_filter.mp he).2 (hco c (mem_filter.mp hc).1)
  exact ⟨terms, hl, logLikeOf_of_terms ht⟩

lemma Assembled.exists_writing (h : Assembled steps p) (hs : ∀ s ∈ steps, s.Plain)
    (hvars : p.classified = .ok vars) (hch : checkPriors vars = .ok ())
    (hp : orderedPriors p.priors = .ok sorted) (hf : orderedForward p.components = .ok ordered) :
    ∃ w : Writing p (added steps) vars, (outcome Program.text p).1 = .ok w.text := by
  have hc := (h.covers hvars hch).1
  obtain ⟨priors, draws, scores, hpermP, hd, hsc, hq, hlogPrior⟩ := h.exists_priorMethods hs hvars hch hp
  obtain ⟨forward, blocks, hpermF, hcode, hm⟩ := h.exists_forward hs hc hf
  obtain ⟨terms, hl, hlogLike⟩ := h.exists_terms hs hc
  refine ⟨⟨forward, priors, draws, scores, blocks, terms, hpermF, hpermP, hd, hsc, hcode, hl⟩, ?_⟩
  exact text_iff.mpr ⟨by rw [h.defects], by rw [h.defects], by rw [h.defects], vars, hvars, by simp [h.defects],
    ⟨_, _, _, _, hq, hlogPrior, hm, hlogLike⟩, rfl⟩

lemma Assembled.text_cases (h : Assembled steps p) (hs : ∀ s ∈ steps, s.Plain) :
    (∃ e, (outcome Program.text p).1 = .error e ∧ isCheck e = true) ∨
      ∃ vars, p.classified = .ok vars ∧ ∃ w : Writing p (added steps) vars, (outcome Program.text p).1 = .ok w.text := by
  cases hvars : p.classified with
  | error e =>
    refine .inl ⟨e, ?_, isCheck_of_collect _ _ e (h.classified.symm.trans hvars)⟩
    rw [outcome_text, h.defects, hvars]
    rfl
  | ok vars =>
    have ho : (outcome Program.text p).1 = p.methodsOf vars (renderHeader p vars) := by
      rw [outcome_text, h.defects, hvars]
      show p.textWith vars = _
      unfold textWith
      rw [h.defects]
      cases vars.constants.isEmpty <;> rfl
    -- the cases follow the order in which the methods are written, as the first refusal is the one that is seen
    cases hc : checkPriors vars with
    | error e =>
      refine .inl ⟨e, ?_, isCheck_of_checkPriors vars e hc⟩
      rw [ho, methodsOf, renderQuantile, hc]
      rfl
    | ok _ =>
      cases hp : orderedPriors p.priors with
      | error e =>
        refine .inl ⟨e, ?_, isCheck_of_sort _ _ e hp⟩
        rw [ho, methodsOf, renderQuantile, hc, hp]
        rfl
      | ok sorted =>
        cases hf : orderedForward p.components with
        | error e =>
          -- both methods for the priors are written by then, so they are filled without a refusal
          obtain ⟨_, _, _, -, -, -, hq, hlogPrior⟩ := h.exists_priorMethods hs hvars hc hp
          refine .inl ⟨e, ?_, isCheck_of_sort _ _ e hf⟩
          rw [ho, methodsOf, hq, hlogPrior, forwardOf]
          rw [hf]
          rfl
        | ok ordered => exact .inr ⟨vars, rfl, h.exists_writing hs hvars hc hp hf⟩

lemma not_mem_faults {e : Fault} (h : isCheck e = true) : e ∉ faults := by
  intro hmem
  have hall : (faults.all fun e => !isCheck e) = true := by decide
  simpa [h] using all_eq_true.mp hall e hmem

end

/-- Parts are added from texts without braces. A refusal is one of a check, never of a template. Otherwise the
blocks of the text are those of the parts, as they were written but with places for variables: attributes, or
entries at the positions of parameters, a different place for each variable. -/
theorem text_exact {steps : List Step} (hsteps : ∀ s ∈ steps, s.Plain) :
    (∀ e, (Program.text.run.run (after steps)).1 = .error e → isCheck e = true ∧ e ∉ faults) ∧
    (∀ text, (Program.text.run.run (after steps)).1 = .ok text →
      ∃ vars, (after steps).classified = .ok vars ∧ (∃ w : Writing (after steps) (added steps) vars, text = w.text) ∧
        (∀ (s : Symbol) (place : String), s.isLiteral = false → (vars.mapping.lookup s.ident = some place ↔
          ((s ∈ vars.constants ∨ s ∈ vars.locals) ∧ place = "self." ++ s.ident) ∨
            ∃ i, vars.params[i]? = some s ∧ place = entryText i)) ∧
        ∀ (s t : Symbol) (place : String), s.isLiteral = false → t.isLiteral = false →
          vars.mapping.lookup s.ident = some place → vars.mapping.lookup t.ident = some place → s = t) ∧
    ∀ source, Unbraced source → fillNamed (valuesOf Symbol.text (symbols source)) (ofSource source) = .ok source := by
  have h := assembled_after hsteps
  refine ⟨fun e he => ?_, fun text htext => ?_, fun source => fillNamed_names⟩
  · rcases h.text_cases hsteps with ⟨e', he', hc⟩ | ⟨vars, -, w, hw⟩
    · obtain rfl : e' = e := Except.error.inj (he'.symm.trans he)
      exact ⟨hc, not_mem_faults hc⟩
    · cases hw.symm.trans he
  · rcases h.text_cases hsteps with ⟨e, he, -⟩ | ⟨vars, hvars, w, hw⟩
    · cases he.symm.trans htext
    · have hg := Variables.grouped_of_collect (h.classified.symm.trans hvars)
      exact ⟨vars, hvars, ⟨w, Except.ok.inj (htext.symm.trans hw)⟩,
        fun s place hs => Variables.lookup_mapping_iff hg hs,
        fun s t place hs ht hp hp' => place_inj hg hs ht hp hp'⟩

/-! A local variable that is computed and measured, with an optional term and a prior of a logarithm. -/

def scaled : List Step :=
  [.set (.optionalTerms (.bool true)), .add (.assign (.str "m") (.str "2*p.a + c.k")),
    .add (.constraint (.str "v.m") (.str "normal") (.list [.str "c.d - p.a", .int 1])),
    .add (.prior (.str "p.a") (.str "log_uniform") (.list [.str "0", .str "c.k"]))]

def scaledVariables : Variables where
  params := [.var .param "a"]
  priorParams := [.var .param "a"]
  constants := [.var .const "d", .var .const "k"]
  locals := [.var .localVar "m"]

lemma plain_scaled : ∀ s ∈ scaled, s.Plain := by decide +kernel

lemma classified_scaled : (after scaled).classified = .ok scaledVariables := by decide +kernel

lemma text_scaled : ∃ text, (Program.text.run.run (after scaled)).1 = .ok text := exists_ok (by decide +kernel)

theorem text_exact_scaled : ∃ w : Writing (after scaled) (added scaled) scaledVariables,
    (Program.text.run.run (after scaled)).1 = .ok w.text ∧ w.blocks = ["    self.v__m = 2*params[0] + self.c__k"] := by
  obtain ⟨text, htext⟩ := text_scaled
  obtain ⟨vars, hvars, ⟨w, rfl⟩, -⟩ := (text_exact plain_scaled).2.1 text htext
  obtain rfl := Except.ok.inj (hvars.symm.trans classified_scaled)
  refine ⟨w, htext, ?_⟩
  have hf : w.forward = [.assign (.str "m") (.str "2*p.a + c.k")] := List.perm_singleton.mp w.forward_perm
  have hcode := w.blocks_code
  rw [hf] at hcode
  obtain ⟨block, _, ⟨code, hcode, rfl⟩, hnil, hb⟩ := List.forall₂_cons_left_iff.mp hcode
  rw [hb, List.forall₂_nil_left_iff.mp hnil]
  cases hcode with
  | assign he hp h =>
    have hcall : Equation.ofCall "m" "2*p.a + c.k" = .ok ⟨.var .localVar "m", "2*p.a + c.k"⟩ := rfl
    obtain rfl := Except.ok.inj (hcall.symm.trans he)
    obtain rfl := Option.some.inj (hp.symm.trans (show _ = some "self.v__m" by decide +kernel))
    rw [h.2]
    decide +kernel

end GridBayes.Program
