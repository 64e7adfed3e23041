import GridBayes.Proofs.Equation
import GridBayes.Proofs.ProgramHistory
import Mathlib.Data.List.Nodup

/-! The order in which parts are added to a program. Where components provide different variables and priors are for
different ones, the order is seen in two places only: the likelihood has its terms in the order in which they were
added, and of several numbers that stand for variables the first one is named in the refusal. -/
namespace GridBayes
open List Operation Text Option GridBayes.Order Component

/-! ## Keys of components -/

namespace Text

def commaBefore (xs : List String) : List Char :=
  xs.flatMap fun x => ',' :: ' ' :: x.toList

lemma head_commaBefore (xs : List String) : ∀ c ∈ (commaBefore xs).head?, c = ',' := by
  cases xs <;> simp [commaBefore]

variable {xs ys : List String}

lemma commaBefore_inj (hxs : ∀ x ∈ xs, ',' ∉ x.toList) (hys : ∀ y ∈ ys, ',' ∉ y.toList)
    (h : commaBefore xs = commaBefore ys) : xs = ys := by
  induction xs generalizing ys with
  | nil =>
    cases ys with
    | nil => rfl
    | cons y ys => cases h
  | cons x xs ih =>
    cases ys with
    | nil => cases h
    | cons y ys =>
      rw [forall_mem_cons] at hxs hys
      obtain ⟨-, htail⟩ := cons.inj h
      have ha : x.toList ++ commaBefore xs = y.toList ++ commaBefore ys := (cons.inj htail).2
      obtain ⟨hxy, hrest⟩ := append_inj_of_mark hxs.1 hys.1 (head_commaBefore xs) (head_commaBefore ys) ha
      rw [String.toList_inj.mp hxy, ih hxs.2 hys.2 hrest]

lemma toList_join_comma (x : String) (xs : List String) :
    (join ", " (x :: xs)).toList = x.toList ++ commaBefore xs := by
  induction xs generalizing x with
  | nil => simp [join, commaBefore]
  | cons y xs ih =>
    rw [join_cons_cons, String.toList_append, String.toList_append, ih]
    simp [commaBefore]

lemma join_comma_inj (hxs : ∀ x ∈ xs, x ≠ "" ∧ ',' ∉ x.toList) (hys : ∀ y ∈ ys, y ≠ "" ∧ ',' ∉ y.toList)
    (h : join ", " xs = join ", " ys) : xs = ys := by
  have hn : ∀ x xs, x ≠ "" → join ", " (x :: xs) ≠ "" := by
    intro x xs hx hjoin
    have hc := congrArg String.toList hjoin
    rw [toList_join_comma] at hc
    exact hx (String.toList_eq_nil_iff.mp (append_eq_nil_iff.mp hc).1)
  cases xs with
  | nil =>
    cases ys with
    | nil => rfl
    | cons y ys => exact absurd h.symm (hn y ys (hys y mem_cons_self).1)
  | cons x xs =>
    cases ys with
    | nil => exact absurd h (hn x xs (hxs x mem_cons_self).1)
    | cons y ys =>
      have hc := congrArg String.toList h
      rw [toList_join_comma, toList_join_comma] at hc
      rw [forall_mem_cons] at hxs hys
      obtain ⟨hxy, hrest⟩ := append_inj_of_mark hxs.1.2 hys.1.2 (head_commaBefore xs) (head_commaBefore ys) hc
      rw [String.toList_inj.mp hxy, commaBefore_inj (fun z hz => (hxs.2 z hz).2) (fun z hz => (hys.2 z hz).2) hrest]

end Text

lemma SymbolSet.texts_inj {a b : SymbolSet} (ha : ∀ s ∈ a, s.isLiteral = false)
    (hb : ∀ s ∈ b, s.isLiteral = false) (h : a.texts = b.texts) : a = b := by
  induction a generalizing b with
  | nil =>
    cases b with
    | nil => rfl
    | cons t b => cases h
  | cons s a ih =>
    cases b with
    | nil => cases h
    | cons t b =>
      rw [forall_mem_cons] at ha hb
      obtain ⟨hst, hrest⟩ := cons.inj h
      rw [text_inj ha.1 hb.1 hst, ih ha.2 hb.2 hrest]

def Component.ProvidesLocals (c : Component) : Prop :=
  ∀ s ∈ c.provides, ∃ name : List Char, s = .var .localVar (String.ofList name) ∧ ∀ ch ∈ name, isWord ch = true

lemma Component.ProvidesLocals.plain {c : Component} (h : c.ProvidesLocals) :
    (∀ s ∈ c.provides, s.isLiteral = false) ∧ ∀ t ∈ c.provides.texts, t ≠ "" ∧ ',' ∉ t.toList := by
  refine ⟨fun s hs => ?_, fun t ht => ?_⟩
  · obtain ⟨name, rfl, -⟩ := h s hs
    rfl
  · obtain ⟨s, hs, rfl⟩ := mem_map.mp ht
    obtain ⟨name, rfl, hword⟩ := h s hs
    have htext : (Symbol.var .localVar (String.ofList name)).text.toList = 'v' :: '.' :: name := by
      simp [Symbol.text, VarKind.letter]
    refine ⟨fun he => ?_, ?_⟩
    · rw [he] at htext
      cases htext
    · rw [htext]
      simp only [mem_cons, not_or]
      exact ⟨by decide, by decide, fun hmem => absurd (hword _ hmem) (by decide)⟩

lemma Component.provides_of_sortKey {c d : Component} (hc : c.ProvidesLocals) (hd : d.ProvidesLocals)
    (h : c.sortKey = d.sortKey) : c.provides = d.provides :=
  SymbolSet.texts_inj hc.plain.1 hd.plain.1 (join_comma_inj hc.plain.2 hd.plain.2 h)

namespace Program

lemma providesLocals_of_adds {step : Step} {c : Component} (h : AddsComponent step c) : c.ProvidesLocals := by
  cases h with
  | @expression source _ h =>
    obtain ⟨text, -, h⟩ := bind_eq_ok.mp h
    obtain ⟨provides, hp, h⟩ := bind_eq_ok.mp h
    cases h
    obtain ⟨symbols, hsy, h⟩ := bind_eq_ok.mp hp
    cases h
    intro s hs
    have hs : s ∈ symbols := (SymbolSet.mem_ofList s symbols).mp hs
    obtain ⟨t, -, ht⟩ := exists_of_forall₂ (mapM_eq_ok.mp hsy) s hs
    split at ht
    · rename_i hst
      obtain ⟨rest, hrest⟩ := startsWith_local hst
      exact parse_local hrest ht
    · cases ht
  | @assign target source _ h =>
    obtain ⟨target, -, h⟩ := bind_eq_ok.mp h
    obtain ⟨-, -, h⟩ := bind_eq_ok.mp h
    obtain ⟨source, -, h⟩ := bind_eq_ok.mp h
    obtain ⟨e, he, rfl⟩ := Equation.ofAssignment_iff.mp h
    intro s hs
    rw [mem_singleton.mp (show s ∈ [e.target] from hs)]
    exact target_ofCall he
  | constraint h =>
    obtain ⟨call, -, rfl⟩ := map_eq_ok.mp h
    intro s hs
    cases hs

lemma providesLocals_after (steps : List Step) : ∀ c ∈ (after steps).components, c.ProvidesLocals := by
  intro c hc
  obtain ⟨kept, -, hmade⟩ := components_after steps
  obtain ⟨step, -, hadds⟩ := exists_of_forall₂ hmade c hc
  exact providesLocals_of_adds hadds

/-! ## Parts that are added -/

variable {p q : Program}

lemma announce_congr (hv : p.verbose = q.verbose) (hf : p.fancy = q.fancy) (c : Component) :
    p.announce c = q.announce c := by
  unfold announce palette
  rw [hv, hf]

lemma announcePrior_congr (hv : p.verbose = q.verbose) (hf : p.fancy = q.fancy) (prior : Prior) :
    p.announcePrior prior = q.announcePrior prior := by
  unfold announcePrior palette
  rw [hv, hf]

lemma exists_joined_of {β : Type} {part : Except Fault β} {accepts : Program → β → Prop}
    {add : Program → Except Fault Program} {join : Program → List β → Program} (verbose fancy : Bool)
    (hadd : ∀ p q, add p = .ok q ↔ ∃ c, (part = .ok c ∧ accepts p c) ∧ q = join p [c]) (hnil : ∀ p, join p [] = p)
    (hco : ∀ {p q : Program}, p.verbose = q.verbose → p.fancy = q.fancy → ∀ {c}, accepts q c → accepts p c) :
    ∃ cs, ∀ p : Program, p.verbose = verbose → p.fancy = fancy → (add p).toOption.getD p = join p cs := by
  -- one program decides for all that have its settings
  let model : Program := { verbose := verbose, fancy := fancy }
  by_cases hac : ∃ c, part = .ok c ∧ accepts model c
  · obtain ⟨c, hc, ha⟩ := hac
    refine ⟨[c], fun p hv hf => ?_⟩
    rw [(hadd _ _).mpr ⟨c, ⟨hc, hco hv hf ha⟩, rfl⟩]
    rfl
  · refine ⟨[], fun p hv hf => ?_⟩
    cases hout : add p with
    | error e => exact (hnil p).symm
    | ok q =>
      obtain ⟨c, ⟨hc, ha⟩, -⟩ := (hadd _ _).mp hout
      exact absurd ⟨c, hc, hco hv.symm hf.symm ha⟩ hac

lemma exists_joined (verbose fancy : Bool) (part : Except Fault Component) :
    ∃ cs, ∀ p : Program, p.verbose = verbose → p.fancy = fancy →
      (p.withPart part).toOption.getD p = { p with components := p.components ++ cs } :=
  exists_joined_of verbose fancy (fun _ _ => withPart_iff) (by simp) fun hv hf _ ⟨said, hsaid⟩ =>
    ⟨said, (announce_congr hv hf _).trans hsaid⟩

lemma exists_joined_prior (verbose fancy : Bool) (part : Except Fault Prior) :
    ∃ ps, ∀ p : Program, p.verbose = verbose → p.fancy = fancy →
      (p.withPrior part).toOption.getD p = { p with priors := p.priors ++ ps } :=
  exists_joined_of verbose fancy (fun _ _ => withPrior_iff) (by simp) fun hv hf _ ⟨said, hsaid⟩ =>
    ⟨said, (announcePrior_congr hv hf _).trans hsaid⟩

lemma exists_entered (verbose fancy : Bool) (entry : Entry) :
    ∃ cs ps, ∀ p : Program, p.verbose = verbose → p.fancy = fancy →
      (Step.add entry).run p = { p with components := p.components ++ cs, priors := p.priors ++ ps } := by
  have hc : ∀ part : Except Fault Component, (∀ p, Program.enter p entry = p.withPart part) →
      ∃ cs ps, ∀ p : Program, p.verbose = verbose → p.fancy = fancy →
        (Step.add entry).run p = { p with components := p.components ++ cs, priors := p.priors ++ ps } := by
    intro part he
    obtain ⟨cs, hcs⟩ := exists_joined verbose fancy part
    refine ⟨cs, [], fun p hv hf => ?_⟩
    rw [Step.run, he, hcs p hv hf, append_nil]
  cases entry with
  | expression source | assign target source | constraint var name params => exact hc _ fun p => rfl
  | prior var name params =>
    obtain ⟨ps, hps⟩ := exists_joined_prior verbose fancy (Prior.ofValues var name params)
    refine ⟨[], ps, fun p hv hf => ?_⟩
    rw [Step.run, enter, hps p hv hf, append_nil]

structure Reordered (p q : Program) : Prop where
  components : p.components.Perm q.components
  priors : p.priors.Perm q.priors
  rest : q = { p with components := q.components, priors := q.priors }

lemma reordered_after (steps : List Step) {entries entries' : List Entry} (h : entries.Perm entries') :
    Reordered (after (steps ++ entries.map .add)) (after (steps ++ entries'.map .add)) := by
  -- what each entry adds is fixed by the settings before all of them, which no entry changes
  choose cs ps hrun using exists_entered (after steps).verbose (after steps).fancy
  have ha : ∀ entries : List Entry, after (steps ++ entries.map .add) = { after steps with
      components := (after steps).components ++ entries.flatMap cs
      priors := (after steps).priors ++ entries.flatMap ps } := by
    intro entries
    induction entries using reverseRecOn with
    | nil => simp
    | append_singleton entries entry ih =>
      rw [map_append, map_singleton, ← append_assoc, after_concat, ih, hrun]
      · simp
      · rfl
      · rfl
  rw [ha, ha]
  exact ⟨(h.flatMap_right cs).append_left _, (h.flatMap_right ps).append_left _, rfl⟩

/-! ## Results of two orders -/

/-- The first number among the variables of the components, then of the priors. -/
def number? (p : Program) : Option Symbol :=
  (badSymbol? p.components).or (badSymbol? p.priors)

/-- The same result, or two refusals that name the first number of each program. -/
def SameButNumber {α : Type} (p q : Program) (x y : Except Fault α) : Prop :=
  x = y ∨ ∃ s t, p.number? = some s ∧ q.number? = some t ∧ s ≠ t ∧
    x = .error (.notAVariable s.text) ∧ y = .error (.notAVariable t.text)

section
variable {α β : Type} {p q : Program}

lemma SameButNumber.bind {x y : Except Fault α} {f g : α → Except Fault β} (hxy : SameButNumber p q x y)
    (hfg : ∀ a, SameButNumber p q (f a) (g a)) : SameButNumber p q (x >>= f) (y >>= g) := by
  rcases hxy with rfl | ⟨s, t, hs, ht, hne, rfl, rfl⟩
  · cases x with
    | error e => exact Or.inl rfl
    | ok a => exact hfg a
  · exact Or.inr ⟨s, t, hs, ht, hne, rfl, rfl⟩

lemma badSymbol?_perm {γ : Type} [Order.Part γ] {parts parts' : List γ} (h : parts.Perm parts') :
    (badSymbol? parts = none ∧ badSymbol? parts' = none) ∨
      ∃ s t, badSymbol? parts = some s ∧ badSymbol? parts' = some t := by
  cases hs : badSymbol? parts with
  | none =>
    have honly := badSymbol?_none_iff.mp hs
    exact Or.inl ⟨rfl, badSymbol?_none_iff.mpr (honly.perm h)⟩
  | some s =>
    cases ht : badSymbol? parts' with
    | none =>
      have honly := (badSymbol?_none_iff.mp ht).perm h.symm
      cases hs.symm.trans (badSymbol?_none_iff.mpr honly)
    | some t => exact Or.inr ⟨s, t, rfl, rfl⟩

lemma Reordered.collect (h : Reordered p q) : SameButNumber p q
    (Variables.collect p.components p.priors) (Variables.collect q.components q.priors) := by
  have hn : ∀ s t : Symbol, p.number? = some s → q.number? = some t →
      Variables.collect p.components p.priors = .error (.notAVariable s.text) →
      Variables.collect q.components q.priors = .error (.notAVariable t.text) →
      SameButNumber p q (Variables.collect p.components p.priors) (Variables.collect q.components q.priors) := by
    intro s t hs ht hp hq
    by_cases hst : s = t
    · rw [hp, hq, hst]
      exact Or.inl rfl
    · exact Or.inr ⟨s, t, hs, ht, hst, hp, hq⟩
  rcases badSymbol?_perm h.components with ⟨hp, hq⟩ | ⟨s, t, hp, hq⟩
  · rcases badSymbol?_perm h.priors with ⟨hp', hq'⟩ | ⟨s, t, hp', hq'⟩
    · left
      unfold Variables.collect
      rw [hp, hq, hp', hq', symbols_perm (badSymbol?_none_iff.mp hp) h.components,
        symbols_perm (badSymbol?_none_iff.mp hp') h.priors]
    · refine hn s t ?_ ?_ ?_ ?_
      · rw [number?, hp, hp', none_or]
      · rw [number?, hq, hq', none_or]
      · rw [Variables.collect, hp, hp']
      · rw [Variables.collect, hq, hq']
  · refine hn s t ?_ ?_ ?_ ?_
    · rw [number?, hp, some_or]
    · rw [number?, hq, some_or]
    · rw [Variables.collect, hp]
    · rw [Variables.collect, hq]

lemma Reordered.classified (h : Reordered p q) : SameButNumber p q p.classified q.classified := by
  have hf : q.frozen = p.frozen := by rw [h.rest]
  unfold Program.classified
  rw [hf]
  cases p.frozen with
  | some vars => exact Or.inl rfl
  | none => exact h.collect

lemma Reordered.orderedForward (h : Reordered p q) (hl : ∀ c ∈ p.components, c.ProvidesLocals)
    (hp : ((p.components.filter (!·.isLikelihood)).map provides).Nodup) :
    orderedForward p.components = Program.orderedForward q.components := by
  have hk : ∀ x, keyed sortKey x (p.components.filter (!·.isLikelihood)) =
      keyed sortKey x (q.components.filter (!·.isLikelihood)) := by
    refine keyed_of_perm (h.components.filter _) fun c hc d hd hkey => ?_
    refine inj_on_of_nodup_map hp hc hd ?_
    exact provides_of_sortKey (hl c (mem_of_mem_filter hc)) (hl d (mem_of_mem_filter hd)) hkey
  exact congrArg (sort .localVar) (sortBy_congr hk)

lemma Reordered.orderedPriors (h : Reordered p q) (hp : (p.priors.map fun prior => prior.call.var.text).Nodup) :
    orderedPriors p.priors = Program.orderedPriors q.priors := by
  have hk : ∀ x, keyed (fun prior : Prior => prior.call.var.text) x p.priors =
      keyed (fun prior : Prior => prior.call.var.text) x q.priors :=
    keyed_of_perm h.priors fun a ha b hb hkey => inj_on_of_nodup_map hp ha hb hkey
  exact congrArg (sort .param) (sortBy_congr hk)

lemma Reordered.renderQuantile (h : Reordered p q)
    (hp : (p.priors.map fun prior => prior.call.var.text).Nodup) (vars : Variables) :
    renderQuantile vars p.priors = Program.renderQuantile vars q.priors := by
  unfold Program.renderQuantile
  rw [h.orderedPriors hp]

lemma Reordered.renderLogPrior (h : Reordered p q)
    (hp : (p.priors.map fun prior => prior.call.var.text).Nodup) (vars : Variables) :
    renderLogPrior vars p.priors = Program.renderLogPrior vars q.priors := by
  unfold Program.renderLogPrior
  rw [h.orderedPriors hp]

lemma Reordered.forwardOf (h : Reordered p q) (hl : ∀ c ∈ p.components, c.ProvidesLocals)
    (hp : ((p.components.filter (!·.isLikelihood)).map provides).Nodup) :
    SameButNumber p q p.forwardOf q.forwardOf := by
  have ho : q.outputs = p.outputs := by rw [h.rest]
  have hd : q.defects = p.defects := by rw [h.rest]
  unfold Program.forwardOf
  rw [h.orderedForward hl hp, ho, hd]
  exact SameButNumber.bind (Or.inl rfl) fun ordered => h.classified.bind fun vars => Or.inl rfl

end

/-! ## The likelihood -/

lemma renderLogLike_of_terms {vars : Variables} {on : Bool} {terms : Component → List String}
    {components : List Component}
    (h : ∀ c ∈ components.filter (·.isLikelihood), likelihoodBlocks vars on c = .ok (terms c)) :
    renderLogLike vars on components = .ok (likelihoodMethod ((components.filter (·.isLikelihood)).flatMap terms)) := by
  have hb : (components.filter (·.isLikelihood)).mapM (likelihoodBlocks vars on) =
      .ok ((components.filter (·.isLikelihood)).map terms) :=
    mapM_eq_ok.mpr (forall₂_map_right_iff.mpr (forall₂_same.mpr h))
  unfold renderLogLike
  rw [hb]
  rfl

lemma renderLogLike_perm (vars : Variables) (on : Bool) {cs ds : List Component} (h : cs.Perm ds) :
    (∃ e e', renderLogLike vars on cs = .error e ∧ renderLogLike vars on ds = .error e') ∨
      ∃ terms : Component → List String,
        renderLogLike vars on cs = .ok (likelihoodMethod ((cs.filter (·.isLikelihood)).flatMap terms)) ∧
        renderLogLike vars on ds = .ok (likelihoodMethod ((ds.filter (·.isLikelihood)).flatMap terms)) := by
  have hmem : ∀ c, c ∈ ds.filter (·.isLikelihood) ↔ c ∈ cs.filter (·.isLikelihood) := fun c => (h.filter _).mem_iff.symm
  by_cases hall : ∀ c ∈ cs.filter (·.isLikelihood), ∃ lines, likelihoodBlocks vars on c = .ok lines
  · right
    have ht : ∀ c ∈ cs.filter (·.isLikelihood),
        likelihoodBlocks vars on c = .ok ((likelihoodBlocks vars on c).toOption.getD []) := by
      intro c hc
      obtain ⟨lines, hl⟩ := hall c hc
      rw [hl]
      rfl
    exact ⟨_, renderLogLike_of_terms ht, renderLogLike_of_terms fun c hc => ht c ((hmem c).mp hc)⟩
  · left
    have hr : ∀ es : List Component, (∀ c, c ∈ es.filter (·.isLikelihood) ↔
        c ∈ cs.filter (·.isLikelihood)) → ∃ e, renderLogLike vars on es = .error e := by
      intro es hes
      cases hre : renderLogLike vars on es with
      | error e => exact ⟨e, rfl⟩
      | ok text =>
        obtain ⟨blocks, hb, -⟩ := bind_eq_ok.mp hre
        refine absurd (fun c hc => ?_) hall
        obtain ⟨lines, -, hl⟩ := exists_of_forall₂ (mapM_eq_ok.mp hb).flip c ((hes c).mpr hc)
        exact ⟨lines, hl⟩
    obtain ⟨e, he⟩ := hr cs fun c => Iff.rfl
    obtain ⟨e', he'⟩ := hr ds hmem
    exact ⟨e, e', he, he'⟩

lemma Reordered.logLikeText (h : Reordered p q) :
    (∃ e e', (outcome logLikeText p).1 = .error e ∧ (outcome Program.logLikeText q).1 = .error e') ∨
      ∃ terms : Component → List String, (outcome Program.logLikeText p).1 =
          .ok (likelihoodMethod ((p.components.filter (·.isLikelihood)).flatMap terms)) ∧
        (outcome Program.logLikeText q).1 =
          .ok (likelihoodMethod ((q.components.filter (·.isLikelihood)).flatMap terms)) := by
  have ho : q.optionalTerms = p.optionalTerms := by rw [h.rest]
  have hany : q.components.any (·.isLikelihood) = p.components.any (·.isLikelihood) := h.components.symm.any_eq
  rw [fst_logLikeText, fst_logLikeText, ho, hany]
  by_cases hsome : p.components.any (·.isLikelihood) = true
  · rw [if_pos hsome, if_pos hsome]
    rcases h.classified with hsame | ⟨s, t, -, -, -, hp, hq⟩
    · rw [← hsame]
      cases p.classified with
      | error e => exact Or.inl ⟨e, e, rfl, rfl⟩
      | ok vars => exact renderLogLike_perm vars _ h.components
    · rw [hp, hq]
      exact Or.inl ⟨_, _, rfl, rfl⟩
  · have hnone : ∀ cs : List Component, ¬ cs.any (·.isLikelihood) = true → cs.filter (·.isLikelihood) = [] := by
      simp
    rw [if_neg hsome, if_neg hsome]
    refine Or.inr ⟨fun _ => [], ?_, ?_⟩
    · rw [hnone _ hsome]
      rfl
    · rw [hnone _ (hany ▸ hsome)]
      rfl

/-! ## Any order -/

lemma Reordered.renderHeader (h : Reordered p q) (vars : Variables) :
    renderHeader p vars = Program.renderHeader q vars := by
  rw [h.rest]
  rfl

/-- Parts are added in two orders. If components that are no likelihood terms provide different variables and priors
are for different ones, then places, header, priors and forward model are the same, or the refusal is but for the
number that it names, the first in each order. The likelihood has the same terms, as they were added. -/
theorem insertion_order_seen (steps : List Step) {entries entries' : List Entry} (hperm : entries.Perm entries')
    (hprovides : (((after (steps ++ entries.map .add)).components.filter (!·.isLikelihood)).map
      Component.provides).Nodup)
    (hpriors : ((after (steps ++ entries.map .add)).priors.map fun prior => prior.call.var.text).Nodup) :
    let p := after (steps ++ entries.map .add)
    let q := after (steps ++ entries'.map .add)
    SameButNumber p q p.classified q.classified ∧ (∀ vars, renderHeader p vars = renderHeader q vars) ∧
    SameButNumber p q (quantileText.run.run p).1 (quantileText.run.run q).1 ∧
    SameButNumber p q (logPriorText.run.run p).1 (logPriorText.run.run q).1 ∧
    SameButNumber p q (forwardText.run.run p).1 (forwardText.run.run q).1 ∧
    (p.components.filter (·.isLikelihood)).Perm (q.components.filter (·.isLikelihood)) ∧
    ((∃ e e', (logLikeText.run.run p).1 = .error e ∧ (logLikeText.run.run q).1 = .error e') ∨
      ∃ terms : Component → List String,
        (logLikeText.run.run p).1 = .ok (likelihoodMethod ((p.components.filter (·.isLikelihood)).flatMap terms)) ∧
        (logLikeText.run.run q).1 = .ok (likelihoodMethod ((q.components.filter (·.isLikelihood)).flatMap terms))) := by
  intro p q
  have h : Reordered p q := reordered_after steps hperm
  refine ⟨h.classified, h.renderHeader, ?_, ?_, ?_, h.components.filter _, h.logLikeText⟩
  · show SameButNumber p q (outcome quantileText p).1 (outcome quantileText q).1
    rw [fst_quantileText, fst_quantileText]
    exact h.classified.bind fun vars => Or.inl (h.renderQuantile hpriors vars)
  · show SameButNumber p q (outcome logPriorText p).1 (outcome logPriorText q).1
    rw [fst_logPriorText, fst_logPriorText]
    exact h.classified.bind fun vars => Or.inl (h.renderLogPrior hpriors vars)
  · show SameButNumber p q (outcome forwardText p).1 (outcome forwardText q).1
    rw [outcome_forwardText, outcome_forwardText]
    exact h.forwardOf (providesLocals_after _) hprovides

/-! Two local variables, one of them needed by the other and given by an expression with a second one; two
likelihood terms; two priors, one of which depends on the parameter of the other. -/

def stackedEntries : List Entry :=
  [.constraint (.str "v.a") (.str "normal") (.list [.str "c.m", .str "c.s"]), .assign (.str "a") (.str "v.b + p.x"),
    .prior (.str "p.y") (.str "normal") (.list [.str "p.x", .str "1"]),
    .constraint (.str "v.c") (.str "normal") (.list [.str "0", .str "c.s"]),
    .expression (.str "v.b, v.c = p.y, 2*p.y"), .prior (.str "p.x") (.str "uniform") (.list [.str "0", .str "1"])]

def stackedVariables : Variables where
  params := [.var .param "x", .var .param "y"]
  priorParams := [.var .param "x", .var .param "y"]
  constants := [.var .const "m", .var .const "s"]
  locals := [.var .localVar "a", .var .localVar "b", .var .localVar "c"]

theorem insertion_order_seen_stacked :
    let p := after ([] ++ stackedEntries.map .add)
    let q := after ([] ++ stackedEntries.reverse.map .add)
    q.classified = .ok stackedVariables ∧ (quantileText.run.run p).1 = (quantileText.run.run q).1 ∧
    (logPriorText.run.run p).1 = (logPriorText.run.run q).1 ∧
    (forwardText.run.run p).1 = (forwardText.run.run q).1 := by
  intro p q
  obtain ⟨hvars, -, hq, hlogPrior, hf, -, -⟩ := insertion_order_seen []
    stackedEntries.reverse_perm.symm (by decide +kernel) (by decide +kernel)
  have hsame : ∀ {α : Type} {x y : Except Fault α}, SameButNumber p q x y → x = y := by
    rintro α x y (hxy | ⟨s, t, hs, -⟩)
    · exact hxy
    · cases (show p.number? = none by decide +kernel).symm.trans hs
  exact ⟨(hsame hvars).symm.trans (by decide +kernel), hsame hq, hsame hlogPrior, hsame hf⟩

def onNumber (text : String) : Component :=
  .likelihood ⟨.literal text, .normal, ["0", "1"], []⟩

/-- Two terms for numbers are added in both orders, and the refusals differ. -/
theorem refusal_names_first_number :
    let add := fun (c d : Component) => ({} : Program).withPart (.ok c) >>= fun p => p.withPart (.ok d)
    ∃ p q, add (onNumber "2.0") (onNumber "1.0") = .ok p ∧ add (onNumber "1.0") (onNumber "2.0") = .ok q ∧
      Reordered p q ∧ (∀ c ∈ p.components, c.isLikelihood = true) ∧ p.priors = [] ∧
      (quantileText.run.run p).1 = .error (.notAVariable "2.0") ∧
      (quantileText.run.run q).1 = .error (.notAVariable "1.0") := by
  refine ⟨_, _, rfl, rfl, ⟨List.Perm.swap .., List.Perm.refl _, rfl⟩, ?_, rfl, rfl, rfl⟩
  decide

end Program

end GridBayes
