import GridBayes.Proofs.CopyOutline

/-! Look-ups of the copies of a variable. The keys are entered and left in the same order, whatever the number of the
copy is. So the values, the code and the graph that two copies leave are one set of templates with the two numbers in
their holes. -/
namespace GridBayes.Deferred
open List Operation Resolution Text Sources KeyForm Builder

/-! ## Visits of all copies -/

lemma Event.map_single {e : Event KeyForm} (h : e.item.copied = false) (j j' : String) :
    e.map (key · j) = e.map (key · j') := by
  cases e with
  | entered f => exact congrArg Event.entered (key_single h j j')
  | left f => exact congrArg Event.left (key_single h j j')

lemma mem_of_key_mem {fs : List KeyForm} {f : KeyForm} {j : String} (h : f.key j ∈ fs.map (key · j)) : f ∈ fs := by
  obtain ⟨g, hg, heq⟩ := mem_map.mp h
  rwa [← key_inj heq]

lemma Visits.copies {src : Sources} (heven : src.Even) (hl : Yields Listed src.library) {j : String}
    (hj : IsCopyNumber j) {ks wanted : List Key} {es : List (Event Key)} (h : Visits src ks wanted es)
    {known fs : List KeyForm} (hks : ks = known.map (key · j))
    (hw : wanted = fs.map (key · j)) (hfs : ∀ f ∈ fs, f.Written) :
    ∃ forms : List (Event KeyForm), (∀ f ∈ done forms, f.Written) ∧ ∀ i, IsCopyNumber i →
      Visits src (known.map (key · i)) (fs.map (key · i)) (forms.map (Event.map (key · i))) := by
  induction h generalizing known fs with
  | nil =>
    obtain rfl : fs = [] := by simpa using hw.symm
    exact ⟨[], by simp [done], fun i _ => .nil⟩
  | @known ks rest k es hmem _ ih =>
    cases fs with
    | nil => cases hw
    | cons f fs =>
      obtain ⟨rfl, hrest⟩ := cons.inj hw
      obtain ⟨forms, hwr, hv⟩ := ih hks hrest fun g hg => hfs g (mem_cons_of_mem f hg)
      have hf : f ∈ known := mem_of_key_mem (hks ▸ hmem)
      exact ⟨forms, hwr, fun i hi => .known (mem_map_of_mem hf) (hv i hi)⟩
  | @new ks rest k d es es' hfr hd hkeys _ ihkeys ihafter =>
    cases fs with
    | nil => cases hw
    | cons f fs =>
      obtain ⟨rfl, hrest⟩ := cons.inj hw
      have hf := hfs f mem_cons_self
      obtain ⟨form, hform⟩ := exists_outline heven hl hf hj hd
      cases hd.symm.trans (hform.defined j hj)
      obtain ⟨inner, hin, hv⟩ := ihkeys hks (DefinitionForm.keys_put hform.text hj)
        fun g hg => DefinitionForm.written_keys g hg
      -- The forms are those of the visits that the induction is on.
      have hes : es = inner.map (Event.map (key · j)) := by
        have hsame := hv j hj
        rw [← hks, ← DefinitionForm.keys_put hform.text hj] at hsame
        exact hkeys.unique hsame
      have hk : ks ++ done es ++ [f.key j] = (known ++ done inner ++ [f]).map (key · j) := by
        rw [hks, hes, done_map]
        simp
      obtain ⟨outer, ho, hv'⟩ := ihafter hk hrest fun g hg => hfs g (mem_cons_of_mem f hg)
      refine ⟨Event.entered f :: (inner ++ Event.left f :: outer), fun g hg => ?_, fun i hi => ?_⟩
      · rw [done_new, mem_append, mem_cons] at hg
        rcases hg with hg | rfl | hg
        · exact hin g hg
        · exact hf
        · exact ho g hg
      · have hfr' : f.key i ∉ known.map (key · i) := by
          intro hmem
          have hf' : f ∈ known := mem_of_key_mem hmem
          exact hfr (hks ▸ mem_map_of_mem hf')
        have hkeys' := hv i hi
        rw [← DefinitionForm.keys_put hform.text hi] at hkeys'
        have ha' := hv' i hi
        rw [map_append, map_append, ← done_map] at ha'
        rw [map_cons, map_cons, map_append]
        exact .new hfr' (hform.defined i hi) hkeys' ha'

/-! ## Graphs of all copies -/

def setNode (graph : List (KeyForm × NodeForm)) (n : KeyForm × NodeForm) : List (KeyForm × NodeForm) :=
  if graph.any (·.1.alike n.1) then graph.map fun e => if e.1.alike n.1 then n else e
  else graph ++ [n]

def graphForm (notes : List (KeyForm × NodeForm)) : List (KeyForm × NodeForm) :=
  notes.foldl setNode []

lemma mem_setNode {graph : List (KeyForm × NodeForm)} {n e : KeyForm × NodeForm} (h : e ∈ setNode graph n) :
    e ∈ graph ∨ e = n := by
  unfold setNode at h
  split at h
  · obtain ⟨e', he', rfl⟩ := mem_map.mp h
    split
    · exact Or.inr rfl
    · exact Or.inl he'
  · simpa using h

lemma putNode_setNode {graph : List (KeyForm × NodeForm)} {n : KeyForm × NodeForm} {j : String}
    (hg : ∀ e ∈ graph, (e.1.key j).Spelled) (hn : (n.1.key j).Spelled) :
    (setNode graph n).map (putNode j) = setEntry (graph.map (putNode j)) (n.1.key j).text (n.2.put j) := by
  have hsame : ∀ e ∈ graph, ((putNode j e).1 == (n.1.key j).text) = e.1.alike n.1 := fun e he => text_beq (hg e he) hn
  have hany : (graph.map (putNode j)).any (·.1 == (n.1.key j).text) = graph.any (·.1.alike n.1) := by
    rw [any_map, Bool.eq_iff_iff, any_eq_true, any_eq_true]
    refine exists_congr fun e => and_congr_right fun he => ?_
    exact Bool.eq_iff_iff.mp (hsame e he)
  unfold setNode setEntry
  rw [hany]
  split
  · rw [map_map, map_map]
    refine map_congr_left fun e he => ?_
    simp only [Function.comp_apply, hsame e he]
    cases e.1.alike n.1 <;> rfl
  · rw [map_append]
    rfl

lemma putNode_foldl {notes graph : List (KeyForm × NodeForm)} {j : String}
    (hg : ∀ e ∈ graph, (e.1.key j).Spelled) (hno : ∀ n ∈ notes, (n.1.key j).Spelled) :
    (notes.foldl setNode graph).map (putNode j) =
      (notes.map (putNode j)).foldl (fun graph n => setEntry graph n.1 n.2) (graph.map (putNode j)) := by
  induction notes generalizing graph with
  | nil => rfl
  | cons n notes ih =>
    have hn := hno n mem_cons_self
    have hnext : ∀ e ∈ setNode graph n, (e.1.key j).Spelled := by
      intro e he
      rcases mem_setNode he with he | rfl
      · exact hg e he
      · exact hn
    rw [foldl_cons, ih hnext fun n hn => hno n (mem_cons_of_mem _ hn), putNode_setNode hg hn]
    rfl

lemma putNode_graphForm {notes : List (KeyForm × NodeForm)} {j : String} (h : ∀ n ∈ notes, (n.1.key j).Spelled) :
    (graphForm notes).map (putNode j) = graphOf (notes.map (putNode j)) :=
  putNode_foldl (by simp) h

lemma mem_graphForm {notes : List (KeyForm × NodeForm)} {e : KeyForm × NodeForm} (h : e ∈ graphForm notes) :
    e ∈ notes := by
  have hfold : ∀ graph, e ∈ notes.foldl setNode graph → e ∈ graph ∨ e ∈ notes := by
    clear h
    induction notes with
    | nil => exact fun graph hmem => Or.inl hmem
    | cons n notes ih =>
      intro graph hmem
      rcases ih _ hmem with hmem | hmem
      · rcases mem_setNode hmem with hmem | rfl
        · exact Or.inl hmem
        · exact Or.inr mem_cons_self
      · exact Or.inr (mem_cons_of_mem _ hmem)
  exact (hfold [] h).resolve_left (by simp)

/-! ## Templates -/

structure CopyForms where
  values : List (KeyForm × Holed)
  graph : List (KeyForm × NodeForm)
  components : List (KeyForm × Holed)

namespace CopyForms

structure Fits (forms : CopyForms) (j : String) (t : Resolution) : Prop where
  values : t.values = forms.values.map fun v => ((v.1.key j).text, v.2.put j)
  graph : t.graph = forms.graph.map (putNode j)
  components : t.components = forms.components.map (putCode j)

structure Shares (forms : CopyForms) (src : Sources) : Prop where
  values : ∀ v ∈ forms.values, v.1.copied = false → v.2.Solid
  graph : ∀ n ∈ forms.graph, n.1.copied = false → n.2.Solid
  components : ∀ c ∈ forms.components, c.1.copied = false → c.2.Solid
  mentions : ∀ v ∈ forms.values, ∀ j, IsCopyNumber j → ∃ d, src.definition (v.1.key j) = .ok d ∧
    ∀ r ∈ references d.text, ∃ t, (r.form v.1.copied, t) ∈ forms.values
  /-- Mentions without a grid before a point are listed without the index, so there copies do not differ. -/
  listed : ∀ n ∈ forms.graph, (∃ v ∈ forms.values, v.1.copied = n.1.copied ∧ ∀ j, IsCopyNumber j → ∃ d,
      src.definition (v.1.key j) = .ok d ∧ n.2.mentions = (references d.text).map (Reference.listedForm n.1.copied)) ∨
    ∃ m function, n.2 = ⟨[m], n.1.localVar, .plain function ++ .plain "(" ++ m ++ .plain ")"⟩

end CopyForms

structure Described (src : Sources) (fs : List KeyForm) (form : KeyForm → DefinitionForm)
    (value : KeyForm → Holed) : Prop where
  written : ∀ f ∈ fs, f.Written
  outline : ∀ f ∈ fs, src.Outline f (form f)
  closed : ∀ f ∈ fs, ∀ g ∈ (form f).keys, g ∈ fs
  meaning : ∀ f ∈ fs, ∀ j, IsCopyNumber j → src.meaning (f.key j) = (value f).put j

def noteForms (form : KeyForm → DefinitionForm) (value : KeyForm → Holed) : Event KeyForm → List (KeyForm × NodeForm)
  | .entered f => [((form f).base, (form f).node)]
  | .left f => (form f).transformNodes f ((form f).filled value)

lemma mem_noteForms {form : KeyForm → DefinitionForm} {value : KeyForm → Holed} {e : Event KeyForm}
    {n : KeyForm × NodeForm} (h : n ∈ noteForms form value e) :
    n = ((form e.item).base, (form e.item).node) ∨ (n.1 = e.item ∧ ∃ m function,
      n.2 = ⟨[m], n.1.localVar, .plain function ++ .plain "(" ++ m ++ .plain ")"⟩) := by
  cases e with
  | entered f => exact Or.inl (mem_singleton.mp h)
  | left f =>
    have hmem : n ∈ (form f).transformNodes f ((form f).filled value) := h
    unfold DefinitionForm.transformNodes at hmem
    split at hmem
    · cases hmem
    · rename_i function _
      obtain rfl := mem_singleton.mp hmem
      exact Or.inr ⟨rfl, _, function, rfl⟩

def codeForms (form : KeyForm → DefinitionForm) (value : KeyForm → Holed) (f : KeyForm) : List (KeyForm × Holed) :=
  (form f).generated f ((form f).filled value)

namespace Described

variable {src : Sources} {fs : List KeyForm} {form : KeyForm → DefinitionForm} {value : KeyForm → Holed}
variable {f : KeyForm} {j : String}

lemma filled (h : Described src fs form value) (hf : f ∈ fs) (hj : IsCopyNumber j) :
    ((form f).put j).filled src.meaning = ((form f).filled value).put j :=
  (h.outline f hf).meaning_filled hj fun g hg => h.meaning g (h.closed f hf g hg) j hj

lemma code (h : Described src fs form value) (hf : f ∈ fs) (hj : IsCopyNumber j) :
    (codeForms form value f).map (putCode j) = src.generatedBy (f.key j) := by
  have ho := h.outline f hf
  unfold codeForms
  rw [DefinitionForm.put_generated (ho.spelled j hj), generatedBy_eq (ho.defined j hj), h.filled hf hj]

lemma notes (h : Described src fs form value) {e : Event KeyForm} (he : e.item ∈ fs) (hj : IsCopyNumber j) :
    (noteForms form value e).map (putNode j) = src.notes (e.map (key · j)) := by
  cases e with
  | entered f =>
    have ho := h.outline f he
    show [putNode j ((form f).base, (form f).node)] = src.notes (.entered (f.key j))
    rw [notes_entered (ho.defined j hj), ← DefinitionForm.put_node (ho.spelled j hj)]
    rfl
  | left f =>
    have ho := h.outline f he
    have hf : f ∈ fs := he
    have hn := DefinitionForm.put_transformNodes (ho.spelled j hj) ((h.written f hf).key hj).spelled
      ((form f).filled value)
    rw [← h.filled hf hj] at hn
    exact hn.trans (notes_left (ho.defined j hj)).symm

lemma copied_notes (h : Described src fs form value) {e : Event KeyForm} (he : e.item ∈ fs) :
    ∀ n ∈ noteForms form value e, n.1.copied = e.item.copied := by
  intro n hn
  rcases mem_noteForms hn with rfl | ⟨hkey, -⟩
  · exact (h.outline e.item he).copied
  · rw [hkey]

lemma spelled_notes (h : Described src fs form value) {e : Event KeyForm} (he : e.item ∈ fs)
    (hj : IsCopyNumber j) : ∀ n ∈ noteForms form value e, (n.1.key j).Spelled := by
  intro n hn
  rcases mem_noteForms hn with rfl | ⟨hkey, -⟩
  · exact (h.outline e.item he).spelled j hj
  · rw [hkey]
    exact ((h.written e.item he).key hj).spelled

def forms (form : KeyForm → DefinitionForm) (value : KeyForm → Holed) (es : List (Event KeyForm)) : CopyForms where
  values := (done es).map fun f => (f, value f)
  graph := graphForm (es.flatMap (noteForms form value))
  components := (done es).flatMap (codeForms form value)

variable {es : List (Event KeyForm)}

lemma fits (h : Described src (done es) form value) (hi : ∀ e ∈ es, e.item ∈ done es)
    (hj : IsCopyNumber j) {t : Resolution}
    (ht : Traced src (done (es.map (Event.map (key · j)))) (es.map (Event.map (key · j))) t) :
    (forms form value es).Fits j t where
  values := by
    rw [ht.values, done_map, map_map]
    show _ = ((done es).map fun f => (f, value f)).map _
    rw [map_map]
    refine map_congr_left fun f hf => ?_
    simp only [Function.comp_apply]
    rw [h.meaning f hf j hj]
  graph := by
    have hs : ∀ n ∈ es.flatMap (noteForms form value), (n.1.key j).Spelled := by
      intro n hn
      obtain ⟨e, he, hn⟩ := mem_flatMap.mp hn
      exact h.spelled_notes (hi e he) hj n hn
    show _ = (graphForm (es.flatMap (noteForms form value))).map (putNode j)
    rw [ht.graph, putNode_graphForm hs, map_flatMap, flatMap_map]
    refine congrArg graphOf (flatMap_congr fun e he => ?_)
    exact (h.notes (hi e he) hj).symm
  components := by
    show _ = ((done es).flatMap (codeForms form value)).map (putCode j)
    rw [ht.components, done_map, map_flatMap, flatMap_map]
    exact flatMap_congr fun f hf => (h.code hf hj).symm

lemma copied_code (h : Described src fs form value) (hf : f ∈ fs) :
    ∀ c ∈ codeForms form value f, c.1.copied = f.copied := by
  intro c hc
  rcases mem_append.mp hc with hc | hc
  · split at hc
    · obtain rfl := mem_singleton.mp hc
      exact (h.outline f hf).copied
    · cases hc
  · split at hc
    · cases hc
    · obtain rfl := mem_singleton.mp hc
      rfl

lemma shares (h : Described src (done es) form value) (hi : ∀ e ∈ es, e.item ∈ done es) :
    (forms form value es).Shares src where
  values v hv hco := by
    obtain ⟨f, hf, rfl⟩ := mem_map.mp hv
    refine Holed.solid_of_put_eq ?_
    rw [← h.meaning f hf _ isCopyNumber_one, ← h.meaning f hf _ isCopyNumber_eleven, key_single hco "1" "11"]
  graph n hn hco := by
    obtain ⟨e, he, hn⟩ := mem_flatMap.mp (mem_graphForm hn)
    have hs : e.item.copied = false := by rw [← h.copied_notes (hi e he) n hn, hco]
    have hsame := (h.notes (hi e he) isCopyNumber_one).trans
      ((congrArg src.notes (Event.map_single hs "1" "11")).trans (h.notes (hi e he) isCopyNumber_eleven).symm)
    exact NodeForm.solid_of_put_eq (congrArg Prod.snd (map_inj_left.mp hsame n hn))
  components c hc hco := by
    obtain ⟨f, hf, hc⟩ := mem_flatMap.mp hc
    have hs : f.copied = false := by rw [← h.copied_code hf c hc, hco]
    have hsame := (h.code hf isCopyNumber_one).trans
      ((congrArg src.generatedBy (key_single hs "1" "11")).trans (h.code hf isCopyNumber_eleven).symm)
    exact Holed.solid_of_put_eq (congrArg Generated.code (map_inj_left.mp hsame c hc))
  mentions v hv j hj := by
    obtain ⟨f, hf, rfl⟩ := mem_map.mp hv
    have ho := h.outline f hf
    refine ⟨(form f).put j, ho.defined j hj, fun r hr => ?_⟩
    have hkey : r.form f.copied ∈ (form f).keys := by
      unfold DefinitionForm.keys
      rw [ho.copied]
      exact mem_map_of_mem hr
    exact ⟨_, mem_map_of_mem (h.closed f hf _ hkey)⟩
  listed n hn := by
    obtain ⟨e, he, hn⟩ := mem_flatMap.mp (mem_graphForm hn)
    have hitem := hi e he
    rcases mem_noteForms hn with rfl | ⟨-, ht⟩
    · have ho := h.outline e.item hitem
      refine Or.inl ⟨(e.item, value e.item), mem_map_of_mem hitem, ho.copied.symm, fun j hj => ?_⟩
      refine ⟨(form e.item).put j, ho.defined j hj, ?_⟩
      unfold DefinitionForm.node
      split <;> rfl
    · exact Or.inr ht

end Described

lemma exists_described {src : Sources} (heven : src.Even) (hl : Yields Listed src.library) {j : String}
    (hj : IsCopyNumber j) {fs : List KeyForm} (hfs : ∀ f ∈ fs, f.Written) {t : Resolution}
    (ht : Knows src (fs.map (key · j)) t) : ∃ form value, Described src fs form value := by
  have hm : ∀ f ∈ fs, src.Meaningful (f.key j) := fun f hf => ht.meaningful _ (mem_map_of_mem hf)
  have hfo : ∀ f ∈ fs, ∃ form, src.Outline f form := by
    intro f hf
    obtain ⟨d, hd⟩ := ht.definition (mem_map_of_mem hf)
    exact exists_outline heven hl (hfs f hf) hj hd
  have hv : ∀ f ∈ fs, ∃ t : Holed, ∀ i, IsCopyNumber i → src.Resolves (f.key i) (t.put i) :=
    fun f hf => exists_value heven hl (hfs f hf) hj (hm f hf)
  choose! form hform using hfo
  choose! value hva using hv
  refine ⟨form, value, hfs, hform, fun f hf g hg => ?_, fun f hf i hi => (hva f hf i hi).meaning_eq⟩
  have hkey : g.key j ∈ ((form f).put j).keys := by
    rw [DefinitionForm.keys_put (hform f hf).text hj]
    exact mem_map_of_mem hg
  have hde : src.Depends (f.key j) (g.key j) := depends_iff.mpr ⟨_, (hform f hf).defined j hj, hkey⟩
  exact mem_of_key_mem (ht.closed _ (mem_map_of_mem hf) _ hde)

lemma exists_forms {src : Sources} (heven : src.Even) (hl : Yields Listed src.library) {f : KeyForm}
    (hf : f.Written) {j : String} (hj : IsCopyNumber j) {es : List (Event Key)} {t : Resolution}
    (hv : Visits src [] [f.key j] es) (ht : Traced src (done es) es t) :
    ∃ forms : CopyForms, forms.Shares src ∧ (∃ v, (f, v) ∈ forms.values) ∧
      ∀ i, IsCopyNumber i → ∀ {es' u}, Visits src [] [f.key i] es' → Traced src (done es') es' u → forms.Fits i u := by
  have hnone : ([] : List Key) = ([] : List KeyForm).map (key · j) := rfl
  have hone : [f.key j] = [f].map (key · j) := rfl
  obtain ⟨events, hw, hc⟩ := hv.copies heven hl hj hnone hone (by simpa using hf)
  obtain rfl := hv.unique (hc j hj)
  rw [done_map] at ht
  obtain ⟨form, value, hd⟩ := exists_described heven hl hj hw ht.toKnows
  have hit : ∀ e ∈ events, e.item ∈ done events := by
    intro e he
    have hitem := hv.item_done _ (mem_map_of_mem he)
    rw [done_map] at hitem
    refine mem_of_key_mem (j := j) ?_
    cases e with
    | entered g => exact hitem
    | left g => exact hitem
  have hdone : f ∈ done events := by
    have hmem := hv.known_or_done (f.key j) (mem_singleton_self _)
    rw [done_map] at hmem
    exact mem_of_key_mem hmem
  refine ⟨Described.forms form value events, hd.shares hit, ⟨value f, mem_map_of_mem hdone⟩, ?_⟩
  intro i hi es' u hv' hu
  obtain rfl := hv'.unique (hc i hi)
  exact hd.fits hit hi hu

/-! ## Requests for copies -/

lemma splitWordFrom_append {c : Char} {tail : List Char} (htail : c ∉ tail) (a : List Char) :
    ∃ front last, splitWordFrom [c] 0 a = front ++ [last] ∧
      splitWordFrom [c] 0 (a ++ tail) = front ++ [last ++ tail] := by
  induction a with
  | nil => exact ⟨[], [], rfl, splitWordFrom_plain htail⟩
  | cons d a ih =>
    obtain ⟨front, last, ha, hat⟩ := ih
    by_cases hd : c = d
    · refine ⟨[] :: front, last, ?_, ?_⟩
      · simp [splitWordFrom, afterStart?, hd] at ha ⊢
        exact ha
      · simp [splitWordFrom, afterStart?, hd] at hat ⊢
        exact hat
    · cases front with
      | nil =>
        refine ⟨[], d :: last, ?_, ?_⟩
        · simp [splitWordFrom, afterStart?, hd, ha]
        · simp [splitWordFrom, afterStart?, hd, hat]
      | cons piece front =>
        refine ⟨(d :: piece) :: front, last, ?_, ?_⟩
        · simp [splitWordFrom, afterStart?, hd, ha]
        · simp [splitWordFrom, afterStart?, hd, hat]

lemma join_append_last (sep : String) (front : List String) (last tail : String) :
    join sep (front ++ [last ++ tail]) = join sep (front ++ [last]) ++ tail := by
  induction front with
  | nil => rfl
  | cons a front ih =>
    cases front with
    | nil => simp [join, String.append_assoc]
    | cons b front =>
      unfold join at ih ⊢
      rw [cons_append, cons_append, cons_append, cons_append,
        String.intercalate_cons_cons, String.intercalate_cons_cons]
      rw [cons_append, cons_append] at ih
      rw [ih, String.append_assoc, String.append_assoc, String.append_assoc]

lemma replaceWord_append {tail : String} (htail : '.' ∉ tail.toList) (s new : String) :
    replaceWord "." new (s ++ tail) = replaceWord "." new s ++ tail := by
  obtain ⟨front, last, hs, hst⟩ := splitWordFrom_append htail s.toList
  have hp : ".".toList = ['.'] := rfl
  unfold replaceWord splitWord
  rw [hp, String.toList_append, hs, hst, map_append, map_append, map_singleton,
    map_singleton, String.ofList_append, String.ofList_toList, join_append_last]

lemma trimChars_append {p : Char → Bool} {b : List Char} (hb : ∀ c ∈ b, p c = false) (hne : b ≠ [])
    (a : List Char) : trimChars p (a ++ b) = a.dropWhile p ++ b := by
  have hf : (a ++ b).dropWhile p = a.dropWhile p ++ b := by
    induction a with
    | nil =>
      cases b with
      | nil => rfl
      | cons c b => simp [hb c mem_cons_self]
    | cons c a ih =>
      cases hc : p c with
      | true => simp [hc, ih]
      | false => simp [hc]
  unfold trimChars
  obtain ⟨front, last, rfl⟩ := (eq_nil_or_concat b).resolve_left hne
  have hlast : p last = false := hb last (by simp)
  rw [hf, concat_eq_append, ← append_assoc, reverse_append, reverse_singleton,
    singleton_append, dropWhile_cons_of_neg (by simp [hlast])]
  simp

lemma dropStart?_append {s tail : String} (htail : ∀ c ∈ tail.toList.head?, c ≠ 'g' ∧ c ≠ '.') :
    (dropStart? "g." (s ++ tail)).getD (s ++ tail) = (dropStart? "g." s).getD s ++ tail := by
  have hs : ∀ a b : List Char, (∀ c ∈ b.head?, c ≠ 'g' ∧ c ≠ '.') →
      afterStart? ['g', '.'] (a ++ b) = (afterStart? ['g', '.'] a).map (· ++ b) := by
    intro a b hb
    cases a with
    | nil =>
      cases b with
      | nil => rfl
      | cons c b => simp [afterStart?, (hb c rfl).1.symm]
    | cons d a =>
      rcases eq_or_ne 'g' d with rfl | hd
      · cases a with
        | nil =>
          cases b with
          | nil => rfl
          | cons c b => simp [afterStart?, (hb c rfl).2.symm]
        | cons e a => rcases eq_or_ne '.' e with rfl | he <;> simp [afterStart?]
      · simp [afterStart?, hd]
  have hgp : "g.".toList = ['g', '.'] := rfl
  unfold dropStart?
  rw [hgp, String.toList_append, hs _ _ htail]
  cases afterStart? ['g', '.'] s.toList with
  | none => rfl
  | some rest => simp

def copyWord (name : String) : String :=
  normalKey (String.ofList (name.toList.dropWhile ([' ', '\x7b', '\x7d'].contains ·)))

lemma requested_copy (name : String) {j : String} (hj : IsCopyNumber j) :
    requested [name ++ "--" ++ j] = [copyWord name ++ "--" ++ j] := by
  have htail : ∀ c, isWord c = false → c ≠ '-' → c ∉ ("--" ++ j).toList := by
    intro c hword hdash hmem
    have hchar : c ∈ j.toList := by simpa [hdash] using hmem
    rw [isWord_of_isIndexChar (hj.isIndex.2 c hchar)] at hword
    cases hword
  have hs : stripOf [' ', '\x7b', '\x7d'] (name ++ ("--" ++ j)) =
      String.ofList (name.toList.dropWhile ([' ', '\x7b', '\x7d'].contains ·)) ++ ("--" ++ j) := by
    unfold stripOf
    rw [String.toList_append, trimChars_append ?_ (by simp), String.ofList_append, String.ofList_toList]
    intro c hc
    by_contra hmark
    have hmem : c ∈ [' ', '\x7b', '\x7d'] := contains_iff_mem.mp (Bool.eq_true_of_not_eq_false hmark)
    simp only [mem_cons, not_mem_nil, or_false] at hmem
    rcases hmem with rfl | rfl | rfl
    · exact htail _ (by decide) (by decide) hc
    · exact htail _ (by decide) (by decide) hc
    · exact htail _ (by decide) (by decide) hc
  have hhead : ∀ c ∈ ("--" ++ j).toList.head?, c ≠ 'g' ∧ c ≠ '.' := by
    intro c hc
    obtain rfl : '-' = c := by simpa using hc
    decide
  have hkey : ∀ s, normalKey (s ++ ("--" ++ j)) = normalKey s ++ ("--" ++ j) := by
    intro s
    unfold normalKey
    rw [dropStart?_append hhead, replaceWord_append (htail '.' (by decide) (by decide))]
  unfold requested copyWord
  rw [map_singleton, String.append_assoc, hs, hkey, String.append_assoc]
  rfl

lemma isWord_of_copy {u j : String} (hj : IsCopyNumber j) {k : Key}
    (h : Key.ofText? (u ++ "--" ++ j) = some k) : IsWord u.toList := by
  obtain ⟨htext, hw⟩ := Key.ofText?_some h
  obtain ⟨word, index, hword, hin, rfl, -⟩ := hw _ (Nat.le_refl _)
  have hc : word ++ indexPart index = u.toList ++ '-' :: '-' :: j.toList := by
    have hlist := congrArg String.toList htext
    rw [text_keyOfWord] at hlist
    simpa using hlist
  have hdash : '-' ∉ word := not_mem_of_isWord hword (by decide)
  cases index with
  | none =>
    rw [indexPart, append_nil] at hc
    exact absurd (by rw [hc]; simp) hdash
  | some i =>
    -- The last two hyphens part the index from the word, on both sides.
    have hback : i.reverse ++ '-' :: '-' :: word.reverse = j.toList.reverse ++ '-' :: '-' :: u.toList.reverse := by
      have hr := congrArg reverse hc
      simpa [indexPart] using hr
    have hi : '-' ∉ i.reverse := fun hmem => not_mem_of_isIndex (hin i rfl) (by decide) (mem_reverse.mp hmem)
    have hj' : '-' ∉ j.toList.reverse := fun hmem => not_mem_of_isIndex hj.isIndex (by decide) (mem_reverse.mp hmem)
    obtain ⟨-, hrest⟩ := append_inj_of_mark hi hj' (by simp) (by simp) hback
    have hu : word = u.toList := by simpa using hrest
    exact hu ▸ hword

lemma requested_word {name j : String} {f : KeyForm} (hj : IsCopyNumber j)
    (hf : f = ofWord (copyWord name).toList true) : requested [name ++ "--" ++ j] = [(f.key j).text] := by
  rw [requested_copy name hj, hf, key_ofWord, text_keyOfWord]
  refine congrArg (fun text => [text]) (String.toList_inj.mp ?_)
  simp [copyIndex, indexPart]

/-- Requests for the copies of a variable are all refused, or none is, and then values, graph and code fit the same
templates, with the number of the copy in the holes. Only mentions with an index have holes, and the graph lists
those without a grid before a point without the number. -/
theorem copies_fit_templates (w : Session) (overrides multiplicity : List (String × Value))
    (heven : (start w.library overrides multiplicity).toSources.Even) (name : String) :
    let s := start w.library overrides multiplicity
    let run := fun (agenda : Agenda) (j : String) => (resolveAll [name ++ "--" ++ j] agenda).run.run s
    (∀ agenda j, IsCopyNumber j → ∃ e, (run agenda j).1 = .error e) ∨
    ∃ forms : CopyForms, forms.Shares s.toSources ∧
      (∃ t, (KeyForm.ofWord (copyWord name).toList true, t) ∈ forms.values) ∧
      ∀ agenda j, IsCopyNumber j → (run agenda j).1 = .ok () ∧ forms.Fits j (run agenda j).2 := by
  intro s run
  have hl : Yields Listed s.library := listed_library w
  by_cases hword : IsWord (copyWord name).toList
  · obtain ⟨f, hf⟩ : ∃ f, f = KeyForm.ofWord (copyWord name).toList true := ⟨_, rfl⟩
    have hw : f.Written := ⟨_, hword, by rw [hf]; rfl⟩
    have hr := fun agenda j (hj : IsCopyNumber j) =>
      request_one w.library overrides multiplicity (hw.key hj) (requested_word hj hf) agenda
    rw [← hf]
    by_cases hsome : ∃ j, IsCopyNumber j ∧ s.toSources.Meaningful (f.key j)
    · right
      obtain ⟨j, hj, hm⟩ := hsome
      obtain ⟨value, hva⟩ := Sources.exists_value heven hl hw hj hm
      have hg := fun agenda i (hi : IsCopyNumber i) => (hr agenda i hi).resolve_right fun h => h.1 (hva i hi).meaningful
      obtain ⟨-, -, es, hv, ht⟩ := hg .sorted j hj
      obtain ⟨forms, hs, hmem, hfits⟩ := exists_forms heven hl hw hj hv ht
      refine ⟨forms, hs, hmem, fun agenda i hi => ?_⟩
      obtain ⟨-, hok, es', hv', ht'⟩ := hg agenda i hi
      exact ⟨hok, hfits i hi hv' ht'⟩
    · left
      intro agenda j hj
      rcases hr agenda j hj with ⟨hm, -⟩ | ⟨-, hre⟩
      · exact absurd ⟨j, hj, hm⟩ hsome
      · exact hre
  · left
    intro agenda j hj
    have hnone : Key.ofText? (copyWord name ++ "--" ++ j) = none :=
      Option.eq_none_iff_forall_ne_some.mpr fun k hk => hword (isWord_of_copy hj hk)
    exact request_none w.library overrides multiplicity (requested_copy name hj) hnone agenda

/-! The input of a grid is overridden by a text that mentions a variable which all copies share. -/

def sharedOverrides : List (String × Value) :=
  [("t.x", .str "p.x--i + g.foo"), ("foo", .str "p.y")]

lemma even_line {overrides multiplicity : List (String × Value)}
    (h : ∀ entry ∈ (start lineSession.library overrides multiplicity).overrides,
      ((Key.ofText? entry.1).all fun k => k.index == none) = true ∧ EvenText entry.2.text) :
    (start lineSession.library overrides multiplicity).toSources.Even where
  keys entry he k hk := by simpa [hk] using (h entry he).1
  overrides key text hf := by
    obtain ⟨key', hmem⟩ := mem_of_lookup hf
    exact (h _ hmem).2
  mappings k grid hgrid name text hm := by
    obtain rfl := grid_line hgrid
    obtain rfl := mapping_line hm
    decide +kernel
  derived k grid hgrid name text hcode := by
    obtain rfl := grid_line hgrid
    cases hcode
  inputs k grid hgrid input hi := by
    obtain rfl := grid_line hgrid
    obtain rfl := mem_singleton.mp hi
    decide +kernel

lemma even_sharedOverrides : (start lineSession.library sharedOverrides []).toSources.Even := even_line (by decide +kernel)

theorem copies_fit_templates_shared : ∃ forms : CopyForms, (∀ v ∈ forms.values, v.1.copied = false → v.2.Solid) ∧
    (∀ j, IsCopyNumber j → forms.Fits j ((resolveAll ["t.y" ++ "--" ++ j] Builder.backwards).run.run
      (start Builder.lineSession.library sharedOverrides [])).2) ∧
    forms.values.map (fun v => ((v.1.key "12").text, v.2.put "12")) =
      [("foo", "p.y"), ("t__x--12", "p.x__12 + p.y"), ("t__y--12", "v.t__y__12")] := by
  have ht : IsCopyNumber "12" := ⟨by decide, List.all_eq_true.mp rfl⟩
  obtain ⟨hok, hv⟩ : ((resolveAll ["t.y" ++ "--" ++ "12"] Builder.backwards).run.run
      (start Builder.lineSession.library sharedOverrides [])).1 = .ok () ∧
      ((resolveAll ["t.y" ++ "--" ++ "12"] Builder.backwards).run.run
        (start Builder.lineSession.library sharedOverrides [])).2.values =
      [("foo", "p.y"), ("t__x--12", "p.x__12 + p.y"), ("t__y--12", "v.t__y__12")] := by
    decide +kernel
  rcases copies_fit_templates Builder.lineSession sharedOverrides [] even_sharedOverrides "t.y" with
    hr | ⟨forms, hs, -, hfits⟩
  · obtain ⟨e, he⟩ := hr Builder.backwards "12" ht
    cases hok.symm.trans he
  · refine ⟨forms, hs.values, fun j hj => (hfits Builder.backwards j hj).2, ?_⟩
    rw [← (hfits Builder.backwards "12" ht).2.values, hv]

/-- The input is mentioned with the index of the copy, but both graphs list the same name, which is no key. -/
theorem mention_listed_without_copy : (start Builder.lineSession.library [] []).toSources.Even ∧
    references (interpolation Builder.lineGrid "y") = [⟨none, "t__x", some "i"⟩] ∧
    ∀ j ∈ ["1", "2"], ((resolveAll ["t.y" ++ "--" ++ j] Builder.backwards).run.run
      (start Builder.lineSession.library [] [])).2.graph =
        [("t__y--" ++ j, ⟨["t__x"], "v.t__y__" ++ j,
          "c.grid__t__y._interp1d(\x7bt__x--" ++ j ++ "\x7d)"⟩), ("t__x--" ++ j, ⟨[], "p.x__" ++ j, ""⟩)] := by
  exact ⟨even_line (by decide +kernel), by decide +kernel, by decide +kernel⟩

end GridBayes.Deferred
