import GridBayes.Proofs.LocalAssignment

/-! When two keys share a local variable. A local variable is named by its key, with underscores for the
hyphens before an index. Names may hold underscores too, so the key of a copy shares its local variable with
the key whose name ends in the index. No other keys share one. -/
namespace GridBayes.Deferred
open Operation Resolution List String

lemma append_cons_inj_of_not_mem {α : Type} {x : α} {a a' b b' : List α} (hb : x ∉ b) (hb' : x ∉ b')
    (h : a ++ x :: b = a' ++ x :: b') : a = a' ∧ b = b' := by
  rcases append_eq_append_iff.mp h with ⟨m, rfl, hm⟩ | ⟨m, rfl, hm⟩
  · cases m with
    | nil => exact ⟨(append_nil _).symm, (cons.inj hm).2⟩
    | cons y m => exact absurd (by rw [(cons.inj hm).2]; simp) hb
  · cases m with
    | nil => exact ⟨append_nil _, (cons.inj hm).2.symm⟩
    | cons y m => exact absurd (by rw [(cons.inj hm).2]; simp) hb'

def Key.word (k : Key) : String :=
  (k.grid.map (· ++ "__")).getD "" ++ k.name

/-- The first key is one of a copy, and the second has the index in its name. -/
def Key.Shadows (k k' : Key) : Prop :=
  ∃ i, k.index = some i ∧ k'.index = none ∧ k'.word = k.word ++ "__" ++ i

section

variable {k k' : Key}

lemma Key.Spelled.localOf_of_none (h : k.Spelled) (hi : k.index = none) :
    Resolution.localOf k.text = "v." ++ k.word := by
  rw [h.localOf]
  simp [hi, Key.word]

variable {i : String}

lemma Key.Spelled.localOf_of_some (h : k.Spelled) (hi : k.index = some i) :
    Resolution.localOf k.text = "v." ++ (k.word ++ "__" ++ i) := by
  rw [h.localOf]
  simp [hi, Key.word, String.append_assoc]

lemma Key.Written.eq_of_word (h : k.Written) (h' : k'.Written) (hword : k.word = k'.word)
    (hi : k.index = k'.index) : k = k' := by
  refine h.text_inj h' ?_
  show k.word ++ _ = k'.word ++ _
  rw [hword, hi]

lemma Key.Spelled.underscore_not_mem (h : k.Spelled) (hi : k.index = some i) : '_' ∉ i.toList := by
  intro hmem
  have hchar : isIndexChar '_' = false := by decide
  simpa [hchar] using h.index i hi '_' hmem

lemma Key.Written.localOf_eq_iff (h : k.Written) (h' : k'.Written) (hne : k ≠ k') :
    Resolution.localOf k.text = Resolution.localOf k'.text ↔ k.Shadows k' ∨ k'.Shadows k := by
  unfold Key.Shadows
  cases hi : k.index with
  | none =>
    rw [h.spelled.localOf_of_none hi]
    cases hi' : k'.index with
    | none =>
      rw [h'.spelled.localOf_of_none hi', String.append_right_inj]
      simp only [reduceCtorEq, false_and, exists_false, or_self, iff_false]
      exact fun hword => hne (h.eq_of_word h' hword (hi.trans hi'.symm))
    | some i' =>
      rw [h'.spelled.localOf_of_some hi']
      simp
  | some i =>
    rw [h.spelled.localOf_of_some hi]
    cases hi' : k'.index with
    | none =>
      rw [h'.spelled.localOf_of_none hi']
      simp [eq_comm]
    | some i' =>
      rw [h'.spelled.localOf_of_some hi']
      simp only [reduceCtorEq, false_and, and_false, exists_false, or_self, iff_false]
      intro heq
      -- an index holds no underscore, so it begins after the last one
      have hc : k.word.toList ++ ['_'] ++ '_' :: i.toList = k'.word.toList ++ ['_'] ++ '_' :: i'.toList := by
        simpa using congrArg toList heq
      obtain ⟨hword, hin⟩ := append_cons_inj_of_not_mem (h.spelled.underscore_not_mem hi)
        (h'.spelled.underscore_not_mem hi') hc
      refine hne (h.eq_of_word h' (toList_inj.mp (append_cancel_right hword)) ?_)
      rw [hi, hi', toList_inj.mp hin]

end

lemma Knows.local {src : Sources} {ks : List Key} {t : Resolution} (h : Knows src ks t)
    (hl : Yields Listed src.library) {k : Key} (hk : k ∈ ks) (hlo : src.HasLocal k) :
    t.values.lookup k.text = some (localOf k.text) ∧ ∃ c ∈ t.components, c.key = k := by
  constructor
  · obtain ⟨d, hd, -, hv, -⟩ := h.recorded hk
    obtain ⟨d', hd', hhas⟩ := hlo
    cases hd.symm.trans hd'
    rw [hv, Sources.value_of_local hl hd hhas]
  · obtain ⟨own, hown, hkey⟩ := hlo.exists_code hl
    rw [h.components]
    exact ⟨own, mem_flatMap.mpr ⟨k, hk, hown⟩, hkey⟩

/-- Two keys looked up together share a local variable exactly if one is that of a copy and the other has the index
in its name. If both are of grids, both codes are assigned to it. -/
theorem local_shared_iff_shadows (w : Session) (overrides multiplicity : List (String × Value))
    (names : List String) (agenda : Agenda)
    (hrun : ((resolveAll names agenda).run.run (start w.library overrides multiplicity)).1 = .ok ()) :
    let src := (start w.library overrides multiplicity).toSources
    let t := ((resolveAll names agenda).run.run (start w.library overrides multiplicity)).2
    ∀ k k', src.Asked names k → src.Asked names k' → src.HasLocal k → src.HasLocal k' → k ≠ k' →
      t.values.lookup k.text = some (localOf k.text) ∧ t.values.lookup k'.text = some (localOf k'.text) ∧
      (localOf k.text = localOf k'.text ↔ k.Shadows k' ∨ k'.Shadows k) ∧
      ∃ c ∈ t.components, ∃ c' ∈ t.components, c.key = k ∧ c'.key = k' ∧
        (k.grid ≠ none → k'.grid ≠ none → (c.key.localName = c'.key.localName ↔ k.Shadows k' ∨ k'.Shadows k)) := by
  intro src t k k' hk hk' hlo hl' hne
  have hl : Yields Listed src.library := listed_library w
  obtain ⟨ks, hkn, ha⟩ := knows_of_run hrun
  have hmem : k ∈ ks := (ha k).mpr hk
  have hmem' : k' ∈ ks := (ha k').mpr hk'
  have hw := hkn.written k hmem
  have hw' := hkn.written k' hmem'
  obtain ⟨hv, c, hc, hkey⟩ := hkn.local hl hmem hlo
  obtain ⟨hv', c', hc', hkey'⟩ := hkn.local hl hmem' hl'
  have hs := hw.localOf_eq_iff hw' hne
  refine ⟨hv, hv', hs, c, hc, c', hc', hkey, hkey', fun hgrid hgrid' => ?_⟩
  rw [hkey, hkey', ← hs, ← hw.spelled.assigned_iff.mpr hgrid,
    ← hw'.spelled.assigned_iff.mpr hgrid', String.append_right_inj]

/-! A grid with an output whose name ends like an index. -/

def indexedFile : Archive :=
  [("_grid_spec", .array (.ofText "a -> n, n__1")), ("_bounds", .array (.ofText "")),
    ("_shape", .array (.ofCounts [2])), ("a", .array (.ofCounts [0, 1])),
    ("n", .array (.ofCounts [0, 2])), ("n__1", .array (.ofCounts [5, 7]))]

def indexedSession : Session where
  store := ⟨[(["grids", "gr.npz"], .archive indexedFile)], [[], ["grids"]]⟩

/-- The copy of one output and the other output get the same local variable. -/
theorem local_shared_indexed : (GridDefinition.isValidName "n" && GridDefinition.isValidName "n__1") = true ∧
    ((resolveAll ["gr__n--1", "gr__n__1"] Builder.backwards).run.run
      (start indexedSession.library [] [])).1 = .ok () ∧
    ((resolveAll ["gr__n--1", "gr__n__1"] Builder.backwards).run.run
      (start indexedSession.library [] [])).2.values =
        [("gr__a", "p.a"), ("gr__n__1", "v.gr__n__1"), ("gr__a--1", "p.a__1"), ("gr__n--1", "v.gr__n__1")] ∧
    ((resolveAll ["gr__n--1", "gr__n__1"] Builder.backwards).run.run
      (start indexedSession.library [] [])).2.components.map (fun c => (c.key.localName, c.code)) =
        [("gr__n__1", "c.grid__gr__n__1._interp1d(p.a)"), ("gr__n__1", "c.grid__gr__n._interp1d(p.a__1)")] := by
  decide +kernel

theorem local_shared_iff_shadows_indexed :
    ((resolveAll ["gr__n--1", "gr__n__1"] Builder.backwards).run.run
      (start indexedSession.library [] [])).1 = .ok () ∧
    localOf "gr__n--1" = localOf "gr__n__1" := by
  have hrun : ((resolveAll ["gr__n--1", "gr__n__1"] Builder.backwards).run.run
      (start indexedSession.library [] [])).1 = .ok () := by
    decide +kernel
  obtain ⟨-, -, hs, -⟩ := local_shared_iff_shadows indexedSession [] [] ["gr__n--1", "gr__n__1"]
    Builder.backwards hrun ⟨some "gr", "n", some "1"⟩ ⟨some "gr", "n__1", none⟩
    ⟨"gr__n--1", by decide +kernel, _, by decide +kernel, .refl⟩
    ⟨"gr__n__1", by decide +kernel, _, by decide +kernel, .refl⟩ (by decide +kernel)
    (by decide +kernel) (by decide)
  exact ⟨hrun, hs.mpr (Or.inl ⟨"1", rfl, rfl, by decide⟩)⟩

end GridBayes.Deferred
