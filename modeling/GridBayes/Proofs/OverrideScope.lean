import GridBayes.Proofs.CodeStability

/-! How far an override reaches. A key that is looked up stands for the text of its override, if it
has one, also where it is an input of an interpolation, where it stands in the code of a derived value
and where copies are combined. The exception are names that are had from another name by a prefix: there
the grid's own value of the other name is taken, whatever the override says. -/
namespace GridBayes.Deferred
open Operation Resolution List Except

/-! ## Texts in which values are put -/

def Resolution.valueOf (s : Resolution) (k : Key) : String :=
  (s.values.lookup k.text).getD ""

namespace Sources

/-- A text with values in the places of the deferred variables that it mentions. -/
def Expands (src : Sources) (value : Key → String) (text : String) (index : Option String) (result : String) : Prop :=
  ∃ mentions body, Resolution.extract src.library text index = .ok (mentions, body) ∧
    result = String.ofList (Text.fill (fun k => (value k).toList) (Text.pieces keyRule body.toList))

variable {src : Sources} {k b : Key}

variable {d : Definition} {v : Value} {w : Wording} {grid : Grid} {function : String} {c : Generated}

lemma expands_of_definition (h : src.definition k = .ok d) (value : Key → String) :
    src.wording k = .ok d.toWording ∧ src.Expands value d.text k.index (d.filled value) := by
  obtain ⟨w, hw, h⟩ := bind_eq_ok.mp h
  obtain ⟨⟨mentions, body⟩, he, h⟩ := bind_eq_ok.mp h
  cases h
  exact ⟨hw, mentions, body, he, rfl⟩

lemma origin_of_definition (h : src.definition k = .ok d) : src.Origin k d.toWording :=
  wording_eq_ok.mp (expands_of_definition h src.meaning).1

lemma base_cases (hl : Yields Listed src.library) (hd : src.definition k = .ok d) :
    (d.transform = none ∧ d.base = k) ∨ ∃ grid function, d.transform = some function ∧
      src.Through k d.base grid function ∧ d.isCode = (!grid.inputs.contains d.base.name) ∧
      grid.Gives d.base.name d.text :=
  (origin_of_definition hd).base_cases hl

lemma through_of_transform (hd : src.definition k = .ok d) (h : d.transform = some function) :
    ∃ b grid, src.Through k b grid function := by
  cases origin_of_definition hd with
  | override _ hw | composite _ _ _ _ _ hw | grid _ _ _ _ _ hw =>
    rw [hw] at h
    cases h
  | transform ht _ hw =>
    rw [hw] at h
    cases h
    exact ⟨_, _, ht⟩

/-! ## Overridden keys -/

lemma wording_of_override (hv : src.override? k = some v) (h : src.wording k = .ok w) :
    ∃ text, v = .str text ∧ w = ⟨k, text, false, none⟩ := by
  unfold wording at h
  rw [hv] at h
  obtain ⟨text, htext, h⟩ := bind_eq_ok.mp h
  exact ⟨text, codeOf_eq_ok.mp htext, (ok.inj h).symm⟩

lemma generatedBy_of_override (hv : src.override? k = some v) : src.generatedBy k = [] := by
  unfold generatedBy
  split
  · rename_i d hd
    obtain ⟨hw, -⟩ := expands_of_definition hd src.meaning
    obtain ⟨text, -, hform⟩ := wording_of_override hv hw
    unfold Definition.generated
    rw [hform]
    rfl
  · rfl

/-! ## Names with a prefix -/

lemma Through.definition (hl : Yields Listed src.library) (ht : src.Through k b grid function)
    (hd : src.definition k = .ok d) :
    d.base = b ∧ d.transform = some function ∧ d.isCode = !grid.inputs.contains b.name ∧ grid.Gives b.name d.text := by
  cases origin_of_definition hd with
  | override hv => cases hv.symm.trans (override?_none_iff.mpr ht.free)
  | composite _ hi hworded => cases (ht.plain _ hi).symm.trans hworded
  | grid _ _ hk hn => exact absurd (hk.unique ht.known ▸ hn) ht.unnamed
  | transform ht' hg hw =>
    obtain rfl := ht'.known.unique ht.known
    obtain ⟨hname, rfl⟩ := Prod.mk.inj (Option.some.inj (ht'.through.symm.trans ht.through))
    rw [hname] at hw hg
    rw [hw, gridWording, ← ht.known.grid_eq hl, ← ht.same]
    exact ⟨rfl, rfl, rfl, hg⟩

/-- The grid's own code of the other key, if that is no input, and the code that leads from there. -/
lemma generated_through (hl : Yields Listed src.library) (hth : src.Through k b grid function)
    (hd : src.definition k = .ok d) (filled : String) :
    grid.Gives b.name d.text ∧ d.generated k filled =
      (if b.name ∈ grid.inputs then [] else [⟨b.grid, b.index, b.name, filled⟩]) ++
        [⟨k.grid, k.index, k.name, function ++ "(" ++
          (if b.name ∈ grid.inputs then filled else localOf b.text) ++ ")"⟩] := by
  obtain ⟨hbase, ht, hcode, hg⟩ := hth.definition hl hd
  refine ⟨hg, ?_⟩
  unfold Definition.generated Definition.transformed Definition.baseValue
  rw [ht, hcode, hbase]
  by_cases hi : b.name ∈ grid.inputs
  · simp
  · simp

lemma through_of_generatedBy_ne (hl : Yields Listed src.library) (hc : c ∈ src.generatedBy k)
    (hkey : c.key = b) (hne : k ≠ b) : ∃ grid function, src.Through k b grid function ∧ b.name ∉ grid.inputs := by
  unfold generatedBy at hc
  split at hc
  · rename_i d hd
    rcases mem_generated hc with ⟨hcode, hbase, -⟩ | ⟨f, -, hown, -⟩
    · obtain rfl : d.base = b := hbase.symm.trans hkey
      rcases base_cases hl hd with ⟨-, hown⟩ | ⟨grid, function, -, ht, hin, -⟩
      · exact absurd hown.symm hne
      · rw [hin] at hcode
        exact ⟨grid, function, ht, by simpa using hcode⟩
    · exact absurd (hown.symm.trans hkey) hne
  · cases hc

lemma through_of_generatedBy (hl : Yields Listed src.library) (hv : src.override? b = some v)
    (hc : c ∈ src.generatedBy k) (hkey : c.key = b) :
    ∃ grid function, src.Through k b grid function ∧ b.name ∉ grid.inputs := by
  refine through_of_generatedBy_ne hl hc hkey ?_
  -- an overridden key brings no code itself
  rintro rfl
  rw [generatedBy_of_override hv] at hc
  cases hc

/-! ## Looking up with overrides -/

/-- Recorded for a key: value and code, from the text that defines it with the recorded values of its keys. -/
def Recorded (src : Sources) (t : Resolution) (k : Key) : Prop :=
  ∃ d, src.definition k = .ok d ∧ (∀ k' ∈ d.keys, (t.values.lookup k'.text).isSome = true) ∧
    t.values.lookup k.text = some (d.value k (d.filled t.valueOf)) ∧
    ∀ c ∈ d.generated k (d.filled t.valueOf), c ∈ t.components

end Sources

variable {src : Sources} {ks : List Key} {t : Resolution} {k : Key}

lemma Knows.valueOf (h : Knows src ks t) (hk : k ∈ ks) : t.valueOf k = src.meaning k := by
  unfold Resolution.valueOf
  rw [h.lookup (h.written k hk), if_pos hk]
  rfl

lemma Knows.filled (h : Knows src ks t) (hk : k ∈ ks) {d : Definition} (hd : src.definition k = .ok d) :
    d.filled t.valueOf = d.filled src.meaning := by
  refine Definition.filled_congr fun k' hk' => h.valueOf ?_
  exact h.closed k hk k' (Sources.depends_iff.mpr ⟨d, hd, hk'⟩)

lemma Knows.definition (h : Knows src ks t) (hk : k ∈ ks) : ∃ d, src.definition k = .ok d := by
  obtain ⟨body, hbody⟩ := (h.meaningful k hk).defined
  obtain ⟨d, hd, -⟩ := Sources.definition_iff.mpr hbody
  exact ⟨d, hd⟩

lemma Knows.recorded (h : Knows src ks t) (hk : k ∈ ks) : src.Recorded t k := by
  obtain ⟨d, hd⟩ := h.definition hk
  have hkeys : ∀ k' ∈ d.keys, k' ∈ ks := fun k' hk' => h.closed k hk k' (Sources.depends_iff.mpr ⟨d, hd, hk'⟩)
  have hm := (Sources.meaningful_of_keys hd fun k' hk' => h.meaningful k' (hkeys k' hk')).2
  refine ⟨d, hd, fun k' hk' => ?_, ?_, fun c hc => ?_⟩
  · rw [h.lookup (h.written k' (hkeys k' hk')), if_pos (hkeys k' hk')]
    rfl
  · rw [h.lookup (h.written k hk), if_pos hk, hm, h.filled hk hd]
  · rw [h.filled hk hd, ← Sources.generatedBy_eq hd] at hc
    rw [h.components]
    exact mem_flatMap.mpr ⟨k, hk, hc⟩

lemma Sources.Recorded.expands (h : src.Recorded t k) {v : Value} (hv : src.override? k = some v) :
    ∃ text, v = .str text ∧ src.Expands t.valueOf text k.index (t.valueOf k) := by
  obtain ⟨d, hd, -, hva, -⟩ := h
  obtain ⟨hw, he⟩ := expands_of_definition hd t.valueOf
  obtain ⟨text, rfl, hform⟩ := wording_of_override hv hw
  refine ⟨text, rfl, ?_⟩
  unfold Resolution.valueOf
  rw [hva]
  unfold Definition.value Definition.baseValue
  rw [hform] at he ⊢
  exact he

lemma Sources.Recorded.through {b : Key} {grid : Grid} {function : String} (h : src.Recorded t k)
    (hl : Yields Listed src.library) (ht : src.Through k b grid function) :
    ∃ text filled, grid.Gives b.name text ∧ src.Expands t.valueOf text k.index filled ∧
      (⟨k.grid, k.index, k.name, function ++ "(" ++
        (if b.name ∈ grid.inputs then filled else localOf b.text) ++ ")"⟩ : Generated) ∈ t.components ∧
      (b.name ∉ grid.inputs → (⟨b.grid, b.index, b.name, filled⟩ : Generated) ∈ t.components) := by
  obtain ⟨d, hd, -, -, hcode⟩ := h
  obtain ⟨-, he⟩ := expands_of_definition hd t.valueOf
  obtain ⟨hgi, hg⟩ := generated_through hl ht hd (d.filled t.valueOf)
  rw [hg] at hcode
  refine ⟨d.text, d.filled t.valueOf, hgi, he, ?_, fun hi => ?_⟩
  · exact hcode _ (mem_append_right _ (mem_singleton_self _))
  · refine hcode _ (mem_append_left _ ?_)
    rw [if_neg hi]
    exact mem_singleton_self _

lemma knows_of_run {library : Except Fault Registry} {overrides multiplicity : List (String × Value)}
    {names : List String} {agenda : Agenda}
    (hrun : ((resolveAll names agenda).run.run (start library overrides multiplicity)).1 = .ok ()) :
    ∃ ks, Knows (start library overrides multiplicity).toSources ks
        ((resolveAll names agenda).run.run (start library overrides multiplicity)).2 ∧
      ∀ k, k ∈ ks ↔ (start library overrides multiplicity).toSources.Asked names k := by
  rcases outcome_resolveAll library overrides multiplicity names agenda with
    ⟨ks, t, hout, hk, -, -, ha⟩ | ⟨e, t, hout, -⟩
  · have ht : ((resolveAll names agenda).run.run (start library overrides multiplicity)).2 = t := congrArg Prod.snd hout
    rw [ht]
    exact ⟨ks, hk, ha⟩
  · have he : error e = ok () := (congrArg Prod.fst hout).symm.trans hrun
    cases he

/-- Every key looked up gets its value and code from the text that defines it, which for an overridden key is the
override. Only keys had from it by a prefix pass the override by and take what the grid gives. So code is generated
for an overridden key exactly if such a key leads to it and it is no input. -/
theorem override_scope (w : Session) (overrides multiplicity : List (String × Value))
    (names : List String) (agenda : Agenda)
    (hrun : ((resolveAll names agenda).run.run (start w.library overrides multiplicity)).1 = .ok ()) :
    let src := (start w.library overrides multiplicity).toSources
    let t := ((resolveAll names agenda).run.run (start w.library overrides multiplicity)).2
    (∀ k, src.Asked names k → src.Recorded t k) ∧
    (∀ k v, src.Asked names k → src.override? k = some v →
      ∃ text, v = .str text ∧ src.Expands t.valueOf text k.index (t.valueOf k)) ∧
    (∀ b v, src.override? b = some v → ((∃ c ∈ t.components, c.key = b) ↔
      ∃ k grid function, src.Asked names k ∧ src.Through k b grid function ∧ b.name ∉ grid.inputs)) ∧
    ∀ k b grid function, src.Asked names k → src.Through k b grid function →
      ∃ text filled, grid.Gives b.name text ∧ src.Expands t.valueOf text k.index filled ∧
        (⟨k.grid, k.index, k.name, function ++ "(" ++
          (if b.name ∈ grid.inputs then filled else localOf b.text) ++ ")"⟩ : Generated) ∈ t.components ∧
        (b.name ∉ grid.inputs → (⟨b.grid, b.index, b.name, filled⟩ : Generated) ∈ t.components) := by
  intro src t
  have hl : Yields Listed src.library := listed_library w
  obtain ⟨ks, hkn, ha⟩ := knows_of_run hrun
  have hr : ∀ k, src.Asked names k → src.Recorded t k := fun k hk => hkn.recorded ((ha k).mpr hk)
  refine ⟨hr, fun k v hk hv => (hr k hk).expands hv, fun b v hv => ⟨?_, ?_⟩,
    fun k b grid function hk ht => (hr k hk).through hl ht⟩
  · rintro ⟨c, hc, hkey⟩
    rw [hkn.components] at hc
    obtain ⟨k, hk, hc⟩ := List.mem_flatMap.mp hc
    obtain ⟨grid, function, ht, hi⟩ := Sources.through_of_generatedBy hl hv hc hkey
    exact ⟨k, grid, function, (ha k).mp hk, ht, hi⟩
  · rintro ⟨k, grid, function, hk, ht, hi⟩
    obtain ⟨text, filled, -, -, -, hown⟩ := (hr k hk).through hl ht
    exact ⟨_, hown hi, rfl⟩

lemma run_of_ok {m : ResolutionM Unit} {s : Resolution} (h : (m.run.run s).1 = .ok ()) :
    m.run.run s = (.ok (), (m.run.run s).2) :=
  Prod.ext h rfl

/-! An output of a grid is overridden; it is asked for as it is and through its logarithm. -/

def lineOverrides : List (String × Value) :=
  [("t.y", .str "c.y0")]

lemma resolveAll_line : ((resolveAll ["t.y", "t.log_y"] Builder.backwards).run.run
      (start Builder.lineSession.library lineOverrides [])).1 = .ok () := by
  decide +kernel

lemma override_line : (start Builder.lineSession.library lineOverrides []).toSources.override?
    ⟨some "t", "y", none⟩ = some (.str "c.y0") := by
  rfl

theorem override_scope_line : ∃ t, (resolveAll ["t.y", "t.log_y"] Builder.backwards).run.run
      (start Builder.lineSession.library lineOverrides []) = (.ok (), t) ∧
    (start Builder.lineSession.library lineOverrides []).toSources.Expands t.valueOf "c.y0" none
      (t.valueOf ⟨some "t", "y", none⟩) ∧
    (⟨some "t", none, "log_y", "math.log10(v.t__y)"⟩ : Generated) ∈ t.components ∧
    ∃ c ∈ t.components, c.key = ⟨some "t", "y", none⟩ := by
  obtain ⟨-, ho, hcode, ht⟩ :=
    override_scope Builder.lineSession lineOverrides [] ["t.y", "t.log_y"] Builder.backwards resolveAll_line
  have hy : (start Builder.lineSession.library lineOverrides []).toSources.Asked
      ["t.y", "t.log_y"] ⟨some "t", "y", none⟩ :=
    ⟨"t__y", by decide +kernel, _, by decide +kernel, .refl⟩
  have hlog : (start Builder.lineSession.library lineOverrides []).toSources.Asked
      ["t.y", "t.log_y"] ⟨some "t", "log_y", none⟩ :=
    ⟨"t__log_y", by decide +kernel, _, by decide +kernel, .refl⟩
  have hp : (start Builder.lineSession.library lineOverrides []).toSources.Through
      ⟨some "t", "log_y", none⟩ ⟨some "t", "y", none⟩ Builder.lineGrid "math.log10" :=
    { free := ⟨by rfl, by rfl⟩
      plain := fun i hi => by cases hi
      known := ⟨_, "t", Builder.library_lineSession, rfl, rfl⟩
      unnamed := by decide +kernel
      through := by decide +kernel
      same := rfl }
  have hin : "y" ∉ Builder.lineGrid.inputs := by decide
  refine ⟨_, run_of_ok resolveAll_line, ?_, ?_, ?_⟩
  · obtain ⟨text, htext, he⟩ := ho _ _ hy override_line
    cases htext
    exact he
  · obtain ⟨text, filled, -, -, hmem, -⟩ := ht _ _ _ _ hlog hp
    have hl : "math.log10" ++ "(" ++ localOf (Key.text ⟨some "t", "y", none⟩) ++ ")" =
        "math.log10(v.t__y)" := by decide +kernel
    rw [if_neg hin, hl] at hmem
    exact hmem
  · exact (hcode _ _ override_line).mpr ⟨_, _, _, hlog, hp, hin⟩

/-- The logarithm is taken of the interpolated value, not of what the override says. -/
theorem override_passed_by :
    (start Builder.lineSession.library lineOverrides []).toSources.override? ⟨some "t", "y", none⟩ =
      some (.str "c.y0") ∧
    ∃ t, (resolveAll ["t.log_y"] Builder.backwards).run.run
        (start Builder.lineSession.library lineOverrides []) = (.ok (), t) ∧
      t.components = [⟨some "t", none, "y", "c.grid__t__y._interp1d(p.x)"⟩,
        ⟨some "t", none, "log_y", "math.log10(v.t__y)"⟩] := by
  exact ⟨override_line, _, run_of_ok (by decide +kernel), by decide +kernel⟩

end GridBayes.Deferred
