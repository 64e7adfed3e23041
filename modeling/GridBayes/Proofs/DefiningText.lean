import GridBayes.Deferred.Definition
import GridBayes.Proofs.Entries
import GridBayes.Proofs.Operation

/-! Which text defines a key, as rules: an override with the index, then one without it, then a
combination of copies, then what the grid says of the name or of a name that a prefix leads to. A
key depends on the keys whose placeholders stand in that text once mentions are extracted. -/
namespace GridBayes
open List Operation Option

/-- The text of a grid for a name: a mapping, an interpolation, or derived code. -/
inductive Grid.Gives (grid : Grid) (name : String) : String → Prop where
  | input {text : String} (isInput : name ∈ grid.inputs) (mapped : grid.mapping name = .str text) :
      Grid.Gives grid name text
  | output (notInput : name ∉ grid.inputs) (isOutput : name ∈ grid.outputs) :
      Grid.Gives grid name (Deferred.Resolution.interpolation grid name)
  | derived {text : String} (notInput : name ∉ grid.inputs) (notOutput : name ∉ grid.outputs)
      (code : grid.derived.lookup name = some (.str text)) : Grid.Gives grid name text

lemma Grid.Gives.unique {grid : Grid} {name text text' : String} (h : grid.Gives name text)
    (h' : grid.Gives name text') : text = text' := by
  cases h <;> cases h' <;> simp_all

namespace Deferred

lemma codeOf_eq_ok {v : Value} {code : String} : Resolution.codeOf v = .ok code ↔ v = .str code := by
  cases v <;> simp [Resolution.codeOf]

/-- What a grid says for one of its names. -/
def Sources.gridWording (grid : Grid) (name : String) (index : Option String) (text : String) : Wording :=
  ⟨⟨some grid.name, name, index⟩, text, !grid.inputs.contains name, none⟩

lemma ofGridName_eq_ok {grid : Grid} {name : String} {index : Option String} {w : Wording} :
    Sources.ofGridName grid name index = .ok w ↔ ∃ text, grid.Gives name text ∧ w = Sources.gridWording grid name index text := by
  unfold Sources.ofGridName Sources.gridWording
  by_cases hin : name ∈ grid.inputs
  · have hgives (text : String) : grid.Gives name text ↔ grid.mapping name = .str text :=
      ⟨fun h => by cases h <;> first | assumption | contradiction, .input hin⟩
    simp [hin, hgives, bind_eq_ok, codeOf_eq_ok, pure, Except.pure, eq_comm (a := w)]
  · by_cases hout : name ∈ grid.outputs
    · have hgives (text : String) : grid.Gives name text ↔ text = Resolution.interpolation grid name :=
        ⟨fun h => by cases h <;> first | rfl | contradiction, fun h => h ▸ .output hin hout⟩
      simp [hin, hout, hgives, pure, Except.pure, eq_comm (a := w)]
    · have hgives (text : String) : grid.Gives name text ↔ (grid.derived.lookup name).getD .null = .str text := by
        refine ⟨fun h => ?_, fun h => .derived hin hout ?_⟩
        · cases h with
          | derived _ _ hcode => rw [hcode]; rfl
          | input | output => contradiction
        · cases hl : grid.derived.lookup name <;> simp_all
      simp [hin, hout, hgives, bind_eq_ok, codeOf_eq_ok, pure, Except.pure, eq_comm (a := w)]

def Key.Plain (k : Key) : Prop :=
  ∀ i ∈ k.index, i.toList.all isDigit = true

/-- A variable as it stands in the code that combines its copies. -/
def Key.path (k : Key) : String :=
  (k.grid.map (· ++ ".")).getD "" ++ k.name

def Key.general (k : Key) : String :=
  k.grid.getD "None" ++ "__" ++ k.name

namespace Sources

def Free (src : Sources) (k : Key) : Prop :=
  src.overrides.lookup k.text = none ∧ src.overrides.lookup k.general = none

def HasGrid (src : Sources) (k : Key) (grid : Grid) : Prop :=
  ∃ grids g, src.library = .ok grids ∧ k.grid = some g ∧ grids.lookup g = some grid

inductive Gives (src : Sources) (k : Key) : String → Prop where
  | override {text : String} (found : src.overrides.lookup k.text = some (.str text)) : Gives src k text
  | general {text : String} (unmatched : src.overrides.lookup k.text = none)
      (found : src.overrides.lookup k.general = some (.str text)) : Gives src k text
  | composite {index text : String} {multi : Value} (free : src.Free k)
      (indexed : k.index = some index) (worded : index.toList.all isDigit = false)
      (counted : src.multiplicity.lookup (k.grid.getD k.name) = some multi)
      (combined : Resolution.combination index k.text k.path multi = .ok text) : Gives src k text
  | grid {grid : Grid} {text : String} (free : src.Free k) (plain : k.Plain)
      (known : src.HasGrid k grid) (named : k.name ∈ grid.names) (given : grid.Gives k.name text) :
      Gives src k text
  | transform {grid : Grid} {base function text : String} (free : src.Free k) (plain : k.Plain)
      (known : src.HasGrid k grid) (unnamed : k.name ∉ grid.names)
      (through : Resolution.throughPrefix? grid k.name = some (base, function))
      (given : grid.Gives base text) : Gives src k text

/-- The key is had from another one of its grid by a prefix, without an override of its own. -/
structure Through (src : Sources) (k b : Key) (grid : Grid) (function : String) : Prop where
  free : src.Free k
  plain : k.Plain
  known : src.HasGrid k grid
  unnamed : k.name ∉ grid.names
  through : Resolution.throughPrefix? grid k.name = some (b.name, function)
  same : b = { k with name := b.name }

/-- Where a wording comes from: the user, copies, a name of the grid, or a name that a prefix leads to. -/
inductive Origin (src : Sources) (k : Key) (w : Wording) : Prop where
  | override {text : String} (found : src.override? k = some (.str text)) (wording : w = ⟨k, text, false, none⟩)
  | composite {index text : String} {multi : Value} (free : src.Free k) (indexed : k.index = some index)
      (worded : index.toList.all isDigit = false) (counted : src.multiplicity.lookup (k.grid.getD k.name) = some multi)
      (combined : Resolution.combination index k.text k.path multi = .ok text) (wording : w = ⟨k, text, true, none⟩)
  | grid {grid : Grid} {text : String} (free : src.Free k) (plain : k.Plain) (known : src.HasGrid k grid)
      (named : k.name ∈ grid.names) (given : grid.Gives k.name text) (wording : w = gridWording grid k.name k.index text)
  | transform {b : Key} {grid : Grid} {function text : String} (through : src.Through k b grid function)
      (given : grid.Gives b.name text) (wording : w = { gridWording grid b.name k.index text with transform := some function })

variable {src : Sources} {k : Key} {text : String} {w : Wording}

lemma override?_none_iff : src.override? k = none ↔ src.Free k := by
  unfold override? Free Key.general
  cases src.overrides.lookup k.text <;> simp

lemma override?_str_iff : src.override? k = some (.str text) ↔ src.overrides.lookup k.text = some (.str text) ∨
      src.overrides.lookup k.text = none ∧ src.overrides.lookup k.general = some (.str text) := by
  unfold override? Key.general
  cases src.overrides.lookup k.text <;> simp

lemma filter_none_iff : (k.index.filter fun i => !i.toList.all isDigit) = none ↔ k.Plain := by
  unfold Key.Plain
  cases k.index <;> simp

lemma ofGrid_eq_ok {grid : Grid} : ofGrid grid k = .ok w ↔
    (k.name ∈ grid.names ∧ ofGridName grid k.name k.index = .ok w) ∨
    (k.name ∉ grid.names ∧ ∃ base function w', Resolution.throughPrefix? grid k.name = some (base, function) ∧
      ofGridName grid base k.index = .ok w' ∧ w = { w' with transform := some function }) := by
  unfold ofGrid
  by_cases hname : k.name ∈ grid.names
  · simp [hname]
  · rcases Resolution.throughPrefix? grid k.name with _ | ⟨base, function⟩
    · simp [hname]
    · simp [hname, bind_eq_ok, pure, Except.pure, eq_comm (a := w)]

lemma wording_eq_ok : src.wording k = .ok w ↔ src.Origin k w := by
  unfold wording
  constructor
  · intro h
    split at h
    · rename_i v hv
      obtain ⟨text, htext, hw⟩ := bind_eq_ok.mp h
      rw [codeOf_eq_ok.mp htext] at hv
      exact .override hv (Except.ok.inj hw).symm
    · rename_i hfree
      have hfree := override?_none_iff.mp hfree
      split at h
      · rename_i index hin
        obtain ⟨hi, hworded⟩ := filter_eq_some_iff.mp hin
        unfold composite at h
        dsimp only at h
        split at h
        · cases h
        · rename_i multi hm
          obtain ⟨text, hcomb, hw⟩ := bind_eq_ok.mp h
          exact .composite hfree hi (by simpa using hworded) hm hcomb (Except.ok.inj hw).symm
      · rename_i hp
        have hp := filter_none_iff.mp hp
        obtain ⟨grids, hgr, h⟩ := bind_eq_ok.mp h
        split at h
        · cases h
        · rename_i grid hgrid
          obtain ⟨g, hg, hl⟩ := bind_eq_some_iff.mp hgrid
          have hk : src.HasGrid k grid := ⟨grids, g, hgr, hg, hl⟩
          rcases ofGrid_eq_ok.mp h with ⟨hname, hw⟩ | ⟨hname, base, function, _, ht, hw, rfl⟩
          · obtain ⟨text, hgives, rfl⟩ := ofGridName_eq_ok.mp hw
            exact .grid hfree hp hk hname hgives rfl
          · obtain ⟨text, hgives, rfl⟩ := ofGridName_eq_ok.mp hw
            exact .transform (b := { k with name := base }) ⟨hfree, hp, hk, hname, ht, rfl⟩ hgives rfl
  · intro h
    cases h with
    | override h hw =>
      rw [h, hw]
      rfl
    | @composite index text multi hfree hi hworded hm hcomb hw =>
      have hf : (k.index.filter fun i => !i.toList.all isDigit) = some index :=
        filter_eq_some_iff.mpr ⟨hi, by simpa using hworded⟩
      rw [override?_none_iff.mpr hfree, hf, hw]
      unfold composite
      dsimp only
      rw [hm]
      exact bind_eq_ok.mpr ⟨text, hcomb, rfl⟩
    | grid hfree hp hk hname hgives hw =>
      obtain ⟨grids, g, hgr, hg, hl⟩ := hk
      rw [override?_none_iff.mpr hfree, filter_none_iff.mpr hp, hgr, hg]
      have hword := ofGrid_eq_ok.mpr (.inl ⟨hname, ofGridName_eq_ok.mpr ⟨_, hgives, hw⟩⟩)
      exact bind_eq_ok.mpr ⟨grids, rfl, by simpa [hl] using hword⟩
    | transform h hgives hw =>
      obtain ⟨grids, g, hgr, hg, hl⟩ := h.known
      rw [override?_none_iff.mpr h.free, filter_none_iff.mpr h.plain, hgr, hg]
      have hword := ofGrid_eq_ok.mpr (.inr ⟨h.unnamed, _, _, _, h.through, ofGridName_eq_ok.mpr ⟨_, hgives, rfl⟩, hw⟩)
      exact bind_eq_ok.mpr ⟨grids, rfl, by simpa [hl] using hword⟩

lemma wording_iff : (∃ w, src.wording k = .ok w ∧ w.text = text) ↔ src.Gives k text := by
  simp only [wording_eq_ok]
  constructor
  · rintro ⟨w, h, rfl⟩
    cases h with
    | override h hw =>
      rw [hw]
      rcases override?_str_iff.mp h with h | ⟨hnone, h⟩
      · exact .override h
      · exact .general hnone h
    | composite hfree hi hworded hm hcomb hw => exact hw ▸ .composite hfree hi hworded hm hcomb
    | grid hfree hp hk hname hgives hw => exact hw ▸ .grid hfree hp hk hname hgives
    | transform h hgives hw => exact hw ▸ .transform h.free h.plain h.known h.unnamed h.through hgives
  · intro h
    cases h with
    | override h => exact ⟨_, .override (override?_str_iff.mpr (.inl h)) rfl, rfl⟩
    | general hnone h => exact ⟨_, .override (override?_str_iff.mpr (.inr ⟨hnone, h⟩)) rfl, rfl⟩
    | composite hfree hi hworded hm hcomb => exact ⟨_, .composite hfree hi hworded hm hcomb rfl, rfl⟩
    | grid hfree hp hk hname hgives => exact ⟨_, .grid hfree hp hk hname hgives rfl, rfl⟩
    | @transform grid base function _ hfree hp hk hname ht hgives =>
      exact ⟨_, .transform (b := { k with name := base }) ⟨hfree, hp, hk, hname, ht, rfl⟩ hgives rfl, rfl⟩

def Defines (src : Sources) (k : Key) (body : String) : Prop :=
  ∃ text mentions, src.Gives k text ∧ Resolution.extract src.library text k.index = .ok (mentions, body)

lemma definition_iff {body : String} : (∃ d, src.definition k = .ok d ∧ d.body = body) ↔ src.Defines k body := by
  constructor
  · rintro ⟨d, hd, rfl⟩
    obtain ⟨w, hw, hd⟩ := bind_eq_ok.mp hd
    obtain ⟨⟨mentions, body⟩, he, hd⟩ := bind_eq_ok.mp hd
    cases hd
    exact ⟨w.text, mentions, wording_iff.mp ⟨w, hw, rfl⟩, he⟩
  · rintro ⟨text, mentions, hg, he⟩
    obtain ⟨w, hw, rfl⟩ := wording_iff.mpr hg
    exact ⟨{ w with mentions := mentions, body := body }, bind_eq_ok.mpr ⟨w, hw, bind_eq_ok.mpr ⟨_, he, rfl⟩⟩, rfl⟩

/-! ## Refusals -/

lemma codeOf_refuses {P : Fault → Prop} (h : P .badArgument) (v : Value) : RefusesOnly P (Resolution.codeOf v) := by
  cases v <;> simp [Resolution.codeOf, h]

lemma combination_refuses (index key base : String) (multi : Value) :
    RefusesOnly (· ≠ .tooDeep) (Resolution.combination index key base multi) := by
  have hc : RefusesOnly (· ≠ .tooDeep) (Resolution.copies multi) := by cases multi <;> simp [Resolution.copies]
  unfold Resolution.combination
  dsimp only
  split
  · exact hc.bind fun _ => refusesOnly_ok _
  · split
    · exact hc.bind fun _ => refusesOnly_ok _
    · split
      · exact hc.bind fun _ => refusesOnly_ok _
      · exact refusesOnly_error.mpr (by simp)

lemma ofGridName_refuses {P : Fault → Prop} (h : P .badArgument) (grid : Grid) (name : String)
    (index : Option String) : RefusesOnly P (ofGridName grid name index) := by
  unfold ofGridName
  split
  · exact (codeOf_refuses h _).bind fun _ => refusesOnly_ok _
  · split
    · exact refusesOnly_ok _
    · exact (codeOf_refuses h _).bind fun _ => refusesOnly_ok _

lemma wording_refuses (hl : RefusesOnly (· ≠ .tooDeep) src.library) (k : Key) :
    RefusesOnly (· ≠ .tooDeep) (src.wording k) := by
  unfold wording
  split
  · exact (codeOf_refuses (by simp) _).bind fun _ => refusesOnly_ok _
  · split
    · unfold composite
      dsimp only
      split
      · exact refusesOnly_error.mpr (by simp)
      · exact (combination_refuses _ _ _ _).bind fun _ => refusesOnly_ok _
    · refine hl.bind fun grids => ?_
      split
      · exact refusesOnly_error.mpr (by simp)
      · unfold ofGrid
        split
        · exact ofGridName_refuses (by simp) _ _ _
        · split
          · exact refusesOnly_error.mpr (by simp)
          · exact (ofGridName_refuses (by simp) _ _ _).bind fun _ => refusesOnly_ok _

lemma definition_refuses (hl : RefusesOnly (· ≠ .tooDeep) src.library) (k : Key) :
    RefusesOnly (· ≠ .tooDeep) (src.definition k) := by
  have he (known : List String) (source : String) (index : Option String) :
      RefusesOnly (· ≠ .tooDeep) (Deferred.extract known source index) := by
    unfold Deferred.extract
    dsimp only
    split
    · exact refusesOnly_error.mpr (by simp)
    · exact refusesOnly_ok _
  refine (wording_refuses hl k).bind fun w => RefusesOnly.bind ?_ fun _ => refusesOnly_ok _
  unfold Resolution.extract
  split
  · exact (hl.map _).bind fun known => he known _ _
  · exact (refusesOnly_ok _).bind fun known => he known _ _

end Sources

end Deferred

end GridBayes
