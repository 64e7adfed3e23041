import GridBayes.Proofs.Meaning

/-! Code that is generated for deferred variables. The code for a key is determined by the key, also
where another key is reached from it by a transform, as long as every grid is listed under its own
name. The grids of a session are. -/
namespace GridBayes
open List Operation Text String Option

/-! ## Grids under their own names -/

def Listed (grids : Registry) : Prop :=
  ∀ entry ∈ grids, entry.2.name = entry.1

def Yields {α : Type} (P : α → Prop) (x : Except Fault α) : Prop :=
  ∀ a, x = .ok a → P a

variable {α β : Type} {registry : Registry}

lemma Yields.bind {P : β → Prop} {x : Except Fault α} {f : α → Except Fault β} (h : ∀ a, Yields P (f a)) :
    Yields P (x >>= f) := by
  intro b hb
  obtain ⟨a, -, hfa⟩ := bind_eq_ok.mp hb
  exact h a b hfa

lemma yields_pure {P : α → Prop} {a : α} (h : P a) : Yields P (pure a) := by
  rintro b ⟨⟩
  exact h

lemma yields_throw (P : α → Prop) (e : Fault) : Yields P (throw e) := by rintro a ⟨⟩

lemma yields_throw_bind (P : β → Prop) (e : Fault) (f : α → Except Fault β) : Yields P (throw e >>= f) := by
  rintro a ⟨⟩

lemma name_ofArchive (file : String) (a : Archive) :
    Yields (fun grid => grid.name = Path.stem file) (Grid.ofArchive file a) := by
  unfold Grid.ofArchive
  dsimp only
  split
  · exact yields_throw_bind _ _ _
  refine Yields.bind fun spec => Yields.bind fun bounds => Yields.bind fun shape => ?_
  split
  · exact yields_throw_bind _ _ _
  split
  · refine Yields.bind fun stored => ?_
    split
    all_goals
      refine Yields.bind fun derived => Yields.bind fun citations => Yields.bind fun notes =>
        Yields.bind fun version => ?_
      split
      · split
        · exact yields_throw_bind _ _ _
        · refine Yields.bind fun mappings => ?_
          refine yields_pure ?_
          dsimp only
      · exact yields_throw _ _
  · exact yields_throw _ _

lemma listed_registered (h : Listed registry) (store : Store) (file : String) :
    Yields Listed (Session.registered registry store file) := by
  unfold Session.registered
  dsimp only
  refine Yields.bind fun a => ?_
  split
  · exact yields_throw_bind _ _ _
  split
  · exact yields_throw_bind _ _ _
  intro registry' hr
  obtain ⟨grid, hgrid, hr⟩ := bind_eq_ok.mp hr
  cases hr
  intro entry he
  rcases mem_append.mp he with he | he
  · exact h entry he
  · obtain rfl := mem_singleton.mp he
    dsimp only
    exact name_ofArchive file a grid hgrid

lemma listed_registerAll {store : Store} (h : Listed registry) (files : List String) :
    Listed (Session.registerAll store registry files).1 := by
  induction files generalizing registry with
  | nil => exact h
  | cons file files ih =>
    rw [Session.registerAll]
    split
    · rename_i registry' hr
      exact ih (listed_registered h store file registry' hr)
    · split
      · exact ih h
      · exact h

lemma listed_library (w : Session) : Yields Listed w.library := by
  intro grids hg
  have hl : Listed w.folderGrids.1 := listed_registerAll (by rintro entry ⟨⟩) _
  unfold Session.library at hg
  cases hr : w.folderGrids.2 with
  | error e =>
    simp only [hr] at hg
    cases hg
  | ok u =>
    simp only [hr] at hg
    cases hg
    exact hl

lemma Listed.name_eq {grids : Registry} (h : Listed grids) {name : String} {grid : Grid}
    (hl : grids.lookup name = some grid) : grid.name = name := by
  induction grids with
  | nil => cases hl
  | cons entry grids ih =>
    rw [lookup_cons] at hl
    split at hl
    · rename_i hname
      cases hl
      exact (h _ mem_cons_self).trans (beq_iff_eq.mp hname).symm
    · exact ih (fun e he => h e (mem_cons_of_mem _ he)) hl

namespace Deferred

/-! ## Which text a definition is made from -/

variable {grid : Grid} {name base function : String} {k : Key}

namespace Sources

variable {src : Sources} {k : Key}

variable {grid : Grid} {w : Wording}

lemma HasGrid.unique {grid' : Grid} (h : src.HasGrid k grid) (h' : src.HasGrid k grid') : grid = grid' := by
  obtain ⟨grids, g, hgr, hg, hl⟩ := h
  obtain ⟨grids', g', hgr', hg', hl'⟩ := h'
  cases hgr.symm.trans hgr'
  cases hg.symm.trans hg'
  exact some.inj (hl.symm.trans hl')

lemma HasGrid.grid_eq (h : src.HasGrid k grid) (hl : Yields Listed src.library) : k.grid = some grid.name := by
  obtain ⟨grids, g, hgr, hg, hlo⟩ := h
  rw [hg, (hl grids hgr).name_eq hlo]

lemma Origin.base_cases (hl : Yields Listed src.library) (h : src.Origin k w) :
    (w.transform = none ∧ w.base = k) ∨ ∃ grid function, w.transform = some function ∧
      src.Through k w.base grid function ∧ w.isCode = (!grid.inputs.contains w.base.name) ∧
      grid.Gives w.base.name w.text := by
  cases h with
  | override _ hw | composite _ _ _ _ _ hw => exact hw ▸ .inl ⟨rfl, rfl⟩
  | grid _ _ hk _ _ hw =>
    rw [hw, gridWording, ← hk.grid_eq hl]
    exact .inl ⟨rfl, rfl⟩
  | transform ht hg hw =>
    rw [hw, gridWording, ← ht.known.grid_eq hl, ← ht.same]
    exact .inr ⟨_, _, rfl, ht, rfl, hg⟩

end Sources

lemma throughPrefix?_some (h : Resolution.throughPrefix? grid name = some (base, function)) :
    base ∈ grid.names ∧ ∃ t : Transform, base = t.tag ++ name ∨ dropStart? t.tag name = some base := by
  obtain ⟨t, -, ht⟩ := exists_of_findSome?_eq_some h
  split at ht
  · rename_i hmem
    cases ht
    exact ⟨contains_iff_mem.mp hmem, t, Or.inl rfl⟩
  · split at ht
    · rename_i rest hrest
      split at ht
      · rename_i hmem
        cases ht
        exact ⟨contains_iff_mem.mp hmem, t, Or.inr hrest⟩
      · cases ht
    · cases ht

lemma Sources.Through.named {src : Sources} {b : Key} (h : src.Through k b grid function) :
    b.Plain ∧ src.HasGrid b grid ∧ b.name ∈ grid.names := by
  rw [h.same]
  exact ⟨h.plain, h.known, (throughPrefix?_some h.through).1⟩

lemma throughPrefix?_function (h : Resolution.throughPrefix? grid name = some (base, function)) :
    ∃ t : Transform, function = t.forward ∨ function = t.inverse := by
  obtain ⟨t, -, ht⟩ := exists_of_findSome?_eq_some h
  refine ⟨t, ?_⟩
  split at ht
  · exact Or.inr (Prod.mk.inj (some.inj ht)).2.symm
  · split at ht
    · split at ht
      · exact Or.inl (Prod.mk.inj (some.inj ht)).2.symm
      · cases ht
    · cases ht

/-! ## The code of a key -/

def Generated.key (c : Generated) : Key :=
  ⟨c.grid, c.name, c.index⟩

namespace Sources

/-- The code assigned to a key's local variable: of copies, of the grid's name, or by a transform of another name.
-/
inductive Codes (src : Sources) (k : Key) : String → Prop where
  | composite {d : Definition} (worded : ¬ k.Plain) (defined : src.definition k = .ok d) :
      Codes src k (d.filled src.meaning)
  | grid {grid : Grid} {w : Wording} {mentions : List String} {body : String} (plain : k.Plain)
      (known : src.HasGrid k grid) (named : k.name ∈ grid.names)
      (given : ofGridName grid k.name k.index = .ok w)
      (extracted : Resolution.extract src.library w.text k.index = .ok (mentions, body)) :
      Codes src k (Definition.filled ⟨w, mentions, body⟩ src.meaning)
  | transform {grid : Grid} {d : Definition} {function : String} (plain : k.Plain)
      (known : src.HasGrid k grid) (unnamed : k.name ∉ grid.names)
      (defined : src.definition k = .ok d) (through : d.transform = some function) :
      Codes src k (d.transformed function (d.filled src.meaning))

variable {src : Sources} {k : Key}

lemma Codes.unique {code code' : String} (h : src.Codes k code) (h' : src.Codes k code') : code = code' := by
  cases h with
  | composite hw hd =>
    cases h' with
    | composite _ hd' => rw [Except.ok.inj (hd.symm.trans hd')]
    | grid hp | transform hp => exact absurd hp hw
  | grid hp hk hn hg he =>
    cases h' with
    | composite hw => exact absurd hp hw
    | grid _ hk' _ hg' he' =>
      obtain rfl := hk.unique hk'
      cases hg.symm.trans hg'
      cases he.symm.trans he'
      rfl
    | transform _ hk' hu =>
      obtain rfl := hk.unique hk'
      exact absurd hn hu
  | transform hp hk hu hd ht =>
    cases h' with
    | composite hw => exact absurd hp hw
    | grid _ hk' hn =>
      obtain rfl := hk.unique hk'
      exact absurd hn hu
    | transform _ _ _ hd' ht' =>
      cases hd.symm.trans hd'
      rw [some.inj (ht.symm.trans ht')]

variable {c : Generated}

lemma mem_generated {d : Definition} {filled : String} (h : c ∈ d.generated k filled) :
    (d.isCode = true ∧ c.key = d.base ∧ c.code = filled) ∨
      ∃ f, d.transform = some f ∧ c.key = k ∧ c.code = d.transformed f filled := by
  rcases mem_append.mp h with h | h
  · split at h
    · rename_i hcode
      obtain rfl := mem_singleton.mp h
      exact Or.inl ⟨hcode, rfl, rfl⟩
    · cases h
  · split at h
    · cases h
    · rename_i f hf
      obtain rfl := mem_singleton.mp h
      exact Or.inr ⟨f, hf, rfl, rfl⟩

lemma codes_of_generatedBy (hl : Yields Listed src.library)
    (hc : c ∈ src.generatedBy k) : src.Codes c.key c.code ∧ (c.key = k ∨
      ∃ grid base function, Resolution.throughPrefix? grid k.name = some (base, function) ∧
        c.key = { k with name := base }) := by
  unfold generatedBy at hc
  split at hc
  · rename_i d hd
    obtain ⟨w, hw, hbody⟩ := bind_eq_ok.mp hd
    obtain ⟨⟨mentions, body⟩, hex, he⟩ := bind_eq_ok.mp hbody
    cases he
    rcases mem_generated hc with ⟨hcode, hkey, hfi⟩ | ⟨f, hf, hkey, hfi⟩
    · rw [hkey, hfi]
      cases wording_eq_ok.mp hw with
      | override _ hw' => cases hcode.symm.trans (congrArg Wording.isCode hw')
      | composite _ hi hworded _ _ hw' =>
        subst hw'
        exact ⟨.composite (fun hp => by cases (hp _ hi).symm.trans hworded) hd, Or.inl rfl⟩
      | grid _ hp hk hn hg hw' =>
        have hcodes : src.Codes k (Definition.filled ⟨w, mentions, body⟩ src.meaning) :=
          .grid hp hk hn (ofGridName_eq_ok.mpr ⟨_, hg, hw'⟩) hex
        rw [hw', gridWording, ← hk.grid_eq hl] at hcodes ⊢
        exact ⟨hcodes, Or.inl rfl⟩
      | @transform b grid function text ht hg hw' =>
        obtain ⟨hp, hk, hn⟩ := ht.named
        have hi : b.index = k.index := by rw [ht.same]
        have hcodes : src.Codes b (Definition.filled ⟨gridWording grid b.name b.index text, mentions, body⟩ src.meaning) := by
          rw [hw', ← hi] at hex
          exact .grid hp hk hn (ofGridName_eq_ok.mpr ⟨text, hg, rfl⟩) hex
        rw [hw', gridWording, ← ht.known.grid_eq hl, ← ht.same]
        exact ⟨hcodes, Or.inr ⟨grid, b.name, function, ht.through, ht.same⟩⟩
    · rw [hkey, hfi]
      rcases (wording_eq_ok.mp hw).base_cases hl with ⟨hnone, -⟩ | ⟨grid, function, -, ht, -⟩
      · cases hf.symm.trans hnone
      · exact ⟨.transform ht.plain ht.known ht.unnamed hd hf, Or.inl rfl⟩
  · cases hc

lemma generated_unique (hl : Yields Listed src.library) {k' : Key} {c' : Generated}
    (hc : c ∈ src.generatedBy k) (hc' : c' ∈ src.generatedBy k') (h : c.key = c'.key) : c = c' := by
  have hco := (codes_of_generatedBy hl hc).1
  rw [h] at hco
  have hcode : c.code = c'.code := hco.unique (codes_of_generatedBy hl hc').1
  cases c
  simp_all [Generated.key]

end Sources

namespace Definition

variable (d : Definition)

lemma value_of_text (htext : d.isCode = false) (ht : d.transform = none) (k : Key)
    (filled : String) : d.value k filled = filled := by
  unfold value baseValue
  rw [ht, htext]
  rfl

lemma exists_generated_base (h : d.isCode = true) (k : Key) (filled : String) :
    ∃ c ∈ d.generated k filled, c.key = d.base ∧ c.code = filled := by
  refine ⟨⟨d.base.grid, d.base.index, d.base.name, filled⟩, ?_, rfl, rfl⟩
  unfold generated
  rw [h]
  exact mem_append_left _ (mem_singleton_self _)

lemma exists_generated_transform {function : String} (h : d.transform = some function) (k : Key)
    (filled : String) : ∃ c ∈ d.generated k filled, c.key = k ∧
      c.code = function ++ "(" ++ d.baseValue filled ++ ")" := by
  refine ⟨⟨k.grid, k.index, k.name, d.transformed function filled⟩, ?_, rfl, rfl⟩
  unfold generated
  rw [h]
  exact mem_append_right _ (mem_singleton_self _)

end Definition

/-! ## Names of local variables -/

def Key.localName (k : Key) : String :=
  k.grid.getD "None" ++ "__" ++ k.name ++ (k.index.map ("__" ++ ·)).getD ""

structure Key.Spelled (k : Key) : Prop where
  grid : ∀ g ∈ k.grid, ∀ c ∈ g.toList, isWord c = true
  name : ∀ c ∈ k.name.toList, isWord c = true
  index : ∀ i ∈ k.index, ∀ c ∈ i.toList, isIndexChar c = true

lemma Key.Written.spelled (h : k.Written) : k.Spelled := by
  obtain ⟨n, word, index, hword, hin, rfl, -⟩ := h
  have hp : ∀ i ∈ index.map ofList, ∀ c ∈ i.toList, isIndexChar c = true := by
    intro i hi c hc
    obtain ⟨chars, hch, rfl⟩ := map_eq_some_iff.mp hi
    rw [toList_ofList] at hc
    exact (hin chars hch).2 c hc
  unfold keyOfWord
  split
  · rename_i grid name hs
    obtain rfl : word = grid ++ '_' :: '_' :: name := splitGrid_some hs
    refine ⟨fun g hg c hc => ?_, fun c hc => ?_, hp⟩
    · obtain rfl := some.inj hg
      rw [toList_ofList] at hc
      exact hword.2 c (by simp [hc])
    · rw [toList_ofList] at hc
      exact hword.2 c (by simp [hc])
  · refine ⟨fun g hg => (by cases hg), fun c hc => ?_, hp⟩
    rw [toList_ofList] at hc
    exact hword.2 c hc

lemma afterStart?_some {start text rest : List Char} (h : afterStart? start text = some rest) :
    text = start ++ rest := by
  induction start generalizing text with
  | nil => exact some.inj h
  | cons a start ih =>
    cases text with
    | nil => cases h
    | cons b text =>
      rw [afterStart?] at h
      split at h
      · rename_i hab
        rw [beq_iff_eq.mp hab, ih h, cons_append]
      · cases h

lemma isWord_through (h : Resolution.throughPrefix? grid name = some (base, function))
    (hname : ∀ c ∈ name.toList, isWord c = true) : ∀ c ∈ base.toList, isWord c = true := by
  obtain ⟨-, t, rfl | hrest⟩ := throughPrefix?_some h
  · have htag : ∀ c ∈ t.tag.toList, isWord c = true := all_eq_true.mp (by cases t <;> rfl)
    intro c hc
    rw [toList_append] at hc
    rcases mem_append.mp hc with hc | hc
    · exact htag c hc
    · exact hname c hc
  · obtain ⟨rest, ha, rfl⟩ := map_eq_some_iff.mp hrest
    rw [afterStart?_some ha] at hname
    intro c hc
    rw [toList_ofList] at hc
    exact hname c (mem_append_right _ hc)

lemma spelled_of_generatedBy {src : Sources} (hl : Yields Listed src.library) (hk : k.Written) {c : Generated}
    (hc : c ∈ src.generatedBy k) : c.key.Spelled := by
  rcases (Sources.codes_of_generatedBy hl hc).2 with hkey | ⟨grid, base, function, ht, hkey⟩
  · rw [hkey]
    exact hk.spelled
  · rw [hkey]
    exact ⟨hk.spelled.grid, isWord_through ht hk.spelled.name, hk.spelled.index⟩

namespace Key.Spelled

variable (h : k.Spelled)

include h

lemma isWord_stem : ∀ c ∈ ((k.grid.map (· ++ "__")).getD "" ++ k.name).toList, isWord c = true := by
  rw [toList_append, forall_mem_append]
  refine ⟨?_, h.name⟩
  cases hg : k.grid with
  | none => simp
  | some g =>
    simp only [Option.map_some, Option.getD_some, toList_append, forall_mem_append]
    exact ⟨h.grid g hg, all_eq_true.mp rfl⟩

lemma isWord_index : ∀ c ∈ ((k.index.map ("__" ++ ·)).getD "").toList, isWord c = true := by
  cases hi : k.index with
  | none => simp
  | some i =>
    simp only [Option.map_some, Option.getD_some, toList_append, forall_mem_append]
    exact ⟨all_eq_true.mp rfl, fun c hc => isWord_of_isIndexChar (h.index i hi c hc)⟩

lemma not_mem_localName {c : Char} (hword : isWord c = false) : c ∉ k.localName.toList := by
  have hall : ∀ d ∈ k.localName.toList, isWord d = true := by
    unfold localName
    simp only [toList_append, forall_mem_append]
    refine ⟨⟨⟨?_, all_eq_true.mp rfl⟩, h.name⟩, h.isWord_index⟩
    cases hg : k.grid with
    | none => exact all_eq_true.mp rfl
    | some g => exact h.grid g hg
  exact fun hc => absurd (hall c hc) (by simp [hword])

end Key.Spelled

end Deferred

end GridBayes
