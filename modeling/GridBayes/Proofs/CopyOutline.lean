import GridBayes.Proofs.HoledText

/-! Definitions of all copies of a variable at once. If overrides are not for single copies and the texts of
definitions mention variables without an index or with the index of the copy itself, then the definitions of
two copies differ in the number of the copy only, in places that the text determines. So do the values. -/
namespace GridBayes.Deferred
open List Operation Resolution KeyForm
open Holed (plain hole)
open Template (Unbraced)
open Text

/-! ## Sources that treat all copies alike -/

/-- A text for all copies: no braces, and mentions with no index or that of the copy. -/
structure EvenText (text : String) : Prop where
  unbraced : Unbraced text
  mentions : ∀ r ∈ references text, r.Even

instance (text : String) : Decidable (EvenText text) :=
  decidable_of_iff (Unbraced text ∧ ∀ r ∈ references text, r.Even) ⟨fun h => ⟨h.1, h.2⟩, fun h => ⟨h.1, h.2⟩⟩

/-- No override is for a single copy, all texts are for all copies, and inputs have names as required. -/
structure Sources.Even (src : Sources) : Prop where
  keys : ∀ entry ∈ src.overrides, ∀ k, Key.ofText? entry.1 = some k → k.index = none
  overrides : ∀ key text, src.overrides.lookup key = some (.str text) → EvenText text
  mappings : ∀ k grid, src.HasGrid k grid → ∀ name text, grid.mapping name = .str text → EvenText text
  derived : ∀ k grid, src.HasGrid k grid → ∀ name text, grid.derived.lookup name = some (.str text) → EvenText text
  inputs : ∀ k grid, src.HasGrid k grid → ∀ input ∈ grid.inputs, GridDefinition.isValidName input = true

def CopyDashes (cs : List Char) : Prop :=
  ∀ rest, '-' :: '-' :: rest <:+ cs → ∃ c more, rest = 'i' :: c :: more ∧ isIndexChar c = false

lemma copyDashes_append {a b : List Char} (ha : '-' ∉ a) (hb : CopyDashes b) : CopyDashes (a ++ b) := by
  induction a with
  | nil => exact hb
  | cons c a ih =>
    simp only [mem_cons, not_or] at ha
    intro rest hrest
    rcases suffix_cons_iff.mp hrest with heq | hs
    · exact absurd (cons.inj heq).1 ha.1
    · exact ih ha.2 rest hs

variable {c : Char} {name : String} {front : String → String} {inputs : List String}

lemma copyDashes_index {b : List Char} (hc : isIndexChar c = false) (hb : CopyDashes (c :: b)) :
    CopyDashes ('-' :: '-' :: 'i' :: c :: b) := by
  intro rest hrest
  rcases suffix_cons_iff.mp hrest with heq | hs
  · obtain ⟨-, htail⟩ := cons.inj heq
    exact ⟨c, b, (cons.inj htail).2, hc⟩
  rcases suffix_cons_iff.mp hs with heq | hs
  · obtain ⟨-, htail⟩ := cons.inj heq
    exact absurd (cons.inj htail).1 (by decide)
  rcases suffix_cons_iff.mp hs with heq | hs
  · exact absurd (cons.inj heq).1 (by decide)
  · exact hb rest hs

lemma even_of_copyDashes {text : String} (h : CopyDashes text.toList) : ∀ r ∈ references text, r.Even := by
  intro r hr
  obtain ⟨before, after, n, hs, hrule⟩ := mem_hits_pieces hr
  obtain ⟨grid, name, index, -, -, hin, rfl, rfl⟩ := referenceRule_some hrule
  cases index with
  | none => exact Or.inl rfl
  | some i =>
    have hd : '-' :: '-' :: (i ++ n) <:+ text.toList := by
      refine IsSuffix.trans ⟨'g' :: '.' :: dotted grid name, ?_⟩ hs
      simp [indexPart]
    obtain ⟨c, more, hrest, hc⟩ := h _ hd
    obtain ⟨hne, hch⟩ := hin i rfl
    have hi : i = ['i'] := by
      rcases i with _ | ⟨d, _ | ⟨e, i⟩⟩
      · exact absurd rfl hne
      · rw [(cons.inj hrest).1]
      · -- A second character of the index would be the one that ends it.
        obtain ⟨-, htail⟩ := cons.inj hrest
        have he := hch e (by simp)
        rw [(cons.inj htail).1, hc] at he
        cases he
    exact Or.inr (by rw [hi]; rfl)

lemma isWord_of_isValidName (h : GridDefinition.isValidName name = true) : ∀ c ∈ name.toList, isWord c = true := by
  unfold GridDefinition.isValidName at h
  cases hname : name.toList with
  | nil => simp
  | cons d rest =>
    rw [hname] at h
    simp only [Bool.and_eq_true, all_eq_true] at h
    intro c hc
    rcases mem_cons.mp hc with rfl | hc
    · exact isWord_of_startsName h.1
    · exact h.2 c hc

section
variable {grid : Grid} {name : String} {c : Char}

lemma not_mem_argument {input : String} (hc : c ∈ ['\x7b', '\x7d', '-'])
    (hgrid : ∀ d ∈ grid.name.toList, isWord d = true) (hin : ∀ d ∈ input.toList, isWord d = true) :
    c ∉ ("g." ++ grid.name ++ "__" ++ input).toList := by
  have hword : isWord c = false := by
    simp only [mem_cons, not_mem_nil, or_false] at hc
    rcases hc with rfl | rfl | rfl <;> decide
  have hg : c ∉ grid.name.toList := fun hmem => by simpa [hword] using hgrid c hmem
  have hi : c ∉ input.toList := fun hmem => by simpa [hword] using hin c hmem
  have hg' : c ≠ 'g' ∧ c ≠ '.' ∧ c ≠ '_' := by
    simp only [mem_cons, not_mem_nil, or_false] at hc
    rcases hc with rfl | rfl | rfl <;> decide
  simp [hg, hi, hg']

lemma not_mem_opening (hc : c ∈ ['\x7b', '\x7d', '-']) (hgrid : ∀ d ∈ grid.name.toList, isWord d = true)
    (hname : ∀ d ∈ name.toList, isWord d = true) (n : Nat) :
    c ∉ ("c.grid__" ++ grid.name ++ "__" ++ name ++ "._interp" ++ toString n ++ "d(").toList := by
  have hword : isWord c = false ∧ c.isDigit = false ∧ c ∉ "c.grid__".toList ∧ c ∉ "__".toList ∧
      c ∉ "._interp".toList ∧ c ∉ "d(".toList := by
    simp only [mem_cons, not_mem_nil, or_false] at hc
    rcases hc with rfl | rfl | rfl <;> decide
  have hg : c ∉ grid.name.toList := fun hmem => by simpa [hword.1] using hgrid c hmem
  have hn : c ∉ name.toList := fun hmem => by simpa [hword.1] using hname c hmem
  have hd : c ∉ (toString n).toList := fun hmem => by simpa [hword.2.1] using isDigit_of_mem_toString hmem
  simp only [String.toList_append, mem_append, not_or]
  exact ⟨⟨⟨⟨⟨⟨hword.2.2.1, hg⟩, hword.2.2.2.1⟩, hn⟩, hword.2.2.2.2.1⟩, hd⟩, hword.2.2.2.2.2⟩

end

lemma copyDashes_arguments (h : ∀ input ∈ inputs, '-' ∉ (front input).toList) :
    CopyDashes ((join ", " (inputs.map fun i => front i ++ "--i")).toList ++ [')']) := by
  have hend : CopyDashes [')'] := by
    intro rest hrest
    have hl := hrest.length_le
    simp at hl
  induction inputs with
  | nil => exact hend
  | cons input rest ih =>
    have hf := h input mem_cons_self
    cases rest with
    | nil =>
      have hs : (join ", " ([input].map fun i => front i ++ "--i")).toList ++ [')'] =
          (front input).toList ++ '-' :: '-' :: 'i' :: ')' :: [] := by
        simp [join]
      rw [hs]
      exact copyDashes_append hf (copyDashes_index (by decide) hend)
    | cons input' rest =>
      have hrest := ih fun i hi => h i (mem_cons_of_mem _ hi)
      have hs : (join ", " ((input :: input' :: rest).map fun i => front i ++ "--i")).toList ++ [')'] =
          (front input).toList ++ '-' :: '-' :: 'i' :: ',' :: ([' '] ++
            ((join ", " ((input' :: rest).map fun i => front i ++ "--i")).toList ++ [')'])) := by
        rw [map_cons, map_cons, join_cons_cons]
        simp
      rw [hs]
      refine copyDashes_append hf (copyDashes_index (by decide) ?_)
      exact copyDashes_append (a := [',', ' ']) (by decide) hrest

lemma not_mem_arguments (hc : c ∉ ", --i".toList) (h : ∀ input ∈ inputs, c ∉ (front input).toList) :
    c ∉ (join ", " (inputs.map fun i => front i ++ "--i")).toList := by
  have hp : c ∉ ", ".toList ∧ c ∉ "--i".toList := by
    have hs : ", --i" = ", " ++ "--i" := rfl
    rw [hs, String.toList_append, mem_append, not_or] at hc
    exact hc
  induction inputs with
  | nil => simp [join]
  | cons input rest ih =>
    have hf : c ∉ (front input ++ "--i").toList := by
      rw [String.toList_append, mem_append, not_or]
      exact ⟨h input mem_cons_self, hp.2⟩
    cases rest with
    | nil => exact hf
    | cons input' rest =>
      have hrest := ih fun i hi => h i (mem_cons_of_mem _ hi)
      rw [map_cons, map_cons, join_cons_cons, String.toList_append, mem_append, not_or]
      refine ⟨hf, ?_⟩
      rw [String.toList_append, mem_append, not_or]
      exact ⟨hp.1, hrest⟩

lemma even_interpolation {grid : Grid} (hgrid : ∀ c ∈ grid.name.toList, isWord c = true)
    (hname : ∀ c ∈ name.toList, isWord c = true)
    (hin : ∀ input ∈ grid.inputs, ∀ c ∈ input.toList, isWord c = true) : EvenText (interpolation grid name) := by
  have hs : (interpolation grid name).toList =
      ("c.grid__" ++ grid.name ++ "__" ++ name ++ "._interp" ++ toString grid.ndim ++ "d(").toList ++
      ((join ", " (grid.inputs.map fun i => ("g." ++ grid.name ++ "__" ++ i) ++ "--i")).toList ++ [')']) := by
    unfold interpolation
    rw [String.toList_append, String.toList_append, append_assoc]
    rfl
  have hb : ∀ c ∈ ['\x7b', '\x7d'], c ∉ (interpolation grid name).toList := by
    intro c hc
    have hmark : c ∈ ['\x7b', '\x7d', '-'] := mem_append_left ['-'] hc
    have hp : c ∉ ", --i".toList ∧ c ≠ ')' := by
      simp only [mem_cons, not_mem_nil, or_false] at hc
      rcases hc with rfl | rfl <;> decide
    rw [hs, mem_append, mem_append, mem_singleton, not_or, not_or]
    refine ⟨not_mem_opening hmark hgrid hname _, not_mem_arguments hp.1 fun i hi => ?_, hp.2⟩
    exact not_mem_argument hmark hgrid (hin i hi)
  refine ⟨⟨hb _ (by simp), hb _ (by simp)⟩, even_of_copyDashes ?_⟩
  rw [hs]
  refine copyDashes_append (not_mem_opening (by simp) hgrid hname _) (copyDashes_arguments fun i hi => ?_)
  exact not_mem_argument (by simp) hgrid (hin i hi)

/-! ## Definitions for all copies -/

structure DefinitionForm where
  base : KeyForm
  text : String
  isCode : Bool
  transform : Option String
deriving Inhabited

namespace DefinitionForm

def mentions (d : DefinitionForm) : List Holed :=
  (references d.text).map (Reference.listedForm d.base.copied)

def slots (d : DefinitionForm) : List Slot :=
  bodySlots d.base.copied [] (pieces referenceRule d.text.toList)

def keys (d : DefinitionForm) : List KeyForm :=
  (references d.text).map (Reference.form d.base.copied)

def filled (d : DefinitionForm) (value : KeyForm → Holed) : Holed :=
  d.slots.flatMap (Slot.holed value)

def body (d : DefinitionForm) : Holed :=
  d.filled fun f => plain "\x7b" ++ f.text ++ plain "\x7d"

def put (d : DefinitionForm) (j : String) : Definition where
  base := d.base.key j
  text := d.text
  isCode := d.isCode
  transform := d.transform
  mentions := d.mentions.map (·.put j)
  body := d.body.put j

variable {d : DefinitionForm} {j : String}

lemma forms_slots (d : DefinitionForm) : d.slots.filterMap Slot.form? = d.keys := forms_bodySlots _ _ _

lemma body_eq (htext : EvenText d.text) (hj : IsCopyNumber j) :
    (d.body.put j).toList = normal (copyIndex d.base.copied j) d.text.toList ∧
    pieces keyRule (d.body.put j).toList = d.slots.flatMap (Slot.pieces j) := by
  have hp : pieces keyRule (normal (copyIndex d.base.copied j) d.text.toList) = d.slots.flatMap (Slot.pieces j) := by
    rw [pieces_normal (isCurrent_copyIndex _ hj) htext.unbraced.1]
    exact bodyPieces_copy _ hj.1 _ _ htext.mentions
  have hbody : (d.body.put j).toList = normal (copyIndex d.base.copied j) d.text.toList := by
    rw [← fill_keys (normal (copyIndex d.base.copied j) d.text.toList), hp]
    refine put_slots fun f _ => ?_
    rw [Holed.put_append, Holed.put_append, f.put_text]
    simp
  exact ⟨hbody, by rw [hbody, hp]⟩

lemma put_eq (htext : EvenText d.text) (hj : IsCopyNumber j) :
    d.put j = ⟨⟨d.base.key j, d.text, d.isCode, d.transform⟩,
      (references d.text).map (·.listed (copyIndex d.base.copied j)),
      String.ofList (normal (copyIndex d.base.copied j) d.text.toList)⟩ := by
  have hm : d.mentions.map (·.put j) = (references d.text).map (·.listed (copyIndex d.base.copied j)) := by
    unfold mentions
    rw [map_map]
    exact map_congr_left fun r _ => Reference.put_listedForm hj.1
  unfold put
  rw [hm, ← (body_eq htext hj).1, String.ofList_toList]

lemma keys_put (htext : EvenText d.text) (hj : IsCopyNumber j) : (d.put j).keys = d.keys.map (key · j) := by
  rw [← forms_slots, ← hits_slots]
  exact congrArg hits (body_eq htext hj).2

lemma filled_put (htext : EvenText d.text) (hj : IsCopyNumber j) {value : KeyForm → Holed}
    {given : Key → String} (h : ∀ f ∈ d.keys, given (f.key j) = (value f).put j) :
    (d.put j).filled given = (d.filled value).put j := by
  unfold Definition.filled
  rw [← forms_slots] at h
  have hs : (Holed.put (d.slots.flatMap (Slot.holed value)) j).toList =
      fill (fun k => (given k).toList) (d.slots.flatMap (Slot.pieces j)) :=
    put_slots fun f hf => congrArg String.toList (h f hf)
  have hp : pieces keyRule (d.put j).body.toList = d.slots.flatMap (Slot.pieces j) := (body_eq htext hj).2
  rw [hp, ← hs, String.ofList_toList]
  rfl

lemma written_keys : ∀ f ∈ d.keys, f.Written := by
  intro f hf
  obtain ⟨r, hr, rfl⟩ := mem_map.mp hf
  obtain ⟨before, after, n, -, hrule⟩ := mem_hits_pieces hr
  obtain ⟨grid, name, index, hgrid, hname, -, rfl, -⟩ := referenceRule_some hrule
  refine ⟨stem grid name, isWord_stem hgrid hname, ?_⟩
  unfold Reference.form
  cases grid <;> simp [ofWord]

end DefinitionForm

namespace Sources

variable {src : Sources} {f : KeyForm} {j j' : String}

lemma override?_copy (heven : src.Even) (hf : f.Written) (hj : IsCopyNumber j) (hj' : IsCopyNumber j') :
    src.override? (f.key j') = src.override? (f.key j) := by
  cases hc : f.copied with
  | false => rw [key_single hc j j']
  | true =>
    have hnone : ∀ i, IsCopyNumber i → src.overrides.lookup (f.key i).text = none := by
      intro i hi
      rw [lookup_eq_none_iff]
      intro entry he
      refine bne_iff_ne.mpr fun heq => ?_
      have hin := heven.keys entry he (f.key i) (by rw [← heq]; exact (hf.key hi).ofText?)
      simp [key, copyIndex, hc] at hin
    unfold override?
    rw [hnone j hj, hnone j' hj']
    rfl

lemma plain_copy (f : KeyForm) (hj : IsCopyNumber j) : (f.key j).Plain := by
  intro i hi
  cases hc : f.copied with
  | false => simp [key, copyIndex, hc] at hi
  | true =>
    obtain rfl : j = i := by simpa [key, copyIndex, hc] using hi
    exact all_eq_true.mpr hj.2

variable {grid : Grid} {name text : String} {w : Wording} {k : Key}

lemma wording_copy (heven : src.Even) (hf : f.Written) (hj : IsCopyNumber j) (hj' : IsCopyNumber j')
    (h : src.wording (f.key j) = .ok w) :
    src.wording (f.key j') = .ok { w with base := { w.base with index := copyIndex f.copied j' } } := by
  have ho := override?_copy heven hf hj hj'
  have hfree : src.Free (f.key j) → src.Free (f.key j') := by
    rw [← override?_none_iff, ← override?_none_iff, ho]
    exact id
  have hp' := plain_copy f hj'
  rw [wording_eq_ok] at h ⊢
  cases h with
  | override hov hw => exact .override (ho.trans hov) (by rw [hw]; rfl)
  | composite _ hi hworded => cases (plain_copy f hj _ hi).symm.trans hworded
  | grid hfr _ hk hn hg hw => exact .grid (hfree hfr) hp' hk hn hg (by rw [hw]; rfl)
  | @transform b _ _ _ ht hg hw =>
    refine .transform (b := { b with index := (f.key j').index }) ⟨hfree ht.free, hp', ht.known, ht.unnamed, ht.through, ?_⟩ hg
      (by rw [hw]; rfl)
    rw [ht.same]
    rfl

lemma spelled_wording (hl : Yields Listed src.library) (hk : k.Written) (h : src.wording k = .ok w) :
    w.base.Spelled := by
  have hs := hk.spelled
  rcases (wording_eq_ok.mp h).base_cases hl with ⟨-, hbase⟩ | ⟨_, _, -, ht, -⟩
  · rw [hbase]
    exact hs
  · rw [ht.same]
    exact ⟨hs.grid, isWord_through ht.through hs.name, hs.index⟩

lemma even_given (heven : src.Even) (hl : Yields Listed src.library) (hk : k.Written)
    (hgrid : src.HasGrid k grid) (hname : ∀ c ∈ name.toList, isWord c = true) (h : grid.Gives name text) :
    EvenText text := by
  cases h with
  | input _ hm => exact heven.mappings k grid hgrid name text hm
  | derived _ _ hcode => exact heven.derived k grid hgrid name text hcode
  | output =>
    refine even_interpolation (fun c hc => ?_) hname fun input hi => ?_
    · exact hk.spelled.grid grid.name (hgrid.grid_eq hl) c hc
    · exact isWord_of_isValidName (heven.inputs k grid hgrid input hi)

lemma even_wording (heven : src.Even) (hl : Yields Listed src.library) (hk : k.Written) (hp : k.Plain)
    (h : src.wording k = .ok w) : EvenText w.text := by
  have hgi : src.Gives k w.text := wording_iff.mp ⟨w, h, rfl⟩
  cases hgi with
  | override hf | general _ hf => exact heven.overrides _ _ hf
  | composite _ hi hw => exact absurd (hp _ hi) (by simp [hw])
  | grid _ _ hkn _ hg => exact even_given heven hl hk hkn hk.spelled.name hg
  | transform _ _ hkn _ ht hg => exact even_given heven hl hk hkn (isWord_through ht hk.spelled.name) hg

lemma extract_copy {library : Except Fault Registry} {current : Option String}
    {found : List String × String} (h : Resolution.extract library text current = .ok found)
    (current' : Option String) : Resolution.extract library text current' =
      .ok ((references text).map (·.listed current'), String.ofList (normal current' text.toList)) := by
  have he : ∀ known, Deferred.extract known text current = .ok found → Deferred.extract known text current' =
        .ok ((references text).map (·.listed current'), String.ofList (normal current' text.toList)) := by
    intro known hk
    unfold Deferred.extract at hk ⊢
    dsimp only at hk ⊢
    split at hk
    · cases hk
    · rfl
  unfold Resolution.extract at h ⊢
  split at h
  · rename_i hany
    obtain ⟨known, hl, hk⟩ := bind_eq_ok.mp h
    rw [if_pos hany]
    exact bind_eq_ok.mpr ⟨known, hl, he known hk⟩
  · rename_i hany
    rw [if_neg hany]
    exact he [] h

structure Outline (src : Sources) (f : KeyForm) (d : DefinitionForm) : Prop where
  copied : d.base.copied = f.copied
  text : EvenText d.text
  defined : ∀ j, IsCopyNumber j → src.definition (f.key j) = .ok (d.put j)
  spelled : ∀ j, IsCopyNumber j → (d.base.key j).Spelled

lemma exists_outline (heven : src.Even) (hl : Yields Listed src.library) (hf : f.Written)
    (hj : IsCopyNumber j) {d : Definition} (hd : src.definition (f.key j) = .ok d) : ∃ form, src.Outline f form := by
  obtain ⟨w, hw, hbody⟩ := bind_eq_ok.mp hd
  obtain ⟨found, he, -⟩ := bind_eq_ok.mp hbody
  have htext := even_wording heven hl (hf.key hj) (plain_copy f hj) hw
  have hc : ∀ i, IsCopyNumber i → src.wording (f.key i) =
      .ok { w with base := { w.base with index := copyIndex f.copied i } } :=
    fun i hi => wording_copy heven hf hj hi hw
  refine ⟨⟨⟨w.base.grid, w.base.name, f.copied⟩, w.text, w.isCode, w.transform⟩, rfl, htext, fun i hi => ?_,
    fun i hi => spelled_wording hl (hf.key hi) (hc i hi)⟩
  rw [DefinitionForm.put_eq htext hi]
  exact bind_eq_ok.mpr ⟨_, hc i hi, bind_eq_ok.mpr ⟨_, extract_copy he _, rfl⟩⟩

end Sources

/-! ## Values, nodes and code for all copies -/

structure NodeForm where
  mentions : List Holed
  value : Holed
  code : Holed

def NodeForm.put (n : NodeForm) (j : String) : Node :=
  ⟨n.mentions.map (·.put j), n.value.put j, n.code.put j⟩

def NodeForm.Solid (n : NodeForm) : Prop :=
  (∀ m ∈ n.mentions, m.Solid) ∧ n.value.Solid ∧ n.code.Solid

lemma NodeForm.solid_of_put_eq {n : NodeForm} (h : n.put "1" = n.put "11") : n.Solid := by
  obtain ⟨hme, hv, hcode⟩ := Node.mk.inj h
  refine ⟨fun m hm => ?_, Holed.solid_of_put_eq hv, Holed.solid_of_put_eq hcode⟩
  exact Holed.solid_of_put_eq (map_inj_left.mp hme m hm)

def putNode (j : String) (n : KeyForm × NodeForm) : String × Node :=
  ((n.1.key j).text, n.2.put j)

def putCode (j : String) (c : KeyForm × Holed) : Generated :=
  ⟨c.1.grid, copyIndex c.1.copied j, c.1.name, c.2.put j⟩

namespace DefinitionForm

def node (d : DefinitionForm) : NodeForm :=
  if d.isCode then ⟨d.mentions, d.base.localVar, d.body⟩ else ⟨d.mentions, d.body, []⟩

def baseValue (d : DefinitionForm) (filled : Holed) : Holed :=
  if d.isCode then d.base.localVar else filled

def transformed (d : DefinitionForm) (function : String) (filled : Holed) : Holed :=
  plain function ++ plain "(" ++ d.baseValue filled ++ plain ")"

def value (d : DefinitionForm) (f : KeyForm) (filled : Holed) : Holed :=
  match d.transform with
  | none => d.baseValue filled
  | some _ => f.localVar

def generated (d : DefinitionForm) (f : KeyForm) (filled : Holed) : List (KeyForm × Holed) :=
  (if d.isCode then [(d.base, filled)] else []) ++ match d.transform with
      | none => []
      | some function => [(f, d.transformed function filled)]

def transformNodes (d : DefinitionForm) (f : KeyForm) (filled : Holed) : List (KeyForm × NodeForm) :=
  match d.transform with
  | none => []
  | some function => [(f, ⟨[d.baseValue filled], f.localVar, d.transformed function filled⟩)]

variable {d : DefinitionForm} {f : KeyForm} {j : String} (hbase : (d.base.key j).Spelled)

include hbase

lemma put_node : d.node.put j = (d.put j).node := by
  unfold node Definition.node
  cases hcode : d.isCode with
  | true => simp [NodeForm.put, put, hcode, put_localVar hbase]
  | false => simp [NodeForm.put, put, hcode]

lemma put_baseValue (filled : Holed) : (d.baseValue filled).put j = (d.put j).baseValue (filled.put j) := by
  unfold baseValue Definition.baseValue
  cases hcode : d.isCode with
  | true => simp [put, hcode, put_localVar hbase]
  | false => simp [put, hcode]

lemma put_transformed (function : String) (filled : Holed) :
    (d.transformed function filled).put j = (d.put j).transformed function (filled.put j) := by
  unfold transformed Definition.transformed
  rw [Holed.put_append, Holed.put_append, put_baseValue hbase]
  simp

lemma put_value (hf : (f.key j).Spelled) (filled : Holed) :
    (d.value f filled).put j = (d.put j).value (f.key j) (filled.put j) := by
  unfold value Definition.value
  cases ht : d.transform with
  | none => simp [put, ht, put_baseValue hbase]
  | some function => simp [put, ht, put_localVar hf]

lemma put_generated (filled : Holed) :
    (d.generated f filled).map (putCode j) = (d.put j).generated (f.key j) (filled.put j) := by
  unfold generated Definition.generated putCode
  rw [map_append]
  refine congrArg₂ (· ++ ·) ?_ ?_
  · cases hcode : d.isCode <;> simp [put, hcode, key]
  · cases ht : d.transform with
    | none => simp [put, ht]
    | some function => simp [put, ht, key, put_transformed hbase]

lemma put_transformNodes (hf : (f.key j).Spelled) (filled : Holed) :
    (d.transformNodes f filled).map (putNode j) = (d.put j).transformNotes (f.key j) (filled.put j) := by
  unfold transformNodes Definition.transformNotes
  cases ht : d.transform with
  | none => simp [put, ht]
  | some function => simp [put, ht, putNode, NodeForm.put, put_baseValue hbase, put_transformed hbase, put_localVar hf]

end DefinitionForm

/-! ## Values of all copies -/

namespace Sources

variable {src : Sources} {f : KeyForm} {j : String}

variable {form : DefinitionForm} {value : KeyForm → Holed}

lemma Outline.meaning_filled (h : src.Outline f form) (hj : IsCopyNumber j)
    (hv : ∀ g ∈ form.keys, src.meaning (g.key j) = (value g).put j) :
    (form.put j).filled src.meaning = (form.filled value).put j :=
  DefinitionForm.filled_put h.text hj hv

lemma Outline.resolves (h : src.Outline f form) (hf : f.Written) (hj : IsCopyNumber j)
    (hv : ∀ g ∈ form.keys, src.Resolves (g.key j) ((value g).put j)) :
    src.Resolves (f.key j) ((form.value f (form.filled value)).put j) := by
  have hkeys : ∀ k ∈ (form.put j).keys, src.Meaningful k := by
    intro k hk
    rw [DefinitionForm.keys_put h.text hj] at hk
    obtain ⟨g, hg, rfl⟩ := mem_map.mp hk
    exact (hv g hg).meaningful
  rw [DefinitionForm.put_value (h.spelled j hj) (hf.key hj).spelled,
    ← h.meaning_filled hj fun g hg => (hv g hg).meaning_eq]
  exact .byDefinition (h.defined j hj) hkeys

lemma exists_value (heven : src.Even) (hl : Yields Listed src.library) (hf : f.Written)
    (hj : IsCopyNumber j) {v : String} (h : src.Resolves (f.key j) v) :
    ∃ t : Holed, ∀ i, IsCopyNumber i → src.Resolves (f.key i) (t.put i) := by
  generalize hk : f.key j = k at h
  induction h generalizing f with
  | @byDefinition k d value hd _ ih =>
    subst hk
    obtain ⟨form, hform⟩ := exists_outline heven hl hf hj hd
    cases hd.symm.trans (hform.defined j hj)
    have hkeys : ∀ g ∈ form.keys, ∃ t : Holed, ∀ i, IsCopyNumber i → src.Resolves (g.key i) (t.put i) := by
      intro g hg
      have hmem : g.key j ∈ (form.put j).keys := by
        rw [DefinitionForm.keys_put hform.text hj]
        exact mem_map_of_mem hg
      exact ih (g.key j) hmem (DefinitionForm.written_keys g hg) rfl
    choose! t ht using hkeys
    exact ⟨form.value f (form.filled t), fun i hi => hform.resolves hf hi fun g hg => ht g hg i hi⟩

end Sources

end GridBayes.Deferred
