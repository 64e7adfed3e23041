import GridBayes.Proofs.ComponentOrder

/-! Texts for all copies of a variable. The number of the copy is left out of a text, and a hole is in its place.
Keys, the names of local variables, mentions and the text of a definition have such forms, and with a number in
the holes they are those of one copy. -/
namespace GridBayes.Deferred
open List Resolution Option
open Text

/-! ## Texts with holes -/

abbrev Holed := List (Piece Unit)

namespace Holed

def put (t : Holed) (j : String) : String :=
  String.ofList (Text.fill (fun _ => j.toList) t)

def plain (s : String) : Holed :=
  s.toList.map .char

def hole : Holed :=
  [.hit ()]

lemma toList_put (t : Holed) (j : String) : (t.put j).toList = Text.fill (fun _ => j.toList) t := String.toList_ofList

@[simp] lemma put_nil (j : String) : put [] j = "" := rfl

@[simp] lemma put_plain (s j : String) : (plain s).put j = s := by
  unfold put plain
  rw [fill_map_char, String.ofList_toList]

@[simp] lemma put_hole (j : String) : hole.put j = j := by
  unfold put hole
  simp [Text.fill]

@[simp] lemma put_append (a b : Holed) (j : String) : put (a ++ b) j = a.put j ++ b.put j := by
  unfold put
  rw [fill_append, String.ofList_append]

def Solid (t : Holed) : Prop :=
  ∀ piece ∈ t, piece ≠ .hit ()

lemma length_put (t : Holed) (j : String) :
    (t.put j).toList.length = t.length - (hits t).length + (hits t).length * j.toList.length := by
  have hhits : ∀ t : Holed, (hits t).length ≤ t.length := by
    intro t
    induction t with
    | nil => exact Nat.le_refl _
    | cons piece t ih => cases piece <;> simp only [hits, length_cons] <;> omega
  rw [toList_put]
  induction t with
  | nil => simp [Text.fill, hits]
  | cons piece t ih =>
    have hle := hhits t
    cases piece with
    | char c =>
      simp only [Text.fill, hits, length_cons]
      omega
    | hit u =>
      simp only [Text.fill, hits, length_cons, length_append, Nat.succ_mul]
      omega

lemma solid_of_put_eq {t : Holed} (h : t.put "1" = t.put "11") : t.Solid := by
  have hl := congrArg (fun s : String => s.toList.length) h
  simp only [length_put] at hl
  have hone : "1".toList.length = 1 := rfl
  have htwo : "11".toList.length = 2 := rfl
  rw [hone, htwo] at hl
  have hnone : hits t = [] := length_eq_zero_iff.mp (by omega)
  rintro piece hp rfl
  have hmem : ∀ t : Holed, Piece.hit () ∈ t → hits t ≠ [] := by
    intro t ht
    induction t with
    | nil => cases ht
    | cons piece t ih =>
      cases piece with
      | char c => exact ih (by simpa using ht)
      | hit u => exact cons_ne_nil _ _
  exact hmem t hp hnone

end Holed

open Holed (plain hole)

/-! ## Keys of all copies -/

def IsCopyNumber (j : String) : Prop :=
  j ≠ "" ∧ ∀ c ∈ j.toList, isDigit c = true

variable {j : String}

lemma IsCopyNumber.isIndex (h : IsCopyNumber j) : IsIndex j.toList := by
  refine ⟨fun hnil => h.1 ?_, fun c hc => ?_⟩
  · rw [← String.ofList_toList (s := j), hnil]
  · unfold isIndexChar
    rw [h.2 c hc, Bool.or_true]

lemma isCopyNumber_one : IsCopyNumber "1" := ⟨by decide, all_eq_true.mp rfl⟩

lemma isCopyNumber_eleven : IsCopyNumber "11" := ⟨by decide, all_eq_true.mp rfl⟩

def copyIndex (copied : Bool) (j : String) : Option String :=
  if copied then some j else none

lemma isCurrent_copyIndex (copied : Bool) (hj : IsCopyNumber j) : IsCurrent (copyIndex copied j) := by
  intro c hc
  cases copied with
  | false => cases hc
  | true =>
    obtain rfl : j = c := some.inj hc
    exact hj.isIndex.2

/-- An index after some mark. The index `i` is that of the copy, dropped where there are no copies. -/
def indexForm (mark : String) (copied : Bool) : Option String → Holed
  | none => []
  | some i =>
    if i = "i" then if copied then plain mark ++ hole else []
    else plain (mark ++ i)

lemma put_indexForm (mark : String) (copied : Bool) (mentioned : Option String) (hj : j ≠ "") :
    (indexForm mark copied mentioned).put j =
      ((actualIndex (copyIndex copied j) mentioned).map (mark ++ ·)).getD "" := by
  cases mentioned with
  | none => rfl
  | some i =>
    by_cases hi : i = "i"
    · subst hi
      cases copied with
      | false => rfl
      | true =>
        have ha : actualIndex (copyIndex true j) (some "i") = some j := by
          unfold actualIndex copyIndex
          simp
        rw [ha, indexForm]
        simp
    · have ha : actualIndex (copyIndex copied j) (some i) = some i := by
        unfold actualIndex
        split
        · rename_i h
          cases h
        · rename_i h
          exact absurd (some.inj h) hi
        · rename_i h
          exact h.symm
      rw [ha, indexForm, if_neg hi]
      simp

structure KeyForm where
  grid : Option String
  name : String
  copied : Bool
deriving DecidableEq, Inhabited

namespace KeyForm

def key (f : KeyForm) (j : String) : Key :=
  ⟨f.grid, f.name, copyIndex f.copied j⟩

variable {f f' : KeyForm} {j : String}

lemma key_inj (h : f.key j = f'.key j) : f = f' := by
  obtain ⟨grid, name, copied⟩ := f
  obtain ⟨grid', name', copied'⟩ := f'
  obtain ⟨rfl, rfl, hi⟩ := Key.mk.inj h
  cases copied <;> cases copied' <;> first | rfl | cases hi

lemma key_single (h : f.copied = false) (j j' : String) : f.key j = f.key j' := by
  unfold key copyIndex
  rw [h]
  rfl

def word (f : KeyForm) : String :=
  (f.grid.map (· ++ "__")).getD "" ++ f.name

lemma text_key (f : KeyForm) (j : String) : (f.key j).text = f.word ++ if f.copied then "--" ++ j else "" := by
  unfold key Key.text copyIndex word
  cases f.copied <;> rfl

def text (f : KeyForm) : Holed :=
  plain f.word ++ if f.copied then plain "--" ++ hole else []

lemma put_text (f : KeyForm) (j : String) : f.text.put j = (f.key j).text := by
  rw [text_key]
  unfold text
  cases f.copied <;> simp

def localVar (f : KeyForm) : Holed :=
  plain ("v." ++ f.word) ++ if f.copied then plain "__" ++ hole else []

lemma put_localVar (h : (f.key j).Spelled) : f.localVar.put j = localOf (f.key j).text := by
  rw [h.localOf]
  unfold localVar key copyIndex word
  cases f.copied <;> simp [String.append_assoc]

lemma not_mem_word (h : (f.key j).Spelled) : '-' ∉ f.word.toList := by
  have hdash : isWord '-' = false := by decide
  intro hmem
  unfold word at hmem
  rw [String.toList_append, mem_append] at hmem
  rcases hmem with hmem | hmem
  · cases hgrid : f.grid with
    | none => simp [hgrid] at hmem
    | some grid =>
      have hc : '-' ∈ grid.toList := by simpa [hgrid] using hmem
      simpa [hdash] using h.grid grid hgrid '-' hc
  · simpa [hdash] using h.name '-' hmem

def alike (f f' : KeyForm) : Bool :=
  f.word == f'.word && f.copied == f'.copied

lemma text_beq (hf : (f.key j).Spelled) (hf' : (f'.key j).Spelled) :
    ((f.key j).text == (f'.key j).text) = f.alike f' := by
  have hpart : ∀ g : KeyForm, ∀ c ∈ (if g.copied then "--" ++ j else "").toList.head?, c = '-' := by
    intro g c hc
    cases hg : g.copied with
    | false => simp [hg] at hc
    | true => simpa [hg, eq_comm] using hc
  rw [Bool.eq_iff_iff, beq_iff_eq]
  unfold alike
  rw [Bool.and_eq_true, beq_iff_eq, beq_iff_eq, text_key, text_key]
  constructor
  · intro h
    have hch := congrArg String.toList h
    rw [String.toList_append, String.toList_append] at hch
    obtain ⟨hword, hi⟩ := append_inj_of_mark (not_mem_word hf) (not_mem_word hf') (hpart f) (hpart f') hch
    refine ⟨String.toList_inj.mp hword, ?_⟩
    cases hc : f.copied <;> cases hc' : f'.copied <;> simp [hc, hc'] at hi ⊢
  · rintro ⟨hword, hco⟩
    rw [hword, hco]

end KeyForm

namespace KeyForm

def ofWord (word : List Char) (copied : Bool) : KeyForm :=
  ⟨(keyOfWord word none).grid, (keyOfWord word none).name, copied⟩

lemma key_ofWord (word : List Char) (copied : Bool) (j : String) :
    (ofWord word copied).key j = keyOfWord word ((copyIndex copied j).map String.toList) := by
  have hi : ((copyIndex copied j).map String.toList).map String.ofList = copyIndex copied j := by cases copied <;> simp
  unfold ofWord key keyOfWord
  rw [hi]
  cases splitGrid [] word <;> rfl

def Written (f : KeyForm) : Prop :=
  ∃ word, IsWord word ∧ f = ofWord word f.copied

lemma Written.key {f : KeyForm} (h : f.Written) {j : String} (hj : IsCopyNumber j) : (f.key j).Written := by
  obtain ⟨word, hword, hf⟩ := h
  rw [hf, key_ofWord]
  refine written_keyOfWord hword fun i hi => ?_
  cases hc : f.copied with
  | false => simp [hc, copyIndex] at hi
  | true =>
    obtain rfl : j.toList = i := by simpa [hc, copyIndex] using hi
    exact hj.isIndex

end KeyForm

/-! ## Mentions in texts for all copies -/

namespace Reference

variable {r : Reference} {copied : Bool} {j : String}

/-- A mention without an index, or with that of the copy in whose text it stands. -/
def Even (r : Reference) : Prop :=
  r.index = none ∨ r.index = some "i"
deriving Decidable

def form (copied : Bool) (r : Reference) : KeyForm :=
  .ofWord (stem (r.grid.map String.toList) r.name.toList) (copied && r.index.isSome)

lemma placedKey_copy (h : r.Even) (hj : j ≠ "") : r.placedKey (copyIndex copied j) = (r.form copied).key j := by
  unfold placedKey form
  rw [KeyForm.key_ofWord]
  unfold actualPart
  rcases h with h | h
  · rw [h]
    cases copied <;> rfl
  · rw [h]
    cases copied with
    | false => rfl
    | true =>
      unfold actualIndex copyIndex
      simp

/-- What a mention is listed as, without the index if there is no grid before a point. -/
def listedForm (copied : Bool) (r : Reference) : Holed :=
  match r.grid with
  | some g => plain (g ++ "__" ++ r.name) ++ indexForm "--" copied r.index
  | none => plain r.name

lemma put_listedForm (hj : j ≠ "") : (r.listedForm copied).put j = r.listed (copyIndex copied j) := by
  unfold listedForm listed
  cases hgrid : r.grid with
  | none => simp
  | some g =>
    rw [Holed.put_append, put_indexForm _ _ _ hj]
    simp [key, Key.text, hgrid]

end Reference

def Indexed.form (copied : Bool) (v : Indexed) : Holed :=
  plain (String.ofList [v.kind, '.'] ++ v.name) ++ indexForm "__" copied v.index

lemma Indexed.put_form (copied : Bool) (v : Indexed) (hj : j ≠ "") :
    (v.form copied).put j = v.text (copyIndex copied j) := by
  unfold form text
  rw [Holed.put_append, put_indexForm _ _ _ hj, Holed.put_plain]

def joinedForm (copied : Bool) (cs : List Char) : Holed :=
  (pieces indexedRule cs).flatMap fun
    | .char c => [.char c]
    | .hit v => v.form copied

lemma put_joinedForm (copied : Bool) (cs : List Char) (hj : j ≠ "") :
    ((joinedForm copied cs).put j).toList = joined (copyIndex copied j) cs := by
  unfold joinedForm joined substitute
  induction pieces indexedRule cs with
  | nil => rfl
  | cons piece rest ih =>
    rw [flatMap_cons, Holed.put_append, String.toList_append, ih]
    cases piece with
    | char c =>
      rw [Holed.toList_put]
      rfl
    | hit v =>
      rw [v.put_form copied hj]
      rfl

/-! ## Texts with places for keys -/

/-- A piece of the text of a definition: text or the place of a key. -/
inductive Slot where
  | text (piece : Piece Unit)
  | key (form : KeyForm)

namespace Slot

def pieces (j : String) : Slot → List (Piece Key)
  | text (.char c) => [.char c]
  | text (.hit _) => j.toList.map .char
  | key f => [.hit (f.key j)]

def holed (value : KeyForm → Holed) : Slot → Holed
  | text piece => [piece]
  | key f => value f

def form? : Slot → Option KeyForm
  | text _ => none
  | key f => some f

end Slot

lemma flatMap_pieces_text (t : Holed) (j : String) :
    (t.map Slot.text).flatMap (Slot.pieces j) = (t.put j).toList.map .char := by
  rw [Holed.toList_put]
  induction t with
  | nil => rfl
  | cons piece t ih =>
    rw [map_cons, flatMap_cons, ih]
    cases piece with
    | char c => rfl
    | hit u =>
      rw [Text.fill, map_append]
      rfl

lemma hits_slots (slots : List Slot) (j : String) :
    hits (slots.flatMap (Slot.pieces j)) = (slots.filterMap Slot.form?).map (KeyForm.key · j) := by
  induction slots with
  | nil => rfl
  | cons slot slots ih =>
    rw [flatMap_cons, hits_append, ih]
    cases slot with
    | key f => rfl
    | text piece =>
      cases piece with
      | char c => rfl
      | hit u =>
        show hits (j.toList.map .char) ++ _ = _
        rw [hits_map_char]
        rfl

lemma put_slots {slots : List Slot} {value : KeyForm → Holed} {given : Key → List Char}
    (h : ∀ f ∈ slots.filterMap Slot.form?, given (f.key j) = ((value f).put j).toList) :
    (Holed.put (slots.flatMap (Slot.holed value)) j).toList = Text.fill given (slots.flatMap (Slot.pieces j)) := by
  induction slots with
  | nil => rfl
  | cons slot slots ih =>
    rw [flatMap_cons, flatMap_cons, Holed.put_append, String.toList_append, fill_append]
    cases slot with
    | key f =>
      have hmem : ∀ g ∈ slots.filterMap Slot.form?, g ∈ (Slot.key f :: slots).filterMap Slot.form? :=
        fun g hg => mem_cons_of_mem f hg
      rw [ih fun g hg => h g (hmem g hg)]
      show ((value f).put j).toList ++ _ = given (f.key j) ++ [] ++ _
      rw [append_nil, h f mem_cons_self]
    | text piece =>
      rw [ih h]
      cases piece with
      | char c =>
        rw [Holed.toList_put]
        rfl
      | hit u =>
        show (Holed.hole.put j).toList ++ _ = Text.fill given (j.toList.map .char) ++ _
        rw [fill_map_char, Holed.put_hole]

def bodySlots (copied : Bool) : (run : List Char) → List (Piece Reference) → List Slot
  | run, [] => (joinedForm copied run).map .text
  | run, .char c :: ps => bodySlots copied (run ++ [c]) ps
  | run, .hit r :: ps => (joinedForm copied run).map .text ++ .key (r.form copied) :: bodySlots copied [] ps

lemma bodyPieces_copy (copied : Bool) (hj : j ≠ "") (run : List Char) (ps : List (Piece Reference))
    (heven : ∀ r ∈ hits ps, r.Even) :
    bodyPieces (copyIndex copied j) run ps = (bodySlots copied run ps).flatMap (Slot.pieces j) := by
  induction ps generalizing run with
  | nil => rw [bodyPieces, bodySlots, flatMap_pieces_text, put_joinedForm copied run hj]
  | cons piece ps ih =>
    cases piece with
    | char c => exact ih (run ++ [c]) heven
    | hit r =>
      have hrest := ih [] fun r' hr' => heven r' (mem_cons_of_mem r hr')
      rw [bodyPieces, bodySlots, flatMap_append, flatMap_pieces_text, put_joinedForm copied run hj,
        Reference.placedKey_copy (heven r mem_cons_self) hj, hrest]
      rfl

lemma forms_bodySlots (copied : Bool) (run : List Char) (ps : List (Piece Reference)) :
    (bodySlots copied run ps).filterMap Slot.form? = (hits ps).map (Reference.form copied) := by
  have htext : ∀ t : Holed, (t.map Slot.text).filterMap Slot.form? = [] := by
    intro t
    induction t with
    | nil => rfl
    | cons piece t ih => exact ih
  induction ps generalizing run with
  | nil => exact htext _
  | cons piece ps ih =>
    cases piece with
    | char c => exact ih _
    | hit r =>
      rw [bodySlots, filterMap_append, htext, nil_append]
      exact congrArg _ (ih [])

end GridBayes.Deferred
