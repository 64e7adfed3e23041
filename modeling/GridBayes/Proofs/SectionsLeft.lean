import GridBayes.Proofs.BrokenProgram

/-! What is left of the sections of a description. Code and names of distributions are taken off the lists that
are read. A list that has lost nothing has the same size as before, so a description is the same exactly if
its lists have the same size in all. -/
namespace GridBayes.Builder
open List

/-! ## What is taken off a list -/

/-- The list names its distribution. -/
def Named (spec : Value) : Prop :=
  ∃ s rest, spec = .list (.str s :: rest) ∧ namesDistribution s = true

/-- What is left of a list that a distribution is read from. -/
def specLeft : Value → Value
  | .list (.str s :: rest) => if namesDistribution s then .list rest else .list (.str s :: rest)
  | v => v

/-- What is left of the entry of a local variable. -/
def variableLeft : Value → Value
  | .list (_ :: rest) => specLeft (.list rest)
  | v => v

lemma specLeft_named {s : String} (h : namesDistribution s = true) (rest : List Value) :
    specLeft (.list (.str s :: rest)) = .list rest := by
  unfold specLeft
  simp [h]

lemma specLeft_unnamed {spec : Value} (h : ¬ Named spec) : specLeft spec = spec := by
  unfold specLeft
  split
  · rename_i s rest
    rw [if_neg fun hn => h ⟨s, rest, rfl, hn⟩]
  · rfl

lemma distribution_ok {var : String} {spec dist params : Value} (h : distribution var spec = .ok (dist, params)) :
    params = specLeft spec ∧ (Named spec ∨ dist = .str "normal") := by
  unfold distribution at h
  split at h
  · rename_i s rest
    split at h
    · rename_i hn
      cases h
      exact ⟨(specLeft_named hn rest).symm, Or.inl ⟨s, rest, rfl, hn⟩⟩
    · rename_i hn
      split at h
      · cases h
      · obtain ⟨rfl, rfl⟩ := Prod.mk.inj (Except.ok.inj h)
        refine ⟨(specLeft_unnamed ?_).symm, Or.inr rfl⟩
        rintro ⟨s', rest', heq, hn'⟩
        cases heq
        exact hn hn'
  · rename_i first rest hf
    cases h
    refine ⟨(specLeft_unnamed ?_).symm, Or.inr rfl⟩
    rintro ⟨s, rest', heq, -⟩
    cases heq
    exact hf s rfl
  · cases h

def listSize : Value → Nat
  | .list items => items.length
  | _ => 0

lemma listSize_specLeft (spec : Value) :
    listSize (specLeft spec) ≤ listSize spec ∧ (listSize (specLeft spec) = listSize spec ↔ ¬ Named spec) := by
  by_cases hn : Named spec
  · obtain ⟨s, rest, rfl, hna⟩ := id hn
    rw [specLeft_named hna]
    simp [listSize, hn]
  · rw [specLeft_unnamed hn]
    simp [hn]

lemma listSize_variableLeft (value : Value) : listSize (variableLeft value) ≤ listSize value ∧
      (listSize (variableLeft value) = listSize value ↔ ∀ first rest, value ≠ .list (first :: rest)) := by
  unfold variableLeft
  split
  · rename_i first rest
    have hleft := (listSize_specLeft (.list rest)).1
    have hsize : listSize (.list (first :: rest)) = listSize (.list rest) + 1 := rfl
    refine ⟨by omega, fun heq => by omega, fun hne => absurd rfl (hne first rest)⟩
  · rename_i hne
    exact ⟨Nat.le_refl _, fun _ first rest heq => hne first rest heq, fun _ => rfl⟩

/-! ## What is left of a section and of a description -/

def tableOf : Value → List (String × Value)
  | .table entries => entries
  | _ => []

def tableLeft (leave : Value → Value) : Value → Value
  | .table entries => .table (entries.map fun e => (e.1, leave e.2))
  | v => v

lemma tableOf_tableLeft (leave : Value → Value) (v : Value) :
    tableOf (tableLeft leave v) = (tableOf v).map fun e => (e.1, leave e.2) := by
  cases v with
  | table entries => rfl
  | _ => rfl

lemma tableLeft_same {leave : Value → Value} {v : Value} (h : ∀ e ∈ tableOf v, leave e.2 = e.2) :
    tableLeft leave v = v := by
  cases v with
  | table entries =>
    have hmap : (entries.map fun e => (e.1, leave e.2)) = entries.map id :=
      map_congr_left fun e he => Prod.ext rfl (h e he)
    show Value.table _ = _
    rw [hmap, map_id]
  | _ => rfl

/-- The entries of a section, if there is one. -/
def sectionEntries (model : List (String × Value)) (name : String) : List (String × Value) :=
  ((model.lookup name).map tableOf).getD []

/-- The description with what is left of one section. -/
def sectionLeft (leave : Value → Value) (model : List (String × Value)) (name : String) : List (String × Value) :=
  match model.lookup name with
  | some v => setEntry model name (tableLeft leave v)
  | none => model

/-- What reading leaves of a description, given the names of the grids. -/
def remains (known : List String) (model : List (String × Value)) : List (String × Value) :=
  known.foldl (sectionLeft specLeft) (sectionLeft specLeft (sectionLeft variableLeft model "var") "prior")

/-- No local variable is given as a list, and no other list names its distribution. -/
structure Untouched (known : List String) (model : List (String × Value)) : Prop where
  locals : ∀ e ∈ sectionEntries model "var", ∀ first rest, e.2 ≠ .list (first :: rest)
  lists : ∀ name ∈ "prior" :: known, ∀ e ∈ sectionEntries model name, ¬ Named e.2

section

variable {leave : Value → Value} {model : List (String × Value)} {name : String}

variable {v : Value} {steps : List (String × (Value → Value))}

lemma setEntry_split {front back : List (String × Value)} (h : ((front ++ (name, v) :: back).map Prod.fst).Nodup)
    (w : Value) : setEntry (front ++ (name, v) :: back) name w = front ++ (name, w) :: back := by
  rw [map_append, map_cons, nodup_middle, nodup_cons, mem_append, not_or] at h
  have ho : ∀ entries : List (String × Value), name ∉ entries.map Prod.fst →
      (entries.map fun e => if e.1 == name then (name, w) else e) = entries := by
    intro entries hen
    refine (map_congr_left fun e he => if_neg fun heq => hen ?_).trans (map_id _)
    rw [← beq_iff_eq.mp heq]
    exact mem_map_of_mem he
  unfold setEntry
  rw [map_append, map_cons, ho front h.1.1, ho back h.1.2]
  simp

lemma sectionLeft_cases (leave : Value → Value) (name : String) (hkeys : (model.map Prod.fst).Nodup) :
    (sectionEntries model name = [] ∧ sectionLeft leave model name = model) ∨
      ∃ front v back, model = front ++ (name, v) :: back ∧ sectionEntries model name = tableOf v ∧
        sectionLeft leave model name = front ++ (name, tableLeft leave v) :: back := by
  unfold sectionEntries sectionLeft
  cases hl : model.lookup name with
  | none => exact Or.inl ⟨rfl, rfl⟩
  | some v =>
    obtain ⟨front, back, rfl, -⟩ := lookup_eq_some_iff.mp hl
    exact Or.inr ⟨front, v, back, rfl, rfl, setEntry_split hkeys _⟩

lemma keys_sectionLeft (leave : Value → Value) (name : String) (hkeys : (model.map Prod.fst).Nodup) :
    (sectionLeft leave model name).map Prod.fst = model.map Prod.fst := by
  rcases sectionLeft_cases leave name hkeys with ⟨-, hleft⟩ | ⟨front, v, back, rfl, -, hleft⟩
  · rw [hleft]
  · rw [hleft]
    simp

lemma sectionEntries_sectionLeft (leave : Value → Value) (model : List (String × Value))
    (name other : String) : sectionEntries (sectionLeft leave model name) other =
      if other = name then (sectionEntries model name).map fun e => (e.1, leave e.2)
      else sectionEntries model other := by
  have hl : (sectionLeft leave model name).lookup other =
      if other = name then (model.lookup name).map (tableLeft leave) else model.lookup other := by
    unfold sectionLeft
    cases hv : model.lookup name with
    | some v =>
      rw [lookup_setEntry]
      rfl
    | none =>
      by_cases ho : other = name
      · rw [if_pos ho, ho, hv]
        rfl
      · rw [if_neg ho]
  unfold sectionEntries
  rw [hl]
  by_cases ho : other = name
  · rw [if_pos ho, if_pos ho]
    cases model.lookup name with
    | some v => exact tableOf_tableLeft leave v
    | none => rfl
  · rw [if_neg ho, if_neg ho]

lemma sectionLeft_same (hkeys : (model.map Prod.fst).Nodup)
    (h : ∀ e ∈ sectionEntries model name, leave e.2 = e.2) : sectionLeft leave model name = model := by
  rcases sectionLeft_cases leave name hkeys with ⟨-, hleft⟩ | ⟨front, v, back, rfl, he, hleft⟩
  · exact hleft
  · rw [he] at h
    rw [hleft, tableLeft_same h]

def listsSize (entries : List (String × Value)) : Nat :=
  (entries.map fun e => listSize e.2).sum

def weight (model : List (String × Value)) : Nat :=
  (model.map fun e => listsSize (tableOf e.2)).sum

lemma listsSize_left (hl : ∀ v, listSize (leave v) ≤ listSize v) (entries : List (String × Value)) :
    listsSize (entries.map fun e => (e.1, leave e.2)) ≤ listsSize entries ∧
      (listsSize (entries.map fun e => (e.1, leave e.2)) = listsSize entries →
        ∀ e ∈ entries, listSize (leave e.2) = listSize e.2) := by
  unfold listsSize
  induction entries with
  | nil => simp
  | cons e entries ih =>
    have he := hl e.2
    simp only [map_cons, sum_cons, mem_cons, forall_eq_or_imp]
    refine ⟨by omega, fun heq => ⟨by omega, ih.2 (by omega)⟩⟩

lemma weight_sectionLeft (name : String) (hl : ∀ v, listSize (leave v) ≤ listSize v)
    (hkeys : (model.map Prod.fst).Nodup) :
    weight (sectionLeft leave model name) ≤ weight model ∧ (weight (sectionLeft leave model name) = weight model →
        ∀ e ∈ sectionEntries model name, listSize (leave e.2) = listSize e.2) := by
  rcases sectionLeft_cases leave name hkeys with ⟨hnone, hleft⟩ | ⟨front, v, back, rfl, he, hleft⟩
  · rw [hleft, hnone]
    simp
  · obtain ⟨hle, hsame⟩ := listsSize_left hl (tableOf v)
    rw [hleft, he]
    unfold weight
    simp only [map_append, map_cons, sum_append, sum_cons, tableOf_tableLeft]
    exact ⟨by omega, fun heq => hsame (by omega)⟩

def readInTurn (steps : List (String × (Value → Value))) (model : List (String × Value)) : List (String × Value) :=
  steps.foldl (fun model step => sectionLeft step.2 model step.1) model

lemma keys_readInTurn (hkeys : (model.map Prod.fst).Nodup) :
    (readInTurn steps model).map Prod.fst = model.map Prod.fst := by
  induction steps generalizing model with
  | nil => rfl
  | cons step steps ih =>
    have hf := keys_sectionLeft step.2 step.1 hkeys
    exact (ih (hf.symm ▸ hkeys)).trans hf

lemma weight_readInTurn (hl : ∀ step ∈ steps, ∀ v, listSize (step.2 v) ≤ listSize v)
    (hkeys : (model.map Prod.fst).Nodup) : weight (readInTurn steps model) ≤ weight model := by
  induction steps generalizing model with
  | nil => exact Nat.le_refl _
  | cons step steps ih =>
    have hf := (weight_sectionLeft step.1 (hl step mem_cons_self) hkeys).1
    have hrest := ih (fun step hstep => hl step (mem_cons_of_mem _ hstep))
      ((keys_sectionLeft step.2 step.1 hkeys).symm ▸ hkeys)
    exact Nat.le_trans hrest hf

lemma readInTurn_same_iff (hl : ∀ step ∈ steps, ∀ v, listSize (step.2 v) ≤ listSize v)
    (hsame : ∀ step ∈ steps, ∀ v, listSize (step.2 v) = listSize v → step.2 v = v)
    (hkeys : (model.map Prod.fst).Nodup) :
    readInTurn steps model = model ↔
      ∀ step ∈ steps, ∀ e ∈ sectionEntries model step.1, listSize (step.2 e.2) = listSize e.2 := by
  induction steps generalizing model with
  | nil => simp [readInTurn]
  | cons step steps ih =>
    have hrest := ih (fun step hstep => hl step (mem_cons_of_mem _ hstep))
      (fun step hstep => hsame step (mem_cons_of_mem _ hstep)) hkeys
    have hu : (∀ e ∈ sectionEntries model step.1, listSize (step.2 e.2) = listSize e.2) →
        sectionLeft step.2 model step.1 = model := fun h =>
      sectionLeft_same hkeys fun e he => hsame step mem_cons_self e.2 (h e he)
    have hcons : readInTurn (step :: steps) model = readInTurn steps (sectionLeft step.2 model step.1) := rfl
    rw [hcons, forall_mem_cons]
    constructor
    · intro h
      -- The weight only goes down, and in the end it is what it was.
      obtain ⟨hle, heq⟩ := weight_sectionLeft step.1 (hl step mem_cons_self) hkeys
      have hturn := weight_readInTurn (fun step hstep => hl step (mem_cons_of_mem _ hstep))
        ((keys_sectionLeft step.2 step.1 hkeys).symm ▸ hkeys)
      rw [h] at hturn
      have hf := heq (Nat.le_antisymm hle hturn)
      rw [hu hf] at h
      exact ⟨hf, hrest.mp h⟩
    · rintro ⟨hf, ho⟩
      rw [hu hf]
      exact hrest.mpr ho

lemma remains_eq (known : List String) (model : List (String × Value)) : remains known model =
      readInTurn (("var", variableLeft) :: ("prior" :: known).map fun name => (name, specLeft)) model := by
  unfold remains readInTurn
  rw [map_cons, foldl_cons, foldl_cons, foldl_map]

lemma specLeft_of_size (h : listSize (specLeft v) = listSize v) : specLeft v = v :=
  specLeft_unnamed ((listSize_specLeft v).2.mp h)

lemma variableLeft_of_size (h : listSize (variableLeft v) = listSize v) : variableLeft v = v := by
  have hno := (listSize_variableLeft v).2.mp h
  unfold variableLeft
  split
  · rename_i first rest
    exact absurd rfl (hno first rest)
  · rfl

lemma remains_same_iff (known : List String) (hkeys : (model.map Prod.fst).Nodup) :
    remains known model = model ↔ Untouched known model := by
  have hs : ∀ P : String × (Value → Value) → Prop,
      (∀ step ∈ ("var", variableLeft) :: ("prior" :: known).map fun name => (name, specLeft), P step) ↔
        P ("var", variableLeft) ∧ ∀ name ∈ "prior" :: known, P (name, specLeft) := by
    intro P
    rw [forall_mem_cons, forall_mem_map]
  rw [remains_eq, readInTurn_same_iff ((hs _).mpr ⟨fun v => (listSize_variableLeft v).1,
    fun _ _ v => (listSize_specLeft v).1⟩) ((hs _).mpr ⟨fun v => variableLeft_of_size,
    fun _ _ v => specLeft_of_size⟩) hkeys, hs]
  constructor
  · rintro ⟨hvar, hl⟩
    exact ⟨fun e he => (listSize_variableLeft e.2).2.mp (hvar e he),
      fun name hname e he => (listSize_specLeft e.2).2.mp (hl name hname e he)⟩
  · rintro ⟨hvar, hl⟩
    exact ⟨fun e he => (listSize_variableLeft e.2).2.mpr (hvar e he),
      fun name hname e he => (listSize_specLeft e.2).2.mpr (hl name hname e he)⟩

end

end GridBayes.Builder
