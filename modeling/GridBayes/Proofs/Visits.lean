import GridBayes.Proofs.Meaning

/-! The visits of a look-up. A key that is not known is entered, then the keys of its definition are looked up, then
it is left. -/
namespace GridBayes.Deferred
open List Relation

/-- What happens in a look-up, in order: a key is looked up, and later it has its value. -/
inductive Event (α : Type) where
  | entered (a : α)
  | left (a : α)

def Event.map {α β : Type} (f : α → β) : Event α → Event β
  | entered a => entered (f a)
  | left a => left (f a)

def Event.item {α : Type} : Event α → α
  | entered a => a
  | left a => a

def done {α : Type} (es : List (Event α)) : List α :=
  es.filterMap fun
    | .entered _ => none
    | .left a => some a

variable {α : Type}

lemma done_append (es es' : List (Event α)) : done (es ++ es') = done es ++ done es' := filterMap_append

lemma done_entered (es : List (Event α)) (a : α) : done (es ++ [.entered a]) = done es := by
  rw [done_append]
  exact append_nil _

lemma done_left (es : List (Event α)) (a : α) : done (es ++ [.left a]) = done es ++ [a] := done_append es [.left a]

lemma done_map_left (as : List α) : done (as.map .left) = as := by simp [done]

lemma done_new (a : α) (es es' : List (Event α)) :
    done (Event.entered a :: (es ++ Event.left a :: es')) = done es ++ a :: done es' :=
  done_append es (.left a :: es')

lemma done_map {β : Type} (f : α → β) (es : List (Event α)) : done (es.map (Event.map f)) = (done es).map f := by
  induction es with
  | nil => rfl
  | cons e es ih =>
    cases e with
    | entered a => exact ih
    | left a => exact congrArg (f a :: ·) ih

/-- How wanted keys are looked up: a new key is entered, then the keys of its definition, then it is left. -/
inductive Visits (src : Sources) : (known wanted : List Key) → List (Event Key) → Prop where
  | nil {ks : List Key} : Visits src ks [] []
  | known {ks rest : List Key} {k : Key} {es : List (Event Key)} (mem : k ∈ ks)
      (after : Visits src ks rest es) : Visits src ks (k :: rest) es
  | new {ks rest : List Key} {k : Key} {d : Definition} {es es' : List (Event Key)} (fresh : k ∉ ks)
      (defined : src.definition k = .ok d) (keys : Visits src ks d.keys es)
      (after : Visits src (ks ++ done es ++ [k]) rest es') :
      Visits src ks (k :: rest) (Event.entered k :: (es ++ Event.left k :: es'))

namespace Visits

variable {src : Sources} {ks wanted : List Key} {es es' : List (Event Key)}

lemma unique (h : Visits src ks wanted es) (h' : Visits src ks wanted es') : es = es' := by
  induction h generalizing es' with
  | nil =>
    cases h'
    rfl
  | known hmem _ ih =>
    cases h' with
    | known _ ha => exact ih ha
    | new hf => exact absurd hmem hf
  | new hf hd _ _ ihkeys ihafter =>
    cases h' with
    | known hmem => exact absurd hmem hf
    | new _ hd' hkeys ha =>
      cases hd.symm.trans hd'
      obtain rfl := ihkeys hkeys
      rw [ihafter ha]

lemma append {more : List Key} (h : Visits src ks wanted es)
    (h' : Visits src (ks ++ done es) more es') : Visits src ks (wanted ++ more) (es ++ es') := by
  induction h with
  | @nil ks =>
    have hk : ks ++ done ([] : List (Event Key)) = ks := append_nil ks
    rw [hk] at h'
    exact h'
  | known hmem _ ih => exact .known hmem (ih h')
  | @new ks rest k d es es'' hf hd hkeys _ _ ih =>
    have hdone : ks ++ done (Event.entered k :: (es ++ Event.left k :: es'')) = ks ++ done es ++ [k] ++ done es'' := by
      rw [done_new]
      simp
    rw [hdone] at h'
    rw [cons_append, cons_append, append_assoc]
    exact .new hf hd hkeys (ih h')

lemma item_done (h : Visits src ks wanted es) : ∀ e ∈ es, e.item ∈ done es := by
  induction h with
  | nil => simp
  | known _ _ ih => exact ih
  | @new ks rest k d es es' _ _ _ _ ihkeys ihafter =>
    intro e he
    rw [done_new]
    simp only [mem_cons, mem_append] at he ⊢
    rcases he with rfl | he | rfl | he
    · exact Or.inr (Or.inl rfl)
    · exact Or.inl (ihkeys e he)
    · exact Or.inr (Or.inl rfl)
    · exact Or.inr (Or.inr (ihafter e he))

lemma reaches (h : Visits src ks wanted es) : ∀ k ∈ done es, ∃ w ∈ wanted, src.Reaches w k := by
  induction h with
  | nil => simp [done]
  | known _ _ ih =>
    intro k hk
    obtain ⟨w, hw, hr⟩ := ih k hk
    exact ⟨w, mem_cons_of_mem _ hw, hr⟩
  | @new ks rest k d es es' _ hd _ _ ihkeys ihafter =>
    intro k' hk'
    rw [done_new, mem_append, mem_cons] at hk'
    rcases hk' with hk' | rfl | hk'
    · obtain ⟨w, hw, hr⟩ := ihkeys k' hk'
      exact ⟨k, mem_cons_self, ReflTransGen.head (Sources.depends_iff.mpr ⟨d, hd, hw⟩) hr⟩
    · exact ⟨k', mem_cons_self, ReflTransGen.refl⟩
    · obtain ⟨w, hw, hr⟩ := ihafter k' hk'
      exact ⟨w, mem_cons_of_mem _ hw, hr⟩

lemma known_or_done (h : Visits src ks wanted es) : ∀ k ∈ wanted, k ∈ ks ++ done es := by
  induction h with
  | nil => simp
  | known hmem _ ih =>
    intro k hk
    rcases mem_cons.mp hk with rfl | hk
    · exact mem_append_left _ hmem
    · exact ih k hk
  | @new ks rest k d es es' _ _ _ _ _ ih =>
    intro k' hk'
    rw [done_new]
    rcases mem_cons.mp hk' with rfl | hk'
    · simp
    · have hmem := ih k' hk'
      rwa [append_assoc, append_assoc] at hmem

end Visits

end GridBayes.Deferred
