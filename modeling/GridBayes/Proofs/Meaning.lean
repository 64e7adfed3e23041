import GridBayes.Proofs.KeyBound
import Mathlib.Logic.Relation

/-! The meaning of deferred variables, apart from how they are looked up. A key depends on the keys
in its definition. It has a value if its own keys have values, all the way down, and it has one
value only. A key has a value only if every key it leads to is defined and none leads back to
itself. -/
namespace GridBayes.Deferred
open Relation String

def Definition.filled (d : Definition) (value : Key → String) : String :=
  ofList (Text.fill (fun k => (value k).toList) (Text.pieces keyRule d.body.toList))

lemma Definition.filled_congr {d : Definition} {value value' : Key → String}
    (h : ∀ k ∈ d.keys, value k = value' k) : d.filled value = d.filled value' := by
  unfold Definition.filled
  rw [Text.fill_congr fun k hk => congrArg toList (h k hk)]

namespace Sources

/-- The placeholder of one key stands in the text of another. -/
def Depends (src : Sources) (k k' : Key) : Prop :=
  ∃ body, src.Defines k body ∧ k' ∈ Text.hits (Text.pieces keyRule body.toList)

/-- A key leads to another through the keys of definitions. -/
def Reaches (src : Sources) : Key → Key → Prop :=
  ReflTransGen src.Depends

def Circular (src : Sources) (k : Key) : Prop :=
  TransGen src.Depends k k

/-- The value of a key: its definition says it, once the keys in it have their values. -/
inductive Resolves (src : Sources) : Key → String → Prop where
  | byDefinition {k : Key} {d : Definition} {value : Key → String} (defined : src.definition k = .ok d)
      (keys : ∀ k' ∈ d.keys, Resolves src k' (value k')) :
      Resolves src k (d.value k (d.filled value))

variable {src : Sources} {k k' : Key}

lemma depends_iff : src.Depends k k' ↔ ∃ d, src.definition k = .ok d ∧ k' ∈ d.keys := by
  constructor
  · rintro ⟨body, hbody, hmem⟩
    obtain ⟨d, hd, rfl⟩ := definition_iff.mpr hbody
    exact ⟨d, hd, hmem⟩
  · rintro ⟨d, hd, hmem⟩
    exact ⟨d.body, definition_iff.mp ⟨d, hd, rfl⟩, hmem⟩

variable {v : String} {d : Definition}

lemma Resolves.unique {w : String} (hv : src.Resolves k v) (hw : src.Resolves k w) : v = w := by
  induction hv generalizing w with
  | byDefinition hd _ ih =>
    cases hw with
    | byDefinition hd' hkeys' =>
      cases hd.symm.trans hd'
      rw [Definition.filled_congr fun k' hk' => ih k' hk' (hkeys' k' hk')]

lemma Resolves.defined (h : src.Resolves k v) : ∃ body, src.Defines k body := by
  cases h with
  | byDefinition hd _ => exact ⟨_, definition_iff.mp ⟨_, hd, rfl⟩⟩

lemma Resolves.of_depends (h : src.Resolves k v) (hdep : src.Depends k k') : ∃ w, src.Resolves k' w := by
  obtain ⟨d, hd, hmem⟩ := depends_iff.mp hdep
  cases h with
  | byDefinition hd' hkeys =>
    cases hd.symm.trans hd'
    exact ⟨_, hkeys k' hmem⟩

lemma Resolves.of_reaches (h : src.Resolves k v) (hr : src.Reaches k k') : ∃ w, src.Resolves k' w := by
  induction hr with
  | refl => exact ⟨v, h⟩
  | tail _ hdep ih =>
    obtain ⟨w, hw⟩ := ih
    exact hw.of_depends hdep

lemma Resolves.not_circular (h : src.Resolves k v) : ¬ src.Circular k := by
  induction h with
  | byDefinition hd _ ih =>
    intro hc
    -- The next key on the cycle is circular as well, and it stands in the definition.
    obtain ⟨k', hdep, hback⟩ := TransGen.head'_iff.mp hc
    obtain ⟨d, hd', hmem⟩ := depends_iff.mp hdep
    cases hd.symm.trans hd'
    exact ih k' hmem (TransGen.tail' hback hdep)

/-- Every key that is reached has a definition, and none of them leads back to itself. -/
structure Grounded (src : Sources) (k : Key) : Prop where
  defined : ∀ k', src.Reaches k k' → ∃ body, src.Defines k' body
  acyclic : ∀ k', src.Reaches k k' → ¬ src.Circular k'

lemma Resolves.grounded (h : src.Resolves k v) : src.Grounded k where
  defined k' hr := by
    obtain ⟨w, hw⟩ := h.of_reaches hr
    exact hw.defined
  acyclic k' hr := by
    obtain ⟨w, hw⟩ := h.of_reaches hr
    exact hw.not_circular

open Classical in
noncomputable def meaning (src : Sources) (k : Key) : String :=
  if h : ∃ v, src.Resolves k v then h.choose else ""

def Meaningful (src : Sources) (k : Key) : Prop :=
  src.Resolves k (src.meaning k)

lemma Resolves.meaning_eq (h : src.Resolves k v) : src.meaning k = v := by
  have hex : ∃ v, src.Resolves k v := ⟨v, h⟩
  unfold meaning
  rw [dif_pos hex]
  exact hex.choose_spec.unique h

lemma Resolves.meaningful (h : src.Resolves k v) : src.Meaningful k := by
  unfold Meaningful
  rwa [h.meaning_eq]

lemma meaningful_of_keys (hd : src.definition k = .ok d) (hkeys : ∀ k' ∈ d.keys, src.Meaningful k') :
    src.Meaningful k ∧ src.meaning k = d.value k (d.filled src.meaning) := by
  have h := Resolves.byDefinition hd hkeys
  exact ⟨h.meaningful, h.meaning_eq⟩

noncomputable def generatedBy (src : Sources) (k : Key) : List Generated :=
  match src.definition k with
  | .ok d => d.generated k (d.filled src.meaning)
  | .error _ => []

lemma generatedBy_eq (hd : src.definition k = .ok d) : src.generatedBy k = d.generated k (d.filled src.meaning) := by
  unfold generatedBy
  rw [hd]

end Sources

end GridBayes.Deferred
