import GridBayes.Value
import Mathlib.Data.List.Nodup

/-! Tables as lists of entries: what is found in them, and what an entry changes. -/
namespace GridBayes
open List

variable {α : Type} {key name : String} {entries : List (String × α)} {value : α}

lemma mem_of_lookup {β : Type} [BEq α] {entries : List (α × β)} {a : α} {b : β} (h : entries.lookup a = some b) :
    ∃ a', (a', b) ∈ entries := by
  induction entries with
  | nil => simp at h
  | cons e entries ih =>
    obtain ⟨a', b'⟩ := e
    rw [lookup_cons] at h
    split at h
    · obtain rfl := Option.some.inj h
      exact ⟨a', mem_cons_self⟩
    · obtain ⟨a'', hmem⟩ := ih h
      exact ⟨a'', mem_cons_of_mem _ hmem⟩

lemma isSome_lookup_iff : (entries.lookup name).isSome = true ↔ name ∈ entries.map Prod.fst := by
  rw [lookup_isSome_iff, mem_map]
  exact exists_congr fun e => and_congr_right fun _ => by rw [beq_iff_eq, eq_comm]

lemma any_fst_iff : entries.any (·.1 == key) = true ↔ key ∈ entries.map Prod.fst := by
  rw [any_eq_true, mem_map]
  exact exists_congr fun e => and_congr_right fun _ => beq_iff_eq

lemma lookup_eq_some_iff_mem (hkeys : (entries.map Prod.fst).Nodup) :
    entries.lookup name = some value ↔ (name, value) ∈ entries := by
  rw [lookup_eq_some_iff]
  constructor
  · rintro ⟨front, back, rfl, -⟩
    simp
  · intro hmem
    obtain ⟨front, back, rfl⟩ := append_of_mem hmem
    rw [map_append, map_cons, nodup_append] at hkeys
    exact ⟨front, back, rfl, fun e he => bne_iff_ne.mpr (hkeys.2.2 e.1 (mem_map_of_mem he) name mem_cons_self).symm⟩

lemma lookup_perm {entries' : List (String × α)} (hperm : entries.Perm entries')
    (hkeys : (entries.map Prod.fst).Nodup) (name : String) : entries.lookup name = entries'.lookup name := by
  refine Option.ext fun value => ?_
  rw [lookup_eq_some_iff_mem hkeys, lookup_eq_some_iff_mem ((hperm.map _).nodup_iff.mp hkeys), hperm.mem_iff]

lemma setEntry_of_lookup_none (h : entries.lookup key = none) : setEntry entries key value = entries ++ [(key, value)] := by
  rw [← Option.not_isSome_iff_eq_none, isSome_lookup_iff, ← any_fst_iff] at h
  exact if_neg h

lemma lookup_map_set (entries : List (String × α)) (key name : String) (value : α) :
    (entries.map fun e => if e.1 == key then (key, value) else e).lookup name =
      (entries.lookup name).map fun found => if name = key then value else found := by
  induction entries with
  | nil => rfl
  | cons e entries ih =>
    obtain ⟨a, b⟩ := e
    rw [map_cons, lookup_cons]
    by_cases hname : name = a
    · by_cases hkey : a = key
      · simp [hname, hkey]
      · simp [hname, hkey]
    · have hbeq : (name == a) = false := by simpa using hname
      by_cases hkey : a = key
      · rw [if_pos (by simp [hkey]), lookup_cons, ← hkey, hbeq, hkey, ih]
      · rw [if_neg (by simp [hkey]), lookup_cons, hbeq, ih]

lemma lookup_setEntry (entries : List (String × α)) (key name : String) (value : α) :
    (setEntry entries key value).lookup name = if name = key then some value else entries.lookup name := by
  cases hl : entries.lookup key with
  | none =>
    rw [setEntry_of_lookup_none hl, lookup_append]
    by_cases hname : name = key
    · simp [hname, hl]
    · have hbeq : (name == key) = false := by simpa using hname
      simp [hname, lookup_cons, hbeq]
  | some found =>
    have hany := any_fst_iff.mpr (isSome_lookup_iff.mp (Option.isSome_of_eq_some hl))
    unfold setEntry
    rw [if_pos hany, lookup_map_set]
    by_cases hname : name = key
    · simp [hname, hl]
    · simp [hname]

lemma map_fst_setEntry (entries : List (String × α)) (key : String) (value : α) :
    (setEntry entries key value).map Prod.fst =
      if key ∈ entries.map Prod.fst then entries.map Prod.fst else entries.map Prod.fst ++ [key] := by
  unfold setEntry
  by_cases hmem : key ∈ entries.map Prod.fst
  · rw [if_pos (any_fst_iff.mpr hmem), if_pos hmem, map_map]
    refine map_congr_left fun e _ => ?_
    by_cases hkey : e.1 = key
    · simp [hkey]
    · simp [hkey]
  · rw [if_neg fun h => hmem (any_fst_iff.mp h), if_neg hmem]
    simp

lemma mem_map_fst_setEntry : name ∈ (setEntry entries key value).map Prod.fst ↔ name ∈ entries.map Prod.fst ∨ name = key := by
  rw [map_fst_setEntry]
  split
  · rename_i hmem
    refine ⟨Or.inl, ?_⟩
    rintro (h | rfl)
    · exact h
    · exact hmem
  · rw [mem_append, mem_singleton]

lemma nodup_map_fst_setEntry (h : (entries.map Prod.fst).Nodup) (key : String) (value : α) :
    ((setEntry entries key value).map Prod.fst).Nodup := by
  rw [map_fst_setEntry]
  split
  · exact h
  · rename_i hmem
    rw [← concat_eq_append]
    exact h.concat hmem

end GridBayes
