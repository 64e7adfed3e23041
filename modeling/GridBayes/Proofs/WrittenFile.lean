import GridBayes.Storage.Store
import GridBayes.Proofs.Operation

/-! A file that was written is read back. -/
namespace GridBayes
open Operation List

namespace Store

variable {s : Store} {p q : Path} {c : Content}

/-- The store with one file put in place of another. -/
def put (s : Store) (p : Path) (c : Content) : Store :=
  { s with files := (s.files.filter fun f => f.1 != p) ++ [(p, c)] }

lemma lookup_put (s : Store) (p : Path) (c : Content) : (s.put p c).files.lookup p = some c := by
  have hnone : (s.files.filter fun f => f.1 != p).lookup p = none := by
    simp [lookup_eq_none_iff, bne_comm]
  simp [put, lookup_append, hnone]

/-- The folders on the way are no files, before and after. -/
lemma step_put {done done' : Path} {part : String} (hq : s.folders.contains q = false)
    (h : s.step done part = .ok done') : (s.put q c).step done part = .ok done' := by
  unfold step at h
  split at h
  · cases h
  rename_i hfile
  split at h
  · cases h
  rename_i hfo
  have ho : ¬ ((s.put q c).files.lookup done).isSome = true := by
    rw [Option.not_isSome_iff_eq_none, lookup_eq_none_iff] at hfile ⊢
    intro f hf
    rcases mem_append.mp hf with hf | hf
    · exact hfile f (mem_filter.mp hf).1
    · rw [mem_singleton.mp hf, bne_iff_ne]
      rintro rfl
      exact hfo (by rw [hq]; rfl)
  exact (if_neg ho).trans ((if_neg hfo).trans h)

lemma resolve_put (hq : s.folders.contains q = false) (h : s.resolve p = .ok q) : (s.put q c).resolve p = .ok q := by
  have hs (parts done : Path) (h : parts.foldlM s.step done = .ok q) : parts.foldlM (s.put q c).step done = .ok q := by
    induction parts generalizing done with
    | nil => exact h
    | cons part parts ih =>
      obtain ⟨next, hnext, h⟩ := bind_eq_ok.mp h
      exact bind_eq_ok.mpr ⟨next, step_put hq hnext, ih next h⟩
  unfold resolve at h
  split at h
  · cases h
  · rename_i hnul
    exact (if_neg hnul).trans (hs p [] h)

variable {s' : Store}

lemma write_eq_ok (h : s.write p c = .ok s') :
    ∃ q, s.resolve p = .ok q ∧ s.folders.contains q = false ∧ s' = s.put q c := by
  obtain ⟨q, hq, h⟩ := bind_eq_ok.mp h
  split at h
  · cases h
  · rename_i hnot
    simp only [Bool.or_eq_true, not_or, Bool.not_eq_true] at hnot
    rw [hnot.1] at hq
    exact ⟨q, hq, hnot.2, (Except.ok.inj h).symm⟩

lemma archive_write {a : Archive} (h : s.write p (.archive a) = .ok s') : s'.archive p = .ok a := by
  obtain ⟨q, hr, hq, rfl⟩ := write_eq_ok h
  have hc : (s.put q (.archive a)).content p = .ok (.archive a) :=
    bind_eq_ok.mpr ⟨q, resolve_put hq hr, by rw [lookup_put]; rfl⟩
  exact bind_eq_ok.mpr ⟨_, hc, rfl⟩

end Store

end GridBayes
