import GridBayes.Proofs.ChainHistory
import Mathlib.Data.List.Induction
import Mathlib.Data.List.Nodup
import Mathlib.Data.List.ProdSigma

/-! Thinning within one memory. Every second record is copied to the front of the memory that it stands in, number by
number. No copy reads what another has written: a record does not stand before the place that it is copied to. -/
namespace GridBayes.Chain
open List

variable {α : Type} {size ndim burn count i : Nat} {memory : Array (Record α)}

/-! ## Copies of walkers -/

lemma memoryEntry_copyWalker (hw : ∀ r ∈ memory, r.size = size) {source dest : Nat} (hs : source < memory.size)
    (hd : dest < memory.size) (hi : i < size) (k w : Nat) : memoryEntry (copyWalker memory source dest i) k w =
      if k = dest ∧ w = i then memoryEntry memory source w else memoryEntry memory k w := by
  have hsource : i < memory[source].size := by rwa [hw _ (Array.getElem_mem hs)]
  have hentry : memory[source]?.bind (·[i]?) = some memory[source][i] := by simp [hs, hsource]
  unfold copyWalker
  rw [hentry]
  simp only [memoryEntry, Array.getElem?_modify]
  by_cases hk : dest = k
  · subst hk
    have hdest : i < memory[dest].size := by rwa [hw _ (Array.getElem_mem hd)]
    by_cases hwi : w = i
    · subst hwi
      simp [hs, hd, hsource, hdest]
    · simp [hd, hwi, Ne.symm hwi]
  · simp [hk, Ne.symm hk]

lemma memoryEntry_copyRecord (hw : ∀ r ∈ memory, r.size = size) {source dest : Nat} (hs : source < memory.size)
    (hd : dest < memory.size) (k w : Nat) : memoryEntry (copyRecord size memory source dest) k w =
      if k = dest then memoryEntry memory source w else memoryEntry memory k w := by
  have hcopied (j : Nat) (hj : j ≤ size) (k w : Nat) :
      memoryEntry ((range j).foldl (fun m i => copyWalker m source dest i) memory) k w =
        if k = dest ∧ w < j then memoryEntry memory source w else memoryEntry memory k w := by
    induction j generalizing k w with
    | zero => simp
    | succ j ih =>
      have hkept := Keeps.foldl (fun m i => keeps_copyWalker m source dest i) (range j) memory
      rw [range_succ, foldl_append, foldl_cons, foldl_nil, memoryEntry_copyWalker (hkept.widths size hw)
        (hkept.size ▸ hs) (hkept.size ▸ hd) hj, ih (by omega), ih (by omega)]
      grind
  unfold copyRecord
  rw [hcopied size (Nat.le_refl size)]
  by_cases hk : k = dest
  · by_cases hlt : w < size
    · simp [hk, hlt]
    · -- past the walkers there is nothing
      have hnone {k : Nat} (hk : k < memory.size) : memoryEntry memory k w = none := by
        have hsize := hw _ (Array.getElem_mem hk)
        simp [memoryEntry, hk, hsize, Nat.not_lt.mp hlt]
      simp [hk, hlt, hnone hs, hnone hd]
  · simp [hk]

lemma memoryEntry_compact (hw : ∀ r ∈ memory, r.size = size) (hcount : ∀ j < count, burn + 2 * j < memory.size)
    (k w : Nat) : memoryEntry (compact size burn count memory) k w =
      memoryEntry memory (if k < count then burn + 2 * k else k) w := by
  induction count generalizing k w with
  | zero => simp [compact]
  | succ j ih =>
    have hlater : ∀ i < j, burn + 2 * i < memory.size := fun i hi => hcount i (by omega)
    have hlast := hcount j (Nat.lt_succ_self j)
    have hkept := keeps_compact size burn j memory
    have hsucc : compact size burn (j + 1) memory =
        copyRecord size (compact size burn j memory) (burn + 2 * j) j := by
      simp [compact, range_succ]
    rw [hsucc, memoryEntry_copyRecord (hkept.widths size hw) (by rwa [hkept.size]) (by rw [hkept.size]; omega),
      ih hlater, ih hlater]
    -- the source lies past everything that was written before
    grind

lemma getElem?_of_memoryEntry {m : Array (Record α)} {j k : Nat} (hin : k < m.size ↔ j < memory.size)
    (h : ∀ w, memoryEntry m k w = memoryEntry memory j w) : m[k]? = memory[j]? := by
  by_cases hk : k < m.size
  · have hj := hin.mp hk
    simp only [memoryEntry, Array.getElem?_eq_getElem hk, Array.getElem?_eq_getElem hj, Option.bind_some] at h ⊢
    rw [Array.ext_getElem? h]
  · simp [hk, hin.not.mp hk]

/-! ## Copies of numbers -/

/-- Records of as many walkers, at points of as many coordinates. -/
structure Rectangular (size ndim : Nat) (memory : Array (Record α)) : Prop where
  records : ∀ r ∈ memory, r.size = size
  points : ∀ r ∈ memory, ∀ w ∈ r, w.point.size = ndim

/-- The number at a place of the memory: a record, a walker, and a coordinate or the logarithm after them. -/
def number (memory : Array (Record α)) (place : Nat × Nat × Nat) : Option α :=
  (memoryEntry memory place.1 place.2.1).bind fun w => (w.point.push w.logProb)[place.2.2]?

/-- Every second record from `burn` on, copied to the front one place after another, in the order of the places. -/
def copyInOrder {ι β : Type} [DecidableEq ι] (burn count : Nat) (within : List ι) (numbers : Nat × ι → β) :
    Nat × ι → β :=
  (range count ×ˢ within).foldl (fun m p => Function.update m p (m (burn + 2 * p.1, p.2))) numbers

/-- If no place is read after it is written, all that is read is as it was. -/
lemma foldl_update_eq {ι β : Type} [DecidableEq ι] (source : ι → ι) {places : List ι}
    (h : places.Pairwise fun p q => source q ≠ p) (numbers : ι → β) (q : ι) :
    places.foldl (fun m p => Function.update m p (m (source p))) numbers q =
      if q ∈ places then numbers (source q) else numbers q := by
  induction places using reverseRecOn generalizing q with
  | nil => simp
  | append_singleton places p ih =>
    obtain ⟨hbefore, -, hlast⟩ := pairwise_append.mp h
    have hsource : source p ∉ places := fun hmem => hlast _ hmem p (mem_singleton_self p) rfl
    rw [foldl_append, foldl_cons, foldl_nil, ih hbefore, if_neg hsource]
    by_cases hq : q = p
    · simp [hq]
    · simp [hq, ih hbefore]

lemma copyInOrder_eq {ι β : Type} [DecidableEq ι] {within : List ι} (hwithin : within.Nodup)
    (numbers : Nat × ι → β) (k : Nat) (x : ι) : copyInOrder burn count within numbers (k, x) =
      if k < count ∧ x ∈ within then numbers (burn + 2 * k, x) else numbers (k, x) := by
  unfold copyInOrder
  rw [foldl_update_eq fun p => (burn + 2 * p.1, p.2)]
  · simp
  · refine pairwise_flatMap.mpr ⟨fun k _ => ?_, ?_⟩
    · exact pairwise_map.mpr (hwithin.imp fun hne heq => hne (Prod.mk.inj heq).2.symm)
    · refine pairwise_lt_range.imp fun {j k} hjk p hp q hq heq => ?_
      obtain ⟨x, -, rfl⟩ := mem_map.mp hp
      obtain ⟨y, -, rfl⟩ := mem_map.mp hq
      have hrow : burn + 2 * k = j := (Prod.mk.inj heq).1
      omega

lemma Rectangular.number_eq_none (h : Rectangular size ndim memory) {k w j : Nat} (hout : ¬ (w < size ∧ j ≤ ndim)) :
    number memory (k, w, j) = none := by
  unfold number memoryEntry
  refine Option.bind_eq_none_iff.mpr fun walker hwalker => ?_
  obtain ⟨r, hr, hw⟩ := Option.bind_eq_some_iff.mp hwalker
  have hmem := Array.mem_of_getElem? hr
  obtain ⟨hlt, -⟩ := Array.getElem?_eq_some_iff.mp hw
  rw [h.records r hmem] at hlt
  have hpoint := h.points r hmem walker (Array.mem_of_getElem? hw)
  simp only [Array.getElem?_eq_none_iff, Array.size_push, hpoint]
  dsimp only at hlt
  omega

/-- Thinning is a copy of every number in order, and leaves in front what the memory held before at every second record,
with all records behind them as they were. -/
theorem compact_keeps_originals (h : Rectangular size ndim memory)
    (hin : 0 < count → burn + 2 * (count - 1) < memory.size) :
    number (compact size burn count memory) =
        copyInOrder burn count (range size ×ˢ range (ndim + 1)) (number memory) ∧
      (∀ k < count, (compact size burn count memory)[k]? = memory[burn + 2 * k]?) ∧
      ∀ k, count ≤ k → (compact size burn count memory)[k]? = memory[k]? := by
  have hcount : ∀ j < count, burn + 2 * j < memory.size := by omega
  have hentry := memoryEntry_compact h.records hcount
  have hsize := (keeps_compact size burn count memory).size
  refine ⟨funext fun (k, w, j) => ?_, fun k hk => ?_, fun k hk => ?_⟩
  · have hplaces := Nodup.product (nodup_range (n := size)) (nodup_range (n := ndim + 1))
    rw [copyInOrder_eq hplaces, number, hentry]
    by_cases hout : w < size ∧ j ≤ ndim
    · simp only [mem_product, mem_range, hout.1, Nat.lt_succ_of_le hout.2, and_self, and_true]
      split <;> rfl
    · have hnone := fun k => h.number_eq_none (k := k) hout
      simp only [hnone, ite_self]
      exact hnone _
  · refine getElem?_of_memoryEntry ?_ fun w => by rw [hentry, if_pos hk]
    have := hcount k hk
    omega
  · exact getElem?_of_memoryEntry (by rw [hsize]) fun w => by rw [hentry, if_neg (by omega)]

/-- Five records of a walker, the first of which is copied onto itself. -/
def fiveRecords : Array (Record Nat) :=
  #[#[⟨#[10], 0⟩], #[⟨#[11], 1⟩], #[⟨#[12], 2⟩], #[⟨#[13], 3⟩], #[⟨#[14], 4⟩]]

theorem compact_keeps_originals_five :
    Rectangular 1 1 fiveRecords ∧ 0 + 2 * (3 - 1) < fiveRecords.size ∧
      (compact 1 0 3 fiveRecords)[0]? = fiveRecords[0]? ∧ (compact 1 0 3 fiveRecords)[2]? = fiveRecords[4]? ∧
      (compact 1 0 3 fiveRecords)[3]? = fiveRecords[3]? := by
  have h : Rectangular 1 1 fiveRecords := ⟨by simp [fiveRecords], by simp [fiveRecords]⟩
  have hin : 0 < 3 → 0 + 2 * (3 - 1) < fiveRecords.size := fun _ => by decide
  obtain ⟨-, hfront, hbehind⟩ := compact_keeps_originals h hin
  exact ⟨h, by decide, hfront 0 (by decide), hfront 2 (by decide), hbehind 3 (by decide)⟩

end GridBayes.Chain
