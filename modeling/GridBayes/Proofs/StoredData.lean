import Mathlib
import GridBayes.Interpolator
import GridBayes.Numeric.Double
import GridBayes.Proofs.Operation

/-! The data of an interpolator in one row. Axes and values are cut out of the row in which they were
joined, whatever form each axis is stored in, so an interpolator comes back from what is saved of it. -/
namespace GridBayes.Interpolator

open Operation List

variable {α : Type} {axes : List (StoredAxis α)} {values : List α} {g : Interpolator α}

lemma joined_cons (a : StoredAxis α) (axes : List (StoredAxis α)) (values : List α) :
    joined (a :: axes) values = a.points.toList ++ joined axes values := by
  simp [joined]

lemma drop_joined (axes : List (StoredAxis α)) (values : List α) (k : Nat) :
    (joined axes values).drop ((axes.map (·.points.size)).take k).sum = joined (axes.drop k) values := by
  induction axes generalizing k with
  | nil => simp
  | cons a axes ih =>
    cases k with
    | zero => simp
    | succ k =>
      have hf : (joined (a :: axes) values).drop a.points.size = joined axes values := by simp [joined_cons]
      simp only [map_cons, take_succ_cons, sum_cons, drop_succ_cons]
      rw [← drop_drop, hf, ih k]

/-! ## Cutting -/

def bare (a : StoredAxis α) : StoredAxis α :=
  { a with after := #[] }

lemma cut_joined (axes : List (StoredAxis α)) (values : List α) (ls ks : List Nat) :
    cut axes.length (axes.map (·.points.size) ++ ls) (axes.map (·.count) ++ ks) (joined axes values) =
      (axes.map bare, values) := by
  induction axes with
  | nil => simp [cut, joined]
  | cons a axes ih =>
    have hpart : (joined (a :: axes) values).take a.points.size = a.points.toList := by simp [joined_cons]
    have hrest : (joined (a :: axes) values).drop a.points.size = joined axes values := by simp [joined_cons]
    simp [cut, hpart, hrest, ih, bare]

lemma joined_congr {as bs : List (StoredAxis α)} (h : as.map (·.points) = bs.map (·.points)) (values : List α) :
    joined as values = joined bs values := by
  have hrow (axes : List (StoredAxis α)) : joined axes values = (axes.map (·.points)).flatMap Array.toList ++ values := by
    rw [joined, flatMap_map]
  rw [hrow, hrow, h]

lemma map_linked {β : Type} (f : StoredAxis α → β) (hf : ∀ a after, f { a with after := after } = f a)
    (values : List α) (axes : List (StoredAxis α)) : (linked values axes).map f = axes.map f := by
  induction axes with
  | nil => rfl
  | cons a axes ih => rw [linked, map_cons, hf, ih, map_cons]

/-- What is stored after an axis comes from the row alone. -/
lemma linked_map (f : StoredAxis α → StoredAxis α) (hp : ∀ a, (f a).points = a.points)
    (hc : ∀ a, (f a).count = a.count) (values : List α) (axes : List (StoredAxis α)) :
    linked values (axes.map f) = linked values axes := by
  induction axes with
  | nil => rfl
  | cons a axes ih =>
    have hj : joined (axes.map f) values = joined axes values := joined_congr (by simp [hp]) values
    simp [linked, hp, hc, ih, hj]

lemma linked_linked (values : List α) (axes : List (StoredAxis α)) :
    linked values (linked values axes) = linked values axes := by
  rw [← linked_map bare (fun _ => rfl) (fun _ => rfl), map_linked bare fun _ _ => rfl]
  exact linked_map bare (fun _ => rfl) (fun _ => rfl) values axes

/-- The numbers of points are words, and so many values are taken for them. -/
def Fits (shape : List Nat) (size : Nat) : Prop :=
  (∀ n ∈ shape, n < 2147483648) ∧ (size : Int) = Strides.total shape

/-- Joined data give the axes and the values, if these fit. -/
lemma ofData_joined {ls ks : List Nat} {bounds : List (α × α)} :
    ofData axes.length (axes.map (·.points.size) ++ ls) (axes.map (·.count) ++ ks) (joined axes values) bounds = .ok g ↔
      Fits (axes.map (·.count)) values.length ∧ g = ⟨linked values axes, values.toArray, bounds⟩ := by
  have hc : (axes.map bare).map (·.count) = axes.map (·.count) := by simp [bare]
  unfold ofData
  simp only [cut_joined, hc, linked_map bare (fun _ => rfl) fun _ => rfl]
  generalize axes.map (·.count) = shape
  by_cases hword : ∀ n ∈ shape, n < 2147483648
  · rw [if_neg (by simpa using hword)]
    by_cases hsize : (values.length : Int) = Strides.total shape
    · rw [if_neg (not_not.mpr hsize), Except.ok.injEq]
      exact ⟨fun hg => ⟨⟨hword, hsize⟩, hg.symm⟩, fun h => h.2.symm⟩
    · rw [if_pos hsize]
      exact iff_of_false nofun fun h => hsize h.1.2
  · rw [if_pos (by simpa using hword)]
    exact iff_of_false nofun fun h => hword h.1.1

lemma restore_of_linked (hl : linked g.values.toList g.axes = g.axes) (hsize : Fits g.shape g.values.size) :
    restore g.save = .ok g := by
  have hback : ofData g.axes.length (g.axes.map (·.points.size) ++ [])
      (g.axes.map (·.count) ++ replicate (5 - g.ndim) 1) (joined g.axes g.values.toList) g.bounds = .ok g :=
    ofData_joined.mpr ⟨Array.length_toList ▸ hsize, by rw [hl]⟩
  simpa [restore, save, ndim, shape] using hback

/-! ## Building and saving -/

section

variable [Scalar α] {lists : List (List α)} {data : Array α} {tol : α}

lemma count_of_ofPoints {xs : List α} {s : StoredAxis α} (h : StoredAxis.ofPoints tol xs = .ok s) :
    s.count = xs.length := by
  unfold StoredAxis.ofPoints at h
  split at h
  · cases h
  · split at h
    · split at h <;> cases h <;> rfl
    · cases h

lemma counts_of_ofPoints {stored : List (StoredAxis α)}
    (h : Forall₂ (fun xs s => StoredAxis.ofPoints tol xs = .ok s) lists stored) :
    stored.map (·.count) = lists.map (·.length) := by
  induction h with
  | nil => rfl
  | cons hs _ ih => simp [count_of_ofPoints hs, ih]

lemma create_eq_ok : create lists data tol = .ok g ↔
    (lists ≠ [] ∧ lists.length ≤ 5) ∧ ∃ stored, Forall₂ (fun xs s => StoredAxis.ofPoints tol xs = .ok s) lists stored ∧
      Fits (stored.map (·.count)) data.size ∧ g = ⟨linked data.toList stored, data,
        lists.map fun xs => (xs.head?.getD Scalar.nan, xs.getLast?.getD Scalar.nan)⟩ := by
  unfold create
  by_cases hrank : lists ≠ [] ∧ lists.length ≤ 5
  · have hok : ¬(lists.isEmpty || decide (5 < lists.length)) = true := by simp [hrank]
    rw [if_neg hok]
    refine bind_eq_ok.trans ?_
    simp only [mapM_eq_ok]
    rw [and_iff_right hrank]
    refine exists_congr fun stored => and_congr_right fun hs => ?_
    rw [hs.length_eq, ← counts_of_ofPoints hs, ← append_nil (stored.map (·.count)), ofData_joined,
      append_nil, Array.length_toList]
  · have hbad : (lists.isEmpty || decide (5 < lists.length)) = true := by
      by_contra hok
      simp at hok
      exact hrank ⟨hok.1, by omega⟩
    rw [if_pos hbad]
    exact iff_of_false nofun fun h => hrank h.1

lemma create_of_ofArrays {axes : List (Tensor α)} {values : Tensor α} (h : ofArrays axes values tol = .ok g) :
    create (axes.map (·.data.toList)) values.data tol = .ok g := by
  unfold ofArrays at h
  split at h
  · cases h
  obtain ⟨stored, -, h⟩ := bind_eq_ok.mp h
  split at h
  · cases h
  · exact h

/-- The restored interpolator is the one that was saved. What is saved holds the axes and then the values, each axis
as long as its stored form. -/
theorem restore_save {axes : List (Tensor α)} {values : Tensor α} (h : ofArrays axes values tol = .ok g) :
    restore g.save = .ok g ∧ g.save.ndim = axes.length ∧ g.save.shape = axes.map (·.data.size) ∧
      g.save.data.toList.drop g.save.axisLengths.sum = g.values.toList ∧
      ∀ k (hk : k < g.axes.length), g.axes[k].points.toList =
        (g.save.data.toList.drop (g.save.axisLengths.take k).sum).take g.axes[k].points.size := by
  obtain ⟨-, stored, hst, hsize, hg⟩ := create_eq_ok.mp (create_of_ofArrays h)
  have hc : g.shape = stored.map (·.count) := by
    rw [hg]
    exact map_linked _ (fun _ _ => rfl) _ stored
  have hs : g.shape = axes.map (·.data.size) := by
    rw [hc, counts_of_ofPoints hst]
    simp [Function.comp_def]
  have hl : linked g.values.toList g.axes = g.axes := by
    rw [hg]
    exact linked_linked _ stored
  have hv : Fits g.shape g.values.size := by
    rw [hc, hg]
    exact hsize
  refine ⟨restore_of_linked hl hv, ?_, hs, ?_, fun k hk => ?_⟩
  · simpa [save, ndim, shape] using congrArg List.length hs
  · simp [save, joined]
  · have hfrom := drop_joined g.axes g.values.toList k
    simp only [save]
    rw [hfrom, List.drop_eq_getElem_cons hk, joined_cons]
    simp

end

def leaning : Except Fault (Interpolator Float) :=
  ofArrays [.ofList [0.0, 1.0, 3.0, 4.0], .ofList [0.0, 2.0]] ⟨[4, 2], #[1.0, 2.0, 4.0, 8.0, 5.0, 7.0, 0.0, 3.0]⟩ 1e-6

/-- One axis is stored as it is and the other in short, longer than its number of points. -/
theorem restore_save_leaning : ∃ g, leaning = .ok g ∧ (g.save.axisLengths, g.shape) = ([4, 3], [4, 2]) ∧
    restore g.save = .ok g := by
  have hmade : leaning.toOption.map (fun g => (g.save.axisLengths, g.shape)) = some ([4, 3], [4, 2]) := by
    decide +kernel
  cases hg : leaning with
  | error e => rw [hg] at hmade; cases hmade
  | ok g =>
    rw [hg] at hmade
    exact ⟨g, rfl, Option.some.inj hmade, (restore_save hg).1⟩

end GridBayes.Interpolator
