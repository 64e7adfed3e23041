import GridBayes.Proofs.AxisLocation
import GridBayes.Proofs.CornerSum
import GridBayes.Proofs.StoredData

/-! Interpolation on a grid, over exact scalars. At a point that is located on every axis the value is
the multilinear one: the sum over the corners of the cell, each weighted by a product of distances.
Nothing but stored values is read, and there is no value exactly outside the grid. All positions are
to be words, and so are the sums of two indices of an axis that is searched. -/
namespace GridBayes
open List Tensor GridAxis
open Exact (real)
open Tensor (position volume)

namespace Interpolator

section

variable [SpecialFunctions] {n : ℕ}

/-! ## Storing a grid -/

omit [SpecialFunctions] in
lemma exists_ofFn_of_forall₂ {α β : Type} {R : α → β → Prop} {f : Fin n → α} {bs : List β}
    (h : Forall₂ R (ofFn f) bs) : ∃ g : Fin n → β, bs = ofFn g ∧ ∀ k, R (f k) (g k) := by
  have hl : bs.length = n := by rw [← h.length_eq, length_ofFn]
  subst hl
  refine ⟨bs.get, (ofFn_get bs).symm, fun k => ?_⟩
  have hk := h.get (by simp : k.val < (ofFn f).length) k.isLt
  simpa using hk

lemma linked_stores {tol : ℝ} (values : List Exact) {as : List GridAxis} {ss : List (StoredAxis Exact)}
    (h : Forall₂ (·.Stores tol) as ss) : Forall₂ (·.Stores tol) as (linked values ss) := by
  induction h with
  | nil => exact .nil
  | cons hs _ ih => exact .cons (hs.withAfter _) ih

variable {tol : ℝ} {stored : Fin n → StoredAxis Exact} {x : Fin n → Exact} {k : Fin n} {m : Type → Type}
  {g : Interpolator Exact}

omit [SpecialFunctions] in
lemma fits_volume (hn' : n ≤ 5) (axes : Fin n → GridAxis)
    (hwords : volume (ofFn fun k => (axes k).points.length) < 2147483648) :
    Fits (ofFn fun k => (axes k).points.length) (volume (ofFn fun k => (axes k).points.length)) := by
  have hpos : ∀ n ∈ ofFn fun k => (axes k).points.length, 1 ≤ n := by
    simp only [mem_ofFn, forall_exists_index, forall_apply_eq_imp_iff]
    intro k
    have := (axes k).two_le
    omega
  refine ⟨fun n hn => (le_volume hpos n hn).trans_lt hwords, ?_⟩
  rw [Strides.total_eq (by simpa using hn'), inWord_natCast hwords]

lemma create_stores (hn : 1 ≤ n) (hn' : n ≤ 5) (axes : Fin n → GridAxis) {values : Array Exact}
    (hsize : values.size = volume (ofFn fun k => (axes k).points.length)) (hwords : values.size < 2147483648)
    (htol : 0 ≤ tol) (hfit : ∀ k, (axes k).IsNear tol ∨ (axes k).points.length ≤ 1073741825) :
    ∃ g, create (ofFn fun k => (axes k).entries) values (real tol) = .ok g ∧
      Forall₂ (·.Stores tol) (ofFn axes) g.axes ∧ g.values = values := by
  choose raw hraw hs using fun k => (axes k).ofPoints_stores htol (hfit k)
  have hp : Forall₂ (fun xs s => StoredAxis.ofPoints (real tol) xs = .ok s)
      (ofFn fun k => (axes k).entries) (ofFn raw) :=
    forall₂_iff_get.mpr (by simp [hraw])
  have hc : (ofFn raw).map (·.count) = ofFn fun k => (axes k).points.length := by
    rw [map_ofFn]
    exact congrArg ofFn (funext fun k => (hs k).count)
  have hst : Forall₂ (·.Stores tol) (ofFn axes) (ofFn raw) := forall₂_iff_get.mpr (by simp [hs])
  have hrank : (ofFn fun k => (axes k).entries) ≠ [] := ne_nil_of_length_pos (by simp; omega)
  have hf : Fits ((ofFn raw).map (·.count)) values.size := by
    rw [hc, hsize]
    exact fits_volume hn' axes (hsize ▸ hwords)
  exact ⟨_, create_eq_ok.mpr ⟨⟨hrank, by simpa using hn'⟩, _, hp, hf, rfl⟩,
    linked_stores values.toList hst, rfl⟩

lemma ofArrays_stores (hn : 1 ≤ n) (hn' : n ≤ 5) (axes : Fin n → GridAxis) {V : Tensor Exact}
    (hsize : V.data.size = volume (ofFn fun k => (axes k).points.length)) (hwords : V.data.size < 2147483648)
    (htol : 0 ≤ tol) (hfit : ∀ k, (axes k).IsNear tol ∨ (axes k).points.length ≤ 1073741825) :
    ∃ (g : Interpolator Exact) (stored : Fin n → StoredAxis Exact),
      ofArrays (ofFn fun k => ofList (axes k).entries) V (real tol) = .ok g ∧
      g.axes = ofFn stored ∧ g.values = V.data ∧ ∀ k, (axes k).Stores tol (stored k) := by
  obtain ⟨g, hg, haxes, hv⟩ := create_stores hn hn' axes hsize hwords htol hfit
  obtain ⟨stored, hs, hst⟩ := exists_ofFn_of_forall₂ haxes
  refine ⟨g, stored, ?_, hs, hv, hst⟩
  choose raw hraw _ using fun k => (axes k).ofPoints_stores htol (hfit k)
  have ha : (ofFn fun k => ofList (axes k).entries).mapM
      (StoredAxis.ofArray (real tol)) = .ok (ofFn fun k => some (raw k)) := by
    rw [Operation.mapM_eq_ok, forall₂_iff_get]
    simp [StoredAxis.ofArray, ofList, hraw, Except.map]
  have hnone : ¬(ofFn fun k => some (raw k)).any Option.isNone = true := by simp
  have hl : (ofFn fun k => ofList (axes k).entries).map (·.data.toList) = ofFn fun k => (axes k).entries := map_ofFn
  have hrank : ¬((ofFn fun k => ofList (axes k).entries).isEmpty ||
      decide (5 < (ofFn fun k => ofList (axes k).entries).length)) = true := by
    simp
    omega
  unfold ofArrays
  rw [if_neg hrank, ha, hl, hg]
  exact if_neg hnone

/-! ## Locating a point -/

lemma mapM_locate_some {places : Fin n → ℤ × Exact} (h : ∀ k, (stored k).locate (x k) = some (places k)) :
    ((ofFn stored).zip (ofFn x)).mapM (fun (a, x) => a.locate x) = some (ofFn places) := by
  induction n with
  | zero => rfl
  | succ n ih =>
    simp only [ofFn_succ, zip_cons_cons, mapM_cons, h 0, ih fun k => h k.succ]
    rfl

omit [SpecialFunctions] in
lemma forall₂_ofFn_lt {j m : Fin n → ℕ} (h : ∀ k, j k < m k) : Forall₂ (· < ·) (ofFn j) (ofFn m) :=
  forall₂_iff_get.mpr (by simp [h])

omit [SpecialFunctions] in
lemma reads_read? (g : Interpolator Exact) : Cell.Reads g.read? (fun p => g.values.getD p .nan) g.values.size := by
  intro p hp
  simp [read?, hp]

lemma reads_read (g : Interpolator Exact) :
    Cell.Reads (m := Id) (fun i => pure (g.read i)) (fun p => g.values.getD p .nan) g.values.size := by
  intro p hp
  have hread : g.read? p = some (g.values.getD p .nan) := reads_read? g p hp
  have hv : g.read p = g.values.getD p .nan := by
    rw [read, placeOf_natCast, hread]
    rfl
  exact congrArg pure hv

omit [SpecialFunctions] in
lemma isReal_entry {V : Tensor Exact} (hreal : ∀ v ∈ V.data, v.IsReal)
    (hsize : V.data.size = volume V.shape) {index : Fin n → ℕ}
    (hi : Forall₂ (· < ·) (ofFn index) V.shape) : (V.entry index).IsReal := by
  have hlt : position V.shape (ofFn index) < V.data.size := hsize ▸ position_lt hi
  rw [entry, Array.getD_eq_getD_getElem?, Array.getElem?_eq_getElem hlt]
  exact hreal _ (Array.getElem_mem hlt)

lemma interp_ofFn (haxes : g.axes = ofFn stored) (x : Fin n → Exact) :
    g.interp (ofFn x) = Id.run (g.evaluateWith (fun i => pure (g.read i)) (ofFn x)) := by
  have htake : (ofFn x).take g.ndim = ofFn x := take_of_length_le (by simp [ndim, haxes])
  rw [interp, htake, evaluate]

section

variable {V : Tensor Exact} {axes : Fin n → GridAxis} {i : Fin n → ℕ} {w : Fin n → ℝ} (hn : 1 ≤ n) (hn' : n ≤ 5)
  (haxes : g.axes = ofFn stored) (hv : g.values = V.data)
  (hsh : V.shape = ofFn fun k => (axes k).points.length) (hsize : V.data.size = volume V.shape)
  (hwords : V.data.size < 2147483648) (hs : ∀ k, (axes k).Stores tol (stored k))
  (hx : ∀ k, (stored k).locate (x k) = some ((i k : ℤ), real (w k)))

include hn hn' haxes hv hsh hsize hwords hs hx

/-- In every way of reading, the value is the sum over the corners. -/
lemma evaluateWith_stored [Monad m] [LawfulMonad m] {read : ℤ → m Exact}
    (hread : Cell.Reads read (fun p => g.values.getD p .nan) g.values.size) :
    g.evaluateWith read (ofFn x) = pure (∑ b : Fin n → Bool,
      real (∏ k, if b k then w k else 1 - w k) * V.entry fun k => i k + (b k).toNat) := by
  have hc : g.shape = ofFn fun k => (axes k).points.length := by
    rw [shape, haxes, map_ofFn]
    exact congrArg ofFn (funext fun k => (hs k).count)
  have hrank : ¬g.axes.length < (ofFn x).length := by simp [haxes]
  rw [hv, hsize, hsh] at hread
  rw [hsize, hsh] at hwords
  unfold evaluateWith
  rw [if_neg hrank, haxes, mapM_locate_some hx, hc]
  dsimp only
  rw [Cell.blend_eq_nested hn hn' w (fun k => (hs k).locate_lt (hx k)) hread hwords.le, Cell.nested_eq_sum, ← hsh]
  simp only [Nat.zero_add]
  rfl

lemma interp_located : g.interp (ofFn x) =
    ∑ b : Fin n → Bool, real (∏ k, if b k then w k else 1 - w k) * V.entry fun k => i k + (b k).toNat := by
  rw [interp_ofFn haxes, evaluateWith_stored hn hn' haxes hv hsh hsize hwords hs hx (reads_read g)]
  rfl

end

def side (x y : ℝ) (h : x < y) : GridAxis :=
  ⟨[x, y], by simpa using h, le_rfl⟩

end

end Interpolator

end GridBayes
