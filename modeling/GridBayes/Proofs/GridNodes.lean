import GridBayes.Proofs.AxisForms

/-! Values at the grid points. They are the stored ones on every axis whose points are all stored, and on an
axis that is stored as evenly spaced if it is exactly that. Otherwise the tolerance moves a grid point off its
index, and there are values that are not found again. -/
namespace GridBayes
open List
open Exact (real)
open Tensor (position volume)

namespace GridAxis

variable [SpecialFunctions] {a : GridAxis} {s : StoredAxis Exact} {tol : ℝ} {i : ℕ} {place : Option (ℤ × Exact)}

lemma Stores.locate_placed {t : ℝ} (h : a.Stores tol s) (he : a.EquallySpaced ∨ ¬a.IsNear tol)
    (hpl : a.Placed t place) : s.locate (real t) = place := by
  cases h with
  | even hnear hc hp => exact locate_spaced (he.resolve_right (not_not.mpr hnear)) hc hp hpl
  | listed _ hc ht hfit hp => exact locate_listed hc ht hfit hp hpl

omit [SpecialFunctions] in
/-- A grid point has all the weight, before or after its cell. -/
lemma placed_point (hi : i < a.points.length) :
    ∃ (j : ℕ) (b : Bool), a.Placed a.points[i] (some (j, real (if b then 1 else 0))) ∧ j + 1 < a.points.length ∧
      j + b.toNat = i := by
  have htwo := a.two_le
  by_cases hnext : i + 1 < a.points.length
  · have hp := Placed.inside hnext le_rfl (getElem_lt i.lt_succ_self hnext)
    rw [sub_self, zero_div] at hp
    exact ⟨i, false, hp, hnext, rfl⟩
  · have hlast : a.points[i] = a.last := by
      rw [last, getLast_eq_getElem]
      congr 1
      omega
    exact ⟨a.points.length - 2, true, .atLast hlast, by omega, by simp; omega⟩

lemma Stores.locate_first (h : a.Stores tol s) : s.locate (real a.first) = some (((0 : ℕ) : ℤ), real 0) := by
  have hend := a.first_lt_last
  cases h with
  | even _ hc hp =>
    rw [locate_even hc hp, if_neg hend.ne, if_neg (by simpa using hend)]
    simp
  | listed _ hc ht hfit hp =>
    have hpl := Placed.inside (by omega : 0 + 1 < a.points.length) le_rfl (getElem_lt Nat.zero_lt_one (by omega))
    rw [sub_self, zero_div, ← head_eq_getElem a.ne_nil] at hpl
    exact locate_listed hc ht hfit hp hpl

omit [SpecialFunctions] in
lemma exists_point_off (h : ¬a.EquallySpaced) :
    ∃ i, ∃ _ : i < a.points.length, (a.points[i] - a.first) * a.density ≠ i := by
  by_contra hall
  simp only [not_exists, not_not] at hall
  refine h ⟨1 / a.density, fun i hi => ?_⟩
  have hd := a.density_pos.ne'
  have hlow := hall i (by omega)
  have hhigh := hall (i + 1) hi
  push_cast at hhigh
  rw [eq_div_iff hd]
  linarith

lemma Stores.locate_off (h : a.Stores tol s) (hnear : a.IsNear tol) (hi : i < a.points.length)
    (hoff : (a.points[i] - a.first) * a.density ≠ i) :
    ∃ (j : ℕ) (w : ℝ), s.locate (real a.points[i]) = some ((j : ℤ), real w) ∧ w < 1 ∧ j + w ≠ i := by
  have hlast : a.points[i] ≠ a.last := by
    intro hlast
    have hend : i = a.points.length - 1 := by
      by_contra hne
      have hlt : a.points[i] < a.points[a.points.length - 1] := getElem_lt (by omega) (by omega)
      rw [hlast, last, getLast_eq_getElem] at hlt
      exact hlt.false
    have hgap : a.last - a.first ≠ 0 := (sub_pos.mpr a.first_lt_last).ne'
    refine hoff ?_
    rw [hlast, density, mul_div_cancel₀ _ hgap, hend, Nat.cast_pred (by omega)]
  have hc : ¬(a.points[i] < a.first ∨ a.last ≤ a.points[i]) :=
    not_or.mpr ⟨(first_le hi).not_gt, (lt_of_le_of_ne (le_last hi) hlast).not_ge⟩
  cases h with
  | listed hfar => exact absurd hnear hfar
  | even _ hco hp =>
    have hpos : 0 ≤ (a.points[i] - a.first) * a.density := mul_nonneg (sub_nonneg.mpr (first_le hi)) a.density_pos.le
    refine ⟨⌊(a.points[i] - a.first) * a.density⌋₊, Int.fract ((a.points[i] - a.first) * a.density), ?_,
      Int.fract_lt_one _, ?_⟩
    · rw [locate_even hco hp, if_neg hlast, if_neg hc, Int.natCast_floor_eq_floor hpos]
      rfl
    · rwa [← Int.cast_natCast, Int.natCast_floor_eq_floor hpos, Int.floor_add_fract]

end GridAxis

namespace Tensor

lemma position_inj {shape i j : List ℕ} (hi : Forall₂ (· < ·) i shape) (hj : Forall₂ (· < ·) j shape)
    (h : position shape i = position shape j) : i = j := by
  induction hi generalizing j with
  | nil =>
    cases hj
    rfl
  | @cons a n is shape _ his ih =>
    cases hj with
    | @cons b _ js _ _ hjs =>
      have hlow := position_lt his
      have hhigh := position_lt hjs
      simp only [position] at h
      have hab : a = b := by
        rcases Nat.lt_trichotomy a b with hlt | heq | hlt
        · have hstep := Nat.mul_le_mul_right (volume shape) (Nat.succ_le_of_lt hlt)
          rw [Nat.succ_mul] at hstep
          omega
        · exact heq
        · have hstep := Nat.mul_le_mul_right (volume shape) (Nat.succ_le_of_lt hlt)
          rw [Nat.succ_mul] at hstep
          omega
      subst hab
      rw [ih hjs (by omega)]

end Tensor

namespace Interpolator

variable {n : ℕ} {V : Tensor Exact} {i : Fin n → ℕ} {w : Fin n → ℝ}

/-- If all the weight is at one corner, so is the value. -/
lemma corner_sum_at (b : Fin n → Bool) (hw : ∀ k, w k = if b k then 1 else 0)
    (hreal : ∀ b : Fin n → Bool, (V.entry fun k => i k + (b k).toNat).IsReal) :
    ∑ c : Fin n → Bool, real (∏ k, if c k then w k else 1 - w k) * V.entry (fun k => i k + (c k).toNat) =
      V.entry fun k => i k + (b k).toNat := by
  rw [Fintype.sum_eq_single b fun c hc => ?_]
  · have hone : ∏ k, (if b k then w k else 1 - w k) = 1 :=
      Finset.prod_eq_one fun k _ => by cases hb : b k <;> simp [hw, hb]
    rw [hone, Exact.one_mul]
  · obtain ⟨k, hk⟩ := Function.ne_iff.mp hc
    have hzero : ∏ k, (if c k then w k else 1 - w k) = 0 :=
      Finset.prod_eq_zero (Finset.mem_univ k) (by cases hb : b k <;> cases hck : c k <;> simp_all)
    obtain ⟨r, hr⟩ := Exact.isReal_iff.mp (hreal c)
    rw [hzero, hr, Exact.real_mul_real, zero_mul]
    rfl

/-- The value one at a grid point, and zero at all others. -/
noncomputable def peak (shape : List ℕ) (index : Fin n → ℕ) : Tensor Exact :=
  ⟨shape, Array.ofFn fun p : Fin (volume shape) => real (if p = position shape (ofFn index) then 1 else 0)⟩

lemma entry_peak {m j index : Fin n → ℕ} (hj : ∀ k, j k < m k) (hi : ∀ k, index k < m k) :
    (peak (ofFn m) index).entry j = real (if j = index then 1 else 0) := by
  have hlt := Tensor.position_lt (forall₂_ofFn_lt hj)
  have heq : position (ofFn m) (ofFn j) = position (ofFn m) (ofFn index) ↔ j = index :=
    ⟨fun h => ofFn_injective (Tensor.position_inj (forall₂_ofFn_lt hj) (forall₂_ofFn_lt hi) h), fun h => by rw [h]⟩
  simp [Tensor.entry, peak, hlt, heq]

/-- On a single axis that is off, the value one at the grid point is not found. -/
lemma corner_sum_off {m index : Fin n → ℕ} {k₀ : Fin n} (hi : ∀ k, i k + 1 < m k) (hin : ∀ k, index k < m k)
    (ho : ∀ k ≠ k₀, i k = 0 ∧ w k = 0 ∧ index k = 0) (hlt : w k₀ < 1) (hoff : i k₀ + w k₀ ≠ index k₀) :
    ∑ b : Fin n → Bool, real (∏ k, if b k then w k else 1 - w k) *
      (peak (ofFn m) index).entry (fun k => i k + (b k).toNat) ≠ real 1 := by
  classical
  have he (b : Fin n → Bool) : (peak (ofFn m) index).entry (fun k => i k + (b k).toNat) =
      real (if (fun k => i k + (b k).toNat) = index then 1 else 0) :=
    entry_peak (fun k => by have := hi k; have := (b k).toNat_le; omega) hin
  let b : Fin n → Bool := fun k => decide (k = k₀ ∧ i k₀ + 1 = index k₀)
  -- at every other corner the value is zero
  rw [Fintype.sum_eq_single b fun c hc => ?_]
  · have hp : ∏ k, (if b k then w k else 1 - w k) = if b k₀ then w k₀ else 1 - w k₀ :=
      Finset.prod_eq_single k₀ (fun k _ hk => by simp [b, hk, (ho k hk).2.1]) (by simp)
    rw [hp, he, Exact.real_mul_real]
    intro hone
    by_cases hco : (fun k => i k + (b k).toNat) = index
    · have hk₀ := congrFun hco k₀
      rw [if_pos hco] at hone
      by_cases hb : i k₀ + 1 = index k₀
      · simp [b, hb] at hone
        exact hlt.ne hone
      · simp [b, hb] at hone hk₀
        exact hoff (by rw [hone, hk₀, add_zero])
    · simp [hco] at hone
  · rw [he, if_neg, Exact.real_mul_real, mul_zero]
    · rfl
    · intro hco
      refine hc (funext fun k => ?_)
      have hk := congrFun hco k
      by_cases hk₀ : k = k₀
      · subst hk₀
        cases hck : c k <;> simp [hck, b] at hk ⊢ <;> omega
      · have h0 := ho k hk₀
        cases hck : c k
        · simp [b, hk₀]
        · simp [hck] at hk
          omega

section

variable [SpecialFunctions] {tol : ℝ} {axes : Fin n → GridAxis} {g : Interpolator Exact} {stored : Fin n → StoredAxis Exact}

/-- Stored values are found again at all grid points exactly if each axis is evenly spaced or not within the
tolerance of that; there are fewer than 2^31 of them, and such an axis has at most 2^30 + 1 points. -/
theorem nodes_exact_iff (hn : 1 ≤ n) (hn' : n ≤ 5) (axes : Fin n → GridAxis) {tol : ℝ} (htol : 0 ≤ tol)
    (hwords : volume (List.ofFn fun k => (axes k).points.length) < 2147483648)
    (hfit : ∀ k, (axes k).IsNear tol ∨ (axes k).points.length ≤ 1073741825) :
    (∀ V : Tensor Exact, V.shape = (List.ofFn fun k => (axes k).points.length) → V.data.size = volume V.shape →
      (∀ v ∈ V.data, v.IsReal) →
      ∃ g, ofArrays (List.ofFn fun k => Tensor.ofList (axes k).entries) V (real tol) = .ok g ∧
        ∀ i : (k : Fin n) → Fin (axes k).points.length,
          g.interp (List.ofFn fun k => real ((axes k).points.get (i k))) = V.entry fun k => i k) ↔
      ∀ k, (axes k).EquallySpaced ∨ ¬(axes k).IsNear tol := by
  constructor
  · intro hall k₀
    by_contra hbad
    obtain ⟨hsp, hnear⟩ := not_or.mp hbad
    have hnear := not_not.mp hnear
    obtain ⟨i₀, hi₀, hoff⟩ := GridAxis.exists_point_off hsp
    obtain ⟨index, hi, hk₀, ho⟩ : ∃ index : Fin n → ℕ, (∀ k, index k < (axes k).points.length) ∧
        index k₀ = i₀ ∧ ∀ k ≠ k₀, index k = 0 := by
      refine ⟨Function.update 0 k₀ i₀, fun k => ?_, by simp, fun k hk => by simp [hk]⟩
      by_cases hk : k = k₀
      · subst hk
        simpa using hi₀
      · have := (axes k).two_le
        simp only [Function.update_of_ne hk, Pi.zero_apply]
        omega
    subst hk₀
    let V := peak (List.ofFn fun k => (axes k).points.length) index
    have hw : V.data.size < 2147483648 := by simpa [V, peak] using hwords
    obtain ⟨g, stored, hg, haxes, hv, hs⟩ := ofArrays_stores hn hn' axes (V := V) (by simp [V, peak]) hw htol hfit
    obtain ⟨g', hg', hno⟩ := hall V rfl (by simp [V, peak]) (by simp [V, peak])
    obtain rfl : g = g' := Except.ok.inj (hg.symm.trans hg')
    have hl (k : Fin n) : ∃ (j : ℕ) (w : ℝ),
        (stored k).locate (real ((axes k).points.get ⟨index k, hi k⟩)) = some ((j : ℤ), real w) ∧
        (k ≠ k₀ → j = 0 ∧ w = 0) ∧ (k = k₀ → w < 1 ∧ j + w ≠ index k) := by
      by_cases hk : k = k₀
      · subst hk
        obtain ⟨j, w, hj⟩ := (hs k).locate_off hnear hi₀ hoff
        exact ⟨j, w, hj.1, fun hne => absurd rfl hne, fun _ => hj.2⟩
      · have hf : (axes k).points.get ⟨index k, hi k⟩ = (axes k).first := by
          simp [GridAxis.first, head_eq_getElem, ho k hk]
        exact ⟨0, 0, hf ▸ (hs k).locate_first, fun _ => ⟨rfl, rfl⟩, fun heq => absurd heq hk⟩
    choose j w hx hzero hlast using hl
    have hj (k : Fin n) : j k + 1 < (axes k).points.length := (hs k).locate_lt (hx k)
    have hnode := hno fun k => ⟨index k, hi k⟩
    rw [interp_located hn hn' haxes hv rfl (by simp [V, peak]) hw hs hx, entry_peak hi hi, if_pos rfl] at hnode
    exact corner_sum_off hj hi (fun k hk => ⟨(hzero k hk).1, (hzero k hk).2, ho k hk⟩) (hlast k₀ rfl).1
      (hlast k₀ rfl).2 hnode
  · intro he V hsh hsize hreal
    have hw : V.data.size < 2147483648 := by rwa [hsize, hsh]
    obtain ⟨g, stored, hg, haxes, hv, hs⟩ := ofArrays_stores hn hn' axes (hsh ▸ hsize) hw htol hfit
    refine ⟨g, hg, fun i => ?_⟩
    choose j b hp hj hji using fun k => GridAxis.placed_point (i k).isLt
    have hx (k : Fin n) : (stored k).locate (real ((axes k).points.get (i k))) =
        some ((j k : ℤ), real (if b k then 1 else 0)) :=
      (hs k).locate_placed (he k) (hp k)
    rw [interp_located hn hn' haxes hv hsh hsize hw hs hx, corner_sum_at b fun _ => rfl]
    · simp only [hji]
    · intro c
      refine isReal_entry hreal hsize ?_
      rw [hsh]
      exact forall₂_ofFn_lt fun k => by have := hj k; have := (c k).toNat_le; omega

end

open scoped Standard in
theorem nodes_exact_iff_rectangle :
    ∃ g : Interpolator Exact, ofArrays [.ofList [real 0, real 1], .ofList [real 0, real 2]]
        ⟨[2, 2], #[real 1, real 2, real 4, real 8]⟩ (real (1 / 1000000)) = .ok g ∧
      g.interp [real 1, real 0] = real 4 ∧ g.interp [real 1, real 2] = real 8 := by
  let axes : Fin 2 → GridAxis := fun k => side 0 (k + 1) (by positivity)
  have hs (k : Fin 2) : (axes k).EquallySpaced := ⟨k + 1, fun i hi => by
    obtain rfl : i = 0 := by simp [axes, side] at hi; exact hi
    simp [axes, side]⟩
  have hfit (k : Fin 2) : (axes k).IsNear (1 / 1000000) ∨ (axes k).points.length ≤ 1073741825 :=
    .inr (by simp [axes, side])
  obtain ⟨g, hg, hn⟩ := (nodes_exact_iff (by decide) (by decide) axes (by norm_num : (0 : ℝ) ≤ 1 / 1000000)
      (by simp [axes, side, volume]) hfit).mpr
    (fun k => .inl (hs k)) ⟨[2, 2], #[real 1, real 2, real 4, real 8]⟩ rfl rfl (by simp)
  have he : (List.ofFn fun k => Tensor.ofList (axes k).entries) =
      [.ofList [real 0, real 1], .ofList [real 0, real 2]] := by
    simp [axes, side, GridAxis.entries]
    norm_num
  have hlow := hn fun k => if k = 0 then ⟨1, by simp [axes, side]⟩ else ⟨0, by simp [axes, side]⟩
  have hhigh := hn fun k => ⟨1, by simp [axes, side]⟩
  refine ⟨g, he ▸ hg, ?_, ?_⟩
  · simpa [axes, side, Tensor.entry, position, volume] using hlow
  · simp [axes, side, Tensor.entry, position, volume] at hhigh
    norm_num at hhigh
    exact hhigh

open scoped Standard in
/-- The points are far from evenly spaced, but the tolerance is larger than the axis. -/
theorem tiny_axis_off : ∃ g : Interpolator Exact,
    ofArrays [.ofList [real 0, real (1 / 10000000), real (5 / 10000000)]] ⟨[3], #[real 1, real 2, real 5]⟩
      (real (1 / 1000000)) = .ok g ∧ g.interp [real (1 / 10000000)] = real (7 / 5) := by
  let a : GridAxis := ⟨[0, 1 / 10000000, 5 / 10000000], by norm_num, by simp⟩
  let V : Tensor Exact := ⟨[3], #[real 1, real 2, real 5]⟩
  obtain ⟨g, stored, hg, haxes, hv, hs⟩ := ofArrays_stores (n := 1) (V := V) le_rfl (by decide) (fun _ => a)
    rfl (by simp [V]) (by norm_num : (0 : ℝ) ≤ 1 / 1000000) fun _ => .inr (by simp [a])
  have hl : (stored 0).locate (real (1 / 10000000)) = some (((0 : ℕ) : ℤ), real (2 / 5)) := by
    cases hs 0 with
    | even _ hc hp =>
      have hd : a.density = 4000000 := by norm_num [GridAxis.density, GridAxis.first, GridAxis.last, a]
      have hf : ⌊(2 / 5 : ℝ)⌋ = 0 := by norm_num
      rw [GridAxis.locate_even hc hp, hd]
      norm_num [GridAxis.first, GridAxis.last, a, hf]
    | listed hfar =>
      refine absurd ?_ hfar
      norm_num [GridAxis.IsNear, StoredAxis.isEven, StoredAxis.spread, range_succ, GridAxis.entries, GridAxis.first,
        GridAxis.last, a]
  have hx (k : Fin 1) : (stored k).locate (real (1 / 10000000)) = some (((0 : ℕ) : ℤ), real (2 / 5)) :=
    Subsingleton.elim 0 k ▸ hl
  have hsum := interp_located le_rfl (by decide) haxes hv rfl rfl (by simp [V]) hs hx
  refine ⟨g, by simpa [a, GridAxis.entries] using hg, ?_⟩
  simp [Cell.sum_corners, V, Tensor.entry, position, volume] at hsum
  norm_num at hsum ⊢
  exact hsum

end Interpolator

end GridBayes
