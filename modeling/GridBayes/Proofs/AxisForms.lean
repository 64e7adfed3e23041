import GridBayes.Proofs.Interpolation

/-! The two forms of an axis. An evenly spaced axis in short gives the same positions. The forms are told
apart by their entries, but an axis of two points that is not stored in short has too few of them. -/
namespace GridBayes
open List
open Exact (real)

namespace GridAxis

variable {a : GridAxis} {s : StoredAxis Exact} {t : ℝ} {place : Option (ℤ × Exact)}

/-! ## Evenly spaced points -/

lemma EquallySpaced.exists_step (h : a.EquallySpaced) : ∃ step, 0 < step ∧ a.density = 1 / step ∧
    ∀ i (_ : i < a.points.length), a.points[i] = a.first + i * step := by
  obtain ⟨step, hstep⟩ := h
  have htwo := a.two_le
  have hp (i : ℕ) (hi : i < a.points.length) : a.points[i] = a.first + i * step := by
    induction i with
    | zero => simp [first, head_eq_getElem]
    | succ i ih =>
      have hnext := hstep i hi
      rw [ih (by omega)] at hnext
      push_cast
      linarith
  have hpos : 0 < step := hstep 0 (by omega) ▸ sub_pos.mpr (getElem_lt Nat.zero_lt_one (by omega))
  have hlast : a.last = a.first + (a.points.length - 1 : ℕ) * step := by rw [last, getLast_eq_getElem, hp]
  have hc : ((a.points.length - 1 : ℕ) : ℝ) ≠ 0 := by exact_mod_cast (by omega : a.points.length - 1 ≠ 0)
  refine ⟨step, hpos, ?_, hp⟩
  rw [density, hlast, ← Nat.cast_pred (by omega), add_sub_cancel_left, div_mul_cancel_left₀ hc, one_div]

lemma locate_spaced [SpecialFunctions] (hs : a.EquallySpaced) (hc : s.count = a.points.length)
    (hpo : s.points = #[real a.first, real a.density, real 0]) (h : a.Placed t place) : s.locate (real t) = place := by
  obtain ⟨step, hpos, hd, hp⟩ := hs.exists_step
  rw [locate_even hc hpo]
  cases h with
  | outside h => rw [if_neg (ne_last h), if_pos (h.imp_right le_of_lt)]
  | @inside i hi hlow hhigh =>
    have hend : t < a.last := hhigh.trans_le (le_last hi)
    have hf : ⌊(t - a.first) / step⌋ = i := by
      rw [hp _ (by omega)] at hlow
      rw [hp _ hi] at hhigh
      push_cast at hhigh
      rw [Int.floor_eq_iff, le_div_iff₀ hpos, div_lt_iff₀ hpos]
      constructor <;> push_cast <;> linarith
    have hgap : a.points[i + 1] - a.points[i] = step := by
      rw [hp (i + 1) hi, hp i (by omega)]
      push_cast
      ring
    have hw : (t - a.points[i]) / (a.points[i + 1] - a.points[i]) = (t - a.first) / step - i := by
      rw [hgap, hp _ (by omega)]
      field_simp
      ring
    rw [if_neg hend.ne, if_neg (not_or.mpr ⟨((first_le (by omega)).trans hlow).not_gt, hend.not_ge⟩), hd,
      mul_one_div, hw]
    dsimp only
    rw [hf, Int.cast_natCast]
  | atLast h => rw [if_pos h]

end GridAxis

/-! ## Telling the forms apart -/

namespace StoredAxis

variable [SpecialFunctions] {tol x y z : Exact} {xs : List Exact} {s : StoredAxis Exact}

/-- What an axis is told to be by its entries and, if it has too few, by what is stored after it. -/
noncomputable def told (s : StoredAxis Exact) : Bool :=
  Id.run (isListed fun i => pure (s.get i))

omit [SpecialFunctions] in
lemma less_trans (hxy : x.Less y) (hyz : y.Less z) : x.Less z := by
  rcases x with _ | (_ | _) | x <;> rcases y with _ | (_ | _) | y <;> rcases z with _ | (_ | _) | z <;>
    first | trivial | exact hxy.elim | exact hyz.elim | exact lt_trans hxy hyz

lemma less_getLast (h : increasing (x :: y :: xs) = true) : x.Less ((y :: xs).getLast (cons_ne_nil _ _)) := by
  induction xs generalizing x y with
  | nil => classical exact decide_eq_true_iff.mp (Bool.and_eq_true_iff.mp h).1
  | cons z xs ih =>
    obtain ⟨hxy, hrest⟩ := Bool.and_eq_true_iff.mp h
    classical exact less_trans (decide_eq_true_iff.mp hxy) (ih hrest)

/-- Axes with infinite ends are within no tolerance of evenly spaced ones. -/
lemma real_of_isEven (hless : x.Less z) (h : isEven tol (x :: y :: xs) x z = true) :
    ∃ r r' : ℝ, r < r' ∧ x = real r ∧ z = real r' := by
  have hs : spread x z (xs.length + 2) = (real 0 * ((z - x) / real (xs.length + 1 : ℕ)) + x) ::
      (spread x z (xs.length + 2)).tail := by
    simp [spread, range_succ_eq_map]
  have hf : Scalar.le (Scalar.fabs (x - (real 0 * ((z - x) / real (xs.length + 1 : ℕ)) + x)))
      (tol + tol * Scalar.fabs (real 0 * ((z - x) / real (xs.length + 1 : ℕ)) + x)) = true := by
    have hl : (x :: y :: xs).length = xs.length + 2 := rfl
    rw [isEven, hl, hs, zip_cons_cons, all_cons, Bool.and_eq_true_iff] at h
    exact h.1
  have hnan : real 0 * ((z - x) / real (xs.length + 1 : ℕ)) + x ≠ .nan := by
    intro hnan
    rw [hnan] at hf
    classical
    rcases decide_eq_true_iff.mp hf with hlt | ⟨-, hne⟩
    · rcases x with _ | _ | x <;> exact hlt
    · rcases x with _ | _ | x <;> exact hne rfl
  rcases x with _ | (_ | _) | x <;> rcases z with _ | (_ | _) | z
  case real.real => exact ⟨x, z, hless, rfl, rfl⟩
  all_goals first | exact hless.elim | exact absurd ((congrArg (· + _) (Exact.scaled_zero _)).trans (Exact.nan_add _)) hnan

/-- How an axis is stored, and what it is told to be. -/
inductive Form (tol : Exact) (xs : List Exact) (s : StoredAxis Exact) : Prop
  | short {first density : Exact} (hpoints : s.points = #[first, density, real 0]) (htold : s.told = false)
  | listed (hpoints : s.points = xs.toArray) (hthree : 3 ≤ xs.length) (htold : s.told = true)
  | pair {x y : Exact} (hxs : xs = [x, y]) (hpoints : s.points = #[x, y])
      (htold : s.told = Scalar.lt y (s.after.getD 0 Scalar.nan))
      (hodd : ¬∃ r r' d : ℝ, x = real r ∧ y = real r' ∧ tol = real d ∧ 0 ≤ d)

lemma form_of_ofPoints (htwo : 2 ≤ xs.length) (h : ofPoints tol xs = .ok s) (after : Array Exact) :
    Form tol xs { s with after := after } := by
  obtain ⟨x, y, rest, rfl⟩ : ∃ x y rest, xs = x :: y :: rest := by
    match xs, htwo with
    | x :: y :: rest, _ => exact ⟨x, y, rest, rfl⟩
  unfold ofPoints at h
  split at h
  · cases h
  rename_i hi
  have hi : increasing (x :: y :: rest) = true := by simpa using hi
  have hlast : (x :: y :: rest).getLast? = some ((y :: rest).getLast (cons_ne_nil _ _)) := by simp [getLast?_eq_some_getLast]
  rw [head?_cons, hlast] at h
  dsimp only at h
  split at h
  · rename_i heven
    obtain ⟨r, r', hlt, rfl, hreal⟩ := real_of_isEven (less_getLast hi) heven
    have hgap : 0 < r' - r := sub_pos.mpr hlt
    have hzero : (0.0 : Exact) = real 0 := by norm_num
    have hde : 0 ≤ ((rest.length + 2 : ℕ) - 1) / (r' - r) :=
      div_nonneg (by push_cast; linarith [rest.length.cast_nonneg (α := ℝ)]) hgap.le
    have hl : (real r :: y :: rest).length = rest.length + 2 := rfl
    rw [hreal, hzero, Exact.one_eq, Exact.ofNat_eq, Exact.real_sub_real, Exact.real_sub_real,
      Exact.real_div_real _ hgap.ne'] at h
    cases h
    exact .short rfl (Bool.eq_false_iff.mpr (mt (Exact.lt_real _ _).mp hde.not_gt))
  · rename_i heven
    cases h
    cases rest with
    | nil =>
      refine .pair rfl rfl rfl ?_
      rintro ⟨r, r', d, rfl, rfl, rfl, hd⟩
      exact heven (GridAxis.isEven_pair hd r r')
    | cons z rest => exact .listed rfl (by simp) (Bool.and_eq_true_iff.mp (Bool.and_eq_true_iff.mp hi).2).1

/-- Both forms of an evenly spaced axis give the same positions. Its entries tell the form of an axis that is stored
in short or has three points; two points that are stored as they are are told by what stands after them. -/
theorem forms_agree : (∀ a : GridAxis, 3 ≤ a.points.length → a.points.length ≤ 1073741825 → a.EquallySpaced →
    ∀ (t : ℝ) (after after' : Array Exact),
      (⟨#[real a.first, real a.density, real 0], a.points.length, after⟩ : StoredAxis Exact).locate (real t) =
        (⟨a.entries.toArray, a.points.length, after'⟩ : StoredAxis Exact).locate (real t)) ∧
    ∀ (tol : Exact) (xs : List Exact) (s : StoredAxis Exact) (after : Array Exact), 2 ≤ xs.length →
      ofPoints tol xs = .ok s → Form tol xs { s with after := after } := by
  refine ⟨fun a ht hfit hs t after after' => ?_, fun tol xs s after htwo h => form_of_ofPoints htwo h after⟩
  obtain ⟨place, hp⟩ := a.exists_placed t
  rw [GridAxis.locate_spaced hs rfl rfl hp, GridAxis.locate_listed rfl ht hfit rfl hp]

open scoped Standard in
theorem forms_agree_three : (⟨#[real 0, real 1, real 0], 3, #[]⟩ : StoredAxis Exact).locate (real (3 / 2)) =
      (⟨#[real 0, real 1, real 2], 3, #[real 5]⟩ : StoredAxis Exact).locate (real (3 / 2)) ∧
    ∃ s, ofPoints (real 0) [real 0, real 1, real 2] = .ok s ∧
      Form (real 0) [real 0, real 1, real 2] { s with after := #[real 5] } := by
  let a : GridAxis := ⟨[0, 1, 2], by norm_num, by simp⟩
  have hs : a.EquallySpaced := ⟨1, fun i hi => by
    have hi' : i < 2 := Nat.lt_of_succ_lt_succ hi
    interval_cases i <;> norm_num [a]⟩
  have hd : a.density = 1 := by norm_num [GridAxis.density, GridAxis.first, GridAxis.last, a]
  have hagree := forms_agree.1 a le_rfl (by simp [a]) hs (3 / 2) #[] #[real 5]
  rw [hd] at hagree
  obtain ⟨s, hmade, -⟩ := a.ofPoints_stores le_rfl (.inr (by simp [a]))
  exact ⟨hagree, s, hmade, forms_agree.2 _ _ s #[real 5] (by simp) hmade⟩

end StoredAxis

open scoped Standard in
/-- Two points stored as they are, and found evenly spaced with the wrong density. -/
theorem Interpolator.pair_told_even :
    let s : StoredAxis Exact := ⟨#[real 0, real 2], 2, #[real 1, real 3]⟩
    ∃ g : Interpolator Exact, ofArrays [.ofList [real 0, real 2]] ⟨[2], #[real 1, real 3]⟩ (real (-1)) = .ok g ∧
      g.axes = [s] ∧ s.told = false ∧ g.interp [real 1] = .nan := by
  intro s
  have hsp : StoredAxis.spread (real 0) (real 2) 2 = [real 0, real 2] := by simp [StoredAxis.spread, range_succ]
  have hs : StoredAxis.ofPoints (real (-1)) [real 0, real 2] = .ok ⟨#[real 0, real 2], 2, #[]⟩ := by
    have hodd : ¬StoredAxis.isEven (real (-1)) [real 0, real 2] (real 0) (real 2) = true := by
      simp [StoredAxis.isEven, hsp]
    simp [StoredAxis.ofPoints, StoredAxis.increasing, hodd]
  have hc : create [[real 0, real 2]] #[real 1, real 3] (real (-1)) =
      .ok ⟨[s], #[real 1, real 3], [(real 0, real 2)]⟩ :=
    create_eq_ok.mpr ⟨by simp, _, .cons hs .nil, ⟨by simp, by decide⟩, rfl⟩
  have htold : s.told = false := Bool.eq_false_iff.mpr (mt (Exact.lt_real 2 1).mp (by norm_num))
  have hlo : s.locate (real 1) = none := by
    have hget0 : s.get 0 = real 0 := rfl
    have hget1 : s.get 1 = real 2 := rfl
    have hl : StoredAxis.isListed (m := Id) (fun i => pure (s.get i)) = pure false := htold
    unfold StoredAxis.locate StoredAxis.locateWith
    rw [hl]
    norm_num [hget0, hget1, s]
  refine ⟨⟨[s], #[real 1, real 3], [(real 0, real 2)]⟩, ?_, rfl, htold, ?_⟩
  · simpa [ofArrays, StoredAxis.ofArray, Tensor.ofList, hs, Except.map, bind, Except.bind, pure, Except.pure] using hc
  · change _ = Scalar.nan
    simp [interp, ndim, evaluate, evaluateWith, hlo]

end GridBayes
