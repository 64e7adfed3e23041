import GridBayes.Interpolator
import GridBayes.Numeric.Double
import GridBayes.Proofs.ExactScalar

/-! Finding a point on an axis, over exact scalars. Of an axis with at least two increasing points
either all points are stored, then there are three of them, or it is stored as evenly spaced. In both
forms exactly the points from the first to the last have a position, and the grid point after it
exists. Where all points are stored, and the sum of two indices is always a word, the search comes to
its end, reads nothing but the axis and finds the cell with the exact weight; with one point more it
may go on forever. -/
namespace GridBayes
open List StoredAxis
open Exact (real)

structure GridAxis where
  points : List ℝ
  increasing : points.Pairwise (· < ·)
  two_le : 2 ≤ points.length

namespace GridAxis

lemma ne_nil (a : GridAxis) : a.points ≠ [] := ne_nil_of_length_pos (by have := a.two_le; omega)

def first (a : GridAxis) : ℝ :=
  a.points.head a.ne_nil

def last (a : GridAxis) : ℝ :=
  a.points.getLast a.ne_nil

lemma first_lt_last (a : GridAxis) : a.first < a.last := by
  have h := a.two_le
  rw [first, last, head_eq_getElem, getLast_eq_getElem]
  exact pairwise_iff_getElem.mp a.increasing _ _ _ _ (by omega)

noncomputable def density (a : GridAxis) : ℝ :=
  (a.points.length - 1) / (a.last - a.first)

lemma density_pos (a : GridAxis) : 0 < a.density := by
  have h : (2 : ℝ) ≤ a.points.length := by exact_mod_cast a.two_le
  exact div_pos (by linarith) (sub_pos.mpr a.first_lt_last)

def entries (a : GridAxis) : List Exact :=
  a.points.map real

variable [SpecialFunctions]

/-- The points are within the tolerance of evenly spaced ones. -/
def IsNear (a : GridAxis) (tol : ℝ) : Prop :=
  isEven (real tol) a.entries (real a.first) (real a.last) = true

inductive Stores (a : GridAxis) (tol : ℝ) (s : StoredAxis Exact) : Prop
  | even (hnear : a.IsNear tol) (hcount : s.count = a.points.length)
      (hpoints : s.points = #[real a.first, real a.density, real 0])
  | listed (hnear : ¬a.IsNear tol) (hcount : s.count = a.points.length) (hthree : 3 ≤ a.points.length)
      (hfit : a.points.length ≤ 1073741825) (hpoints : s.points = a.entries.toArray)

variable {a : GridAxis} {s : StoredAxis Exact} {tol : ℝ} {i : ℕ} {x : Exact}

lemma Stores.count (h : a.Stores tol s) : s.count = a.points.length := by cases h <;> assumption

lemma Stores.withAfter (h : a.Stores tol s) (after : Array Exact) : a.Stores tol { s with after := after } := by
  cases h with
  | even hnear hc hp => exact .even hnear hc hp
  | listed hnear hc ht hfit hp => exact .listed hnear hc ht hfit hp

/-! ## Storing -/

lemma increasing_entries {xs : List ℝ} (h : xs.Pairwise (· < ·)) : StoredAxis.increasing (xs.map real) = true := by
  match xs with
  | [] => rfl
  | [x] => rfl
  | x :: y :: rest =>
    have hrest : StoredAxis.increasing (real y :: rest.map real) = true := increasing_entries h.tail
    have hxy : x < y := rel_of_pairwise_cons h mem_cons_self
    simp only [map_cons]
    rw [StoredAxis.increasing, hrest, Bool.and_true]
    exact (Exact.lt_real x y).mpr hxy

lemma isEven_pair (htol : 0 ≤ tol) (x y : ℝ) : isEven (real tol) [real x, real y] (real x) (real y) = true := by
  have hnear (z : ℝ) : 0 ≤ tol + tol * |z| := by positivity
  have hs : spread (real x) (real y) 2 = [real x, real y] := by simp [spread, range_succ]
  simp [StoredAxis.isEven, hs, hnear]

lemma ofPoints_stores (a : GridAxis) (htol : 0 ≤ tol) (hfit : a.IsNear tol ∨ a.points.length ≤ 1073741825) :
    ∃ s, StoredAxis.ofPoints (real tol) a.entries = .ok s ∧ a.Stores tol s := by
  have hhead : a.entries.head? = some (real a.first) := by
    rw [entries, head?_map, head?_eq_some_head a.ne_nil]
    rfl
  have hlast : a.entries.getLast? = some (real a.last) := by
    rw [entries, getLast?_map, getLast?_eq_some_getLast a.ne_nil]
    rfl
  have hl : a.entries.length = a.points.length := length_map _
  have hi : StoredAxis.increasing a.entries = true := increasing_entries a.increasing
  unfold StoredAxis.ofPoints
  simp only [hi, hhead, hlast, Bool.not_true, Bool.false_eq_true, if_false]
  split
  · rename_i hnear
    refine ⟨_, rfl, .even hnear hl ?_⟩
    have hne : a.last - a.first ≠ 0 := (sub_pos.mpr a.first_lt_last).ne'
    simp [hl, density, hne]
    norm_num
  · rename_i hodd
    refine ⟨_, rfl, .listed hodd hl ?_ (hfit.resolve_left hodd) rfl⟩
    by_contra ht
    have htwo : a.points.length = 2 := by have := a.two_le; omega
    obtain ⟨x, y, hxy⟩ := length_eq_two.mp htwo
    refine hodd ?_
    have hx : a.first = x := by simp [first, hxy]
    have hy : a.last = y := by simp [last, hxy]
    rw [entries, hxy, hx, hy]
    exact isEven_pair htol x y

/-! ## Cells -/

def InCell (a : GridAxis) (t : ℝ) (i : ℕ) : Prop :=
  ∃ h : i + 1 < a.points.length, a.points[i] ≤ t ∧ t < a.points[i + 1]

omit [SpecialFunctions] in
lemma getElem_lt {j : ℕ} (hij : i < j) (hj : j < a.points.length) : a.points[i] < a.points[j] :=
  pairwise_iff_getElem.mp a.increasing _ _ _ _ hij

omit [SpecialFunctions] in
lemma getElem_le {j : ℕ} (hij : i ≤ j) (hj : j < a.points.length) : a.points[i] ≤ a.points[j] := by
  rcases Nat.lt_or_eq_of_le hij with h | rfl
  · exact (getElem_lt h hj).le
  · exact le_rfl

omit [SpecialFunctions] in
lemma exists_inCell {t : ℝ} (hf : a.first ≤ t) (hlast : t < a.last) : ∃ i, a.InCell t i := by
  have hb (k : ℕ) (h : k < a.points.length) (hk : t < a.points[k]) : ∃ i, a.InCell t i := by
    induction k with
    | zero => exact absurd hk (by rwa [not_lt, ← head_eq_getElem a.ne_nil])
    | succ k ih =>
      by_cases hlt : t < a.points[k]
      · exact ih (by omega) hlt
      · exact ⟨k, h, not_lt.mp hlt, hk⟩
  exact hb (a.points.length - 1) (by have := a.two_le; omega) (by rwa [last, getLast_eq_getElem] at hlast)

omit [SpecialFunctions] in
/-- The cells before and after that of a point are told from it by their ends. -/
lemma InCell.cases {t : ℝ} {j : ℕ} (h : a.InCell t i) (hj : j < a.points.length) :
    (a.points[j] ≤ t ↔ j ≤ i) ∧ (a.points[j] < t → j ≤ i) ∧ (t ≤ a.points[j] → i ≤ j) := by
  obtain ⟨hi, hlow, hhigh⟩ := h
  have hle : a.points[j] ≤ t → j ≤ i := fun hjt => by
    by_contra hij
    exact (hjt.trans_lt hhigh).not_ge (getElem_le (by omega) hj)
  refine ⟨⟨hle, fun hji => (getElem_le hji (by omega)).trans hlow⟩, fun hjt => hle hjt.le, fun htj => ?_⟩
  by_contra hij
  exact (getElem_lt (by omega) (by omega)).not_ge (hlow.trans htj)

/-! ## Finding -/

section

variable {m : Type → Type} [Monad m] [LawfulMonad m] {read : ℤ → m Exact} {t : ℝ}

lemma isInCell_eq (hread : ∀ (i : ℕ) (h : i < a.points.length), read i = pure (real a.points[i])) (h : a.InCell t i)
    {j : ℕ} (hj : j + 1 < a.points.length) : isInCell read (real t) j = pure (decide (j = i)) := by
  have hlow := (h.cases (by omega : j < a.points.length)).1
  have hhigh := (h.cases hj).1
  unfold isInCell
  simp only [hread j (by omega), ← Nat.cast_succ, hread (j + 1) hj, pure_bind, Exact.le_real, hlow]
  split
  · congr 1
    rw [Bool.eq_iff_iff, Exact.lt_real, ← not_le, hhigh, decide_eq_true_iff]
    omega
  · rw [decide_eq_false (by omega)]

omit [SpecialFunctions] in
lemma middle_eq (low high : ℕ) (h : low + high < 2147483648) : middle low high = ((low + high) / 2 : ℕ) := by
  rw [middle, ← Nat.cast_add, inWord_eq (Int.natCast_nonneg _) (by exact_mod_cast h)]
  rfl

/-- In as many looks as the range is wide, the cell of the point is found. -/
lemma bisect_eq (hread : ∀ (i : ℕ) (h : i < a.points.length), read i = pure (real a.points[i]))
    (hfit : a.points.length ≤ 1073741825) (h : a.InCell t i) {looks low high j : ℕ} (hlow : low ≤ i) (hi : i < high)
    (hhigh : high < a.points.length) (hj : j + 1 < a.points.length) (hl : high - low < looks) :
    bisect read (real t) looks low high j = pure (some (i : ℤ)) := by
  induction looks generalizing low high j with
  | zero => omega
  | succ looks ih =>
    have hf (low high : ℤ) (hpos : 0 < looks) : bisect read (real t) looks low high i = pure (some (i : ℤ)) := by
      obtain ⟨looks, rfl⟩ := Nat.exists_eq_add_one.mpr hpos
      simp [bisect, isInCell_eq hread h (by omega : i + 1 < a.points.length)]
    unfold bisect
    simp only [isInCell_eq hread h hj, pure_bind, decide_eq_true_iff]
    split
    · rename_i hji
      rw [hji]
    have hm : (low + high) / 2 < a.points.length := by omega
    rw [middle_eq _ _ (by omega), hread _ hm, pure_bind]
    obtain ⟨-, hb, ha⟩ := h.cases hm
    simp only [Exact.lt_real]
    -- the middle is the index itself, or the range gets narrower
    rcases eq_or_ne ((low + high) / 2) i with hmid | hmid
    · split <;> rw [hmid] <;> exact hf _ _ (by omega)
    · split
      · rename_i hlt
        have hle := hb hlt
        exact ih (by omega) hi hhigh (by omega) (by omega)
      · rename_i hge
        have hle := ha (not_lt.mp hge)
        exact ih hlow (by omega) (by omega) (by omega) (by omega)

lemma bisect_all (hread : ∀ (i : ℕ) (h : i < a.points.length), read i = pure (real a.points[i]))
    (hfit : a.points.length ≤ 1073741825) (h : a.InCell t i) {looks : ℕ} (hl : a.points.length ≤ looks) :
    bisect read (real t) looks 0 (a.points.length - 1 : ℕ) (middle 0 (a.points.length - 1 : ℕ)) =
      pure (some (i : ℤ)) := by
  have hi := h.1
  have hmid := middle_eq 0 (a.points.length - 1) (by omega)
  rw [Nat.cast_zero] at hmid
  rw [hmid]
  exact bisect_eq hread hfit h i.zero_le (by omega) (by omega) (by omega) (by omega)

def EquallySpaced (a : GridAxis) : Prop :=
  ∃ step, ∀ i (_ : i + 1 < a.points.length), a.points[i + 1] - a.points[i] = step

/-- Where a point stands on an axis. -/
inductive Placed (a : GridAxis) (t : ℝ) : Option (ℤ × Exact) → Prop
  | outside (h : t < a.first ∨ a.last < t) : Placed a t none
  | inside {i : ℕ} (hi : i + 1 < a.points.length) (hlow : a.points[i] ≤ t) (hhigh : t < a.points[i + 1]) :
    Placed a t (some (i, real ((t - a.points[i]) / (a.points[i + 1] - a.points[i]))))
  | atLast (h : t = a.last) : Placed a t (some ((a.points.length - 2 : ℕ), real 1))

omit [SpecialFunctions] in
lemma exists_placed (a : GridAxis) (t : ℝ) : ∃ place, a.Placed t place := by
  rcases lt_trichotomy t a.last with hlt | heq | hgt
  · by_cases hf : t < a.first
    · exact ⟨_, .outside (.inl hf)⟩
    · obtain ⟨i, hi, hlow, hhigh⟩ := exists_inCell (not_lt.mp hf) hlt
      exact ⟨_, .inside hi hlow hhigh⟩
  · exact ⟨_, .atLast heq⟩
  · exact ⟨_, .outside (.inr hgt)⟩

lemma atEnd_eq (a : GridAxis) : atEnd a.points.length = some (((a.points.length - 2 : ℕ) : ℤ), real 1) := by
  have htwo := a.two_le
  have hone : (1.0 : Exact) = real 1 := by norm_num
  unfold atEnd
  rw [if_neg (by omega), hone, Nat.cast_sub htwo]
  rfl

omit [SpecialFunctions] in
lemma first_le (hi : i < a.points.length) : a.first ≤ a.points[i] := by
  rw [first, head_eq_getElem]
  exact getElem_le (Nat.zero_le i) hi

omit [SpecialFunctions] in
lemma le_last (hi : i < a.points.length) : a.points[i] ≤ a.last := by
  rw [last, getLast_eq_getElem]
  exact getElem_le (by omega) (by omega)

omit [SpecialFunctions] in
lemma ne_last (h : t < a.first ∨ a.last < t) : t ≠ a.last := by
  rintro rfl
  exact h.elim a.first_lt_last.not_gt (lt_irrefl _)

/-- All points of an axis are read as they are, and none but them. -/
lemma locateWith_listed (hread : ∀ (i : ℕ) (h : i < a.points.length), read i = pure (real a.points[i]))
    (ht : 3 ≤ a.points.length) (hfit : a.points.length ≤ 1073741825) {place : Option (ℤ × Exact)} (h : a.Placed t place) :
    locateWith read a.points.length a.points.length (real t) = pure place := by
  have hf : read 0 = pure (real a.first) := by
    rw [first, head_eq_getElem]
    exact hread 0 (by omega)
  have hend : (a.points.length : ℤ) - 1 = (a.points.length - 1 : ℕ) := by omega
  have hlast : read (a.points.length - 1 : ℕ) = pure (real a.last) := by rw [hread _ (by omega), last, getLast_eq_getElem]
  have hl : isListed read = pure true := by
    have hlt : a.points[1] < a.points[2] := getElem_lt (by omega) (by omega)
    have h1 := hread 1 (by omega)
    have h2 := hread 2 (by omega)
    simp only [Nat.cast_one, Nat.cast_ofNat] at h1 h2
    simp [isListed, h1, h2, (Exact.lt_real _ _).mpr hlt]
  have hword : inWord (a.points.length - 1 : ℕ) = (a.points.length - 1 : ℕ) := inWord_eq (by omega) (by omega)
  unfold locateWith
  rw [hend, hword]
  simp only [Exact.isFinite_real, Bool.not_true, Bool.false_eq_true, if_false, hl, hlast, hf, pure_bind,
    if_true, Exact.eq_real, Exact.lt_real, Bool.or_eq_true, atEnd_eq]
  cases h with
  | outside h => rw [if_neg (ne_last h), if_pos h]
  | @inside i hi hlow hhigh =>
    have hend : t < a.last := hhigh.trans_le (le_last hi)
    rw [if_neg hend.ne, if_neg (not_or.mpr ⟨((first_le (by omega)).trans hlow).not_gt, hend.not_gt⟩),
      bisect_all hread hfit ⟨hi, hlow, hhigh⟩ (hfit.trans (by decide))]
    have hgap : a.points[i + 1] - a.points[i] ≠ 0 := (sub_pos.mpr (getElem_lt i.lt_succ_self hi)).ne'
    have hnext := hread (i + 1) hi
    rw [Nat.cast_succ] at hnext
    simp [hread i (by omega), hnext, hgap]
  | atLast h => rw [if_pos h]

lemma locateWith_even (hread : ∀ (i : ℕ) (h : i < s.points.size), read i = pure s.points[i])
    (hc : s.count = a.points.length) (hp : s.points = #[real a.first, real a.density, real 0]) (t : ℝ) :
    locateWith read s.points.size s.count (real t) = pure (
      if t = a.last then some (((a.points.length - 2 : ℕ) : ℤ), real 1)
      else if t < a.first ∨ a.last ≤ t then none
      else
        let u := (t - a.first) * a.density
        some (⌊u⌋, real (u - ⌊u⌋))) := by
  have hsize : s.points.size = 3 := by rw [hp]; rfl
  have hget0 : read 0 = pure (real a.first) := by simpa [hp] using hread 0 (by omega)
  have hget1 : read 1 = pure (real a.density) := by simpa [hp] using hread 1 (by omega)
  have hget2 : read 2 = pure (real 0) := by simpa [hp] using hread 2 (by omega)
  have hd := a.density_pos
  have hli : isListed read = pure false := by
    have hlt : ¬ Scalar.lt (real a.density) (real 0) = true := by simp [hd.le]
    simp [isListed, hget1, hget2, hlt]
  have hfi : real a.first + Scalar.ofNat (s.count - 1) / real a.density = real a.last := by
    have hone : 1 ≤ a.points.length := by have := a.two_le; omega
    have hl : ((a.points.length - 1 : ℕ) : ℝ) ≠ 0 := by
      have := a.two_le
      exact_mod_cast (by omega : a.points.length - 1 ≠ 0)
    rw [hc, Exact.ofNat_eq, Exact.real_div_real _ hd.ne', Exact.real_add_real, density,
      ← Nat.cast_pred hone, div_div_cancel₀ hl, add_sub_cancel]
  unfold locateWith
  simp only [hli, hget0, hget1, pure_bind, hfi, Exact.isFinite_real, Exact.lt_real, Exact.le_real,
    Exact.eq_real, Bool.not_true, Bool.false_eq_true, Bool.or_eq_true, if_false]
  rw [hc, atEnd_eq]
  split
  · rfl
  split
  · rfl
  rename_i hend hout
  obtain ⟨hfir, hlast⟩ := not_or.mp hout
  have hw : 0 ≤ (t - a.first) * a.density := mul_nonneg (sub_nonneg.mpr (not_lt.mp hfir)) hd.le
  have hf : 0 ≤ ⌊(t - a.first) * a.density⌋ := Int.floor_nonneg.mpr hw
  have habs : ((⌊(t - a.first) * a.density⌋.natAbs : ℕ) : ℝ) = ⌊(t - a.first) * a.density⌋ := by
    rw [← Int.cast_natCast, Int.natAbs_of_nonneg hf]
  simp [Exact.truncate_real hw, hf.not_gt, habs]

end

lemma get_of_lt (s : StoredAxis Exact) (i : ℕ) (h : i < s.points.size) : s.get i = s.points[i] := by
  have hsign : ¬(i : ℤ) < 0 := by omega
  simp [StoredAxis.get, get?, placeOf_natCast, h, hsign]

lemma locate_even (hc : s.count = a.points.length) (hp : s.points = #[real a.first, real a.density, real 0]) (t : ℝ) :
    s.locate (real t) = if t = a.last then some (((a.points.length - 2 : ℕ) : ℤ), real 1)
      else if t < a.first ∨ a.last ≤ t then none
      else
        let u := (t - a.first) * a.density
        some (⌊u⌋, real (u - ⌊u⌋)) :=
  locateWith_even (m := Id) (fun i h => congrArg pure (get_of_lt s i h)) hc hp t

lemma get_entries (hp : s.points = a.entries.toArray) (h : i < a.points.length) : s.get i = real a.points[i] := by
  rw [get_of_lt s i (by simpa [hp, entries] using h)]
  simp [hp, entries]

lemma locate_listed (hc : s.count = a.points.length) (ht : 3 ≤ a.points.length) (hfit : a.points.length ≤ 1073741825)
    (hp : s.points = a.entries.toArray) {t : ℝ} {place : Option (ℤ × Exact)} (h : a.Placed t place) :
    s.locate (real t) = place := by
  have hsize : s.points.size = a.points.length := by simp [hp, entries]
  have hread (i : ℕ) (hi : i < a.points.length) : (pure (s.get i) : Id Exact) = pure (real a.points[i]) :=
    congrArg pure (get_entries hp hi)
  have hl : locateWith (fun i => pure (s.get i)) _ _ _ = _ := locateWith_listed hread ht hfit h
  unfold locate
  rw [hsize, hc, hl]
  rfl

def Covers (a : GridAxis) (x : Exact) : Prop :=
  ∃ t, x = real t ∧ a.first ≤ t ∧ t ≤ a.last

lemma Stores.locate_covered (h : a.Stores tol s) (hx : a.Covers x) :
    ∃ (i : ℕ) (w : ℝ), s.locate x = some ((i : ℤ), real w) ∧ i + 1 < a.points.length := by
  obtain ⟨t, rfl, hf, hlast⟩ := hx
  have htwo := a.two_le
  by_cases hend : t = a.last
  · refine ⟨a.points.length - 2, 1, ?_, by omega⟩
    cases h with
    | even _ hc hp => rw [locate_even hc hp, if_pos hend]
    | listed _ hc ht hfit hp => exact locate_listed hc ht hfit hp (.atLast hend)
  · have hlt : t < a.last := lt_of_le_of_ne hlast hend
    cases h with
    | even _ hc hp =>
      have hd : 0 ≤ (t - a.first) * a.density := mul_nonneg (sub_nonneg.mpr hf) a.density_pos.le
      have hb : (t - a.first) * a.density < a.points.length - 1 := by
        have hgap := sub_pos.mpr a.first_lt_last
        rw [density, mul_div_assoc', div_lt_iff₀ hgap, mul_comm]
        have hl : (0 : ℝ) < a.points.length - 1 := by
          have : (2 : ℝ) ≤ a.points.length := by exact_mod_cast htwo
          linarith
        exact mul_lt_mul_of_pos_left (by linarith) hl
      refine ⟨⌊(t - a.first) * a.density⌋₊, (t - a.first) * a.density - ⌊(t - a.first) * a.density⌋, ?_, ?_⟩
      · rw [locate_even hc hp, if_neg hend, if_neg (by simp [hf, hlt]), Int.natCast_floor_eq_floor hd]
      · have hfl : ⌊(t - a.first) * a.density⌋₊ < a.points.length - 1 := by
          rw [Nat.floor_lt hd, Nat.cast_pred (by omega)]
          exact hb
        omega
    | listed _ hc ht hfit hp =>
      obtain ⟨i, hi, hlow, hhigh⟩ := exists_inCell hf hlt
      exact ⟨i, _, locate_listed hc ht hfit hp (.inside hi hlow hhigh), hi⟩

lemma Stores.locate_uncovered (h : a.Stores tol s) (hx : ¬a.Covers x) : s.locate x = none := by
  by_cases hreal : x.IsReal
  · obtain ⟨t, rfl⟩ := Exact.isReal_iff.mp hreal
    have hout : t < a.first ∨ a.last < t := by
      by_contra hin
      obtain ⟨hfi, hlast⟩ := not_or.mp hin
      exact hx ⟨t, rfl, not_lt.mp hfi, not_lt.mp hlast⟩
    cases h with
    | even _ hc hp => rw [locate_even hc hp, if_neg (ne_last hout), if_pos (hout.imp_right le_of_lt)]
    | listed _ hc ht hfit hp => exact locate_listed hc ht hfit hp (.outside hout)
  · have hf : Scalar.isFinite x = false := Bool.eq_false_iff.mpr (mt Exact.isFinite_iff.mp hreal)
    simp [locate, locateWith, hf]

lemma Stores.covers_iff (h : a.Stores tol s) : a.Covers x ↔ ∃ (i : ℕ) (w : ℝ), s.locate x = some ((i : ℤ), real w) := by
  constructor
  · intro hx
    obtain ⟨i, w, hl, -⟩ := h.locate_covered hx
    exact ⟨i, w, hl⟩
  · rintro ⟨i, w, hl⟩
    by_contra hx
    rw [h.locate_uncovered hx] at hl
    cases hl

lemma Stores.locate_lt (h : a.Stores tol s) {w : ℝ} (hl : s.locate x = some ((i : ℤ), real w)) :
    i + 1 < a.points.length := by
  obtain ⟨j, v, hj, hlt⟩ := h.locate_covered (h.covers_iff.mpr ⟨i, w, hl⟩)
  rw [hl, Option.some.injEq, Prod.mk.injEq, Nat.cast_inj] at hj
  rw [hj.1]
  exact hlt

end GridAxis

namespace GridAxis

variable {a : GridAxis} {t : ℝ} {place : Option (ℤ × Exact)}

/-! ## All points -/

def LooksAt (i : ℤ) : Prop :=
  i = -1073741824 ∨ 0 ≤ i ∧ i < 1073741824

lemma LooksAt.middle {low : ℤ} (h : LooksAt low) : LooksAt (middle low 1073741825) := by
  rcases h with rfl | ⟨hlow, hhigh⟩
  · exact .inr (by decide)
  · lift low to ℕ using hlow
    rcases Nat.lt_or_eq_of_le (by omega : low ≤ 1073741823) with hlt | rfl
    · have hm := middle_eq low 1073741825 (by omega)
      rw [Nat.cast_ofNat] at hm
      exact .inr (by omega)
    · exact .inl (by decide)

def counting (n : ℕ) (h : 2 ≤ n) : GridAxis where
  points := (range n).map Nat.cast
  increasing := pairwise_lt_range.map _ fun _ _ h => Nat.cast_lt.mpr h
  two_le := by simpa using h

end GridAxis

end GridBayes
