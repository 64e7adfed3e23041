import GridBayes.Distribution.Function
import GridBayes.Proofs.ExactScalar

/-! The smooth step: a quintic of the clamped, rescaled argument. The quintic increases on the whole line and is
symmetric about one half, so the step takes its range, its direction and its symmetry from the clamp. -/
namespace GridBayes.Distribution
open Exact Scalar

def quintic (t : ℝ) : ℝ :=
  6 • t ^ 5 - 15 • t ^ 4 + 10 • t ^ 3

lemma quintic_monotone : Monotone quintic := by
  have hderiv (t : ℝ) : HasDerivAt quintic (30 * (t * (1 - t)) ^ 2) t := by
    refine ((((hasDerivAt_pow 5 t).const_smul 6).sub ((hasDerivAt_pow 4 t).const_smul 15)).add
      ((hasDerivAt_pow 3 t).const_smul 10)).congr_deriv ?_
    simp
    ring
  exact monotone_of_hasDerivAt_nonneg hderiv fun t => by positivity

lemma quintic_zero : quintic 0 = 0 := by norm_num [quintic]

lemma quintic_one : quintic 1 = 1 := by norm_num [quintic]

lemma quintic_one_sub (t : ℝ) : quintic (1 - t) = 1 - quintic t := by
  unfold quintic
  ring

def unitClamp (r : ℝ) : ℝ :=
  max (min r 1) 0

lemma unitClamp_monotone : Monotone unitClamp := fun _ _ h => max_le_max_right 0 (min_le_min_right 1 h)

lemma unitClamp_of_nonpos {r : ℝ} (h : r ≤ 0) : unitClamp r = 0 := max_eq_right ((min_le_left r 1).trans h)

lemma unitClamp_of_one_le {r : ℝ} (h : 1 ≤ r) : unitClamp r = 1 := by
  rw [unitClamp, min_eq_right h, max_eq_left zero_le_one]

lemma unitClamp_one_sub (r : ℝ) : unitClamp (1 - r) = 1 - unitClamp r := by
  unfold unitClamp
  grind

/-- The step as a function of real numbers. -/
noncomputable def smoothStep (x start stop : ℝ) : ℝ :=
  if stop = start then (1 + 1)⁻¹ else quintic (unitClamp ((x - start) / (stop - start)))

lemma smootherstep_real [SpecialFunctions] (x start stop : ℝ) :
    smootherstep (real x) (real start) (real stop) = real (smoothStep x start stop) := by
  unfold smootherstep smoothStep
  by_cases h : stop = start
  · rw [if_pos ((eq_real _ _).mpr h), if_pos h]
    norm_num
  · have hne : stop - start ≠ 0 := sub_ne_zero.mpr h
    rw [if_neg (mt (eq_real _ _).mp h), if_neg h]
    simp only [real_sub_real, real_div_real _ hne, unitClamp, quintic]
    norm_num
    ring

lemma smoothStep_mem (x start stop : ℝ) : 0 ≤ smoothStep x start stop ∧ smoothStep x start stop ≤ 1 := by
  unfold smoothStep
  split
  · norm_num
  · have hlow := quintic_monotone (le_max_right (min ((x - start) / (stop - start)) 1) 0)
    have hhigh := quintic_monotone (max_le (min_le_right ((x - start) / (stop - start)) 1) zero_le_one)
    rw [quintic_zero] at hlow
    rw [quintic_one] at hhigh
    exact ⟨hlow, hhigh⟩

lemma smoothStep_swap (x start stop : ℝ) : smoothStep x start stop + smoothStep x stop start = 1 := by
  unfold smoothStep
  by_cases h : stop = start
  · rw [if_pos h, if_pos h.symm]
    norm_num
  · have hratio : (x - stop) / (start - stop) = 1 - (x - start) / (stop - start) := by
      field_simp
      ring
    rw [if_neg h, if_neg (Ne.symm h), hratio, unitClamp_one_sub, quintic_one_sub]
    ring

lemma smoothStep_of_lt {start stop : ℝ} (h : start < stop) : Monotone (smoothStep · start stop) ∧
    (∀ x ≤ start, smoothStep x start stop = 0) ∧ ∀ x, stop ≤ x → smoothStep x start stop = 1 := by
  have hwidth : 0 < stop - start := sub_pos.mpr h
  simp only [smoothStep, if_neg h.ne']
  refine ⟨fun x y hxy => quintic_monotone (unitClamp_monotone ?_), fun x hx => ?_, fun x hx => ?_⟩
  · gcongr
  · rw [unitClamp_of_nonpos (div_nonpos_of_nonpos_of_nonneg (sub_nonpos.mpr hx) hwidth.le), quintic_zero]
  · rw [unitClamp_of_one_le ((one_le_div hwidth).mpr (sub_le_sub_right hx start)), quintic_one]

/-- The step stays in the unit interval, goes from zero at one end to one at the other in either direction, and
with its ends exchanged it is what is missing to one. -/
theorem smootherstep_between : ∀ [SpecialFunctions], ∃ step : ℝ → ℝ → ℝ → ℝ,
    (∀ x start stop, smootherstep (real x) (real start) (real stop) = real (step x start stop)) ∧
    (∀ x start stop, 0 ≤ step x start stop ∧ step x start stop ≤ 1) ∧
    (∀ start stop, start < stop → Monotone (step · start stop) ∧
      (∀ x ≤ start, step x start stop = 0) ∧ ∀ x, stop ≤ x → step x start stop = 1) ∧
    (∀ start stop, stop < start → Antitone (step · start stop) ∧
      (∀ x, start ≤ x → step x start stop = 0) ∧ ∀ x ≤ stop, step x start stop = 1) ∧
    ∀ x start stop, step x start stop + step x stop start = 1 := by
  intro _
  refine ⟨smoothStep, smootherstep_real, smoothStep_mem, fun _ _ => smoothStep_of_lt, fun start stop h => ?_,
    smoothStep_swap⟩
  -- a falling step is what a rising one lacks to one
  have hswap (x : ℝ) : smoothStep x start stop = 1 - smoothStep x stop start :=
    eq_sub_of_add_eq (smoothStep_swap x start stop)
  obtain ⟨hmono, hzero, hone⟩ := smoothStep_of_lt h
  simp only [hswap]
  refine ⟨fun x y hxy => sub_le_sub_left (hmono hxy) 1, fun x hx => ?_, fun x hx => ?_⟩
  · rw [hone x hx, sub_self]
  · rw [hzero x hx, sub_zero]

end GridBayes.Distribution
