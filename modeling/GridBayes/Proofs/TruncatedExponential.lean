import GridBayes.Distribution.Function
import GridBayes.Proofs.ExactScalar

/-! The truncated exponential distribution. Its quantile goes through the distribution function of the exponential one,
which is zero on the negative numbers, so a draw starts at zero where the lower bound is negative. The density has no
such limit. -/
namespace GridBayes.Distribution
open Exact Scalar Set

/-- The point between two bounds that a share of the mass lies below. -/
noncomputable def exponentialDraw (rate low high p : ℝ) : ℝ :=
  -Real.log ((1 - p) * Real.exp (-(rate * low)) + p * Real.exp (-(rate * high))) / rate

section

variable {rate low high : ℝ}

lemma survival_pos (rate low high : ℝ) {p : ℝ} (hp : p ∈ Icc (0 : ℝ) 1) :
    0 < (1 - p) * Real.exp (-(rate * low)) + p * Real.exp (-(rate * high)) := by
  rcases hp.1.eq_or_lt with rfl | hpos
  · simp [Real.exp_pos]
  · have := mul_nonneg (sub_nonneg.mpr hp.2) (Real.exp_pos (-(rate * low))).le
    positivity

lemma exponentialDraw_zero (hr : 0 < rate) (low high : ℝ) : exponentialDraw rate low high 0 = low := by
  simp [exponentialDraw, hr.ne']

lemma exponentialDraw_one (hr : 0 < rate) (low high : ℝ) : exponentialDraw rate low high 1 = high := by
  simp [exponentialDraw, hr.ne']

lemma exponentialDraw_strictMonoOn (hr : 0 < rate) (h : low < high) :
    StrictMonoOn (exponentialDraw rate low high) (Icc 0 1) := by
  intro p hp q hq hpq
  have hexp : Real.exp (-(rate * high)) < Real.exp (-(rate * low)) :=
    Real.exp_lt_exp.mpr (neg_lt_neg (mul_lt_mul_of_pos_left h hr))
  refine div_lt_div_of_pos_right (neg_lt_neg (Real.log_lt_log (survival_pos _ _ _ hq) ?_)) hr
  linarith [mul_lt_mul_of_pos_right hpq (sub_pos.mpr hexp)]

lemma exponentialDraw_monotoneOn (hr : 0 < rate) (h : low ≤ high) :
    MonotoneOn (exponentialDraw rate low high) (Icc 0 1) := by
  rcases h.eq_or_lt with rfl | h
  · intro p _ q _ _
    refine le_of_eq ?_
    unfold exponentialDraw
    ring_nf
  · exact (exponentialDraw_strictMonoOn hr h).monotoneOn

/-- The draws are the numbers between the bounds. -/
lemma exponentialDraw_image (hr : 0 < rate) (h : low ≤ high) :
    exponentialDraw rate low high '' Icc 0 1 = Icc low high := by
  have hcont : ContinuousOn (exponentialDraw rate low high) (Icc 0 1) :=
    ((ContinuousOn.log (by fun_prop) fun p hp => (survival_pos rate low high hp).ne').neg).div_const rate
  have hmono := exponentialDraw_monotoneOn hr h
  have hleft : (0 : ℝ) ∈ Icc (0 : ℝ) 1 := left_mem_Icc.mpr zero_le_one
  have hright : (1 : ℝ) ∈ Icc (0 : ℝ) 1 := right_mem_Icc.mpr zero_le_one
  refine Subset.antisymm ?_ ?_
  · rintro x ⟨p, hp, rfl⟩
    exact ⟨(exponentialDraw_zero hr low high).ge.trans (hmono hleft hp hp.1),
      (hmono hp hright hp.2).trans (exponentialDraw_one hr low high).le⟩
  · have hivt := intermediate_value_Icc zero_le_one hcont
    rwa [exponentialDraw_zero hr, exponentialDraw_one hr] at hivt

end

section

variable [SpecialFunctions] {rate a b : ℝ}

lemma not_le_zero (hr : 0 < rate) : ¬ le (real rate) 0.0 = true := by
  norm_num
  exact hr

lemma exponentialCumulative_real (hr : 0 < rate) (x : ℝ) :
    exponentialCumulative (real x) (real rate) = real (1 - Real.exp (-(rate * max x 0))) := by
  unfold exponentialCumulative
  rw [if_neg (not_le_zero hr)]
  norm_num
  split
  · rename_i h
    simp [max_eq_right h]
  · rename_i h
    simp [max_eq_left (not_le.mp h).le]

lemma truncExponentialQuantile_real (hr : 0 < rate) {p : ℝ} (hp : p ∈ Icc (0 : ℝ) 1) :
    truncExponentialQuantile (real p) (real rate) (real a) (real b) =
      real (exponentialDraw rate (max a 0) (max b 0) p) := by
  have hin : ¬ (lt 1.0 (real p) || lt (real p) 0.0 || lt (real rate) 0.0) = true := by
    norm_num
    exact ⟨⟨hp.2, hp.1⟩, hr.le⟩
  have hlog : 1 - (1 - Real.exp (-(rate * max a 0)) +
      p * (1 - Real.exp (-(rate * max b 0)) - (1 - Real.exp (-(rate * max a 0))))) =
      (1 - p) * Real.exp (-(rate * max a 0)) + p * Real.exp (-(rate * max b 0)) := by ring
  unfold truncExponentialQuantile exponentialPoint
  rw [if_neg hin]
  simp only [exponentialCumulative_real hr, one_eq, real_sub_real, real_mul_real, real_add_real, hlog]
  rw [log_real (survival_pos _ _ _ hp), neg_real, real_div_real _ hr.ne']
  rfl

/-- The density is a number exactly between the bounds. -/
lemma isReal_truncExponentialDensity (hr : 0 < rate) (hab : a < b) (x : ℝ) :
    (truncExponentialDensity (real x) (real rate) (real a) (real b)).IsReal ↔ x ∈ Icc a b := by
  unfold truncExponentialDensity
  rw [if_neg (not_le_zero hr)]
  split
  · rename_i h
    rw [Bool.or_eq_true, lt_real, lt_real] at h
    refine iff_of_false id fun hx => ?_
    rcases h with h | h
    · exact h.not_ge hx.1
    · exact h.not_ge hx.2
  · rename_i h
    rw [Bool.or_eq_true, lt_real, lt_real, not_or, not_lt, not_lt] at h
    have hexp : 0 < 1 * Real.exp (-rate * a - -rate * a) + -1 * Real.exp (-rate * b - -rate * a) := by
      have hlt : -rate * b - -rate * a < -rate * a - -rate * a := by linarith [mul_lt_mul_of_pos_left hab hr]
      linarith [Real.exp_lt_exp.mpr hlt]
    have htop : ¬ lt (real (-rate * a)) (real (-rate * b)) = true := by
      rw [lt_real]
      linarith [mul_lt_mul_of_pos_left hab hr]
    refine iff_of_true ?_ h
    unfold logSumExp
    simp only [neg_real, real_mul_real, htop, Bool.false_eq_true, if_false, one_eq, real_sub_real, exp_real]
    rw [log_real hr, real_add_real, log_real hexp]
    trivial

/-- The draws are increasing and are the numbers between the bounds without their negative part. They are all the
numbers between the bounds exactly if the lower bound is not negative, and all of them have a density exactly if the
upper one is not. -/
theorem truncExponentialQuantile_onto_iff (hr : 0 < rate) (hab : a < b) : ∃ draw : ℝ → ℝ,
    (∀ p ∈ Icc (0 : ℝ) 1, truncExponentialQuantile (real p) (real rate) (real a) (real b) = real (draw p)) ∧
    MonotoneOn draw (Icc 0 1) ∧ (0 < b → StrictMonoOn draw (Icc 0 1)) ∧
    draw 0 = max a 0 ∧ draw 1 = max b 0 ∧ draw '' Icc 0 1 = Icc (max a 0) (max b 0) ∧
    (draw '' Icc 0 1 = Icc a b ↔ 0 ≤ a) ∧
    ((∀ p ∈ Icc (0 : ℝ) 1, (truncExponentialDensity (real (draw p)) (real rate) (real a) (real b)).IsReal) ↔ 0 ≤ b) := by
  have hle : max a 0 ≤ max b 0 := max_le_max_right 0 hab.le
  have himage := exponentialDraw_image hr hle
  refine ⟨exponentialDraw rate (max a 0) (max b 0), fun p => truncExponentialQuantile_real hr,
    exponentialDraw_monotoneOn hr hle, fun hb => exponentialDraw_strictMonoOn hr ?_, exponentialDraw_zero hr _ _,
    exponentialDraw_one hr _ _, himage, ?_, ?_⟩
  · rw [max_eq_left hb.le]
    exact max_lt hab hb
  · rw [himage]
    refine ⟨fun h => ?_, fun ha => by rw [max_eq_left ha, max_eq_left (ha.trans hab.le)]⟩
    have hmem : a ∈ Icc (max a 0) (max b 0) := h ▸ left_mem_Icc.mpr hab.le
    exact (le_max_right a 0).trans hmem.1
  · simp only [isReal_truncExponentialDensity hr hab]
    refine ⟨fun h => ?_, fun hb p hp => ?_⟩
    · have hone := (h 1 (right_mem_Icc.mpr zero_le_one)).2
      rw [exponentialDraw_one hr] at hone
      exact (le_max_right b 0).trans hone
    · have hmem := himage.le (mem_image_of_mem _ hp)
      exact ⟨(le_max_left a 0).trans hmem.1, hmem.2.trans (max_eq_left hb).le⟩

end

open scoped Standard

theorem truncExponentialQuantile_onto_iff_mixed : ∃ draw : ℝ → ℝ,
    (∀ p ∈ Icc (0 : ℝ) 1, truncExponentialQuantile (real p) (real 1) (real (-1)) (real 2) = real (draw p)) ∧
    draw '' Icc 0 1 = Icc 0 2 ∧
    ∀ p ∈ Icc (0 : ℝ) 1, (truncExponentialDensity (real (draw p)) (real 1) (real (-1)) (real 2)).IsReal := by
  have hab : (-1 : ℝ) < 2 := by norm_num
  obtain ⟨draw, hdraw, -, -, -, -, himage, -, hdensity⟩ := truncExponentialQuantile_onto_iff one_pos hab
  refine ⟨draw, hdraw, ?_, hdensity.mpr zero_le_two⟩
  rw [himage]
  norm_num

/-- A draw from between minus one and two starts at zero. -/
theorem truncExponentialQuantile_clamped :
    truncExponentialQuantile (real 0) (real 1) (real (-1)) (real 2) ≠ real (-1) := by
  rw [truncExponentialQuantile_real one_pos (left_mem_Icc.mpr zero_le_one), exponentialDraw_zero one_pos]
  norm_num

end GridBayes.Distribution
