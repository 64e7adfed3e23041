import GridBayes.Proofs.NormalQuantile
import GridBayes.Proofs.TruncatedExponential

/-! The initial mass function: a normal distribution up to the switch and an exponential one above it. Below the mass at
the switch the quantile takes the whole normal distribution, and above it an exponential one without an upper end that
starts at zero at least, so the two parts do not join at the switch. -/
namespace GridBayes.Distribution
open Exact Scalar Set

section

variable [SpecialFunctions] {mean sigma rate switch p : ℝ} {cdf ppf : ℝ → ℝ}

/-- The exponential quantile without an upper bound. -/
lemma truncExponentialQuantile_unbounded (hr : 0 < rate) {t : ℝ} (ht : 0 ≤ t) (ht1 : t < 1) :
    truncExponentialQuantile (real t) (real rate) (real switch) infinity =
      real (max switch 0 - Real.log (1 - t) / rate) := by
  have hin : ¬ (lt 1.0 (real t) || lt (real t) 0.0 || lt (real rate) 0.0) = true := by
    simp only [ofScientific_eq, Bool.or_eq_true, lt_real]
    norm_num
    exact ⟨⟨ht1.le, ht⟩, hr.le⟩
  have htop : exponentialCumulative infinity (real rate) = real 1 := by
    have hexp : exp (-real rate * infinity) = real 0 := by
      show exp (scaled (-rate) false) = real 0
      rw [scaled_of_ne (neg_ne_zero.mpr hr.ne'), decide_eq_true (neg_neg_of_pos hr)]
      rfl
    have hfinite : ¬ le infinity (0.0 : Exact) = true := by
      classical
      intro h
      rcases of_decide_eq_true h with hless | ⟨heq, -⟩
      · exact hless
      · cases heq
    unfold exponentialCumulative
    rw [if_neg (not_le_zero hr), if_neg hfinite, hexp, one_eq, real_sub_real, sub_zero]
  have hrest : 1 - (1 - Real.exp (-(rate * max switch 0)) + t * (1 - (1 - Real.exp (-(rate * max switch 0))))) =
      (1 - t) * Real.exp (-(rate * max switch 0)) := by ring
  have hpos : 0 < 1 - t := sub_pos.mpr ht1
  unfold truncExponentialQuantile exponentialPoint
  rw [if_neg hin]
  simp only [exponentialCumulative_real hr, htop, one_eq, real_sub_real, real_mul_real, real_add_real, hrest]
  rw [log_real (by positivity), neg_real, real_div_real _ hr.ne', Real.log_mul hpos.ne' (Real.exp_ne_zero _),
    Real.log_exp]
  congr 1
  field_simp
  ring

lemma chabrierQuantile_below (law : NormalLaw mean sigma cdf ppf) (hp : 0 < p) (hlt : p < cdf switch) :
    chabrierQuantile (real p) (real switch) (real mean) (real sigma) (real rate) = real (ppf (p / cdf switch)) := by
  have hmass := law.pos switch
  unfold chabrierQuantile
  rw [law.cumulative, if_pos ((le_real _ _).mpr hlt.le), real_div_real _ hmass.ne',
    law.quantile _ (div_pos hp hmass) ((div_lt_one hmass).mpr hlt)]

lemma chabrierQuantile_above (law : NormalLaw mean sigma cdf ppf) (hr : 0 < rate) (hlt : cdf switch < p)
    (hp : p < 1) : chabrierQuantile (real p) (real switch) (real mean) (real sigma) (real rate) =
      real (max switch 0 - Real.log ((1 - p) / (1 - cdf switch)) / rate) := by
  have hrest : 0 < 1 - cdf switch := sub_pos.mpr (law.lt_one switch)
  have hshare : 1 - (p - cdf switch) / (1 - cdf switch) = (1 - p) / (1 - cdf switch) := by
    field_simp
    ring
  unfold chabrierQuantile
  rw [law.cumulative, if_neg (mt (le_real _ _).mp hlt.not_ge), one_eq, real_sub_real, real_sub_real,
    real_div_real _ hrest.ne', truncExponentialQuantile_unbounded hr (by positivity) ?_, hshare]
  · exact (div_lt_one hrest).mpr (sub_lt_sub_right hp _)

/-- Below the mass at the switch the quantile is that of the whole normal distribution, scaled to that mass; above it
that of an exponential distribution without an upper end. Each part increases and the upper one lies above the switch,
but the lower one passes every point of the upper one. -/
theorem chabrierQuantile_parts (law : NormalLaw mean sigma cdf ppf) (hr : 0 < rate) (switch : ℝ) : ∃ draw : ℝ → ℝ,
    (∀ p ∈ Ioo 0 1, p ≠ cdf switch →
      chabrierQuantile (real p) (real switch) (real mean) (real sigma) (real rate) = real (draw p)) ∧
    chabrierQuantile (real (cdf switch)) (real switch) (real mean) (real sigma) (real rate) =
      normalQuantile (real 1) (real mean) (real sigma) ∧
    (∀ p ∈ Ioo 0 (cdf switch), ∀ y, draw p ≤ y ↔ p ≤ cdf switch * cdf y) ∧
    (∀ p ∈ Ioo (cdf switch) 1, ∀ y, draw p ≤ y ↔
      p ≤ 1 - (1 - cdf switch) * Real.exp (-(rate * (y - max switch 0)))) ∧
    MonotoneOn draw (Ioo 0 (cdf switch)) ∧ MonotoneOn draw (Ioo (cdf switch) 1) ∧
    (∀ p ∈ Ioo (cdf switch) 1, switch < draw p) ∧
    ∀ q ∈ Ioo (cdf switch) 1, ∃ p ∈ Ioo 0 (cdf switch), draw q < draw p := by
  have hmass := law.pos switch
  have hrest : 0 < 1 - cdf switch := sub_pos.mpr (law.lt_one switch)
  let draw (p : ℝ) : ℝ :=
    if p < cdf switch then ppf (p / cdf switch) else max switch 0 - Real.log ((1 - p) / (1 - cdf switch)) / rate
  have hlow : ∀ p ∈ Ioo 0 (cdf switch), ∀ y, draw p ≤ y ↔ p ≤ cdf switch * cdf y := by
    intro p hp y
    rw [show draw p = ppf (p / cdf switch) from if_pos hp.2,
      law.ppf_le_iff (div_pos hp.1 hmass) ((div_lt_one hmass).mpr hp.2), div_le_iff₀' hmass]
  have hhigh : ∀ p ∈ Ioo (cdf switch) 1, ∀ y, draw p ≤ y ↔
      p ≤ 1 - (1 - cdf switch) * Real.exp (-(rate * (y - max switch 0))) := by
    intro p hp y
    have hpos : 0 < (1 - p) / (1 - cdf switch) := div_pos (sub_pos.mpr hp.2) hrest
    rw [show draw p = _ from if_neg hp.1.not_gt, sub_le_comm, le_div_iff₀ hr, Real.le_log_iff_exp_le hpos,
      le_div_iff₀' hrest, le_sub_comm]
    ring_nf
  refine ⟨draw, ?_, ?_, hlow, hhigh, ?_, ?_, ?_, ?_⟩
  · intro p hp hne
    rcases hne.lt_or_gt with hlt | hgt
    · rw [chabrierQuantile_below law hp.1 hlt, show draw p = _ from if_pos hlt]
    · rw [chabrierQuantile_above law hr hgt hp.2, show draw p = _ from if_neg hgt.not_gt]
  · unfold chabrierQuantile
    rw [law.cumulative, if_pos ((le_real _ _).mpr le_rfl), real_div_real _ hmass.ne', div_self hmass.ne']
  · exact fun p hp q hq hpq => (hlow p hp _).mpr (hpq.trans ((hlow q hq _).mp le_rfl))
  · exact fun p hp q hq hpq => (hhigh p hp _).mpr (hpq.trans ((hhigh q hq _).mp le_rfl))
  · intro p hp
    refine not_le.mp fun h => ?_
    have hexp : 1 ≤ Real.exp (-(rate * (switch - max switch 0))) := by
      refine Real.one_le_exp ?_
      nlinarith [le_max_left switch 0]
    nlinarith [(hhigh p hp _).mp h, hp.1]
  · intro q hq
    have hlt : cdf switch * cdf (draw q) < cdf switch := mul_lt_of_lt_one_right hmass (law.lt_one _)
    obtain ⟨p, hqp, hp⟩ := exists_between hlt
    have hmem : p ∈ Ioo 0 (cdf switch) := ⟨(mul_pos hmass (law.pos _)).trans hqp, hp⟩
    exact ⟨p, hmem, not_le.mp fun h => hqp.not_ge ((hlow p hmem _).mp h)⟩

end

/-! With half of the mass below the switch. -/

open scoped Standard

lemma exists_standard_half : ∃ cdf ppf, NormalLaw 0 1 cdf ppf ∧ cdf 0 = 1 / 2 := by
  obtain ⟨ppf, law⟩ := normalLaw_standard 0 one_pos
  exact ⟨_, ppf, law, by simp [errorCurve]⟩

theorem chabrierQuantile_parts_half : ∃ draw : ℝ → ℝ,
    (∀ p ∈ Ioo (0 : ℝ) 1, p ≠ 1 / 2 → chabrierQuantile (real p) (real 0) (real 0) (real 1) (real 1) = real (draw p)) ∧
    ∀ q ∈ Ioo (1 / 2 : ℝ) 1, ∃ p ∈ Ioo (0 : ℝ) (1 / 2), draw q < draw p := by
  obtain ⟨cdf, ppf, law, hhalf⟩ := exists_standard_half
  obtain ⟨draw, hdraw, -, -, -, -, -, -, hcross⟩ := chabrierQuantile_parts law one_pos 0
  rw [hhalf] at hdraw hcross
  exact ⟨draw, hdraw, hcross⟩

/-- With two fifths of the mass below, the quantile lies beyond the switch, which has half of the mass below it. -/
theorem chabrierQuantile_beyond_switch : le (real (2 / 5)) (normalCumulative (real 0) (real 0) (real 1)) = true ∧
    ∃ x, chabrierQuantile (real (2 / 5)) (real 0) (real 0) (real 1) (real 1) = real x ∧ 0 < x := by
  obtain ⟨cdf, ppf, law, hhalf⟩ := exists_standard_half
  have hlt : (2 / 5 : ℝ) < cdf 0 := by
    rw [hhalf]
    norm_num
  refine ⟨?_, _, chabrierQuantile_below law (by norm_num) hlt, ?_⟩
  · rw [law.cumulative, le_real]
    exact hlt.le
  · rw [← not_le, law.ppf_le_iff (by rw [hhalf]; norm_num) (by rw [hhalf]; norm_num), hhalf]
    norm_num

end GridBayes.Distribution
