import GridBayes.Distribution.Function
import GridBayes.Proofs.ExactScalar

/-! The normal distribution function and its inverse. The error function comes from outside, so what is used of it is
one statement about the two functions, and the error function itself meets it. -/
namespace GridBayes.Distribution
open Exact Scalar Filter Topology

/-- The normal distribution function increases from zero to one, and the quantile function is its inverse. -/
structure NormalLaw [SpecialFunctions] (mean sigma : ℝ) (cdf ppf : ℝ → ℝ) : Prop where
  cumulative : ∀ x, normalCumulative (real x) (real mean) (real sigma) = real (cdf x)
  quantile : ∀ p, 0 < p → p < 1 → normalQuantile (real p) (real mean) (real sigma) = real (ppf p)
  strictMono : StrictMono cdf
  pos : ∀ x, 0 < cdf x
  lt_one : ∀ x, cdf x < 1
  cdf_ppf : ∀ p, 0 < p → p < 1 → cdf (ppf p) = p

lemma NormalLaw.ppf_le_iff [SpecialFunctions] {mean sigma : ℝ} {cdf ppf : ℝ → ℝ} (law : NormalLaw mean sigma cdf ppf)
    {p : ℝ} (hpos : 0 < p) (hlt : p < 1) (x : ℝ) : ppf p ≤ x ↔ p ≤ cdf x := by
  rw [← law.strictMono.le_iff_le, law.cdf_ppf p hpos hlt]

lemma sqrt_two [SpecialFunctions] : sqrt (2.0 : Exact) = real √2 := by
  rw [two_eq]
  exact if_neg (by norm_num)

/-! ## The error function -/

noncomputable def errorCurve (x : ℝ) : ℝ :=
  ((2 : ℕ) : ℝ) / √Real.pi * ∫ t in (0 : ℝ)..x, Real.exp (-(t * t))

lemma gauss_intervalIntegrable (a b : ℝ) :
    IntervalIntegrable (fun t : ℝ => Real.exp (-(t * t))) MeasureTheory.volume a b :=
  Continuous.intervalIntegrable (by fun_prop) a b

lemma errorCurve_strictMono : StrictMono errorCurve := by
  intro x y hxy
  refine mul_lt_mul_of_pos_left (sub_pos.mp ?_) (by positivity)
  rw [intervalIntegral.integral_interval_sub_left (gauss_intervalIntegrable 0 y) (gauss_intervalIntegrable 0 x)]
  exact intervalIntegral.intervalIntegral_pos_of_pos (gauss_intervalIntegrable x y) (fun t => Real.exp_pos _) hxy

lemma errorCurve_continuous : Continuous errorCurve :=
  (intervalIntegral.continuous_primitive gauss_intervalIntegrable 0).const_mul _

lemma errorCurve_neg (x : ℝ) : errorCurve (-x) = -errorCurve x := by
  have h := intervalIntegral.integral_comp_neg (a := 0) (b := x) fun t => Real.exp (-(t * t))
  simp only [neg_mul_neg, neg_zero] at h
  unfold errorCurve
  rw [h, intervalIntegral.integral_symm, mul_neg]

lemma errorCurve_tendsto : Tendsto errorCurve atTop (𝓝 1) := by
  have hint : MeasureTheory.IntegrableOn (fun t : ℝ => Real.exp (-(t * t))) (Set.Ioi 0) := by
    simpa [pow_two] using (integrable_exp_neg_mul_sq one_pos).integrableOn
  have hvalue : ∫ t in Set.Ioi (0 : ℝ), Real.exp (-(t * t)) = √Real.pi / 2 := by
    simpa [pow_two] using integral_gaussian_Ioi 1
  have h := (MeasureTheory.intervalIntegral_tendsto_integral_Ioi 0 hint tendsto_id).const_mul (2 / √Real.pi)
  have hone : 2 / √Real.pi * (√Real.pi / 2) = 1 := by field_simp
  rw [hvalue, hone] at h
  exact h

lemma errorCurve_lt_one (x : ℝ) : errorCurve x < 1 :=
  (errorCurve_strictMono (lt_add_one x)).trans_le
    (errorCurve_strictMono.monotone.ge_of_tendsto errorCurve_tendsto (x + 1))

lemma exists_errorCurve_eq {c : ℝ} (hlow : -1 < c) (hhigh : c < 1) : ∃ x, errorCurve x = c := by
  obtain ⟨y, hy⟩ := (errorCurve_tendsto.eventually (lt_mem_nhds hhigh)).exists
  obtain ⟨z, hz⟩ := (errorCurve_tendsto.eventually (lt_mem_nhds (neg_lt.mp hlow))).exists
  refine mem_range_of_exists_le_of_exists_ge errorCurve_continuous ⟨-z, ?_⟩ ⟨y, hy.le⟩
  rw [errorCurve_neg]
  exact (neg_lt.mp hz).le

open scoped Standard

lemma erfcInv_eq {x p : ℝ} (h : errorCurve x = 1 - p) : erfcInv (real p) = real x := by
  have hset : {y : ℝ | 1 - errorCurve y ≤ p} = Set.Ici x := by
    ext y
    rw [Set.mem_ofPred_eq, sub_le_comm, ← h, errorCurve_strictMono.le_iff_le, Set.mem_Ici]
  have hleast : sInf {y : ℝ | 1 - errorCurve y ≤ p} = x := by rw [hset, csInf_Ici]
  exact congrArg real hleast

/-- The normal distribution function and its quantile, made of the error function. -/
lemma normalLaw_standard (mean : ℝ) {sigma : ℝ} (hs : 0 < sigma) : ∃ ppf, NormalLaw mean sigma
    (fun x => (1 + errorCurve ((x - mean) / sigma / √2)) / 2) ppf := by
  have hexists (p : ℝ) : ∃ x, 0 < p → p < 1 → errorCurve x = 1 - 2 * p := by
    by_cases hp : 0 < p ∧ p < 1
    · obtain ⟨x, hx⟩ := exists_errorCurve_eq (c := 1 - 2 * p) (by linarith) (by linarith)
      exact ⟨x, fun _ _ => hx⟩
    · exact ⟨0, fun h0 h1 => absurd ⟨h0, h1⟩ hp⟩
  choose inv hinv using hexists
  refine ⟨fun p => -√2 * inv p * sigma + mean, ?_, ?_, ?_, ?_, ?_, ?_⟩
  · intro x
    have herf (y : ℝ) : erf (real y) = real (errorCurve y) := rfl
    unfold normalCumulative
    rw [sqrt_two, two_eq, one_eq, real_sub_real, real_div_real _ hs.ne', real_div_real _ (by positivity), herf,
      real_add_real, real_div_real _ two_ne_zero]
  · intro p h0 h1
    unfold normalQuantile
    rw [sqrt_two, two_eq, real_mul_real, erfcInv_eq (hinv p h0 h1)]
    rfl
  · intro x y hxy
    have harg : (x - mean) / sigma / √2 < (y - mean) / sigma / √2 := by gcongr
    linarith [errorCurve_strictMono harg]
  · intro x
    have h := errorCurve_lt_one (-((x - mean) / sigma / √2))
    rw [errorCurve_neg] at h
    linarith
  · intro x
    linarith [errorCurve_lt_one ((x - mean) / sigma / √2)]
  · intro p h0 h1
    have harg : (-√2 * inv p * sigma + mean - mean) / sigma / √2 = -inv p := by
      field_simp
      ring
    rw [harg, errorCurve_neg, hinv p h0 h1]
    ring

end GridBayes.Distribution
