import GridBayes.Proofs.NormalQuantile

/-! The truncated normal distribution. Its log-density is that of the normal distribution less the logarithm of the
mass between the bounds. The function takes the bell curve at the standardised point but keeps the mean and the
width, so it is right at single points only unless the distribution is a standard one. -/
namespace GridBayes.Distribution
open Exact Scalar

variable {x mean sigma a b : ℝ}

lemma square_standardised_iff (hs : 0 < sigma) (hab : a < b) :
    (∀ x, a ≤ x → x ≤ b → ((x - mean) / sigma - mean) ^ 2 = (x - mean) ^ 2) ↔ mean = 0 ∧ sigma = 1 := by
  constructor
  · intro h
    -- a quadratic that vanishes at the bounds and between them has no square and then no slope
    have hq (x : ℝ) (ha : a ≤ x) (hb : x ≤ b) : (x - mean - sigma * mean) ^ 2 = sigma ^ 2 * (x - mean) ^ 2 := by
      rw [← h x ha hb]
      field_simp
    have hlow := hq a le_rfl hab.le
    have hmid := hq ((a + b) / 2) (by linarith) (by linarith)
    have hhigh := hq b hab.le le_rfl
    have hsq : (1 - sigma) * ((1 + sigma) * (b - a) ^ 2) = 0 := by linear_combination 2 * hlow - 4 * hmid + 2 * hhigh
    have hgap : 0 < b - a := sub_pos.mpr hab
    have hone : sigma = 1 := by
      rcases mul_eq_zero.mp hsq with h | h
      · linarith
      · exact absurd h (by positivity)
    subst hone
    have hslope : mean * (b - a) = 0 := by linear_combination (hlow - hhigh) / 2
    exact ⟨(mul_eq_zero.mp hslope).resolve_right hgap.ne', rfl⟩
  · rintro ⟨rfl, rfl⟩ x - -
    simp

section

variable [SpecialFunctions]

/-- The mass that the standard normal distribution has below a number. -/
noncomputable def standardMass (t : Exact) : Exact :=
  erfc (-t / sqrt 2.0) / 2.0

noncomputable def massBetween (mean sigma a b : ℝ) : Exact :=
  standardMass ((real b - real mean) / real sigma) - standardMass ((real a - real mean) / real sigma)

noncomputable def truncatedDensity (mean sigma a b x : ℝ) : Exact :=
  normalDensity (real x) (real mean) (real sigma) - log (massBetween mean sigma a b)

lemma normalDensity_eq (hs : 0 < sigma) (mean x : ℝ) :
    normalDensity (real x) (real mean) (real sigma) = logBell (real x) (real mean) (real sigma) := by
  refine if_neg ?_
  norm_num
  exact hs

lemma exists_logBell_eq (hs : 0 < sigma) (mean : ℝ) : ∃ c, ∀ x, logBell (real x) (real mean) (real sigma) =
    real (-((x - mean) * (x - mean)) / (2.0 * sigma * sigma) - c) := by
  refine ⟨0.5 * Real.log (2.0 * 3.14159265358979323846 * sigma * sigma), fun x => ?_⟩
  unfold logBell Scalar.pi
  simp only [ofScientific_eq, real_sub_real, real_mul_real, neg_real]
  rw [real_div_real _ (by positivity), log_real (by positivity), real_mul_real, real_sub_real]

/-- Between the bounds the function gives the density at the standardised point. -/
lemma truncNormalDensity_eq (hs : 0 < sigma) (hab : a < b) (ha : a ≤ x) (hb : x ≤ b) :
    truncNormalDensity (real x) (real mean) (real sigma) (real a) (real b) =
      normalDensity (real ((x - mean) / sigma)) (real mean) (real sigma) - log (massBetween mean sigma a b) := by
  have hle : ¬ le (real b) (real a) = true := by simpa using hab
  have hout : ¬ (lt (real x) (real a) || lt (real b) (real x)) = true := by
    rw [Bool.or_eq_true, lt_real, lt_real]
    exact not_or.mpr ⟨ha.not_gt, hb.not_gt⟩
  unfold truncNormalDensity
  rw [if_neg hle, if_neg hout, normalDensity_eq hs, real_sub_real, real_div_real _ hs.ne']
  rfl

/-- Densities at two points differ by as much less the same logarithm, unless that is not a number. -/
lemma normalDensity_sub_eq_iff (hs : 0 < sigma) (mean x y : ℝ) (m : Exact) :
    normalDensity (real x) (real mean) (real sigma) - m = normalDensity (real y) (real mean) (real sigma) - m ↔
      (x - mean) ^ 2 = (y - mean) ^ 2 ∨ ¬ m.IsReal := by
  obtain ⟨c, hc⟩ := exists_logBell_eq hs mean
  rw [normalDensity_eq hs, normalDensity_eq hs, hc, hc]
  cases m with
  | nan | infinite s => exact ⟨fun _ => .inr id, fun _ => rfl⟩
  | real m =>
    have htwo : (2.0 * sigma * sigma) ≠ 0 := by positivity
    simp only [real_sub_real, real.injEq, isReal_real, not_true_eq_false, or_false, sub_left_inj, pow_two,
      div_left_inj' htwo, neg_inj]

/-- The function is right at a point exactly if the standardised point is as far from the mean, and between the bounds
exactly if the distribution is a standard one, apart from bounds whose mass has no logarithm. -/
theorem truncNormalDensity_right_iff (mean : ℝ) (hs : 0 < sigma) (hab : a < b) :
    (∀ x, a ≤ x → x ≤ b → truncNormalDensity (real x) (real mean) (real sigma) (real a) (real b) =
      normalDensity (real ((x - mean) / sigma)) (real mean) (real sigma) - log (massBetween mean sigma a b)) ∧
    (∀ x, a ≤ x → x ≤ b → (truncNormalDensity (real x) (real mean) (real sigma) (real a) (real b) =
      truncatedDensity mean sigma a b x ↔
        ((x - mean) / sigma - mean) ^ 2 = (x - mean) ^ 2 ∨ ¬ (log (massBetween mean sigma a b)).IsReal)) ∧
    ((∀ x, a ≤ x → x ≤ b → truncNormalDensity (real x) (real mean) (real sigma) (real a) (real b) =
      truncatedDensity mean sigma a b x) ↔ mean = 0 ∧ sigma = 1 ∨ ¬ (log (massBetween mean sigma a b)).IsReal) := by
  have hpoint : ∀ x, a ≤ x → x ≤ b → (truncNormalDensity (real x) (real mean) (real sigma) (real a) (real b) =
      truncatedDensity mean sigma a b x ↔
        ((x - mean) / sigma - mean) ^ 2 = (x - mean) ^ 2 ∨ ¬ (log (massBetween mean sigma a b)).IsReal) := by
    intro x ha hb
    rw [truncNormalDensity_eq hs hab ha hb]
    exact normalDensity_sub_eq_iff hs mean _ _ _
  refine ⟨fun x => truncNormalDensity_eq hs hab, hpoint, ?_⟩
  rw [← square_standardised_iff hs hab]
  by_cases hm : (log (massBetween mean sigma a b)).IsReal
  · simp only [hm, not_true_eq_false, or_false] at hpoint ⊢
    exact forall₃_congr hpoint
  · simp only [hm, not_false_eq_true, or_true, iff_true] at hpoint ⊢
    exact hpoint

end

/-! With the error function itself there is mass between any two bounds. -/

open scoped Standard

lemma isReal_log_massBetween (mean : ℝ) (hs : 0 < sigma) (hab : a < b) :
    (log (massBetween mean sigma a b)).IsReal := by
  have hmass (c : ℝ) : standardMass ((real c - real mean) / real sigma) =
      real ((1 - errorCurve (-((c - mean) / sigma) / √2)) / 2) := by
    unfold standardMass
    rw [sqrt_two, two_eq, real_sub_real, real_div_real _ hs.ne', neg_real, real_div_real _ (by positivity)]
    exact real_div_real _ two_ne_zero
  have hlt : -((b - mean) / sigma) / √2 < -((a - mean) / sigma) / √2 := by gcongr
  unfold massBetween
  rw [hmass, hmass, real_sub_real, log_real]
  · trivial
  · linarith [errorCurve_strictMono hlt]

theorem truncNormalDensity_right_iff_one :
    truncNormalDensity (real (3 / 2)) (real 1) (real 1) (real 0) (real 2) = truncatedDensity 1 1 0 2 (3 / 2) ∧
    ¬ ∀ x, 0 ≤ x → x ≤ 2 → truncNormalDensity (real x) (real 1) (real 1) (real 0) (real 2) =
      truncatedDensity 1 1 0 2 x := by
  obtain ⟨-, hpoint, hall⟩ := truncNormalDensity_right_iff 1 one_pos two_pos
  refine ⟨(hpoint (3 / 2) (by norm_num) (by norm_num)).mpr (.inl (by norm_num)), fun h => ?_⟩
  rcases hall.mp h with ⟨hzero, -⟩ | hmass
  · exact one_ne_zero hzero
  · exact hmass (isReal_log_massBetween 1 one_pos two_pos)

/-- At the mean, here one, the function takes the bell curve at zero. -/
theorem truncNormalDensity_off : truncNormalDensity (real 1) (real 1) (real 1) (real 0) (real 2) ≠
    truncatedDensity 1 1 0 2 1 := by
  rw [truncNormalDensity_eq one_pos two_pos zero_le_one one_le_two]
  refine fun h => ?_
  rcases (normalDensity_sub_eq_iff one_pos 1 _ 1 _).mp h with h | h
  · norm_num at h
  · exact h (isReal_log_massBetween 1 one_pos two_pos)

end GridBayes.Distribution
