import GridBayes.Program.Prior
import GridBayes.Proofs.ExactScalar

/-! Transforms of a variable as functions of real numbers, and the terms that the code adds to a
log-density for them. A variable whose transform has a known density has itself the density of the
transform, times the magnitude of the transform's derivative. The term in the code is the logarithm of
that magnitude for two transforms only; for the two logarithms it is not so at any number. -/
namespace GridBayes.Transform
open Exact (real)

def domain : Transform → Set ℝ
  | log10 | ln => Set.Ioi 0
  | exp10 | exp | expit => Set.univ
  | logit => Set.Ioo 0 1

noncomputable def map : Transform → ℝ → ℝ
  | log10 => Real.logb 10
  | exp10 => fun x => 10 ^ x
  | ln => Real.log
  | exp => Real.exp
  | expit => Real.sigmoid
  | logit => fun x => Real.log (x / (1 - x))

noncomputable def slope : Transform → ℝ → ℝ
  | log10 => fun x => (x * Real.log 10)⁻¹
  | exp10 => fun x => 10 ^ x * Real.log 10
  | ln => fun x => x⁻¹
  | exp => Real.exp
  | expit => fun x => Real.sigmoid x * (1 - Real.sigmoid x)
  | logit => fun x => (x - x * x)⁻¹

/-- What the code adds to the log-density of the transformed variable. -/
noncomputable def correction : Transform → ℝ → Exact
  | log10 | exp10 => fun x => real (-Real.log 10 - x)
  | ln => fun x => real (-x)
  | exp => fun x => real x
  | expit => fun x => Exact.logarithm Real.log (real (x - x * x))
  | logit => fun x => real (-Real.log (x - x * x))

/-! ## Derivatives -/

variable {x : ℝ}

lemma hasDerivAt_map (t : Transform) (hx : x ∈ t.domain) : HasDerivAt t.map (t.slope x) x := by
  cases t with
  | log10 =>
    have hx : x ≠ 0 := ne_of_gt hx
    refine ((Real.hasDerivAt_log hx).div_const (Real.log 10)).congr_deriv ?_
    simp [slope, div_eq_mul_inv, mul_comm]
  | exp10 => exact Real.hasStrictDerivAt_const_rpow (by norm_num) x |>.hasDerivAt
  | ln => exact Real.hasDerivAt_log (ne_of_gt hx)
  | exp => exact Real.hasDerivAt_exp x
  | expit => exact Real.hasDerivAt_sigmoid x
  | logit =>
    obtain ⟨hpos, hlt⟩ : 0 < x ∧ x < 1 := hx
    have hone : 1 - x ≠ 0 := ne_of_gt (sub_pos.mpr hlt)
    have hodds : HasDerivAt (fun y => y / (1 - y)) (1 / (1 - x) ^ 2) x := by
      have hden : HasDerivAt (fun y : ℝ => 1 - y) (-1) x := by exact (hasDerivAt_id x).const_sub 1
      refine ((hasDerivAt_id x).div hden hone).congr_deriv ?_
      simp
    refine (hodds.log (div_ne_zero hpos.ne' hone)).congr_deriv ?_
    simp only [slope]
    field_simp

lemma slope_pos (t : Transform) (hx : x ∈ t.domain) : 0 < t.slope x := by
  have hten : 0 < Real.log 10 := Real.log_pos (by norm_num)
  cases t with
  | log10 => exact inv_pos.mpr (mul_pos hx hten)
  | exp10 => exact mul_pos (Real.rpow_pos_of_pos (by norm_num) x) hten
  | ln => exact inv_pos.mpr hx
  | exp => exact Real.exp_pos x
  | expit => exact mul_pos (Real.sigmoid_pos x) (sub_pos.mpr (Real.sigmoid_lt_one x))
  | logit =>
    obtain ⟨hpos, hlt⟩ : 0 < x ∧ x < 1 := hx
    exact inv_pos.mpr (by nlinarith)

lemma log_deriv (t : Transform) (hx : x ∈ t.domain) : Real.log |deriv t.map x| = Real.log (t.slope x) := by
  rw [(t.hasDerivAt_map hx).deriv, abs_of_pos (t.slope_pos hx)]

/-! ## Which terms are right -/

def RightAt (t : Transform) (x : ℝ) : Prop :=
  t.correction x = real (Real.log |deriv t.map x|)

lemma rightAt_exp (x : ℝ) : exp.RightAt x := by
  rw [RightAt, log_deriv exp (Set.mem_univ x)]
  simp [correction, slope]

lemma rightAt_logit (hx : x ∈ logit.domain) : logit.RightAt x := by
  rw [RightAt, log_deriv logit hx]
  simp [correction, slope]

lemma not_rightAt_ln (hx : x ∈ ln.domain) : ¬ln.RightAt x := by
  rw [RightAt, log_deriv ln hx]
  intro h
  have heq : -x = -Real.log x := by simpa [correction, slope] using h
  have hle := Real.log_le_sub_one_of_pos (show 0 < x from hx)
  linarith

lemma not_rightAt_log10 (hx : x ∈ log10.domain) : ¬log10.RightAt x := by
  have hpos : 0 < x := hx
  have hten : 0 < Real.log 10 := Real.log_pos (by norm_num)
  rw [RightAt, log_deriv log10 hx]
  intro h
  have heq : -Real.log 10 - x = -(Real.log x + Real.log (Real.log 10)) := by
    rw [← Real.log_mul hpos.ne' hten.ne', ← Real.log_inv (x * _)]
    exact Exact.real.inj h
  -- The bound on logarithms, at the number and at the logarithm of ten.
  have hle := Real.log_le_sub_one_of_pos hpos
  have hle' := Real.log_le_sub_one_of_pos hten
  linarith

lemma not_rightAt_exp10 : ¬exp10.RightAt 0 := by
  have hone : 1 < Real.log 10 := by
    rw [Real.lt_log_iff_exp_lt (by norm_num)]
    exact Real.exp_one_lt_three.trans (by norm_num)
  rw [RightAt, log_deriv exp10 (Set.mem_univ 0)]
  intro h
  have heq : -Real.log 10 = Real.log (Real.log 10) := by simpa [correction, slope] using h
  have hpos := Real.log_pos hone
  linarith

lemma not_rightAt_expit : ¬expit.RightAt 0 := by
  rw [RightAt]
  -- The term is the logarithm of `0 - 0 * 0`, which is no number.
  simp [correction, Exact.logarithm]

lemma rightAt_iff (t : Transform) : (∀ x ∈ t.domain, t.RightAt x) ↔ t = exp ∨ t = logit := by
  have hone : (1 : ℝ) ∈ Set.Ioi 0 := Set.mem_Ioi.mpr one_pos
  constructor
  · intro h
    cases t with
    | log10 => exact (not_rightAt_log10 hone (h 1 hone)).elim
    | exp10 => exact (not_rightAt_exp10 (h 0 trivial)).elim
    | ln => exact (not_rightAt_ln hone (h 1 hone)).elim
    | exp => exact .inl rfl
    | expit => exact (not_rightAt_expit (h 0 trivial)).elim
    | logit => exact .inr rfl
  · rintro (rfl | rfl)
    · exact fun x _ => rightAt_exp x
    · exact fun x hx => rightAt_logit hx

/-! ## Transforming back -/

def dual : Transform → Transform
  | log10 => exp10
  | exp10 => log10
  | ln => exp
  | exp => ln
  | expit => logit
  | logit => expit

lemma inverse_eq (t : Transform) : t.inverse = t.dual.forward := by cases t <;> rfl

lemma map_mem (t : Transform) (hx : x ∈ t.domain) : t.map x ∈ t.dual.domain := by
  cases t with
  | log10 => exact Set.mem_univ _
  | exp10 => exact Real.rpow_pos_of_pos (by norm_num) x
  | ln => exact Set.mem_univ _
  | exp => exact Real.exp_pos x
  | expit => exact ⟨Real.sigmoid_pos x, Real.sigmoid_lt_one x⟩
  | logit => exact Set.mem_univ _

lemma dual_map (t : Transform) (hx : x ∈ t.domain) : t.dual.map (t.map x) = x := by
  cases t with
  | log10 => exact Real.rpow_logb (by norm_num) (by norm_num) hx
  | exp10 => exact Real.logb_rpow (by norm_num) (by norm_num)
  | ln => exact Real.exp_log hx
  | exp => exact Real.log_exp x
  | expit =>
    have hodds : Real.sigmoid x / (1 - Real.sigmoid x) = Real.exp x := by
      rw [← Real.sigmoid_neg, ← Real.sigmoid_mul_rexp_neg, Real.exp_neg]
      have hpos := (Real.sigmoid_pos x).ne'
      field_simp
    show Real.log (Real.sigmoid x / (1 - Real.sigmoid x)) = x
    rw [hodds, Real.log_exp]
  | logit =>
    obtain ⟨hpos, hlt⟩ : 0 < x ∧ x < 1 := hx
    have hone : 0 < 1 - x := sub_pos.mpr hlt
    show Real.sigmoid (Real.log (x / (1 - x))) = x
    rw [Real.sigmoid_def, Real.exp_neg, Real.exp_log (div_pos hpos hone)]
    field_simp
    ring

end GridBayes.Transform
