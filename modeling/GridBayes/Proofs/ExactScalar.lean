import GridBayes.Numeric.Scalar
import Mathlib

/-! Exact scalars: the real numbers with two infinities and not-a-number. Nothing is rounded, so a
computation on numbers that meets no singularity is one in the reals. The special functions come from
outside and nothing is assumed about them.

Addition makes exact scalars a commutative monoid, and multiplication by a real number distributes over
it; they are no ring, since zero times infinity is not-a-number. -/
namespace GridBayes

/-- A real number, an infinity, or not-a-number. -/
inductive Exact where
  | nan
  | infinite (negative : Bool)
  | real (x : ℝ)

/-- The functions that scalars take from outside. -/
class SpecialFunctions where
  erf : Exact → Exact
  erfc : Exact → Exact
  erfcInv : Exact → Exact
  lnGamma : Exact → Exact
  lnBeta : Exact → Exact → Exact
  gammaIncInv : Exact → Exact → Exact
  betaIncInv : Exact → Exact → Exact → Exact

namespace Exact

/-! ## Operations -/

noncomputable def scaled (x : ℝ) (negative : Bool) : Exact :=
  if x = 0 then nan else infinite (negative ^^ decide (x < 0))

noncomputable instance : Add Exact where
  add
    | real x, real y => real (x + y)
    | infinite s, infinite t => if s = t then infinite s else nan
    | infinite s, real _ => infinite s
    | real _, infinite t => infinite t
    | _, _ => nan

noncomputable instance : Neg Exact where
  neg
    | real x => real (-x)
    | infinite s => infinite (!s)
    | nan => nan

noncomputable instance : Sub Exact where
  sub a b := a + -b

noncomputable instance : Mul Exact where
  mul
    | real x, real y => real (x * y)
    | real x, infinite t => scaled x t
    | infinite s, real y => scaled y s
    | infinite s, infinite t => infinite (s ^^ t)
    | _, _ => nan

noncomputable instance : Div Exact where
  div
    | real x, real y => if y = 0 then scaled x false else real (x / y)
    | real _, infinite _ => real 0
    | infinite s, real y => infinite (s ^^ decide (y < 0))
    | _, _ => nan

noncomputable instance : OfScientific Exact where
  ofScientific m negative e := real (OfScientific.ofScientific m negative e)

def Less : Exact → Exact → Prop
  | real x, real y => x < y
  | infinite true, real _ | real _, infinite false | infinite true, infinite false => True
  | _, _ => False

def IsReal : Exact → Prop
  | real _ => True
  | _ => False

noncomputable def logarithm (f : ℝ → ℝ) : Exact → Exact
  | real x => if 0 < x then real (f x) else if x = 0 then infinite true else nan
  | infinite false => infinite false
  | _ => nan

noncomputable def periodic (f : ℝ → ℝ) : Exact → Exact
  | real x => real (f x)
  | _ => nan

noncomputable def realPower (y : ℝ) : Exact → Exact
  | real x =>
    if 0 < x then real (x ^ y)
    else if x = 0 then if 0 < y then real 0 else infinite false
    else if (⌊y⌋ : ℝ) = y then real (x ^ ⌊y⌋)
    else nan
  | infinite s => if 0 < y then infinite (s && decide ((⌊y⌋ : ℝ) = y ∧ Odd ⌊y⌋)) else real 0
  | nan => nan

/-- A power with an infinite exponent vanishes within the unit circle under a positive one. -/
noncomputable def infinitePower (negative : Bool) : Exact → Exact
  | real x =>
    if |x| = 1 then real 1
    else if decide (|x| < 1) = negative then infinite false
    else real 0
  | infinite _ => if negative then real 0 else infinite false
  | nan => nan

open Classical in
/-- A power. The zeroth power is one, and so is every power of one. -/
noncomputable def power (a b : Exact) : Exact :=
  if a = real 1 ∨ b = real 0 then real 1
  else
    match b with
    | real y => realPower y a
    | infinite s => infinitePower s a
    | nan => nan

noncomputable def withSign : Exact → Exact → Exact
  | real x, real y => real (if y < 0 then -|x| else |x|)
  | real x, infinite t => real (if t then -|x| else |x|)
  | infinite _, real y => infinite (decide (y < 0))
  | infinite _, infinite t => infinite t
  | real x, nan => real |x|
  | infinite _, nan => infinite false
  | nan, _ => nan

open Classical in
noncomputable instance [SpecialFunctions] : Scalar Exact where
  ofNat n := real n
  lt a b := decide (Less a b)
  le a b := decide (Less a b ∨ (a = b ∧ a ≠ nan))
  eq a b := decide (a = b ∧ a ≠ nan)
  nan := nan
  infinity := infinite false
  isFinite a := decide a.IsReal
  truncate
    | real x => if 0 ≤ x then ⌊x⌋ else ⌈x⌉
    | _ => 0
  exp
    | real x => real (Real.exp x)
    | infinite s => if s then real 0 else infinite false
    | nan => nan
  log := logarithm Real.log
  log10 := logarithm (Real.logb (10 : ℕ))
  sqrt
    | real x => if x < 0 then nan else real (Real.sqrt x)
    | infinite s => if s then nan else infinite false
    | nan => nan
  sin := periodic Real.sin
  cos := periodic Real.cos
  pow := power
  copysign := withSign
  erf := SpecialFunctions.erf
  erfc := SpecialFunctions.erfc
  erfcInv := SpecialFunctions.erfcInv
  lnGamma := SpecialFunctions.lnGamma
  lnBeta := SpecialFunctions.lnBeta
  gammaIncInv := SpecialFunctions.gammaIncInv
  betaIncInv := SpecialFunctions.betaIncInv

/-! ## Computing with reals -/

variable (x y : ℝ)

@[simp] lemma real_add_real : real x + real y = real (x + y) := rfl

@[simp] lemma neg_real : -real x = real (-x) := rfl

@[simp] lemma real_sub_real : real x - real y = real (x - y) := by rfl

@[simp] lemma real_mul_real : real x * real y = real (x * y) := rfl

@[simp] lemma real_div_real {y : ℝ} (hy : y ≠ 0) : real x / real y = real (x / y) := if_neg hy

@[simp] lemma ofScientific_eq (m : ℕ) (s : Bool) (e : ℕ) :
    (OfScientific.ofScientific m s e : Exact) = real (OfScientific.ofScientific m s e) := rfl

lemma one_eq : (1.0 : Exact) = real 1 := by norm_num

lemma two_eq : (2.0 : Exact) = real 2 := by norm_num

@[simp] lemma nan_add (a : Exact) : nan + a = nan := rfl

@[simp] lemma add_nan (a : Exact) : a + nan = nan := by cases a <;> rfl

@[simp] lemma mul_nan (a : Exact) : a * nan = nan := by cases a <;> rfl

@[simp] lemma isReal_real : (real x).IsReal := trivial

lemma isReal_iff {a : Exact} : a.IsReal ↔ ∃ x, a = real x := by cases a <;> simp [IsReal]

/-! ## Comparing reals -/

section

open Classical

variable [SpecialFunctions]

@[simp] lemma lt_real : Scalar.lt (real x) (real y) = true ↔ x < y := decide_eq_true_iff

@[simp] lemma le_real : Scalar.le (real x) (real y) = true ↔ x ≤ y := by
  rw [le_iff_lt_or_eq]
  refine decide_eq_true_iff.trans (or_congr Iff.rfl ?_)
  simp

@[simp] lemma eq_real : Scalar.eq (real x) (real y) = true ↔ x = y := by
  refine decide_eq_true_iff.trans ?_
  simp

lemma isFinite_iff {a : Exact} : Scalar.isFinite a = true ↔ a.IsReal := decide_eq_true_iff

@[simp] lemma isFinite_real : Scalar.isFinite (real x) = true := isFinite_iff.mpr trivial

@[simp] lemma ofNat_eq (n : ℕ) : (Scalar.ofNat n : Exact) = real n := rfl

@[simp] lemma exp_real : Scalar.exp (real x) = real (Real.exp x) := rfl

lemma log_real {x : ℝ} (hx : 0 < x) : Scalar.log (real x) = real (Real.log x) := if_pos hx

lemma log10_real {x : ℝ} (hx : 0 < x) : Scalar.log10 (real x) = real (Real.logb 10 x) := by
  show logarithm (Real.logb (10 : ℕ)) (real x) = _
  exact if_pos hx

lemma pow_real {x : ℝ} (hx : 0 < x) : Scalar.pow (real x) (real y) = real (x ^ y) := by
  show power (real x) (real y) = _
  unfold power
  split
  · rename_i ht
    rcases ht with h | h
    · rw [real.inj h, Real.one_rpow]
    · rw [real.inj h, Real.rpow_zero]
  · exact if_pos hx

lemma truncate_real {x : ℝ} (hx : 0 ≤ x) : Scalar.truncate (real x) = ⌊x⌋ := if_pos hx

@[simp] lemma fabs_real : Scalar.fabs (real x) = real |x| := by
  have hone : ¬ (OfScientific.ofScientific 10 true 1 : ℝ) < 0 := by norm_num
  exact congrArg real (if_neg hone)

@[simp] lemma fmin_real : Scalar.fmin (real x) (real y) = real (min x y) := by
  unfold Scalar.fmin Scalar.isNaN
  rw [(eq_real x x).mpr rfl, (eq_real y y).mpr rfl, min_comm, min_def_lt]
  simp only [Bool.not_true, Bool.false_eq_true, if_false, lt_real, apply_ite real]

@[simp] lemma fmax_real : Scalar.fmax (real x) (real y) = real (max x y) := by
  unfold Scalar.fmax Scalar.isNaN
  rw [(eq_real x x).mpr rfl, (eq_real y y).mpr rfl, max_def_lt]
  simp only [Bool.not_true, Bool.false_eq_true, if_false, lt_real, apply_ite real]

end

/-! ## Sums and real multiples -/

instance : Zero Exact where
  zero := real 0

lemma zero_def : (0 : Exact) = real 0 := rfl

noncomputable instance : AddCommMonoid Exact where
  add_assoc a b c := by
    rcases a with _ | (_ | _) | x <;> rcases b with _ | (_ | _) | y <;> rcases c with _ | (_ | _) | z
    case real.real.real => exact congrArg real (add_assoc x y z)
    all_goals rfl
  add_comm a b := by
    rcases a with _ | (_ | _) | x <;> rcases b with _ | (_ | _) | y
    case real.real => exact congrArg real (add_comm x y)
    all_goals rfl
  zero_add a := by
    cases a with
    | real x => exact congrArg real (zero_add x)
    | _ => rfl
  add_zero a := by
    cases a with
    | real x => exact congrArg real (add_zero x)
    | _ => rfl
  nsmul := nsmulRec

noncomputable instance : InvolutiveNeg Exact where
  neg_neg a := by
    rcases a with _ | (_ | _) | x
    case real => exact congrArg real (neg_neg x)
    all_goals rfl

/-! Multiplying by a real number. -/

lemma real_mul_infinite (s : Bool) : real x * infinite s = scaled x s := rfl

lemma scaled_zero (s : Bool) : scaled 0 s = nan := if_pos rfl

lemma scaled_of_ne {x : ℝ} (hx : x ≠ 0) (s : Bool) : scaled x s = infinite (s ^^ decide (x < 0)) := if_neg hx

lemma scaled_add_real (s : Bool) : scaled x s + real y = scaled x s := by
  by_cases hx : x = 0
  · rw [hx, scaled_zero, nan_add]
  · rw [scaled_of_ne hx]
    rfl

lemma scaled_add_scaled (s t : Bool) : scaled x s + scaled x t = real x * (infinite s + infinite t) := by
  have hsum (s t : Bool) : infinite s + infinite t = if s = t then infinite s else nan := rfl
  by_cases hx : x = 0
  · have hzero (a : Exact) : a = infinite s ∨ a = nan → nan = real 0 * a := by
      rintro (rfl | rfl)
      · exact (scaled_zero s).symm
      · rfl
    rw [hx, scaled_zero]
    exact hzero _ (ite_eq_or_eq _ _ _)
  · rw [scaled_of_ne hx, scaled_of_ne hx, hsum, hsum]
    by_cases hst : s = t
    · simp [real_mul_infinite, scaled_of_ne hx]
    · simp [hst]

lemma one_mul (a : Exact) : real 1 * a = a := by
  cases a with
  | nan => rfl
  | infinite s => simp [real_mul_infinite, scaled_of_ne, not_lt.mpr zero_le_one]
  | real y => simp

lemma real_mul_add (a b : Exact) : real x * (a + b) = real x * a + real x * b := by
  rcases a with _ | s | y <;> rcases b with _ | t | z
  case infinite.infinite => exact (scaled_add_scaled x s t).symm
  case infinite.real => exact (scaled_add_real x _ s).symm
  case real.infinite => rw [add_comm (real x * _)]; exact (scaled_add_real x _ t).symm
  case real.real => simp [mul_add]
  all_goals simp

lemma real_mul_mul (a : Exact) : real (x * y) * a = real x * (real y * a) := by
  cases a with
  | nan => rfl
  | real z => simp [mul_assoc]
  | infinite s =>
    by_cases hx : x = 0
    · by_cases hy : y = 0
      · simp [hy, real_mul_infinite, scaled_zero]
      · simp [hx, real_mul_infinite, scaled_zero, scaled_of_ne hy]
    · by_cases hy : y = 0
      · simp [hy, real_mul_infinite, scaled_zero]
      · simp only [real_mul_infinite, scaled_of_ne hy, scaled_of_ne hx, scaled_of_ne (mul_ne_zero hx hy)]
        rcases lt_or_gt_of_ne hx with hx | hx <;> rcases lt_or_gt_of_ne hy with hy | hy
        · simp [hx, hy, (mul_pos_of_neg_of_neg hx hy).not_gt]
        · simp [hx, hy.not_gt, mul_neg_of_neg_of_pos hx hy]
        · simp [hx.not_gt, hy, mul_neg_of_pos_of_neg hx hy]
        · simp [hx.not_gt, hy.not_gt, (mul_pos hx hy).not_gt]

end Exact

namespace Standard

open Exact

noncomputable def least (P : ℝ → Prop) : Exact :=
  real (sInf {x | P x})

noncomputable scoped instance : SpecialFunctions where
  erf
    | real x => real (2 / Real.sqrt Real.pi * ∫ t in (0 : ℝ)..x, Real.exp (-(t * t)))
    | infinite s => real (if s then -1 else 1)
    | nan => nan
  erfc
    | real x => real (1 - 2 / Real.sqrt Real.pi * ∫ t in (0 : ℝ)..x, Real.exp (-(t * t)))
    | infinite s => real (if s then 2 else 0)
    | nan => nan
  erfcInv
    | real p => least fun x => 1 - 2 / Real.sqrt Real.pi * ∫ t in (0 : ℝ)..x, Real.exp (-(t * t)) ≤ p
    | _ => nan
  lnGamma := periodic fun a => Real.log |Real.Gamma a|
  lnBeta
    | real a, real b => real (Real.log |Real.Gamma a * Real.Gamma b / Real.Gamma (a + b)|)
    | _, _ => nan
  gammaIncInv
    | real a, real p => least fun x => 0 ≤ x ∧ p * Real.Gamma a ≤ ∫ t in (0 : ℝ)..x, t ^ (a - 1) * Real.exp (-t)
    | _, _ => nan
  betaIncInv
    | real a, real b, real p =>
      least fun x => 0 ≤ x ∧ p * (Real.Gamma a * Real.Gamma b / Real.Gamma (a + b)) ≤
        ∫ t in (0 : ℝ)..x, t ^ (a - 1) * (1 - t) ^ (b - 1)
    | _, _, _ => nan

end Standard

end GridBayes
