import GridBayes.Proofs.NormalQuantile

/-! The quantile of a mixture of two normal distributions, found by bisection and secant steps in turn. The quantiles of
the components enclose it, and every step leaves an interval whose ends have at most and at least the wanted mass below
them, so the middle of an interval with nearly the same mass below both ends is as near to the quantile in mass. -/
namespace GridBayes.Distribution
open Exact Scalar

namespace Bracket

variable {α : Type} [Scalar α]

/-- The search goes on while the masses below the ends differ. -/
def isWide (b : Bracket α) : Bool :=
  lt 1e-12 (fabs (b.lowValue - b.highValue))

def start (f : α → α) (x y : α) : Bracket α :=
  let (low, high) := if lt y x then (y, x) else (x, y)
  ⟨low, high, f low, f high⟩

/-- The brackets of a search, each with the number of steps before it. -/
inductive Reached (f : α → α) (p : α) (first : Bracket α) : ℕ → Bracket α → Prop
  | first : Reached f p first 0 first
  | step {n : ℕ} {b : Bracket α} : Reached f p first n b → b.isWide = true →
    Reached f p first (n + 1) (b.narrow f p (b.guess p (n + 1)))

/-- A search ends at the first bracket that is not wide, or without a result after a hundred steps. -/
lemma search_cases {f : α → α} {p : α} {first : Bracket α} (fuel : ℕ) {n : ℕ} {b : Bracket α}
    (hb : Reached f p first n b) (hfuel : fuel + n = 101) :
    (∃ last, Reached f p first 101 last) ∧ search f p fuel n b = Scalar.nan ∨
    ∃ m last, m ≤ 100 ∧ Reached f p first m last ∧ last.isWide = false ∧
      search f p fuel n b = (last.low + last.high) / 2.0 := by
  induction fuel generalizing n b with
  | zero =>
    obtain rfl : n = 101 := by omega
    exact .inl ⟨⟨b, hb⟩, rfl⟩
  | succ fuel ih =>
    rw [search]
    cases hwide : b.isWide with
    | false => exact .inr ⟨n, b, by omega, hb, hwide, if_neg (by rw [← isWide, hwide]; decide)⟩
    | true =>
      rw [if_pos (by exact hwide)]
      by_cases hlast : 100 < n + 1
      · obtain rfl : n = 100 := by omega
        exact .inl ⟨⟨_, hb.step hwide⟩, if_pos hlast⟩
      · rw [if_neg hlast]
        exact ih (hb.step hwide) (by omega)

end Bracket

/-- An interval whose ends have at most and at least the mass `p` below them. -/
structure Enclosure (F : ℝ → ℝ) (p : ℝ) where
  low : ℝ
  high : ℝ
  low_le_high : low ≤ high
  below : F low ≤ p
  above : p ≤ F high

namespace Enclosure

variable {F : ℝ → ℝ} {p : ℝ} (e : Enclosure F p)

def bracket : Bracket Exact :=
  ⟨real e.low, real e.high, real (F e.low), real (F e.high)⟩

variable [SpecialFunctions]

lemma isWide_bracket : e.bracket.isWide = true ↔ 1e-12 < F e.high - F e.low := by
  have hle : F e.low ≤ F e.high := e.below.trans e.above
  unfold Bracket.isWide bracket
  dsimp only
  rw [ofScientific_eq, real_sub_real, fabs_real, lt_real, abs_sub_comm, abs_of_nonneg (sub_nonneg.mpr hle)]

/-- The next guess lies between the ends; where it is a secant's, the masses differ and can be divided by. -/
lemma guess_bracket (n : ℕ) (hwide : e.bracket.isWide = true) :
    ∃ x, e.bracket.guess (real p) n = real x ∧ e.low ≤ x ∧ x ≤ e.high := by
  have hgap : 0 < F e.high - F e.low := lt_trans (by norm_num) (e.isWide_bracket.mp hwide)
  have hlen := sub_nonneg.mpr e.low_le_high
  unfold Bracket.guess bracket
  dsimp only
  split
  · refine ⟨e.low + (e.high - e.low) * (p - F e.low) / (F e.high - F e.low), ?_, ?_, ?_⟩
    · simp only [real_sub_real, real_mul_real, real_div_real _ hgap.ne', real_add_real]
    · linarith [div_nonneg (mul_nonneg hlen (sub_nonneg.mpr e.below)) hgap.le]
    · have hshare := mul_le_mul_of_nonneg_left (sub_le_sub_right e.above (F e.low)) hlen
      linarith [(div_le_iff₀ hgap).mpr hshare]
  · refine ⟨(e.low + e.high) / 2, ?_, ?_, ?_⟩
    · rw [two_eq, real_add_real, real_div_real _ two_ne_zero]
    all_goals linarith [e.low_le_high]

lemma narrow_bracket {f : Exact → Exact} (hf : ∀ x, f (real x) = real (F x)) {x : ℝ} (hlow : e.low ≤ x)
    (hhigh : x ≤ e.high) : ∃ e' : Enclosure F p, e.bracket.narrow f (real p) (real x) = e'.bracket := by
  unfold Bracket.narrow
  simp only [hf, lt_real]
  by_cases h : p < F x
  · exact ⟨⟨e.low, x, hlow, e.below, h.le⟩, if_pos h⟩
  · exact ⟨⟨x, e.high, hhigh, not_lt.mp h, e.above⟩, if_neg h⟩

/-- Every bracket of a search that starts with an enclosure is one. -/
lemma of_reached {f : Exact → Exact} (hf : ∀ x, f (real x) = real (F x)) {n : ℕ} {b : Bracket Exact}
    (hb : Bracket.Reached f (real p) e.bracket n b) : ∃ e' : Enclosure F p, b = e'.bracket := by
  induction hb with
  | first => exact ⟨e, rfl⟩
  | step _ hwide ih =>
    obtain ⟨e', rfl⟩ := ih
    obtain ⟨x, hx, hlow, hhigh⟩ := e'.guess_bracket _ hwide
    rw [hx]
    exact e'.narrow_bracket hf hlow hhigh

lemma middle_bracket (hF : Monotone F) (h : e.bracket.isWide = false) :
    ∃ x, (e.bracket.low + e.bracket.high) / 2.0 = real x ∧ |F x - p| ≤ 1e-12 := by
  have hnarrow : F e.high - F e.low ≤ 1e-12 := by
    rw [← not_lt, ← e.isWide_bracket, h]
    decide
  have hlow := hF (show e.low ≤ (e.low + e.high) / 2 by linarith [e.low_le_high])
  have hhigh := hF (show (e.low + e.high) / 2 ≤ e.high by linarith [e.low_le_high])
  refine ⟨(e.low + e.high) / 2, ?_, abs_le.mpr ⟨?_, ?_⟩⟩
  · unfold bracket
    rw [two_eq, real_add_real, real_div_real _ two_ne_zero]
  · linarith [e.above]
  · linarith [e.below]

end Enclosure

/-- A weight and two normal distributions. -/
structure Mixture where
  weight : ℝ
  mean1 : ℝ
  mean2 : ℝ
  sigma1 : ℝ
  sigma2 : ℝ
  weight_nonneg : 0 ≤ weight
  weight_le_one : weight ≤ 1
  sigma1_pos : 0 < sigma1
  sigma2_pos : 0 < sigma2

section

variable [SpecialFunctions]

/-- The distribution function does not decrease, and the mass `p` lies below the quantile of `p`. -/
structure HasQuantile (mean sigma p : ℝ) (cdf : ℝ → ℝ) (q : ℝ) : Prop where
  cumulative : ∀ x, normalCumulative (real x) (real mean) (real sigma) = real (cdf x)
  quantile : normalQuantile (real p) (real mean) (real sigma) = real q
  monotone : Monotone cdf
  mass : cdf q = p

lemma NormalLaw.hasQuantile {mean sigma : ℝ} {cdf ppf : ℝ → ℝ} (law : NormalLaw mean sigma cdf ppf) {p : ℝ}
    (hp : 0 < p) (hp1 : p < 1) : HasQuantile mean sigma p cdf (ppf p) :=
  ⟨law.cumulative, law.quantile p hp hp1, law.strictMono.monotone, law.cdf_ppf p hp hp1⟩

namespace Mixture

variable (m : Mixture) (p : ℝ)

/-- The mass below a number, from that of the components. -/
def mass (F G : ℝ → ℝ) (x : ℝ) : ℝ :=
  m.weight * F x + (1 - m.weight) * G x

noncomputable def cumulative : Exact → Exact :=
  mixture (normalCumulative · (real m.mean1) (real m.sigma1)) (normalCumulative · (real m.mean2) (real m.sigma2))
    (real m.weight)

noncomputable def start : Bracket Exact :=
  Bracket.start m.cumulative (normalQuantile (real p) (real m.mean1) (real m.sigma1))
    (normalQuantile (real p) (real m.mean2) (real m.sigma2))

/-- The brackets that the search for the quantile of `p` goes through. -/
def Reaches : ℕ → Bracket Exact → Prop :=
  Bracket.Reached m.cumulative (real p) (m.start p)

lemma not_bad : ¬ badMixture (real m.weight) (real m.sigma1) (real m.sigma2) = true := by
  unfold badMixture
  simp only [ofScientific_eq, Bool.or_eq_true, lt_real, le_real]
  norm_num
  exact ⟨⟨⟨m.sigma1_pos, m.sigma2_pos⟩, m.weight_le_one⟩, m.weight_nonneg⟩

variable {m p} {F G : ℝ → ℝ} {q r : ℝ} (left : HasQuantile m.mean1 m.sigma1 p F q)
  (right : HasQuantile m.mean2 m.sigma2 p G r)

include left right

lemma cumulative_real (x : ℝ) : m.cumulative (real x) = real (m.mass F G x) := by
  unfold cumulative mixture
  beta_reduce
  rw [left.cumulative, right.cumulative, one_eq]
  rfl

/-- The quantiles of the components enclose that of the mixture. -/
lemma exists_start : ∃ e : Enclosure (m.mass F G) p, m.start p = e.bracket := by
  have hw2 := sub_nonneg.mpr m.weight_le_one
  have hmean : m.weight * p + (1 - m.weight) * p = p := by ring
  have hbelow (x : ℝ) (hq : x ≤ q) (hr : x ≤ r) : m.mass F G x ≤ p :=
    (add_le_add (mul_le_mul_of_nonneg_left ((left.monotone hq).trans left.mass.le) m.weight_nonneg)
      (mul_le_mul_of_nonneg_left ((right.monotone hr).trans right.mass.le) hw2)).trans hmean.le
  have habove (x : ℝ) (hq : q ≤ x) (hr : r ≤ x) : p ≤ m.mass F G x :=
    hmean.ge.trans (add_le_add (mul_le_mul_of_nonneg_left (left.mass.ge.trans (left.monotone hq)) m.weight_nonneg)
      (mul_le_mul_of_nonneg_left (right.mass.ge.trans (right.monotone hr)) hw2))
  unfold start Bracket.start
  rw [left.quantile, right.quantile]
  by_cases h : r < q
  · refine ⟨⟨r, q, h.le, hbelow r h.le le_rfl, habove q le_rfl h.le⟩, ?_⟩
    rw [if_pos ((lt_real _ _).mpr h)]
    simp only [cumulative_real left right]
    rfl
  · have hle := not_lt.mp h
    refine ⟨⟨q, r, hle, hbelow q le_rfl hle, habove r hle le_rfl⟩, ?_⟩
    rw [if_neg (mt (lt_real _ _).mp h)]
    simp only [cumulative_real left right]
    rfl

lemma of_reaches {n : ℕ} {b : Bracket Exact} (hb : m.Reaches p n b) :
    ∃ e : Enclosure (m.mass F G) p, b = e.bracket := by
  obtain ⟨e, he⟩ := exists_start left right
  unfold Reaches at hb
  rw [he] at hb
  exact e.of_reached (cumulative_real left right) hb

end Mixture

lemma binormQuantile_eq (m : Mixture) {p : ℝ} (hp : 0 < p) (hp1 : p < 1) :
    binormQuantile (real p) (real m.weight) (real m.mean1) (real m.mean2) (real m.sigma1) (real m.sigma2) =
      Bracket.search m.cumulative (real p) 101 0 (m.start p) := by
  have hin : ¬ (lt (real p) 0.0 || lt 1.0 (real p) ||
      badMixture (real m.weight) (real m.sigma1) (real m.sigma2)) = true := by
    rw [Bool.or_eq_true, Bool.or_eq_true, ofScientific_eq, ofScientific_eq, lt_real, lt_real]
    norm_num
    exact ⟨⟨hp.le, hp1.le⟩, Bool.not_eq_true _ ▸ m.not_bad⟩
  unfold binormQuantile
  rw [if_neg hin]
  unfold mixtureQuantile Mixture.start Bracket.start
  dsimp only
  split <;> rfl

/-- Every bracket of the search has at most the wanted mass below its lower end and at least that below its upper one,
no step divides by zero, and a number that comes out has the wanted mass below it up to the tolerance. -/
theorem binormQuantile_inverts (m : Mixture) {p : ℝ} {F G : ℝ → ℝ} {q r : ℝ} (hp : 0 < p) (hp1 : p < 1)
    (left : HasQuantile m.mean1 m.sigma1 p F q) (right : HasQuantile m.mean2 m.sigma2 p G r) : ∃ mass : ℝ → ℝ,
    (∀ x, binormCumulative (real x) (real m.weight) (real m.mean1) (real m.mean2) (real m.sigma1) (real m.sigma2) =
      real (mass x)) ∧
    (∀ n b, m.Reaches p n b → ∃ low high, b = ⟨real low, real high, real (mass low), real (mass high)⟩ ∧
      low ≤ high ∧ mass low ≤ p ∧ p ≤ mass high ∧ (b.isWide = true → mass high - mass low ≠ 0)) ∧
    ((∃ b, m.Reaches p 101 b) ∧
      binormQuantile (real p) (real m.weight) (real m.mean1) (real m.mean2) (real m.sigma1) (real m.sigma2) = nan ∨
    ∃ n b x, m.Reaches p n b ∧ (b.low + b.high) / 2.0 = real x ∧ |mass x - p| ≤ 1e-12 ∧
      binormQuantile (real p) (real m.weight) (real m.mean1) (real m.mean2) (real m.sigma1) (real m.sigma2) =
        real x) := by
  refine ⟨m.mass F G, fun x => ?_, fun n b hb => ?_, ?_⟩
  · exact (if_neg m.not_bad).trans (Mixture.cumulative_real left right x)
  · obtain ⟨e, rfl⟩ := Mixture.of_reaches left right hb
    refine ⟨e.low, e.high, rfl, e.low_le_high, e.below, e.above, fun hwide => ?_⟩
    exact (lt_trans (by norm_num) (e.isWide_bracket.mp hwide)).ne'
  · rw [binormQuantile_eq m hp hp1]
    rcases Bracket.search_cases 101 (.first : m.Reaches p 0 _) rfl with hnan | ⟨n, last, -, hlast, hwide, hresult⟩
    · exact .inl hnan
    · obtain ⟨e, rfl⟩ := Mixture.of_reaches left right hlast
      obtain ⟨x, hx, hmass⟩ := e.middle_bracket ((left.monotone.const_mul m.weight_nonneg).add
        (right.monotone.const_mul (sub_nonneg.mpr m.weight_le_one))) hwide
      exact .inr ⟨n, _, x, hlast, hx, hmass, hresult.trans hx⟩

end

open scoped Standard in
theorem binormQuantile_inverts_quarter : ∃ mass : ℝ → ℝ,
    (∀ x, binormCumulative (real x) (real (1 / 3)) (real 0) (real 5) (real 1) (real 2) = real (mass x)) ∧
    (binormQuantile (real (1 / 4)) (real (1 / 3)) (real 0) (real 5) (real 1) (real 2) = nan ∨
      ∃ x, binormQuantile (real (1 / 4)) (real (1 / 3)) (real 0) (real 5) (real 1) (real 2) = real x ∧
        |mass x - 1 / 4| ≤ 1e-12) := by
  obtain ⟨_, left⟩ := normalLaw_standard 0 one_pos
  obtain ⟨_, right⟩ := normalLaw_standard 5 two_pos
  have hp : (0 : ℝ) < 1 / 4 := by norm_num
  have hp1 : (1 / 4 : ℝ) < 1 := by norm_num
  obtain ⟨mass, hmass, -, hresult⟩ := binormQuantile_inverts
    ⟨1 / 3, 0, 5, 1, 2, by norm_num, by norm_num, one_pos, two_pos⟩ hp hp1 (left.hasQuantile hp hp1)
    (right.hasQuantile hp hp1)
  refine ⟨mass, hmass, hresult.imp And.right ?_⟩
  rintro ⟨n, b, x, -, -, hx, hquantile⟩
  exact ⟨x, hquantile, hx⟩

end GridBayes.Distribution
