import GridBayes.Code.Eval
import GridBayes.Proofs.ExactScalar

/-! Expressions in exact arithmetic. Whether a number is kept as a whole one plays no part in what an
expression gives, and products and quotients can be grouped in other ways, as sums can. -/
namespace GridBayes

/-! ## Products -/

namespace Exact

@[simp] lemma nan_mul (a : Exact) : nan * a = nan := rfl

noncomputable instance : CommMagma Exact where
  mul_comm a b := by
    rcases a with _ | s | x <;> rcases b with _ | t | y
    case infinite.infinite => exact congrArg infinite (Bool.xor_comm s t)
    case real.real => exact congrArg real (mul_comm x y)
    all_goals rfl

lemma real_mul_scaled (x y : ℝ) (s : Bool) : real x * scaled y s = scaled (x * y) s :=
  (real_mul_mul x y (infinite s)).symm

lemma infinite_mul_scaled (x : ℝ) (s t : Bool) : infinite s * scaled x t = scaled x (s ^^ t) := by
  by_cases hx : x = 0
  · rw [hx, scaled_zero, scaled_zero, mul_nan]
  · rw [scaled_of_ne hx, scaled_of_ne hx, Bool.xor_assoc]
    rfl

noncomputable instance : Semigroup Exact where
  mul_assoc a b c := by
    have hscaled (x : ℝ) (s t : Bool) : scaled x s * infinite t = scaled x (s ^^ t) := by
      rw [mul_comm, infinite_mul_scaled, Bool.xor_comm]
    have hreal (x y : ℝ) (s : Bool) : scaled x s * real y = scaled (x * y) s := by
      rw [mul_comm, real_mul_scaled, mul_comm]
    rcases a with _ | s | x <;> rcases b with _ | t | y <;> rcases c with _ | u | z
    case infinite.infinite.infinite => exact congrArg infinite (Bool.xor_assoc s t u)
    case infinite.infinite.real => exact (infinite_mul_scaled z s t).symm
    case infinite.real.infinite => exact (hscaled y s u).trans (infinite_mul_scaled y s u).symm
    case infinite.real.real => exact hreal y z s
    case real.infinite.infinite => exact hscaled x t u
    case real.infinite.real => exact (hreal x z t).trans (real_mul_scaled x z t).symm
    case real.real.infinite => exact real_mul_mul x y (infinite u)
    case real.real.real => exact congrArg real (mul_assoc x y z)
    all_goals simp

lemma neg_eq_mul (a : Exact) : -a = real (-1) * a := by
  cases a with
  | nan => rfl
  | infinite s =>
    rw [real_mul_infinite, scaled_of_ne (by norm_num), decide_eq_true (by norm_num), Bool.xor_true]
    rfl
  | real x => exact congrArg real (neg_one_mul x).symm

lemma neg_product (a b : Exact) : -a * b = -(a * b) := by rw [neg_eq_mul, neg_eq_mul, mul_assoc]

lemma div_eq_mul {c : Exact} (hc : c ≠ real 0) : ∃ d, ∀ a, a / c = a * d := by
  cases c with
  | nan =>
    refine ⟨nan, fun a => ?_⟩
    cases a <;> rfl
  | infinite s =>
    refine ⟨real 0, fun a => ?_⟩
    cases a with
    | nan => rfl
    | infinite t => exact (scaled_zero t).symm
    | real x => exact congrArg real (mul_zero x).symm
  | real y =>
    have hy : y ≠ 0 := fun h => hc (congrArg real h)
    refine ⟨real y⁻¹, fun a => ?_⟩
    cases a with
    | nan => rfl
    | infinite t =>
      show infinite (t ^^ decide (y < 0)) = scaled y⁻¹ t
      rw [scaled_of_ne (inv_ne_zero hy)]
      simp only [inv_lt_zero]
    | real x => rw [real_div_real x hy, real_mul_real, div_eq_mul_inv]

end Exact

namespace Code
open Exact Scalar List Except

/-! ## What operators give -/

inductive Operator where
  | add
  | sub
  | mul
  | div
  | power
deriving DecidableEq

section

variable {α : Type} [Scalar α]

def Operator.expr : Operator → Expr → Expr → Expr
  | .add => .add
  | .sub => .sub
  | .mul => .mul
  | .div => .div
  | .power => .power

def Operator.apply : Operator → α → α → Except Fault α
  | .add, x, y => .ok (x + y)
  | .sub, x, y => .ok (x - y)
  | .mul, x, y => .ok (x * y)
  | .div, x, y => if eq y (0.0 : α) then .error .dividedByZero else .ok (x / y)
  | .power, x, y => if lt x (0.0 : α) && isFinite y && !eq (floor y) y then .error .complexPower else .ok (pow x y)

def Expr.outcome (env : Env α) (e : Expr) : Except Fault α :=
  Operand.toReal <$> e.eval env

def Operator.meet (op : Operator) (x y : Except Fault α) : Except Fault α := do
  op.apply (← x) (← y)

end

variable [SpecialFunctions]

lemma ofInt_eq (n : ℤ) : (ofInt n : Exact) = real n := by
  unfold ofInt
  split
  · rename_i hn
    rw [ofNat_eq, Nat.cast_natAbs, abs_of_neg hn]
    simp
  · rename_i hn
    rw [ofNat_eq, Nat.cast_natAbs, abs_of_nonneg (not_lt.mp hn)]

lemma toReal_both {f : ℤ → ℤ → ℤ} {g : Exact → Exact → Exact}
    (h : ∀ m n : ℤ, (ofInt (f m n) : Exact) = g (ofInt m) (ofInt n)) (a b : Operand Exact) :
    (both f g a b).toReal = g a.toReal b.toReal := by
  cases a with
  | whole m =>
    cases b with
    | whole n => exact h m n
    | real y => rfl
  | real x => cases b <;> rfl

lemma floor_whole (n : ℤ) : floor (real n) = real n := by
  have ht : truncate (real n) = n := by
    show (if (0 : ℝ) ≤ n then ⌊(n : ℝ)⌋ else ⌈(n : ℝ)⌉) = n
    split <;> simp
  unfold floor
  simp only [ht, ofInt_eq, lt_real, lt_self_iff_false, if_false]

lemma pow_whole (m : ℤ) {n : ℤ} (hn : 0 ≤ n) : pow (real m) (real n) = real (m ^ n.toNat : ℤ) := by
  obtain ⟨k, rfl⟩ := Int.eq_ofNat_of_zero_le hn
  rw [Int.toNat_natCast]
  show power (real m) (real ((k : ℤ) : ℝ)) = _
  unfold power
  split
  · rename_i ht
    rcases ht with h | h
    · have hm : (m : ℝ) = 1 := real.inj h
      rw [Int.cast_eq_one.mp hm, one_pow, Int.cast_one]
    · have hk : k = 0 := by exact_mod_cast real.inj h
      rw [hk, pow_zero, Int.cast_one]
  · rename_i hg
    rw [not_or] at hg
    have hk : k ≠ 0 := fun h => hg.2 (by rw [h]; simp)
    have hf : ⌊((k : ℤ) : ℝ)⌋ = (k : ℤ) := Int.floor_intCast _
    dsimp only [realPower]
    rw [hf, Int.cast_pow, Int.cast_natCast, Real.rpow_natCast, if_pos rfl]
    split
    · rfl
    · split
      · rename_i hzero
        rw [hzero, zero_pow hk, if_pos (by exact_mod_cast Nat.pos_of_ne_zero hk)]
      · rfl

lemma toReal_powerOf (a b : Operand Exact) :
    Operand.toReal <$> powerOf a b = Operator.power.apply a.toReal b.toReal := by
  cases a with
  | real x => cases b <;> (unfold powerOf; dsimp only [Operator.apply]; split <;> rfl)
  | whole m =>
    cases b with
    | real y => unfold powerOf; dsimp only [Operator.apply]; split <;> rfl
    | whole n =>
      have hw : (!eq (floor (real (n : ℝ))) (real n)) = false := by
        rw [floor_whole, (eq_real _ _).mpr rfl]
        rfl
      unfold powerOf
      dsimp only [Operator.apply, Operand.toReal]
      rw [ofInt_eq, ofInt_eq, hw, Bool.and_false]
      split
      · rename_i hn
        rw [pow_whole m hn]
        show ok (ofInt (m.pow n.toNat)) = _
        rw [ofInt_eq]
        rfl
      · rfl

variable (env : Env Exact)

lemma outcome_operator (op : Operator) (a b : Expr) :
    (op.expr a b).outcome env = op.meet (a.outcome env) (b.outcome env) := by
  have hboth {f : ℤ → ℤ → ℤ} {g : Exact → Exact → Exact}
      (h : ∀ m n : ℤ, (ofInt (f m n) : Exact) = g (ofInt m) (ofInt n)) :
      Operand.toReal <$> (do return both f g (← a.eval env) (← b.eval env)) =
        (do let x ← a.outcome env; let y ← b.outcome env; ok (g x y)) := by
    unfold Expr.outcome
    cases a.eval env with
    | error e => rfl
    | ok x =>
      cases b.eval env with
      | error e => rfl
      | ok y => exact congrArg ok (toReal_both h x y)
  cases op with
  | add | sub | mul => exact hboth fun m n => by simp [ofInt_eq]
  | div =>
    unfold Expr.outcome
    simp only [Operator.expr, Expr.eval]
    cases a.eval env with
    | error e => rfl
    | ok x =>
      cases b.eval env with
      | error e => rfl
      | ok y =>
        show Operand.toReal <$> quotient x y = Operator.div.apply x.toReal y.toReal
        unfold quotient
        dsimp only [Operator.apply]
        split <;> rfl
  | power =>
    unfold Expr.outcome
    simp only [Operator.expr, Expr.eval]
    cases a.eval env with
    | error e => rfl
    | ok x =>
      cases b.eval env with
      | error e => rfl
      | ok y => exact toReal_powerOf x y

lemma outcome_negate (a : Expr) : (Expr.negate a).outcome env = (- ·) <$> a.outcome env := by
  unfold Expr.outcome
  simp only [Expr.eval]
  cases a.eval env with
  | error e => rfl
  | ok x =>
    cases x with
    | real x => rfl
    | whole n => exact congrArg ok (by simp [Operand.toReal, ofInt_eq])

/-! ## Grouping -/

structure Operator.Regroups (op op' : Operator) : Prop where
  total : ∀ x y : Exact, ∃ v, op.apply x y = .ok v
  same : ∀ x y z : Exact, (op.apply x y >>= fun v => op'.apply v z) = (op'.apply y z >>= fun v => op.apply x v)

lemma Operator.Regroups.meet {op op' : Operator} (h : op.Regroups op') (x y z : Except Fault Exact) :
    op'.meet (op.meet x y) z = op.meet x (op'.meet y z) := by
  cases x with
  | error e => rfl
  | ok x =>
    cases y with
    | error e => rfl
    | ok y =>
      cases z with
      | error e =>
        obtain ⟨v, hv⟩ := h.total x y
        show (op.apply x y >>= fun _ => error e) = error e
        rw [hv]
        rfl
      | ok z => exact h.same x y z

lemma regroups_add_add : Operator.add.Regroups .add where
  total x y := ⟨x + y, rfl⟩
  same x y z := congrArg ok (add_assoc x y z)

lemma regroups_add_sub : Operator.add.Regroups .sub where
  total x y := ⟨x + y, rfl⟩
  same x y z := congrArg ok (add_assoc x y (-z))

lemma regroups_mul_mul : Operator.mul.Regroups .mul where
  total x y := ⟨x * y, rfl⟩
  same x y z := congrArg ok (mul_assoc x y z)

lemma apply_div (z : Exact) : (∀ x, Operator.div.apply x z = .error .dividedByZero) ∨
      ∃ d, ∀ x, Operator.div.apply x z = .ok (x * d) := by
  by_cases hz : eq z (0.0 : Exact) = true
  · exact .inl fun x => if_pos hz
  · have hne : z ≠ real 0 := by
      rintro rfl
      exact hz (by norm_num)
    obtain ⟨d, hd⟩ := div_eq_mul hne
    exact .inr ⟨d, fun x => (if_neg hz).trans (congrArg ok (hd x))⟩

lemma regroups_mul_div : Operator.mul.Regroups .div where
  total x y := ⟨x * y, rfl⟩
  same x y z := by
    show Operator.div.apply (x * y) z = (Operator.div.apply y z >>= fun v => ok (x * v))
    rcases apply_div z with h | ⟨d, h⟩
    · rw [h, h]
      rfl
    · rw [h, h, mul_assoc]
      rfl

lemma neg_meet {op : Operator} (hop : op = .mul ∨ op = .div) (x y : Except Fault Exact) :
    op.meet ((- ·) <$> x) y = (- ·) <$> op.meet x y := by
  cases x with
  | error e => rfl
  | ok x =>
    cases y with
    | error e => rfl
    | ok y =>
      rcases hop with rfl | rfl
      · exact congrArg ok (neg_product x y)
      · show Operator.div.apply (-x) y = (- ·) <$> Operator.div.apply x y
        rcases apply_div y with h | ⟨d, h⟩
        · rw [h, h]
          rfl
        · rw [h, h, neg_product]
          rfl

/-! ## Calls -/

variable {es es' : List Expr}

lemma evalAll_congr {env env' : Env Exact} (h : es.map (Expr.outcome env) = es'.map (Expr.outcome env')) :
    Expr.evalAll env es = Expr.evalAll env' es' := by
  induction es generalizing es' with
  | nil =>
    obtain rfl := map_eq_nil_iff.mp h.symm
    rfl
  | cons e es ih =>
    obtain ⟨e', es', rfl⟩ : ∃ e' rest, es' = e' :: rest := by
      cases es' with
      | nil => cases h
      | cons e' rest => exact ⟨e', rest, rfl⟩
    obtain ⟨hf, hrest⟩ := cons.inj h
    have hs (env : Env Exact) (e : Expr) (es : List Expr) : Expr.evalAll env (e :: es) =
        (do let x ← e.outcome env; return x :: (← Expr.evalAll env es)) := by
      rw [Expr.evalAll]
      unfold Expr.outcome
      cases e.eval env <;> rfl
    rw [hs, hs, hf, ih hrest]

lemma outcome_call {env env' : Env Exact} (hm : env.methods = env'.methods) (s : String)
    (h : es.map (Expr.outcome env) = es'.map (Expr.outcome env')) :
    (Expr.call s es).outcome env = (Expr.call s es').outcome env' := by
  unfold Expr.outcome
  simp only [Expr.eval, Env.interpolate, evalAll_congr h, hm]

end Code
end GridBayes
