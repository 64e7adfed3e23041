import GridBayes.Code.Eval
import GridBayes.Proofs.PriorCode

/-! What the code of a transformed prior computes, in exact arithmetic. The quantile code draws a number
whose transform is the quantile of the family. The density code adds the log-density of the family at the
transform, and a correction. The density of what is drawn has the logarithm of the derivative there, and for
four of six transforms the correction is another number. -/
namespace GridBayes
open Code Exact Operation List Except

/-! ## Calls of functions by name -/

section

variable {α : Type} [Scalar α]

variable {x : α} {s : String}

lemma elementary_eq_call {name : String} (hu : unary name x = none) (hb : ∀ y, binary name x y = none)
    (values : List α) : elementary name (x :: values) = Distribution.call name (x :: values) := by
  rcases values with _ | ⟨y, _ | ⟨z, values⟩⟩
  · show (unary name x).orElse _ = _
    rw [hu]
    rfl
  · show (binary name x y).orElse _ = _
    rw [hb]
    rfl
  · rfl

lemma elementary_density (f : Family) (x : α) (values : List α) :
    elementary (f.name ++ "_lpdf") (x :: values) = Distribution.density f x values := by
  have hl : Distribution.densityNames.lookup (f.name ++ "_lpdf") = some f := by cases f <;> rfl
  rw [elementary_eq_call (by cases f <;> rfl) fun y => by cases f <;> rfl]
  unfold Distribution.call
  rw [hl]

lemma elementary_quantile (f : Family) (x : α) (values : List α) :
    elementary (f.name ++ "_ppf") (x :: values) = Distribution.quantile f x values := by
  have hd : Distribution.densityNames.lookup (f.name ++ "_ppf") = none := by cases f <;> rfl
  have hl : Distribution.quantileNames.lookup (f.name ++ "_ppf") = some f := by cases f <;> rfl
  rw [elementary_eq_call (by cases f <;> rfl) fun y => by cases f <;> rfl]
  unfold Distribution.call
  rw [hd, hl]

lemma density_of_arity {f : Family} (x : α) {values : List α} (h : values.length = f.arity) :
    ∃ d, Distribution.density f x values = some d := by
  cases f
  all_goals
    rcases values with _ | ⟨a, _ | ⟨b, _ | ⟨c, _ | ⟨d, _ | ⟨e, _ | ⟨g, values⟩⟩⟩⟩⟩⟩ <;> first
        | exact ⟨_, rfl⟩
        | simp [Family.arity] at h

/-! ## Expressions -/

variable {env : Env α} {e : Expr} {es : List Expr} {a : Operand α} {values : List α}

lemma evalAll_cons (he : e.eval env = .ok a) (hes : Expr.evalAll env es = .ok values) :
    Expr.evalAll env (e :: es) = .ok (a.toReal :: values) := by
  exact bind_eq_ok.mpr ⟨a, he, bind_eq_ok.mpr ⟨values, hes, rfl⟩⟩

lemma evalAll_length (h : Expr.evalAll env es = .ok values) : values.length = es.length := by
  induction es generalizing values with
  | nil =>
    rw [← ok.inj h]
    rfl
  | cons e es ih =>
    obtain ⟨x, -, h⟩ := bind_eq_ok.mp h
    obtain ⟨rest, hrest, h⟩ := bind_eq_ok.mp h
    rw [← ok.inj h, length_cons, length_cons, ih hrest]

lemma eval_entry {i : Nat} (h : env.params[i]? = some x) : (Expr.entry s i).eval env = .ok (.real x) := by
  rw [Expr.eval, h]

section

variable {b : Expr} {x y : α}

lemma eval_negate (he : e.eval env = .ok (.real x)) : (Expr.negate e).eval env = .ok (.real (-x)) := by
  exact bind_eq_ok.mpr ⟨_, he, rfl⟩

lemma eval_add (he : e.eval env = .ok (.real x)) (hb : b.eval env = .ok (.real y)) :
    (Expr.add e b).eval env = .ok (.real (x + y)) := by
  exact bind_eq_ok.mpr ⟨_, he, bind_eq_ok.mpr ⟨_, hb, rfl⟩⟩

lemma eval_sub (he : e.eval env = .ok (.real x)) (hb : b.eval env = .ok (.real y)) :
    (Expr.sub e b).eval env = .ok (.real (x - y)) := by
  exact bind_eq_ok.mpr ⟨_, he, bind_eq_ok.mpr ⟨_, hb, rfl⟩⟩

end

lemma eval_call (hes : Expr.evalAll env es = .ok values) (hcall : elementary s values = some x) :
    (Expr.call s es).eval env = .ok (.real x) := by
  refine bind_eq_ok.mpr ⟨values, hes, ?_⟩
  rw [hcall]
  rfl

end

/-! ## Transforms -/

section

variable [SpecialFunctions]

lemma ofInt_ten : (ofInt 10 : Exact) = real 10 := by
  show real ((10 : ℕ) : ℝ) = real 10
  norm_num

lemma powerOf_ten (y : ℝ) : powerOf (.whole 10) (.real (real y)) = .ok (.real (real (10 ^ y))) := by
  have hn : Scalar.lt (ofInt 10 : Exact) 0.0 = false := by
    rw [ofInt_ten, ofScientific_eq, ← Bool.not_eq_true]
    norm_num
  unfold powerOf
  simp only [Operand.toReal, hn, Bool.false_and, Bool.false_eq_true, if_false]
  rw [ofInt_ten, pow_real y (by norm_num)]

lemma expit_real (x : ℝ) : Distribution.expit (real x) = real (Real.sigmoid x) := by
  have hpos : 1 + Real.exp (-x) ≠ 0 := (add_pos one_pos (Real.exp_pos _)).ne'
  unfold Distribution.expit
  rw [one_eq, neg_real, exp_real, real_add_real, real_div_real _ hpos, one_div]
  rfl

lemma logit_real {x : ℝ} (hpos : 0 < x) (hlt : x < 1) :
    Distribution.logit (real x) = real (Real.log (x / (1 - x))) := by
  have hone : 0 < 1 - x := sub_pos.mpr hlt
  unfold Distribution.logit
  rw [one_eq, real_sub_real, real_div_real _ hone.ne', log_real (div_pos hpos hone)]

lemma logitSlope_real (x : ℝ) : Distribution.logitSlope (real x) = -logarithm Real.log (real (x - x * x)) := by
  unfold Distribution.logitSlope
  rfl

namespace Transform

variable {env : Env Exact} {a e : Expr} {b : Exact} {x : ℝ}

lemma eval_applied (t : Transform) (he : e.eval env = .ok (.real (real x))) (hx : x ∈ t.domain) :
    (t.applied e).eval env = .ok (.real (real (t.map x))) := by
  have hargs : Expr.evalAll env [e] = .ok [real x] := evalAll_cons he rfl
  have hcall {s : String} {y : ℝ} (h : elementary s [real x] = some (real y)) :
      (Expr.call s [e]).eval env = .ok (.real (real y)) := eval_call hargs h
  cases t with
  | log10 => exact hcall (congrArg some (log10_real hx))
  | exp10 =>
    show (do powerOf (← Expr.eval env (.whole 10)) (← e.eval env)) = _
    rw [he]
    exact powerOf_ten x
  | ln => exact hcall (congrArg some (log_real hx))
  | exp => exact hcall rfl
  | expit => exact hcall (congrArg some (expit_real x))
  | logit => exact hcall (congrArg some (logit_real hx.1 hx.2))

lemma eval_log_ten (env : Env Exact) :
    (Expr.call "math.log" [.whole 10]).eval env = .ok (.real (real (Real.log 10))) := by
  have hten : Expr.evalAll env [.whole 10] = .ok [real 10] := by rfl
  exact eval_call hten (congrArg some (log_real (by norm_num)))

lemma eval_corrected (t : Transform) (ha : a.eval env = .ok (.real b))
    (he : e.eval env = .ok (.real (real x))) (hx : x ∈ t.domain) :
    (t.corrected a e).eval env = .ok (.real (b + t.correction x)) := by
  have hs : (Expr.call "logddx_logit" [e]).eval env = .ok (.real (-logarithm Real.log (real (x - x * x)))) :=
    eval_call (evalAll_cons he rfl) (congrArg some (logitSlope_real x))
  -- Both transforms to the base ten have this correction. The sign stands before `math.log(10)` only, so the
  -- reader subtracts the variable.
  have ht : (Expr.sub (.add a (.negate (.call "math.log" [.whole 10]))) e).eval env =
      .ok (.real (b + real (-Real.log 10 - x))) := by
    have hsum : b + -real (Real.log 10) - real x = b + real (-Real.log 10 - x) := by exact add_assoc b _ _
    rw [← hsum]
    exact eval_sub (eval_add ha (eval_negate (eval_log_ten env))) he
  cases t with
  | log10 => exact ht
  | exp10 => exact ht
  | ln => exact eval_add ha (eval_negate he)
  | exp => exact eval_add ha he
  | expit =>
    -- Here the argument of the logarithm may be negative, so the value stays as it is.
    have hm := eval_negate hs
    rw [neg_neg] at hm
    exact eval_add ha hm
  | logit =>
    have hpos : 0 < x - x * x := by nlinarith [hx.1, hx.2]
    have hreal : -logarithm Real.log (real (x - x * x)) = real (-Real.log (x - x * x)) := by
      rw [show logarithm Real.log (real (x - x * x)) = _ from if_pos hpos, neg_real]
    rw [hreal] at hs
    exact eval_add ha hs

end Transform

/-! ## Running the code of a prior -/

namespace Prior

/-- Entry `i` becomes a number whose transform is the quantile of the family at the uniform number there. -/
def Draws (t : Transform) (f : Family) (i : Nat) (params : List Expr) (s : Statement) : Prop :=
  ∀ (env : Env Exact) (u : Exact) (values : List Exact) (q : ℝ), env.params[i]? = some u →
    Expr.evalAll env params = .ok values → Distribution.quantile f u values = some (real q) →
    q ∈ t.map '' t.domain →
    ∃ y ∈ t.domain, t.map y = q ∧ s.run env = .ok { env with params := env.params.setIfInBounds i (real y) }

/-- The sum gets the log-density of the family at the transform of entry `i`, and the correction. -/
def Scores (t : Transform) (f : Family) (i : Nat) (params : List Expr) (correction : ℝ → Exact)
    (s : Statement) : Prop :=
  ∀ (env : Env Exact) (total : Exact) (values : List Exact), ∀ x ∈ t.domain,
    env.params[i]? = some (real x) → env.places.lookup "logP" = some total →
    Expr.evalAll env params = .ok values →
    ∃ base, Distribution.density f (real (t.map x)) values = some base ∧
      s.run env = .ok { env with places := setEntry env.places "logP" (total + (base + correction x)) }

variable {t : Transform} {f : Family} {i : Nat} {params : List Expr}

lemma scores_corrected (ha : params.length = f.arity) :
    Scores t f i params t.correction (.increase (.place "logP") (t.corrected
      (.call (f.name ++ "_lpdf") (t.applied (.entry "params" i) :: params)) (.entry "params" i))) := by
  intro env total values x hx hen hto hv
  have he : (Expr.entry "params" i).eval env = .ok (.real (real x)) := eval_entry hen
  obtain ⟨base, hbase⟩ := density_of_arity (real (t.map x)) ((evalAll_length hv).trans ha)
  have hcall : (Expr.call (f.name ++ "_lpdf") (t.applied (.entry "params" i) :: params)).eval env = .ok (.real base) :=
    eval_call (evalAll_cons (t.eval_applied he hx) hv) ((elementary_density f _ _).trans hbase)
  have ht : (Expr.place "logP").eval env = .ok (.real total) := by
    rw [Expr.eval, hto]
    simp
  refine ⟨base, hbase, ?_⟩
  exact bind_eq_ok.mpr ⟨_, ht, bind_eq_ok.mpr ⟨_, t.eval_corrected hcall he hx, rfl⟩⟩

lemma draws_inverse : Draws t f i params (.assign [.entry "params" i]
      [t.dual.applied (.call (f.name ++ "_ppf") (.entry "params" i :: params))]) := by
  rintro env u values q he hv hq ⟨y, hy, rfl⟩
  have hcall : (Expr.call (f.name ++ "_ppf") (.entry "params" i :: params)).eval env = .ok (.real (real (t.map y))) :=
    eval_call (evalAll_cons (eval_entry he) hv) ((elementary_quantile f _ _).trans hq)
  have hdraw := t.dual.eval_applied hcall (t.map_mem hy)
  rw [t.dual_map hy] at hdraw
  refine ⟨y, hy, rfl, ?_⟩
  have hsize : i < env.params.size := (Array.getElem?_eq_some_iff.mp he).1
  refine bind_eq_ok.mpr ⟨_, evalAll_cons hdraw rfl, ?_⟩
  refine bind_eq_ok.mpr ⟨_, if_pos hsize, rfl⟩

/-- A prior of a transformed variable draws numbers whose transforms are quantiles of the family, and adds the
log-density at the transform with a correction. The right one is the logarithm of the derivative; the code has it
for the exponential and the log-odds, and nowhere for the logarithms. -/
theorem transformed_right_iff {var : Value} {name : String} {params : List Value} {p : Prior}
    {t : Transform} {places : List (String × String)} {i : Nat} {texts : List String}
    {es : List Expr} (hp : create var name params = .ok p) (ht : p.transform = some t)
    (hname : p.written = p.call.family.name) (hvar : p.call.var.isKind .param = true)
    (hplace : places.lookup p.call.var.ident = some ("params[" ++ toString i ++ "]"))
    (htexts : List.Forall₂ (fun template text => Template.fillNamed places template = .ok text) p.call.params texts)
    (hes : List.Forall₂ Spells texts es) :
    ∃ draw score, statement? places p.quantile = some draw ∧ statement? places p.density = some score ∧
      Draws t p.call.family i es draw ∧ Scores t p.call.family i es t.correction score ∧
      ((∀ x ∈ t.domain, t.correction x = real (Real.log |deriv t.map x|)) ↔ t = .exp ∨ t = .logit) ∧
      (t = .log10 ∨ t = .ln → ∀ x ∈ t.domain, t.correction x ≠ real (Real.log |deriv t.map x|)) := by
  obtain ⟨ha, hdraw, hs⟩ := statement?_code hp ht hname hvar hplace htexts hes
  refine ⟨_, _, hdraw, hs, draws_inverse, scores_corrected ha, t.rightAt_iff, ?_⟩
  rintro (rfl | rfl) x hx
  · exact Transform.not_rightAt_log10 hx
  · exact Transform.not_rightAt_ln hx

end Prior

end

/-! ## Two priors -/

namespace Prior

open scoped Standard in
/-- The common logarithm of the second parameter is normal around the first. -/
theorem transformed_right_iff_log_normal :
    ∃ p draw score, create (.str "p.x") "log_normal" [.str "p.m", .str "0.1"] = .ok p ∧
      statement? [("p__m", "params[0]"), ("p__x", "params[1]")] p.quantile = some draw ∧
      statement? [("p__m", "params[0]"), ("p__x", "params[1]")] p.density = some score ∧
      Draws .log10 .normal 1 [.entry "params" 0, .decimal 1 (-1)] draw ∧
      Scores .log10 .normal 1 [.entry "params" 0, .decimal 1 (-1)] Transform.log10.correction score := by
  have hc : ∃ p, create (.str "p.x") "log_normal" [.str "p.m", .str "0.1"] = .ok p ∧
      p.transform = some .log10 ∧ p.written = "normal" ∧ p.call.family = .normal ∧
      p.call.var = .var .param "x" ∧ p.call.params = ["\x7bp__m\x7d", "0.1"] :=
    ⟨_, rfl, rfl, rfl, rfl, rfl, rfl⟩
  obtain ⟨p, hp, ht, hw, hf, hvar, hpa⟩ := hc
  have hte : List.Forall₂ (fun template text =>
      Template.fillNamed [("p__m", "params[0]"), ("p__x", "params[1]")] template = .ok text)
      p.call.params ["params[0]", "0.1"] := by
    rw [hpa]
    exact .cons (by decide +kernel) (.cons (by decide +kernel) .nil)
  have hes : List.Forall₂ Spells ["params[0]", "0.1"] [.entry "params" 0, .decimal 1 (-1)] :=
    .cons ⟨_, lexes_entry 0, denotes_entry 0⟩ (.cons ⟨[.decimal 1 (-1)], @lexes_of_tokens 3 _ _ rfl, 4, rfl⟩ .nil)
  obtain ⟨draw, score, hdraw, hsc, hd, hs, -⟩ := transformed_right_iff (i := 1) hp ht
    (by rw [hw, hf]; rfl) (by rw [hvar]; rfl) (by rw [hvar]; rfl) hte hes
  rw [hf] at hd hs
  exact ⟨p, draw, score, hp, hdraw, hsc, hd, hs⟩

lemma normalDensity_real [SpecialFunctions] (x m : ℝ) {sigma : ℝ} (hs : 0 < sigma) :
    ∃ d, Distribution.normalDensity (real x) (real m) (real sigma) = real d := by
  have hle : ¬Scalar.le (real sigma) (0.0 : Exact) = true := by
    norm_num
    exact hs
  unfold Distribution.normalDensity
  rw [if_neg hle]
  unfold Distribution.logBell Scalar.pi
  simp only [ofScientific_eq, real_sub_real, real_mul_real, neg_real]
  rw [real_div_real _ (by positivity), log_real (by positivity), real_mul_real]
  exact ⟨_, rfl⟩

noncomputable def atOne : Env Exact :=
  ⟨#[real 1], [("logP", real 0)], []⟩

open scoped Standard in
/-- At one the logarithm is zero with slope one, but the code adds one less than the normal log-density at zero. -/
theorem ln_normal_scores_less : ∃ p score base, create (.str "p.x") "ln_normal" [.str "0", .str "1"] = .ok p ∧
      statement? [("p__x", "params[0]")] p.density = some score ∧
      Distribution.density .normal (real (Transform.ln.map 1)) [real 0, real 1] = some (real base) ∧
      score.run atOne = .ok { atOne with places := [("logP", real (base - 1))] } ∧
      base - 1 ≠ base + Real.log |deriv Transform.ln.map 1| := by
  have hc : ∃ p, create (.str "p.x") "ln_normal" [.str "0", .str "1"] = .ok p ∧
      p.transform = some .ln ∧ p.written = "normal" ∧ p.call.family = .normal ∧
      p.call.var = .var .param "x" ∧ p.call.params = ["0", "1"] :=
    ⟨_, rfl, rfl, rfl, rfl, rfl, rfl⟩
  obtain ⟨p, hp, ht, hw, hf, hvar, hpa⟩ := hc
  have hte : List.Forall₂ (fun template text =>
      Template.fillNamed [("p__x", "params[0]")] template = .ok text) p.call.params ["0", "1"] := by
    rw [hpa]
    exact .cons (Template.fill_literal "0" rfl) (.cons (Template.fill_literal "1" rfl) .nil)
  have hes : List.Forall₂ Spells ["0", "1"] [.whole 0, .whole 1] :=
    .cons ⟨_, lexes_toString 0, 4, rfl⟩ (.cons ⟨_, lexes_toString 1, 4, rfl⟩ .nil)
  obtain ⟨ha, -, hs⟩ := statement?_code (i := 0) hp ht
    (by rw [hw, hf]; rfl) (by rw [hvar]; rfl) (by rw [hvar]; rfl) hte hes
  rw [hf] at ha hs
  have hone : (1 : ℝ) ∈ Transform.ln.domain := Set.mem_Ioi.mpr one_pos
  have hv : Expr.evalAll atOne [.whole 0, .whole 1] = .ok [real 0, real 1] := by
    show Except.ok [real ((0 : ℕ) : ℝ), real ((1 : ℕ) : ℝ)] = _
    norm_num
  obtain ⟨base, hbase⟩ := normalDensity_real (Transform.ln.map 1) 0 one_pos
  obtain ⟨base', hbase', hrun⟩ := scores_corrected (t := .ln) (i := 0) ha atOne (real 0) _ 1 hone rfl rfl hv
  obtain rfl : base' = real base := Option.some.inj (hbase'.symm.trans (congrArg some hbase))
  refine ⟨p, _, base, hp, hs, hbase', hrun.trans ?_, ?_⟩
  · have hsum : real 0 + (real base + Transform.ln.correction 1) = real (base - 1) := by
      show real (0 + (base + -1)) = _
      rw [zero_add, ← sub_eq_add_neg]
    rw [hsum]
    rfl
  · rw [Transform.log_deriv .ln hone]
    simp [Transform.slope]

end Prior

end GridBayes
