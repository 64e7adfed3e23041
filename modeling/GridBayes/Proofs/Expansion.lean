import GridBayes.Proofs.ExactOutcome
import GridBayes.Proofs.Phrase

/-! Expressions in the places of variables. Where a variable stands for an expression that holds
together less tightly than its place asks for, the expression needs parentheses. With them the
meaning is kept. Where they are not needed, the words are those of the host with the words of the
definitions in them. -/
namespace GridBayes.Code

/-! ## Ranks -/

/-- The lower the rank, the tighter an expression holds together. -/
def Rank.width : Rank → Nat
  | .atom => 0
  | .factor => 1
  | .product => 2
  | .sum => 3

/-- What may stand after a sign in a place of this rank: no sum, whose first term would take the sign. -/
def Rank.signed : Rank → Rank
  | .sum => .product
  | r => r

namespace Phrase

def single (a : Phrase .atom) : Phrase .sum :=
  product (factor (atom a))

/-- The lowest rank that an expression has. -/
def rank : Phrase .sum → Rank
  | product (factor (atom _)) => .atom
  | product (factor _) => .factor
  | product _ => .product
  | _ => .sum

/-! An expression as one of lower rank, with parentheses if it has none. -/

def toProduct : Phrase .sum → Phrase .product
  | product p => p
  | p => factor (atom (group p))

def toFactor : Phrase .sum → Phrase .factor
  | product (factor p) => p
  | p => atom (group p)

def toAtom : Phrase .sum → Phrase .atom
  | product (factor (atom p)) => p
  | p => group p

variable {p : Phrase .sum}

lemma expr_toProduct : p.toProduct.expr = p.expr := by
  unfold toProduct
  split <;> rfl

lemma expr_toFactor : p.toFactor.expr = p.expr := by
  unfold toFactor
  split <;> rfl

lemma expr_toAtom : p.toAtom.expr = p.expr := by
  unfold toAtom
  split <;> rfl

lemma toProduct_eq (h : p.rank.width ≤ 2) : product p.toProduct = p := by
  cases p with
  | product p => rfl
  | add p q | sub p q => exact absurd h (show ¬ 3 ≤ 2 by decide)

lemma toFactor_eq (h : p.rank.width ≤ 1) : product (factor p.toFactor) = p := by
  cases p with
  | product p =>
    cases p with
    | factor p => rfl
    | times p q | divide p q => exact absurd h (show ¬ 2 ≤ 1 by decide)
  | add p q | sub p q => exact absurd h (show ¬ 3 ≤ 1 by decide)

lemma toAtom_eq (h : p.rank.width ≤ 0) : single p.toAtom = p := by
  obtain ⟨q, rfl⟩ : ∃ q, p = product (factor q) := ⟨_, (toFactor_eq (Nat.le_succ_of_le h)).symm⟩
  cases q with
  | atom q => rfl
  | _ => exact absurd h (show ¬ 1 ≤ 0 by decide)

lemma words_toProduct (h : p.rank.width ≤ 2) : p.toProduct.words = p.words := congrArg words (toProduct_eq h)

lemma words_toFactor (h : p.rank.width ≤ 1) : p.toFactor.words = p.words := congrArg words (toFactor_eq h)

lemma words_toAtom (h : p.rank.width ≤ 0) : p.toAtom.words = p.words := congrArg words (toAtom_eq h)

/-! ## Chains -/

def plusTerms (p : Phrase .sum) : {r : Rank} → Phrase r → Phrase .sum
  | .atom, q => add p (factor (atom q))
  | .factor, q => add p (factor q)
  | .product, q => add p q
  | .sum, product q => add p q
  | .sum, add q b => add (p.plusTerms q) b
  | .sum, sub q b => sub (p.plusTerms q) b

def timesFactors (p : Phrase .product) : {r : Rank} → Phrase r → Phrase .product
  | .atom, q => times p (atom q)
  | .factor, q => times p q
  | .product, factor q => times p q
  | .product, times q b => times (p.timesFactors q) b
  | .product, divide q b => divide (p.timesFactors q) b
  | .sum, q => times p (atom (group q))

def signFirst (sign : Phrase .factor → Phrase .factor) : {r : Rank} → Phrase r → Phrase r
  | .atom, p => p
  | .factor, p => sign p
  | .product, factor p => factor (sign p)
  | .product, times p b => times (p.signFirst sign) b
  | .product, divide p b => divide (p.signFirst sign) b
  | .sum, product p => product (p.signFirst sign)
  | .sum, add p b => add (p.signFirst sign) b
  | .sum, sub p b => sub (p.signFirst sign) b

variable {r : Rank}

lemma words_plusTerms (p : Phrase .sum) (q : Phrase r) : (p.plusTerms q).words = p.words ++ .mark "+" :: q.words := by
  induction q with
  | add q b ih _ | sub q b ih _ => simp [plusTerms, words, ih]
  | _ => rfl

lemma words_timesFactors (p : Phrase .product) (q : Phrase r) (hr : r ≠ .sum) :
    (p.timesFactors q).words = p.words ++ .mark "*" :: q.words := by
  induction q with
  | times q b ih _ | divide q b ih _ => simp [timesFactors, words, ih]
  | product | add | sub => exact absurd rfl hr
  | _ => rfl

lemma words_signFirst {sign : Phrase .factor → Phrase .factor} {t : Token}
    (hsign : ∀ a, (sign a).words = t :: a.words) (p : Phrase r) (hr : r ≠ .atom) :
    (p.signFirst sign).words = t :: p.words := by
  induction p with
  | whole | decimal | name | call | group => exact absurd rfl hr
  | atom | power | minus | plus => exact hsign _
  | factor p => exact hsign p
  | times p b ih _ | divide p b ih _ => simp [signFirst, words, ih]
  | product p ih => exact ih (by decide)
  | add p b ih _ | sub p b ih _ => simp [signFirst, words, ih]

section

variable [SpecialFunctions] (env : Env Exact)

lemma outcome_plusTerms (p : Phrase .sum) (q : Phrase r) :
    (p.plusTerms q).expr.outcome env = Operator.add.meet (p.expr.outcome env) (q.expr.outcome env) := by
  induction q with
  | add q b ih _ =>
    refine (outcome_operator env .add _ _).trans ?_
    rw [ih, regroups_add_add.meet]
    exact congrArg _ (outcome_operator env .add _ _).symm
  | sub q b ih _ =>
    refine (outcome_operator env .sub _ _).trans ?_
    rw [ih, regroups_add_sub.meet]
    exact congrArg _ (outcome_operator env .sub _ _).symm
  | _ => exact outcome_operator env .add _ _

lemma outcome_timesFactors (p : Phrase .product) (q : Phrase r) : (p.timesFactors q).expr.outcome env =
      Operator.mul.meet (p.expr.outcome env) (q.expr.outcome env) := by
  induction q with
  | times q b ih _ =>
    refine (outcome_operator env .mul _ _).trans ?_
    rw [ih, regroups_mul_mul.meet]
    exact congrArg _ (outcome_operator env .mul _ _).symm
  | divide q b ih _ =>
    refine (outcome_operator env .div _ _).trans ?_
    rw [ih, regroups_mul_div.meet]
    exact congrArg _ (outcome_operator env .div _ _).symm
  | _ => exact outcome_operator env .mul _ _

lemma outcome_signFirst_minus (p : Phrase r) (hr : r ≠ .atom) (hr' : r ≠ .sum) :
    (p.signFirst minus).expr.outcome env = (- ·) <$> p.expr.outcome env := by
  induction p with
  | whole | decimal | name | call | group => exact absurd rfl hr
  | product | add | sub => exact absurd rfl hr'
  | times p b ih _ =>
    refine (outcome_operator env .mul _ _).trans ?_
    rw [ih (by decide) (by decide), neg_meet (.inl rfl)]
    exact congrArg _ (outcome_operator env .mul _ _).symm
  | divide p b ih _ =>
    refine (outcome_operator env .div _ _).trans ?_
    rw [ih (by decide) (by decide), neg_meet (.inr rfl)]
    exact congrArg _ (outcome_operator env .div _ _).symm
  | _ => exact outcome_negate env _

end

lemma expr_signFirst_plus (p : Phrase r) : (p.signFirst plus).expr = p.expr := by
  induction p with
  | times p b ih _ | divide p b ih _ => simp [signFirst, expr, ih]
  | product p ih => exact ih
  | add p b ih _ | sub p b ih _ => simp [signFirst, expr, ih]
  | _ => rfl

lemma rank_factor (a : Phrase .factor) : (product (factor a)).rank.width ≤ 1 := by
  cases a with
  | atom => exact Nat.zero_le 1
  | _ => exact Nat.le_refl 1

lemma rank_product (a : Phrase .product) : (product a).rank.width ≤ 2 := by
  cases a with
  | factor a => exact Nat.le_succ_of_le (rank_factor a)
  | _ => exact Nat.le_refl 2

lemma rank_signFirst (sign : Phrase .factor → Phrase .factor) (p : Phrase .sum) :
    (p.signFirst sign).rank.width ≤ max 1 p.rank.width := by
  cases p with
  | product p =>
    cases p with
    | factor p => exact Nat.le_trans (rank_factor _) (Nat.le_max_left 1 _)
    | times | divide => exact Nat.le_max_right 1 2
  | add | sub => exact Nat.le_max_right 1 3

/-! ## Definitions in the places of variables -/

variable (defs : String → Option (Phrase .sum))

/-- The expression with definitions for variables, in parentheses where they would fall apart. -/
def expand : {r : Rank} → Phrase r → Phrase .sum
  | _, whole n => single (whole n)
  | _, decimal m e => single (decimal m e)
  | _, name s => (defs s).getD (single (name s))
  | _, call s args => single (call s fun i => (args i).expand)
  | _, group a => single (group a.expand)
  | _, atom a => a.expand
  | _, power a b => product (factor (power a.expand.toAtom b.expand.toFactor))
  | _, minus a => product (a.expand.toProduct.signFirst minus)
  | _, plus a => a.expand.signFirst plus
  | _, factor a => a.expand
  | _, times a b => product (a.expand.toProduct.timesFactors b.expand.toProduct)
  | _, divide a b => product (divide a.expand.toProduct b.expand.toFactor)
  | _, product a => a.expand
  | _, add a b => a.expand.plusTerms b.expand
  | _, sub a b => sub a.expand b.expand.toProduct

/-- No definition falls apart in its place. A sum may stand in parentheses, as an argument, first in a sum and after
`+`, a product also after `-`, in a product and after `*`, a power or a signed atom also after `/` and as an
exponent, and an atom everywhere. -/
def fits : {r' : Rank} → (r : Rank) → Phrase r' → Bool
  | _, _, whole _ => true
  | _, _, decimal _ _ => true
  | _, r, name s => (defs s).all fun d => d.rank.width ≤ r.width
  | _, _, call s args => (defs s).isNone && decide (∀ i, (args i).fits .sum = true)
  | _, _, group a => a.fits .sum
  | _, r, atom a => a.fits r
  | _, _, power a b => a.fits .atom && b.fits .factor
  | _, r, minus a => a.fits r.signed
  | _, r, plus a => a.fits r
  | _, r, factor a => a.fits r
  | _, _, times a b => a.fits .product && b.fits .product
  | _, _, divide a b => a.fits .product && b.fits .factor
  | _, r, product a => a.fits r
  | _, _, add a b => a.fits .sum && b.fits .sum
  | _, _, sub a b => a.fits .sum && b.fits .product

variable {defs}

lemma width_signed (r : Rank) : r.signed.width ≤ r.width ∧ r.signed.width ≤ 2 := by cases r <;> decide

lemma width_le (r : Rank) : r.width ≤ 3 := by cases r <;> decide

lemma rank_expand {r' : Rank} {p : Phrase r'} (h : p.fits defs r = true) :
    (p.expand defs).rank.width ≤ max r'.width r.width := by
  induction p generalizing r with
  | whole | decimal | call | group => exact Nat.zero_le _
  | name s =>
    unfold fits at h
    unfold expand
    cases hs : defs s with
    | none => exact Nat.zero_le _
    | some d =>
      rw [hs] at h
      exact Nat.le_trans (of_decide_eq_true h) (Nat.le_max_right _ _)
  | atom a ih => exact Nat.le_trans (ih h) (max_le_max_right _ (Nat.zero_le 1))
  | power a b => exact Nat.le_trans (rank_factor _) (Nat.le_max_left 1 _)
  | minus a ih =>
    -- after a sign no sum fits, so nothing gets parentheses here
    obtain ⟨hle, htwo⟩ := width_signed r
    have hrank : (a.expand defs).rank.width ≤ max 1 r.signed.width := ih h
    have hsign : (product ((a.expand defs).toProduct.signFirst minus)).rank.width ≤
        max 1 (product (a.expand defs).toProduct).rank.width :=
      rank_signFirst minus (product (a.expand defs).toProduct)
    rw [toProduct_eq (by omega)] at hsign
    exact Nat.le_trans hsign (max_le (Nat.le_max_left 1 _) (Nat.le_trans hrank (max_le_max_left 1 hle)))
  | plus a ih => exact Nat.le_trans (rank_signFirst plus _) (max_le (Nat.le_max_left 1 _) (ih h))
  | factor a ih => exact Nat.le_trans (ih h) (max_le_max_right _ (Nat.le_succ 1))
  | times a b | divide a b => exact Nat.le_trans (rank_product _) (Nat.le_max_left 2 _)
  | product a ih => exact Nat.le_trans (ih h) (max_le_max_right _ (Nat.le_succ 2))
  | add | sub => exact Nat.le_trans (width_le _) (Nat.le_max_left 3 _)

/-! ## The words -/

def put (defs : String → Option (Phrase .sum)) : Token → List Token
  | .name s => ((defs s).map words).getD [.name s]
  | t => [t]

variable {s : String}

lemma put_of_some {d : Phrase .sum} (h : defs s = some d) : put defs (.name s) = d.words := by simp [put, h]

lemma put_of_none (h : defs s = none) : put defs (.name s) = [.name s] := by simp [put, h]

lemma flatMap_commas (f : Token → List Token) (hf : f (.mark ",") = [.mark ","])
    (parts : List (List Token)) : (commas parts).flatMap f = commas (parts.map (·.flatMap f)) := by
  induction parts with
  | nil => rfl
  | cons ts parts ih =>
    cases parts with
    | nil => rfl
    | cons us parts =>
      rw [commas, List.flatMap_append, List.flatMap_cons, hf, ih]
      rfl

/-- If no definition falls apart, its words stand for the variable in the words of the host. -/
lemma words_expand {r' : Rank} {p : Phrase r'} (h : p.fits defs r = true) :
    (p.expand defs).words = p.words.flatMap (put defs) := by
  induction p generalizing r with
  | whole | decimal => rfl
  | name s =>
    unfold expand
    cases hs : defs s <;> simp [words, single, hs, put_of_some, put_of_none]
  | call s args ih =>
    unfold fits at h
    rw [Bool.and_eq_true, Option.isNone_iff_eq_none, decide_eq_true_iff] at h
    obtain ⟨hs, hargs⟩ := h
    have hp : (List.ofFn fun i => ((args i).expand defs).words) =
        (List.ofFn fun i => (args i).words).map (·.flatMap (put defs)) := by
      rw [List.map_ofFn]
      exact congrArg List.ofFn (funext fun i => ih i (hargs i))
    show .name s :: .mark "(" :: (commas (List.ofFn fun i => ((args i).expand defs).words) ++ [.mark ")"]) = _
    rw [hp, ← flatMap_commas _ rfl]
    simp [words, put, hs]
  | group a ih => simp [expand, single, words, put, ih h]
  | atom a ih => exact ih h
  | power a b iha ihb =>
    obtain ⟨ha, hb⟩ := Bool.and_eq_true_iff.mp h
    simp [expand, words, words_toAtom (rank_expand ha), words_toFactor (rank_expand hb), iha ha, ihb hb, put]
  | minus a ih =>
    have htwo : (a.expand defs).rank.width ≤ 2 :=
      Nat.le_trans (rank_expand h) (max_le (Nat.le_succ 1) (width_signed r).2)
    have hsign : ((a.expand defs).toProduct.signFirst minus).words =
        .mark "-" :: (a.expand defs).toProduct.words := words_signFirst (fun _ => rfl) _ (by decide)
    simp [expand, words, hsign, words_toProduct htwo, ih h, put]
  | plus a ih =>
    have hsign : ((a.expand defs).signFirst plus).words = .mark "+" :: (a.expand defs).words :=
      words_signFirst (fun _ => rfl) _ (by decide)
    simp [expand, words, hsign, ih h, put]
  | factor a ih => exact ih h
  | times a b iha ihb =>
    obtain ⟨ha, hb⟩ := Bool.and_eq_true_iff.mp h
    simp [expand, words, words_timesFactors, words_toProduct (rank_expand ha),
      words_toProduct (rank_expand hb), iha ha, ihb hb, put]
  | divide a b iha ihb =>
    obtain ⟨ha, hb⟩ := Bool.and_eq_true_iff.mp h
    simp [expand, words, words_toProduct (rank_expand ha), words_toFactor (rank_expand hb), iha ha, ihb hb, put]
  | product a ih => exact ih h
  | add a b iha ihb =>
    obtain ⟨ha, hb⟩ := Bool.and_eq_true_iff.mp h
    simp [expand, words, words_plusTerms, iha ha, ihb hb, put]
  | sub a b iha ihb =>
    obtain ⟨ha, hb⟩ := Bool.and_eq_true_iff.mp h
    simp [expand, words, words_toProduct (rank_expand hb), iha ha, ihb hb, put]

end Phrase

/-! ## The meaning -/

variable [SpecialFunctions] {defs : String → Option (Phrase .sum)} {env env' : Env Exact}

/-- The variables with a definition hold what their definitions give. -/
structure Binds (defs : String → Option (Phrase .sum)) (env env' : Env Exact) : Prop where
  methods : env.methods = env'.methods
  places : ∀ s, (Expr.place s).outcome env' =
    ((defs s).map fun d => d.expr.outcome env).getD ((Expr.place s).outcome env)

lemma Phrase.outcome_expand (h : Binds defs env env') {r : Rank} (p : Phrase r) :
    (p.expand defs).expr.outcome env = p.expr.outcome env' := by
  have ho (op : Operator) {a b a' b' : Expr} (ha : a.outcome env = a'.outcome env')
      (hb : b.outcome env = b'.outcome env') :
      (op.expr a b).outcome env = (op.expr a' b').outcome env' := by
    rw [outcome_operator, outcome_operator, ha, hb]
  induction p with
  | whole | decimal => rfl
  | name s =>
    unfold Phrase.expand
    rw [show (Phrase.name s).expr = .place s from rfl, h.places]
    cases defs s <;> rfl
  | call s args ih =>
    refine outcome_call h.methods s ?_
    rw [List.map_ofFn, List.map_ofFn]
    exact congrArg List.ofFn (funext ih)
  | group a ih => exact ih
  | atom a ih => exact ih
  | power a b iha ihb =>
    refine ho .power ?_ ?_
    · rwa [Phrase.expr_toAtom]
    · rwa [Phrase.expr_toFactor]
  | minus a ih =>
    refine (Phrase.outcome_signFirst_minus env _ (by decide) (by decide)).trans ?_
    rw [Phrase.expr_toProduct, ih]
    exact (outcome_negate env' _).symm
  | plus a ih => refine (congrArg _ (Phrase.expr_signFirst_plus _)).trans ih
  | factor a ih => exact ih
  -- a product after `*` becomes part of the chain, which groups its factors anew
  | times a b iha ihb =>
    refine (Phrase.outcome_timesFactors env _ _).trans ?_
    rw [Phrase.expr_toProduct, Phrase.expr_toProduct, iha, ihb]
    exact (outcome_operator env' .mul _ _).symm
  -- a divisor is one factor, and nothing is grouped anew
  | divide a b iha ihb =>
    refine ho .div ?_ ?_
    · rwa [Phrase.expr_toProduct]
    · rwa [Phrase.expr_toFactor]
  | product a ih => exact ih
  | add a b iha ihb =>
    refine (Phrase.outcome_plusTerms env _ _).trans ?_
    rw [iha, ihb]
    exact (outcome_operator env' .add _ _).symm
  | sub a b iha ihb =>
    refine ho .sub iha ?_
    rwa [Phrase.expr_toProduct]

end GridBayes.Code
