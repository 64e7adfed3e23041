import GridBayes.Fault
import Mathlib.Data.List.Forall2

/-! Operations on a state that may be refused, as functions of the state: what they give and the
state they leave behind. -/
namespace GridBayes.Operation
open List Except

variable {ε σ α β : Type}

variable {x y : Except ε α} {b : β} {e : ε} {as : List α} {bs : List β} {R : α → β → Prop} {i : Nat} {a : α}
  {g : α → Except ε β}

lemma bind_eq_ok {f : α → Except ε β} : (x >>= f) = .ok b ↔ ∃ a, x = .ok a ∧ f a = .ok b := by
  cases x with
  | error e | ok a => simp [bind, Except.bind]

lemma map_eq_ok {f : α → β} : f <$> x = .ok b ↔ ∃ a, x = .ok a ∧ f a = b := by
  cases x with
  | error e | ok a => simp

lemma bind_eq_error {f : α → Except ε β} : (x >>= f) = .error e ↔ x = .error e ∨ ∃ a, x = .ok a ∧ f a = .error e := by
  cases x with
  | error e' | ok a => simp [bind, Except.bind]

lemma exists_ok (h : x.isOk = true) : ∃ a, x = .ok a := by
  cases x with
  | error => cases h
  | ok a => exact ⟨a, rfl⟩

lemma exists_ok_of {P : α → Prop} [DecidablePred P] (h : (x.toOption.any fun a => decide (P a)) = true) :
    ∃ a, x = .ok a ∧ P a := by
  cases x with
  | error => cases h
  | ok a => exact ⟨a, rfl, of_decide_eq_true h⟩

lemma mapM_eq_ok {f : α → Except ε β} : as.mapM f = .ok bs ↔ Forall₂ (fun a b => f a = .ok b) as bs := by
  induction as generalizing bs with
  | nil =>
    rw [forall₂_nil_left_iff]
    exact ⟨fun h => (ok.inj h).symm, fun h => by rw [h]; rfl⟩
  | cons a as ih =>
    simp only [mapM_cons, bind_eq_ok, ih, forall₂_cons_left_iff]
    constructor
    · rintro ⟨b, hb, bs, hbs, he⟩
      exact ⟨b, bs, hb, hbs, (ok.inj he).symm⟩
    · rintro ⟨b, bs, hb, hbs, rfl⟩
      exact ⟨b, hb, bs, hbs, rfl⟩

lemma exists_of_forall₂ (h : Forall₂ R as bs) : ∀ b ∈ bs, ∃ a ∈ as, R a b := by
  induction h with
  | nil => simp
  | cons hab _ ih =>
    intro b hb
    rcases mem_cons.mp hb with rfl | hb
    · exact ⟨_, mem_cons_self, hab⟩
    · obtain ⟨a, ha, hR⟩ := ih b hb
      exact ⟨a, mem_cons_of_mem _ ha, hR⟩

lemma getElem?_of_forall₂ (h : Forall₂ R as bs) (ha : as[i]? = some a) : ∃ b, bs[i]? = some b ∧ R a b := by
  obtain ⟨hi, rfl⟩ := List.getElem?_eq_some_iff.mp ha
  exact ⟨_, getElem?_eq_getElem (h.length_eq ▸ hi), h.get hi (h.length_eq ▸ hi)⟩

lemma forall₂_comp {γ δ ζ : Type} {R : γ → δ → Prop} {S : δ → ζ → Prop} {T : γ → ζ → Prop}
    {l : List γ} {m : List δ} {n : List ζ} (h : Forall₂ R l m) (h' : Forall₂ S m n)
    (hT : ∀ x y z, R x y → S y z → T x z) : Forall₂ T l n := by
  induction h generalizing n with
  | nil =>
    obtain rfl := forall₂_nil_left_iff.mp h'
    exact .nil
  | cons hxy _ ih =>
    obtain ⟨z, rest, hyz, hrest, rfl⟩ := forall₂_cons_left_iff.mp h'
    exact .cons (hT _ _ _ hxy hyz) (ih hrest)

lemma forall₂_set {γ δ : Type} {R : γ → δ → Prop} {l : List γ} {l' : List δ} (h : Forall₂ R l l') {c : γ}
    {d : δ} (hc : l[i]? = some c) (hR : R c d) : Forall₂ R l (l'.set i d) := by
  induction h generalizing i with
  | nil => exact .nil
  | cons hab hrest ih =>
    cases i with
    | zero =>
      cases hc
      exact .cons hR hrest
    | succ i => exact .cons hab (ih hc)

/-- A loop in which every step adds one item, if the items do not depend on what was added. -/
lemma foldlM_eq_ok {π : Type} {step : π → α → Except ε π} (takes : π → α → β → Prop) (add : π → List β → π)
    (hstep : ∀ p a q, step p a = .ok q ↔ ∃ b, takes p a b ∧ q = add p [b]) (hnil : ∀ p, add p [] = p)
    (ha : ∀ p bs bs', add (add p bs) bs' = add p (bs ++ bs'))
    (ht : ∀ p bs a b, takes (add p bs) a b ↔ takes p a b) {p q : π} :
    as.foldlM step p = .ok q ↔ ∃ bs, Forall₂ (takes p) as bs ∧ q = add p bs := by
  induction as generalizing p with
  | nil =>
    simp only [forall₂_nil_left_iff, exists_eq_left, hnil]
    exact ⟨fun h => (ok.inj h).symm, fun h => by rw [h]; rfl⟩
  | cons a as ih =>
    have hsame : ∀ bs bs', Forall₂ (takes (add p bs)) as bs' ↔ Forall₂ (takes p) as bs' :=
      fun bs bs' => ⟨.imp fun a b => (ht p bs a b).mp, .imp fun a b => (ht p bs a b).mpr⟩
    simp only [foldlM_cons, bind_eq_ok, hstep, ih, forall₂_cons_left_iff]
    constructor
    · rintro ⟨_, ⟨b, hb, rfl⟩, bs, hbs, rfl⟩
      exact ⟨b :: bs, ⟨b, bs, hb, (hsame [b] bs).mp hbs, rfl⟩, ha p [b] bs⟩
    · rintro ⟨_, ⟨b, bs, hb, hbs, rfl⟩, rfl⟩
      exact ⟨_, ⟨b, hb, rfl⟩, bs, (hsame [b] bs).mpr hbs, (ha p [b] bs).symm⟩

def Agree (x y : Except ε α) : Prop :=
  ∀ a, x = .ok a ↔ y = .ok a

lemma Agree.refl (x : Except ε α) : Agree x x := fun _ => Iff.rfl

lemma Agree.bind {f : α → Except ε β} (hxy : Agree x y) (hfg : ∀ a, Agree (f a) (g a)) :
    Agree (x >>= f) (y >>= g) := by
  intro b
  rw [bind_eq_ok, bind_eq_ok]
  exact exists_congr fun a => and_congr (hxy a) (hfg a b)

lemma Agree.cases (h : Agree x y) : (∃ a, x = .ok a ∧ y = .ok a) ∨ ∃ e e', x = .error e ∧ y = .error e' := by
  cases x with
  | ok a => exact Or.inl ⟨a, rfl, (h a).mp rfl⟩
  | error e =>
    cases y with
    | ok a => cases (h a).mpr rfl
    | error e' => exact Or.inr ⟨e, e', rfl, rfl⟩

/-- What an operation gives at a state, and the state after it. -/
def outcome (m : ExceptT ε (StateM σ) α) (s : σ) : Except ε α × σ :=
  m.run.run s

@[simp] lemma outcome_pure (a : α) (s : σ) : outcome (pure a : ExceptT ε (StateM σ) α) s = (.ok a, s) := rfl

@[simp] lemma outcome_throw (e : ε) (s : σ) : outcome (throw e : ExceptT ε (StateM σ) α) s = (.error e, s) := rfl

@[simp] lemma outcome_get (s : σ) : outcome (get : ExceptT ε (StateM σ) σ) s = (.ok s, s) := rfl

@[simp] lemma outcome_set (t s : σ) : outcome (set t : ExceptT ε (StateM σ) Unit) s = (.ok (), t) := rfl

@[simp] lemma outcome_modify (f : σ → σ) (s : σ) :
    outcome (modify f : ExceptT ε (StateM σ) Unit) s = (.ok (), f s) := rfl

@[simp] lemma outcome_ofExcept (x : Except ε α) (s : σ) :
    outcome (ofExcept x : ExceptT ε (StateM σ) α) s = (x, s) := by
  cases x <;> rfl

lemma outcome_bind (m : ExceptT ε (StateM σ) α) (f : α → ExceptT ε (StateM σ) β) (s : σ) : outcome (m >>= f) s =
      match outcome m s with
      | (.ok a, t) => outcome (f a) t
      | (.error e, t) => (.error e, t) := by
  show (match (m.run.run s : Except ε α × σ) with
    | (x, t) => ((ExceptT.bindCont f x).run t : Except ε β × σ)) = _
  unfold outcome
  rcases (m.run.run s : Except ε α × σ) with ⟨x, t⟩
  cases x <;> rfl

lemma outcome_bind_ok {m : ExceptT ε (StateM σ) α} {s t : σ} (h : outcome m s = (.ok a, t))
    (f : α → ExceptT ε (StateM σ) β) : outcome (m >>= f) s = outcome (f a) t := by
  rw [outcome_bind, h]

lemma outcome_bind_error {m : ExceptT ε (StateM σ) α} {s t : σ} (h : outcome m s = (.error e, t))
    (f : α → ExceptT ε (StateM σ) β) : outcome (m >>= f) s = (.error e, t) := by
  rw [outcome_bind, h]

lemma outcome_bind_eq_ok {m : ExceptT ε (StateM σ) α} {f : α → ExceptT ε (StateM σ) β} {s t : σ} :
    outcome (m >>= f) s = (.ok b, t) ↔ ∃ a u, outcome m s = (.ok a, u) ∧ outcome (f a) u = (.ok b, t) := by
  rw [outcome_bind]
  rcases outcome m s with ⟨_ | a, u⟩ <;> simp

lemma outcome_ofExcept_bind_eq_ok {f : α → ExceptT ε (StateM σ) β} {s t : σ} :
    outcome (ofExcept x >>= f) s = (.ok b, t) ↔ ∃ a, x = .ok a ∧ outcome (f a) s = (.ok b, t) := by
  rw [outcome_bind]
  cases x <;> simp

lemma outcome_of_fst {m : ExceptT ε (StateM σ) α} {s : σ} (h : (outcome m s).1 = x) :
    outcome m s = (x, (outcome m s).2) :=
  Prod.ext h rfl

/-- What an operation in two steps gives, if what the second step gives is known. -/
lemma fst_outcome_bind {m : ExceptT ε (StateM σ) α} {f : α → ExceptT ε (StateM σ) β} {s : σ}
    (h : ∀ a t, outcome m s = (.ok a, t) → (outcome (f a) t).1 = g a) :
    (outcome (m >>= f) s).1 = (outcome m s).1 >>= g := by
  rw [outcome_bind]
  rcases hm : outcome m s with ⟨x, t⟩
  cases x with
  | error e => rfl
  | ok a => exact h a t hm

lemma fst_outcome_bind_same {m : ExceptT ε (StateM σ) α} {f : α → ExceptT ε (StateM σ) β} {s : σ}
    (hm : outcome m s = (x, s)) (hf : ∀ a, (outcome (f a) s).1 = g a) : (outcome (m >>= f) s).1 = x >>= g := by
  refine (fst_outcome_bind fun a t ht => ?_).trans (by rw [hm])
  cases hm.symm.trans ht
  exact hf a

/-! ## Operations that follow a plan -/

variable {γ δ : Type}

/-- The operation does what a plan without states says: it is refused if the plan is, and otherwise `post` holds. -/
inductive Follows (m : ExceptT ε (StateM σ) α) (s : σ) :
    Except ε γ → (post : γ → α → σ → Prop) → Prop where
  | ok {c : γ} {a : α} {t : σ} {post : γ → α → σ → Prop} (hout : outcome m s = (.ok a, t))
      (hpost : post c a t) : Follows m s (.ok c) post
  | error {e : ε} {t : σ} {post : γ → α → σ → Prop} (hout : outcome m s = (.error e, t)) : Follows m s (.error e) post

variable {m : ExceptT ε (StateM σ) α} {f : α → ExceptT ε (StateM σ) β} {s t : σ}
  {plan : Except ε γ} {post : γ → α → σ → Prop}

variable {c : γ}

lemma Follows.of_ok (h : Follows m s (.ok c) post) : ∃ a t, outcome m s = (.ok a, t) ∧ post c a t := by
  cases h with
  | ok hout hpost => exact ⟨_, _, hout, hpost⟩

lemma Follows.of_outcome (h : Follows m s plan post) (hout : outcome m s = (.ok a, t)) :
    ∃ c, plan = .ok c ∧ post c a t := by
  cases h with
  | ok hout' hpost =>
    obtain ⟨ha, rfl⟩ := Prod.mk.inj (hout'.symm.trans hout)
    cases ha
    exact ⟨_, rfl, hpost⟩
  | error hout' => cases (Prod.mk.inj (hout'.symm.trans hout)).1

lemma Follows.step {plan : Except ε δ} {post : δ → β → σ → Prop} (hm : outcome m s = (.ok a, t))
    (hf : Follows (f a) t plan post) : Follows (m >>= f) s plan post := by
  cases hf with
  | ok hout hpost => exact .ok ((outcome_bind_ok hm f).trans hout) hpost
  | error hout => exact .error ((outcome_bind_ok hm f).trans hout)

lemma Follows.bind {next : γ → Except ε δ} {post' : δ → β → σ → Prop}
    (hm : Follows m s plan post) (hf : ∀ c a t, post c a t → Follows (f a) t (next c) post') :
    Follows (m >>= f) s (plan >>= next) post' := by
  cases hm with
  | ok hout hpost => exact .step hout (hf _ _ _ hpost)
  | error hout => exact .error (outcome_bind_error hout f)

lemma Follows.map {g : γ → δ} {post' : δ → α → σ → Prop} (h : Follows m s plan post)
    (himp : ∀ c a t, post c a t → post' (g c) a t) : Follows m s (plan >>= fun c => pure (g c)) post' := by
  cases h with
  | ok hout hpost => exact .ok hout (himp _ _ _ hpost)
  | error hout => exact .error hout

lemma follows_pure (h : post c a s) : Follows (pure a) s (.ok c : Except ε γ) post := .ok (outcome_pure a s) h

lemma follows_ofExcept (x : Except ε α) (s : σ) : Follows (ofExcept x) s x fun a a' t => a = a' ∧ t = s := by
  cases x with
  | ok a => exact .ok (outcome_ofExcept _ s) ⟨rfl, rfl⟩
  | error e => exact .error (outcome_ofExcept _ s)

lemma follows_ofExcept_bind {x : Except ε α} {next : α → Except ε δ} {post : δ → β → σ → Prop}
    (hf : ∀ a, Follows (f a) s (next a) post) : Follows (ofExcept x >>= f) s (x >>= next) post :=
  (follows_ofExcept x s).bind fun _ a _ h => by rw [h.1, h.2]; exact hf a

lemma Follows.forM {ι : Type} {l : List ι} {op : ι → ExceptT ε (StateM σ) PUnit}
    {step : γ → ι → Except ε γ} {inv : γ → σ → Prop}
    (h : ∀ i ∈ l, ∀ c s, inv c s → Follows (op i) s (step c i) fun c _ t => inv c t) (c : γ) (s : σ) (hs : inv c s) :
    Follows (l.forM op) s (l.foldlM step c) fun c _ t => inv c t := by
  induction l generalizing c s with
  | nil => exact follows_pure hs
  | cons i l ih =>
    refine (h i mem_cons_self c s hs).bind fun c _ t ht => ?_
    exact ih (fun i hi => h i (mem_cons_of_mem _ hi)) c t ht

/-! ## Operations that move the state along a relation -/

def Moves (R : σ → σ → Prop) (m : ExceptT ε (StateM σ) α) : Prop :=
  ∀ s, R s (outcome m s).2

section

variable {R : σ → σ → Prop}

variable {x : Except ε α} {c : Prop} {ι : Type}

lemma Moves.of_eq (hm : Moves R m) (h : outcome m s = (x, t)) : R s t := by
  have hs := hm s
  rwa [h] at hs

lemma Moves.exists_of_bind {b : β} (hm : Moves R m) (h : outcome (m >>= f) s = (.ok b, t)) :
    ∃ a u, R s u ∧ outcome (f a) u = (.ok b, t) := by
  obtain ⟨a, u, hout, h⟩ := outcome_bind_eq_ok.mp h
  exact ⟨a, u, hm.of_eq hout, h⟩

lemma Moves.bind [Trans R R R] (hm : Moves R m) (hf : ∀ a, Moves R (f a)) : Moves R (m >>= f) := by
  intro s
  have hs := hm s
  rw [outcome_bind]
  rcases hout : outcome m s with ⟨x, t⟩
  rw [hout] at hs
  cases x with
  | error e => exact hs
  | ok a => exact Trans.trans hs (hf a t)

lemma moves_same [Std.Refl R] (h : ∀ s, (outcome m s).2 = s) : Moves R m := by
  intro s
  rw [h s]
  exact Std.Refl.refl s

lemma moves_pure [Std.Refl R] (a : α) : Moves R (pure a : ExceptT ε (StateM σ) α) := moves_same fun _ => rfl

lemma moves_throw [Std.Refl R] (e : ε) : Moves R (throw e : ExceptT ε (StateM σ) α) := moves_same fun _ => rfl

lemma moves_get [Std.Refl R] : Moves R (get : ExceptT ε (StateM σ) σ) := moves_same fun _ => rfl

lemma moves_ofExcept [Std.Refl R] (x : Except ε α) : Moves R (ofExcept x : ExceptT ε (StateM σ) α) :=
  moves_same fun s => by rw [outcome_ofExcept]

lemma moves_ofExcept_bind [Std.Refl R] (h : ∀ a, x = .ok a → Moves R (f a)) : Moves R (ofExcept x >>= f) := by
  intro s
  cases x with
  | error e => exact Std.Refl.refl s
  | ok a => exact h a rfl s

lemma moves_ite [Decidable c] {m' : ExceptT ε (StateM σ) α} (h : Moves R m) (h' : Moves R m') :
    Moves R (if c then m else m') := by
  split
  · exact h
  · exact h'

lemma moves_forM_of_mem [Std.Refl R] [Trans R R R] {l : List ι} {op : ι → ExceptT ε (StateM σ) PUnit}
    (h : ∀ i ∈ l, Moves R (op i)) : Moves R (l.forM op) := by
  induction l with
  | nil => exact moves_pure _
  | cons i l ih => exact (h i mem_cons_self).bind fun _ => ih fun i hi => h i (mem_cons_of_mem _ hi)

lemma moves_forM [Std.Refl R] [Trans R R R] {l : List ι} {op : ι → ExceptT ε (StateM σ) PUnit}
    (h : ∀ i, Moves R (op i)) : Moves R (l.forM op) :=
  moves_forM_of_mem fun i _ => h i

lemma moves_mapM [Std.Refl R] [Trans R R R] {l : List ι}
    {op : ι → ExceptT ε (StateM σ) α} (h : ∀ i, Moves R (op i)) : Moves R (l.mapM op) := by
  induction l with
  | nil => exact moves_pure _
  | cons i l ih =>
    rw [mapM_cons]
    exact (h i).bind fun a => ih.bind fun as => moves_pure _

end

/-! ## What a refusal can be -/

section

variable {P : ε → Prop}

def RefusesOnly (P : ε → Prop) (x : Except ε α) : Prop :=
  ∀ e, x = .error e → P e

@[simp] lemma refusesOnly_ok (a : α) : RefusesOnly P (.ok a) := by
  intro e he
  cases he

@[simp] lemma refusesOnly_error {e : ε} : RefusesOnly P (.error e : Except ε α) ↔ P e := by simp [RefusesOnly]

variable {x : Except ε α}

lemma RefusesOnly.bind {f : α → Except ε β} (hx : RefusesOnly P x) (hf : ∀ a, RefusesOnly P (f a)) :
    RefusesOnly P (x >>= f) := by
  intro e he
  rcases bind_eq_error.mp he with h | ⟨a, -, h⟩
  · exact hx e h
  · exact hf a e h

lemma RefusesOnly.map (hx : RefusesOnly P x) (f : α → β) : RefusesOnly P (f <$> x) := by
  cases x with
  | error e => exact refusesOnly_error.mpr (hx e rfl)
  | ok a => exact refusesOnly_ok (f a)

lemma refusesOnly_mapM {f : α → Except ε β} (hf : ∀ a, RefusesOnly P (f a)) (as : List α) :
    RefusesOnly P (as.mapM f) := by
  induction as with
  | nil => exact refusesOnly_ok []
  | cons a as ih =>
    rw [mapM_cons]
    exact (hf a).bind fun b => ih.bind fun bs => refusesOnly_ok (b :: bs)

lemma refusesOnly_outcome_bind (hm : RefusesOnly P (outcome m s).1)
    (hf : ∀ a t, outcome m s = (.ok a, t) → RefusesOnly P (outcome (f a) t).1) :
    RefusesOnly P (outcome (m >>= f) s).1 := by
  rw [outcome_bind]
  rcases hout : outcome m s with ⟨x, t⟩
  rw [hout] at hm
  cases x with
  | error e => exact refusesOnly_error.mpr (refusesOnly_error.mp hm)
  | ok a => exact hf a t hout

end

end GridBayes.Operation
