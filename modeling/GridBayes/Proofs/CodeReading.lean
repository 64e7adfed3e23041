import GridBayes.Proofs.CodeWords

/-! Reading expressions inside longer texts. What is read is a relation between words, an expression and the words
that are left, in which no steps are counted; two steps for each word and a few more are enough. What is read from
some words is read from them also if a comma or a closing parenthesis follows. -/
namespace GridBayes.Code
open List Option

/-! ## The relation -/

inductive Reads : Goal → List Token → Expr → List Token → Prop where
  | chain {l : Level} {ts mid left : List Token} {a e : Expr} (ha : Reads l.operand ts a mid)
      (hrest : Reads (.rest l a) mid e left) : Reads (.chain l) ts e left
  | next {l : Level} {s : String} {op : Expr → Expr → Expr} {ts mid left : List Token} {a b e : Expr}
      (hs : l.operators.lookup s = some op) (hb : Reads l.operand ts b mid)
      (hrest : Reads (.rest l (op a b)) mid e left) : Reads (.rest l a) (.mark s :: ts) e left
  | done {l : Level} {ts : List Token} {a : Expr} (h : l.operator? ts = none) : Reads (.rest l a) ts a ts
  | minus {ts left : List Token} {a : Expr} (h : Reads .factor ts a left) :
      Reads .factor (.mark "-" :: ts) (.negate a) left
  | plus {ts left : List Token} {a : Expr} (h : Reads .factor ts a left) : Reads .factor (.mark "+" :: ts) a left
  | factor {ts mid left : List Token} {a e : Expr} (hm : after? "-" ts = none) (hp : after? "+" ts = none)
      (ha : Reads .atom ts a mid) (hrest : Reads (.power a) mid e left) : Reads .factor ts e left
  | raised {ts left : List Token} {a b : Expr} (h : Reads .factor ts b left) :
      Reads (.power a) (.mark "**" :: ts) (.power a b) left
  | base {ts : List Token} {a : Expr} (h : after? "**" ts = none) : Reads (.power a) ts a ts
  | whole (n : Nat) (ts : List Token) : Reads .atom (.whole n :: ts) (.whole n) ts
  | decimal (m : Nat) (e : Int) (ts : List Token) : Reads .atom (.decimal m e :: ts) (.decimal m e) ts
  | entry (s : String) (i : Nat) (ts : List Token) :
      Reads .atom (.name s :: .mark "[" :: .whole i :: .mark "]" :: ts) (.entry s i) ts
  | place {ts : List Token} (s : String) (hi : index? ts = none) (hp : after? "(" ts = none) :
      Reads .atom (.name s :: ts) (.place s) ts
  | call {ts left : List Token} {e : Expr} (s : String) (h : Reads (.call s []) ts e (.mark ")" :: left)) :
      Reads .atom (.name s :: .mark "(" :: ts) e left
  | group {ts left : List Token} {a : Expr} (h : Reads (.chain .sum) ts a (.mark ")" :: left)) :
      Reads .atom (.mark "(" :: ts) a left
  | finish {ts : List Token} {s : String} {args : List Expr} (h : ends ts = true) :
      Reads (.call s args) ts (.call s args) ts
  | argument {ts mid left : List Token} {s : String} {args : List Expr} {a e : Expr}
      (h : ¬ ends ts = true) (ha : Reads (.chain .sum) ts a mid)
      (hrest : Reads (.comma s (args ++ [a])) mid e left) : Reads (.call s args) ts e left
  | comma {ts left : List Token} {s : String} {args : List Expr} {e : Expr} (h : Reads (.call s args) ts e left) :
      Reads (.comma s args) (.mark "," :: ts) e left
  | last {ts : List Token} {s : String} {args : List Expr} (h : after? "," ts = none) :
      Reads (.comma s args) ts (.call s args) ts

variable {g : Goal} {l : Level} {s : String} {op : Expr → Expr → Expr} {ts us left k : List Token} {a e : Expr}
  {es : List Expr} {fuel : Nat}

@[simp]
lemma after?_mark (s : String) (ts : List Token) : after? s (.mark s :: ts) = some ts := if_pos rfl

lemma after?_eq_some_iff : after? s ts = some us ↔ ts = .mark s :: us := by
  cases ts with
  | nil => simp [after?]
  | cons t ts => simp [after?]

lemma operator?_eq_some_iff :
    l.operator? ts = some (op, us) ↔ ∃ s, ts = .mark s :: us ∧ l.operators.lookup s = some op := by
  unfold Level.operator?
  split
  · simp
    grind
  · rename_i h
    simpa using fun s hts => absurd hts (h s us)

lemma operator?_eq_none_iff : l.operator? ts = none ↔ ∀ o ∈ l.operators, after? o.1 ts = none := by
  rcases ts with _ | ⟨_ | _ | _ | s, ts⟩ <;> simp [Level.operator?, after?, lookup_eq_none_iff]

lemma index?_eq_some_iff {i : Nat} : index? ts = some (i, us) ↔ ts = .mark "[" :: .whole i :: .mark "]" :: us := by
  unfold index?
  split
  · simp
  · rename_i h
    simpa using fun hts => h i us hts

/-! ## The readers follow it -/

lemma reads_of_parse {read : Goal → List Token → Option (Expr × List Token)}
    (hread : ∀ {g ts e left}, read g ts = some (e, left) → Reads g ts e left)
    (h : parse read g ts = some (e, left)) : Reads g ts e left := by
  unfold parse at h
  split at h
  · obtain ⟨p, ha, h⟩ := bind_eq_some_iff.mp h
    exact .chain (hread ha) (hread h)
  · split at h
    · rename_i ho
      obtain ⟨s, rfl, hs⟩ := operator?_eq_some_iff.mp ho
      obtain ⟨p, hb, h⟩ := bind_eq_some_iff.mp h
      exact .next hs (hread hb) (hread h)
    · cases h
      exact .done ‹_›
  · split at h
    · rename_i hm
      obtain rfl := after?_eq_some_iff.mp hm
      obtain ⟨p, ha, he⟩ := map_eq_some_iff.mp h
      cases he
      exact .minus (hread ha)
    · rename_i hp
      obtain rfl := after?_eq_some_iff.mp hp
      exact .plus (hread h)
    · obtain ⟨p, ha, h⟩ := bind_eq_some_iff.mp h
      exact .factor ‹_› ‹_› (hread ha) (hread h)
  · split at h
    · rename_i hp
      obtain rfl := after?_eq_some_iff.mp hp
      obtain ⟨p, hb, he⟩ := map_eq_some_iff.mp h
      cases he
      exact .raised (hread hb)
    · cases h
      exact .base ‹_›
  · cases h
    exact .whole _ _
  · cases h
    exact .decimal _ _ _
  · split at h
    · rename_i hi
      cases h
      obtain rfl := index?_eq_some_iff.mp hi
      exact .entry _ _ _
    · rename_i hp
      obtain rfl := after?_eq_some_iff.mp hp
      obtain ⟨p, ha, h⟩ := bind_eq_some_iff.mp h
      obtain ⟨us, hc, he⟩ := map_eq_some_iff.mp h
      cases he
      exact .call _ (after?_eq_some_iff.mp hc ▸ hread ha)
    · cases h
      exact .place _ ‹_› ‹_›
  · split at h
    · rename_i hs
      obtain ⟨p, ha, h⟩ := bind_eq_some_iff.mp h
      obtain ⟨us, hc, he⟩ := map_eq_some_iff.mp h
      cases he
      rw [hs]
      exact .group (after?_eq_some_iff.mp hc ▸ hread ha)
    · cases h
  · cases h
  · split at h
    · cases h
      exact .finish ‹_›
    · obtain ⟨p, ha, h⟩ := bind_eq_some_iff.mp h
      exact .argument ‹_› (hread ha) (hread h)
  · split at h
    · rename_i hc
      obtain rfl := after?_eq_some_iff.mp hc
      exact .comma (hread h)
    · cases h
      exact .last ‹_›

lemma reads_of_read (h : read? fuel g ts = some (e, left)) : Reads g ts e left := by
  induction fuel generalizing g ts e left with
  | zero => cases h
  | succ fuel ih => exact reads_of_parse ih h

def Goal.takes : Goal → Nat
  | chain _ | factor | atom => 1
  | rest _ _ | power _ | call _ _ | comma _ _ => 0

def Goal.extra : Goal → Nat
  | chain .sum => 3
  | chain .product => 2
  | rest _ _ | factor | power _ => 1
  | atom => 0
  | call _ _ => 4
  | comma _ _ => 3

lemma takes_operand (l : Level) : l.operand.takes = 1 := by cases l <;> rfl

lemma extra_chain (l : Level) : (Goal.chain l).extra = l.operand.extra + 1 := by cases l <;> rfl

lemma extra_operand_le (l : Level) : l.operand.extra ≤ 2 := by cases l <;> decide

lemma Reads.length (h : Reads g ts e left) : left.length + g.takes ≤ ts.length := by
  induction h with
  | chain _ _ iha ihrest | next _ _ _ iha ihrest =>
    rw [takes_operand] at iha
    simp only [Goal.takes, length_cons] at *
    omega
  | _ =>
    simp only [Goal.takes, length_cons] at *
    omega

/-- Two steps for each word that is read, and `extra`, are enough. -/
lemma Reads.read (h : Reads g ts e left) (hfuel : 2 * ts.length + g.extra ≤ fuel + 2 * left.length) :
    read? fuel g ts = some (e, left) := by
  induction fuel generalizing g ts e left with
  | zero =>
    have hlen := h.length
    have hpos : 0 < g.takes + g.extra := by rcases g with ⟨_ | _⟩ | _ | _ | _ | _ | _ | _ <;> simp [Goal.takes, Goal.extra]
    omega
  | succ fuel ih =>
    rw [read?]
    cases h with
    | @chain l _ mid _ a _ ha hrest =>
      have hlt := ha.length
      have hle := hrest.length
      rw [takes_operand] at hlt
      rw [extra_chain] at hfuel
      rw [parse, ih ha (by omega)]
      exact ih hrest (by simp only [Goal.extra]; omega)
    | @next l s op ts mid _ a b _ hs hb hrest =>
      have hlt := hb.length
      have hle := hrest.length
      have hx := extra_operand_le l
      rw [takes_operand] at hlt
      simp only [Goal.extra, length_cons] at hfuel
      simp only [parse, Level.operator?, hs, map_some]
      rw [ih hb (by omega)]
      exact ih hrest (by simp only [Goal.extra]; omega)
    | done h => rw [parse, h]
    | minus h =>
      simp only [Goal.extra, length_cons] at hfuel
      rw [parse, after?_mark]
      dsimp only
      rw [ih h (by simp only [Goal.extra]; omega)]
      rfl
    | plus h =>
      simp only [Goal.extra, length_cons] at hfuel
      exact ih h (by simp only [Goal.extra]; omega)
    | factor hm hp ha hrest =>
      have hlt := ha.length
      have hle := hrest.length
      simp only [Goal.extra, Goal.takes] at hfuel hlt
      rw [parse, hm, hp]
      dsimp only
      rw [ih ha (by simp only [Goal.extra]; omega)]
      exact ih hrest (by simp only [Goal.extra]; omega)
    | raised h =>
      simp only [Goal.extra, length_cons] at hfuel
      rw [parse, after?_mark]
      dsimp only
      rw [ih h (by simp only [Goal.extra]; omega)]
      rfl
    | base h => rw [parse, h]
    | whole n ts | decimal m e ts => rfl
    | entry s i ts => rfl
    | place s hi hp => rw [parse, hi, hp]
    | call s h =>
      simp only [Goal.extra, length_cons] at hfuel
      have hread := ih h (by simp only [Goal.extra, length_cons]; omega)
      simp [parse, index?, hread]
    | group h =>
      simp only [Goal.extra, length_cons] at hfuel
      have hread := ih h (by simp only [Goal.extra, length_cons]; omega)
      simp [parse, hread]
    | finish h => rw [parse, if_pos h]
    | argument h ha hrest =>
      have hlt := ha.length
      have hle := hrest.length
      simp only [Goal.extra, Goal.takes] at hfuel hlt
      rw [parse, if_neg h, ih ha (by simp only [Goal.extra]; omega)]
      exact ih hrest (by simp only [Goal.extra]; omega)
    | comma h =>
      simp only [Goal.extra, length_cons] at hfuel
      rw [parse, after?_mark]
      exact ih h (by simp only [Goal.extra]; omega)
    | last h => rw [parse, h]

/-! ## Reading in front of closing words -/

inductive Closing : List Token → Prop where
  | nil : Closing []
  | comma (ts : List Token) : Closing (.mark "," :: ts)
  | paren (ts : List Token) : Closing (.mark ")" :: ts)

lemma after?_append (h : after? s ts = none) (hk : ts = [] → after? s k = none) : after? s (ts ++ k) = none := by
  cases ts with
  | nil => exact hk rfl
  | cons t ts => simpa [after?] using h

lemma Closing.after? (hk : Closing k) (h : Code.after? s ts = none) (hc : s ≠ "," := by decide)
    (hp : s ≠ ")" := by decide) : Code.after? s (ts ++ k) = none :=
  after?_append h fun _ => by cases hk <;> simp [Code.after?, hc.symm, hp.symm]

lemma Closing.operator? (hk : Closing k) (h : l.operator? ts = none) : l.operator? (ts ++ k) = none := by
  cases ts with
  | nil => cases hk <;> cases l <;> rfl
  | cons t ts =>
    cases t with
    | mark s => simpa [Level.operator?] using h
    | whole | decimal | name => rfl

lemma Closing.index? (hk : Closing k) (h : index? ts = none) : index? (ts ++ k) = none := by
  refine eq_none_iff_forall_ne_some.mpr fun p hp => ?_
  have hus := index?_eq_some_iff.mp hp
  rcases ts with _ | ⟨t, _ | ⟨t', _ | ⟨t'', ts⟩⟩⟩
  · cases hk <;> simp at hus
  · cases hk <;> simp at hus
  · cases hk <;> simp at hus
  · obtain ⟨rfl, rfl, rfl, -⟩ : _ ∧ _ ∧ _ ∧ _ := by simpa using hus
    cases h

def Goal.isList : Goal → Bool
  | call _ _ | comma _ _ => true
  | _ => false

lemma isList_operand (l : Level) : l.operand.isList = false := by cases l <;> rfl

lemma Reads.append (h : Reads g ts e left) (hk : Closing k)
    (hc : g.isList = true → left = [] → after? "," k = none) : Reads g (ts ++ k) e (left ++ k) := by
  have hno {g : Goal} {left : List Token} (h : g.isList = false) : g.isList = true → left = [] → after? "," k = none :=
    fun ht => by simp [h] at ht
  induction h with
  | chain _ _ iha ihrest => exact .chain (iha (hno (isList_operand _))) (ihrest (hno rfl))
  | next hs _ _ ihb ihrest => exact .next hs (ihb (hno (isList_operand _))) (ihrest (hno rfl))
  | done h => exact .done (hk.operator? h)
  | minus _ ih => exact .minus (ih (hno rfl))
  | plus _ ih => exact .plus (ih (hno rfl))
  | factor hm hp _ _ iha ihrest => exact .factor (hk.after? hm) (hk.after? hp) (iha (hno rfl)) (ihrest (hno rfl))
  | raised _ ih => exact .raised (ih (hno rfl))
  | base h => exact .base (hk.after? h)
  | whole n ts => exact .whole n _
  | decimal m e ts => exact .decimal m e _
  | entry s i ts => exact .entry s i _
  | place s hi hp => exact .place s (hk.index? hi) (hk.after? hp)
  | call s _ ih => exact .call s (ih fun _ h => by cases h)
  | group _ ih => exact .group (ih (hno rfl))
  | @finish ts s args h =>
    refine .finish ?_
    cases ts with
    | nil =>
      cases hk with
      | comma us => exact absurd (hc rfl rfl) (by simp [after?])
      | nil | paren => rfl
    | cons t ts => exact h
  | @argument ts mid left s args a e h _ _ iha ihrest =>
    refine .argument ?_ (iha (hno rfl)) (ihrest fun _ => hc rfl)
    cases ts with
    | nil => exact absurd rfl h
    | cons t ts => exact h
  | comma _ ih => exact .comma (ih fun _ => hc rfl)
  | last h => exact .last (after?_append h (hc rfl))

/-! ## Expressions by their words -/

def Denotes (ts : List Token) (e : Expr) : Prop :=
  ∃ fuel, read? fuel (.chain .sum) ts = some (e, [])

def Lists (ts : List Token) (es : List Expr) : Prop :=
  es ≠ [] ∧ ∀ s args, Reads (.call s args) ts (.call s (args ++ es)) []

lemma denotes_iff : Denotes ts e ↔ Reads (.chain .sum) ts e [] :=
  ⟨fun ⟨_, h⟩ => reads_of_read h, fun h => ⟨2 * ts.length + 3, h.read (Nat.le_refl _)⟩⟩

/-- Neither a chain nor an argument begins with a closing parenthesis. -/
lemma Reads.starts (h : Reads g ts e left) (hg : g.takes = 1) : ¬ ends ts = true := by
  induction h with
  | chain _ _ iha => exact iha (takes_operand _)
  | factor _ _ _ _ iha => exact iha rfl
  | minus | plus | whole | decimal | entry | place | call | group => simp [ends]
  | _ => cases hg

lemma Lists.single (h : Denotes ts e) : Lists ts [e] := by
  have hread := denotes_iff.mp h
  exact ⟨by simp, fun s args => .argument (hread.starts rfl) hread (.last rfl)⟩

lemma Lists.cons (h : Denotes ts e) (hs : Lists us es) : Lists (ts ++ .mark "," :: us) (e :: es) := by
  refine ⟨by simp, fun s args => ?_⟩
  have hread := (denotes_iff.mp h).append (.comma us) (by simp [Goal.isList])
  have hrest := hs.2 s (args ++ [e])
  rw [append_assoc, singleton_append] at hrest
  exact .argument (hread.starts rfl) hread (.comma hrest)

lemma denotes_call (h : Lists ts es) (hk : k = [] ∨ ∃ us, k = .mark "+" :: us)
    (hrest : Reads (.rest .sum (.call s es)) k e []) : Denotes (.name s :: .mark "(" :: (ts ++ .mark ")" :: k)) e := by
  have hargs : Reads (.call s []) (ts ++ .mark ")" :: k) (.call s es) (.mark ")" :: k) :=
    (h.2 s []).append (.paren k) (by simp [after?])
  have hfactor : Reads .factor (.name s :: .mark "(" :: (ts ++ .mark ")" :: k)) (.call s es) k :=
    .factor rfl rfl (.call s hargs) (.base (by rcases hk with rfl | ⟨us, rfl⟩ <;> rfl))
  exact denotes_iff.mpr (.chain (.chain hfactor (.done (by rcases hk with rfl | ⟨us, rfl⟩ <;> rfl))) hrest)

lemma denotes_call_alone (h : Lists ts es) : Denotes (.name s :: .mark "(" :: (ts ++ [.mark ")"])) (.call s es) :=
  denotes_call h (.inl rfl) (.done rfl)

lemma denotes_power {n : Nat} (h : Denotes ts e) :
    Denotes (.whole n :: .mark "**" :: .mark "(" :: (ts ++ [.mark ")"])) (.power (.whole n) e) := by
  have hgroup : Reads .atom (.mark "(" :: (ts ++ [.mark ")"])) e [] :=
    .group ((denotes_iff.mp h).append (.paren []) (by simp [Goal.isList]))
  have hpower : Reads (.power (.whole n)) (.mark "**" :: .mark "(" :: (ts ++ [.mark ")"])) (.power (.whole n) e) [] :=
    .raised (.factor rfl rfl hgroup (.base rfl))
  exact denotes_iff.mpr (.chain (.chain (.factor rfl rfl (.whole n _) hpower) (.done rfl)) (.done rfl))

lemma list?_eq_some_iff : list? ts left = some es ↔ es ≠ [] ∧ ∃ s, Reads (.call "" []) ts (.call s es) left := by
  have hread {e : Expr} {rest : List Token} : read? (8 * (ts.length + 1)) (.call "" []) ts = some (e, rest) ↔
      Reads (.call "" []) ts e rest :=
    ⟨reads_of_read, fun h => h.read (by simp only [Goal.extra]; omega)⟩
  unfold list?
  constructor
  · intro h
    split at h
    · rename_i hfound
      split at h
      · rename_i hleft
        cases h
        exact ⟨cons_ne_nil _ _, _, hleft ▸ hread.mp hfound⟩
      · cases h
    · cases h
  · rintro ⟨hne, s, h⟩
    obtain ⟨e, es, rfl⟩ := exists_cons_of_ne_nil hne
    rw [hread.mpr h]
    exact if_pos rfl

lemma exprs?_of_denotes {cs : List Char} (hcs : Lexes cs ts) (h : Denotes ts e) : exprs? cs = some [e] := by
  unfold exprs?
  rw [hcs.tokens (Nat.le_refl _), bind_eq_bind, bind_some, list?_eq_some_iff.mpr ⟨by simp, "", (Lists.single h).2 "" []⟩]
  rfl

end GridBayes.Code
