import GridBayes.Proofs.CodeReading
import Mathlib.Data.List.OfFn

/-! Expressions by the grammar: numbers, variables and calls, the operators `+ - * / **` and
parentheses. Chains of operators nest to the left and powers to the right. The words of such an
expression are read to what it says, whatever else stands after them that does not go on with it. -/
namespace GridBayes.Code
open List

inductive Rank where
  | atom
  | factor
  | product
  | sum
deriving DecidableEq

inductive Phrase : Rank → Type where
  | whole (n : Nat) : Phrase .atom
  | decimal (m : Nat) (e : Int) : Phrase .atom
  | name (s : String) : Phrase .atom
  | call (s : String) {n : Nat} (args : Fin (n + 1) → Phrase .sum) : Phrase .atom
  | group (a : Phrase .sum) : Phrase .atom
  | atom (a : Phrase .atom) : Phrase .factor
  | power (a : Phrase .atom) (b : Phrase .factor) : Phrase .factor
  | minus (a : Phrase .factor) : Phrase .factor
  | plus (a : Phrase .factor) : Phrase .factor
  | factor (a : Phrase .factor) : Phrase .product
  | times (a : Phrase .product) (b : Phrase .factor) : Phrase .product
  | divide (a : Phrase .product) (b : Phrase .factor) : Phrase .product
  | product (a : Phrase .product) : Phrase .sum
  | add (a : Phrase .sum) (b : Phrase .product) : Phrase .sum
  | sub (a : Phrase .sum) (b : Phrase .product) : Phrase .sum

def commas : List (List Token) → List Token
  | [] => []
  | [ts] => ts
  | ts :: us :: rest => ts ++ .mark "," :: commas (us :: rest)

namespace Phrase

def words : {r : Rank} → Phrase r → List Token
  | _, whole n => [.whole n]
  | _, decimal m e => [.decimal m e]
  | _, name s => [.name s]
  | _, call s args => .name s :: .mark "(" :: (commas (ofFn fun i => (args i).words) ++ [.mark ")"])
  | _, group a => .mark "(" :: (a.words ++ [.mark ")"])
  | _, atom a => a.words
  | _, power a b => a.words ++ .mark "**" :: b.words
  | _, minus a => .mark "-" :: a.words
  | _, plus a => .mark "+" :: a.words
  | _, factor a => a.words
  | _, times a b => a.words ++ .mark "*" :: b.words
  | _, divide a b => a.words ++ .mark "/" :: b.words
  | _, product a => a.words
  | _, add a b => a.words ++ .mark "+" :: b.words
  | _, sub a b => a.words ++ .mark "-" :: b.words

def expr : {r : Rank} → Phrase r → Expr
  | _, whole n => .whole n
  | _, decimal m e => .decimal m e
  | _, name s => .place s
  | _, call s args => .call s (ofFn fun i => (args i).expr)
  | _, group a => a.expr
  | _, atom a => a.expr
  | _, power a b => .power a.expr b.expr
  | _, minus a => .negate a.expr
  | _, plus a => a.expr
  | _, factor a => a.expr
  | _, times a b => .mul a.expr b.expr
  | _, divide a b => .div a.expr b.expr
  | _, product a => a.expr
  | _, add a b => .add a.expr b.expr
  | _, sub a b => .sub a.expr b.expr

end Phrase

/-! ## What may follow -/

def Rank.joins : Rank → List String
  | .atom => ["(", "["]
  | .factor => ["**", "(", "["]
  | .product => ["*", "/", "//", "**", "(", "["]
  | .sum => ["+", "-", "*", "/", "//", "**", "(", "["]

def Stops (r : Rank) (k : List Token) : Prop :=
  ∀ s ∈ r.joins, after? s k = none

variable {r : Rank} {s : String} {k left ts us : List Token} {op : Expr → Expr → Expr} {e a b : Expr}

lemma stops_mark (h : s ∉ r.joins) (us : List Token) : Stops r (.mark s :: us) := fun s' hs' => by
  have hne : s ≠ s' := fun heq => h (heq ▸ hs')
  simp [after?, hne]

lemma stops_nil (r : Rank) : Stops r [] := fun _ _ => rfl

lemma Stops.atom (h : Stops .factor k) : Stops .atom k := fun s hs => h s (mem_cons_of_mem _ hs)

lemma Stops.factor (h : Stops .product k) : Stops .factor k :=
  fun s hs => h s (mem_cons_of_mem _ (mem_cons_of_mem _ (mem_cons_of_mem _ hs)))

lemma Stops.operator (h : Stops .product k) : Level.product.operator? k = none :=
  operator?_eq_none_iff.mpr fun o ho => h o.1 (( prefix_append _ _).subset (mem_map_of_mem ho))

lemma Stops.index (h : Stops .atom k) : index? k = none := by
  refine Option.eq_none_iff_forall_ne_some.mpr fun p hp => ?_
  have hopen := h "[" (by decide)
  rw [index?_eq_some_iff.mp hp, after?_mark] at hopen
  cases hopen

/-! ## Reading -/

/-- The words are read to an expression. After a chain of operands reading goes on as after one operand. -/
def Rank.Reads : Rank → List Token → Expr → Prop
  | .atom, ts, e => ∀ {k}, Stops .atom k → Code.Reads .atom (ts ++ k) e k
  | .factor, ts, e => ∀ {k}, Stops .factor k → Code.Reads .factor (ts ++ k) e k
  | .product, ts, e => ∀ {k e' left}, Stops .factor k → Code.Reads (.rest .product e) k e' left →
    Code.Reads (.chain .product) (ts ++ k) e' left
  | .sum, ts, e => ∀ {k e' left}, Stops .product k → Code.Reads (.rest .sum e) k e' left →
    Code.Reads (.chain .sum) (ts ++ k) e' left

lemma Rank.Reads.whole_product (h : Rank.product.Reads ts e) (hk : Stops .product k) :
    Code.Reads (.chain .product) (ts ++ k) e k := h hk.factor (.done hk.operator)

lemma Rank.Reads.denotes (h : Rank.sum.Reads ts e) : Denotes ts e := by
  have hread := h (stops_nil _) (.done rfl)
  rw [append_nil] at hread
  exact denotes_iff.mpr hread

lemma lists_commas {parts : List (List Token × Expr)} (hne : parts ≠ [])
    (h : ∀ p ∈ parts, Denotes p.1 p.2) : Lists (commas (parts.map (·.1))) (parts.map (·.2)) := by
  induction parts with
  | nil => exact absurd rfl hne
  | cons p parts ih =>
    have hf := h p mem_cons_self
    cases parts with
    | nil => exact Lists.single hf
    | cons q parts => exact Lists.cons hf (ih (by simp) fun p' hp' => h p' (mem_cons_of_mem p hp'))

lemma reads_call {n : Nat} {args : Fin (n + 1) → List Token} {values : Fin (n + 1) → Expr}
    (s : String) (h : ∀ i, Rank.sum.Reads (args i) (values i)) :
    Rank.atom.Reads (.name s :: .mark "(" :: (commas (ofFn args) ++ [.mark ")"])) (.call s (ofFn values)) := by
  have hl : Lists (commas (ofFn args)) (ofFn values) := by
    have hpa := @lists_commas (ofFn fun i => (args i, values i)) (by simp) fun p hp => by
      obtain ⟨i, rfl⟩ := (mem_ofFn' _ _).mp hp
      exact Rank.Reads.denotes (h i)
    rwa [map_ofFn, map_ofFn] at hpa
  intro k _
  simp only [cons_append, append_assoc, nil_append]
  exact .call s ((hl.2 s []).append (.paren k) (by simp [after?]))

lemma reads_of_atom {mid : List Token} (ha : Reads .atom ts a mid) (hrest : Reads (.power a) mid e left) :
    Reads .factor ts e left :=
  .factor (by cases ha <;> rfl) (by cases ha <;> rfl) ha hrest

lemma Phrase.reads (p : Phrase r) : r.Reads p.words p.expr := by
  induction p with
  | whole n => exact fun _ => .whole n _
  | decimal m e => exact fun _ => .decimal m e _
  | name s => exact fun hk => .place s hk.index (hk "(" (by decide))
  | call s args ih => exact reads_call s ih
  | group a ih =>
    intro k _
    rw [words, cons_append, append_assoc]
    exact .group (ih (stops_mark (by decide) k) (.done rfl))
  | atom a ih => exact fun hk => reads_of_atom (ih hk.atom) (.base (hk "**" (by decide)))
  | power a b iha ihb =>
    intro k hk
    rw [words, append_assoc]
    exact reads_of_atom (iha (stops_mark (by decide) _)) (.raised (ihb hk))
  | minus a ih => exact fun hk => .minus (ih hk)
  | plus a ih => exact fun hk => .plus (ih hk)
  | factor a ih => exact fun hk hrest => .chain (ih hk) hrest
  | times a b iha ihb | divide a b iha ihb =>
    intro k e' left hk hrest
    rw [words, append_assoc]
    exact iha (stops_mark (by decide) _) (.next rfl (ihb hk) hrest)
  | product a ih => exact fun hk hrest => .chain (ih.whole_product hk) hrest
  | add a b iha ihb | sub a b iha ihb =>
    intro k e' left hk hrest
    rw [words, append_assoc]
    exact iha (stops_mark (by decide) _) (.next rfl (ihb.whole_product hk) hrest)

lemma Phrase.denotes (p : Phrase .sum) : Denotes p.words p.expr := Rank.Reads.denotes p.reads

end GridBayes.Code
