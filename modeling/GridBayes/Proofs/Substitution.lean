import GridBayes.Proofs.HostText
import GridBayes.Proofs.MentionText
import GridBayes.Proofs.OverrideScope

/-! Deferred variables and the meaning of code. The values of deferred variables are texts, and they are
put in their places as they are, without parentheses. So the code keeps its meaning if no value falls
apart in its place, and a sum that is put into a product does not. -/
namespace GridBayes.Deferred
open Code Operation Resolution List String
open Text (Piece pieces fill hits)

/-! ## Texts with placeholders -/

variable {k : Key} {t : Transform} {function : String}

lemma unmarked_of_mem_hits {cs : List Char} (h : k ∈ hits (pieces keyRule cs)) :
    (∀ c ∈ k.text.toList, c ∉ ['\x7b', '\x7d', ':', '!', '[', '.']) ∧ k.text.toList ≠ [] := by
  obtain ⟨before, after, n, -, hrule⟩ := Text.mem_hits_pieces h
  obtain ⟨word, index, hword, hi, -, rfl⟩ := keyRule_some hrule
  rw [text_keyOfWord, toList_ofList]
  exact ⟨unmarked_key hword hi, by simp [hword.1]⟩

lemma fill_code {values : List (String × String)} {code text : String}
    (hopen : Piece.char '\x7b' ∉ pieces keyRule code.toList) (hcl : Piece.char '\x7d' ∉ pieces keyRule code.toList)
    (h : Template.fill ⟨.strict, values⟩ code = .ok text) :
    text.toList = fill (fun k : Key => ((values.lookup k.text).getD "").toList) (pieces keyRule code.toList) := by
  have hch : ∀ c, Piece.char c ∈ pieces keyRule code.toList → c ≠ '\x7b' ∧ c ≠ '\x7d' :=
    fun c hc => ⟨fun he => hopen (he ▸ hc), fun he => hcl (he ▸ hc)⟩
  -- the code is its own pieces with braced names, which is the form that templates are filled in
  rw [Template.fill_eq_ok, ← fill_keys code.toList] at h
  have hn := Template.isFieldName_of_fillChars hch (fun k hk => unmarked_of_mem_hits hk) h
  have hf := ((Template.fillChars_pieces hch hn).mp h).2
  simp only [ofList_toList] at hf
  exact hf

/-! ## Keeping the meaning -/

/-- If code and values spell expressions and no value falls apart in its place, the resolved code spells an
expression that gives what the code gives where each deferred variable holds what its value gives. -/
def KeepsMeaning [SpecialFunctions] (value : Key → String) (code resolved : String) : Prop :=
  ∀ (name : Key → String) (host : Phrase .sum) (meaning : Key → Phrase .sum) (env : Env Exact) (x : Key → Exact),
    Hosts name host (pieces keyRule code.toList) →
    (∀ k ∈ hits (pieces keyRule code.toList), Spelled (meaning k).words (value k).toList) →
    host.fits (definitions name (hits (pieces keyRule code.toList)) meaning) .sum = true →
    (∀ k ∈ hits (pieces keyRule code.toList), Evaluates env (value k).toList (.ok (x k))) →
    Spelled (host.expand (definitions name (hits (pieces keyRule code.toList)) meaning)).words resolved.toList ∧
    ∃ r, Evaluates env resolved.toList r ∧ Evaluates (env.bind name (hits (pieces keyRule code.toList)) x)
        (fill (fun k => (name k).toList) (pieces keyRule code.toList)) r

/-- The code is the function of a variable that holds what the value gives, whatever expression that spells. -/
def KeepsArgument [SpecialFunctions] (function value : String) : Prop :=
  ∀ (y : String) (p : Phrase .sum) (env : Env Exact) (x : Exact),
    tokenAt y.toList = some (.name y, y.toList.length) → y ≠ "math.INFINITY" → y ≠ function →
    Spelled p.words value.toList → Evaluates env value.toList (.ok x) →
    ∃ r, Evaluates env (function ++ "(" ++ value ++ ")").toList r ∧
      Evaluates (env.bind (fun _ : Unit => y) [()] fun _ => x) (function ++ "(" ++ y ++ ")").toList r

/-! ## Functions of values -/

def argumentOf (function : String) : List (Piece Unit) :=
  function.toList.map .char ++ (['('].map .char ++ (.hit () :: [')'].map .char))

lemma hits_argumentOf (function : String) : hits (argumentOf function) = [()] := by
  unfold argumentOf
  rw [Text.hits_append, Text.hits_map_char]
  rfl

lemma fill_argumentOf (function text : String) :
    fill (fun _ => text.toList) (argumentOf function) = (function ++ "(" ++ text ++ ")").toList := by
  unfold argumentOf
  rw [Text.fill_append, Text.fill_map_char]
  simp [Text.fill]

lemma function_cases (h : function = t.forward ∨ function = t.inverse) :
    function = "10**" ∨ tokenAt function.toList = some (.name function, function.toList.length) := by
  rcases h with rfl | rfl <;> cases t <;> decide

lemma hosts_argumentOf (h : function = t.forward ∨ function = t.inverse) {y : String}
    (hword : tokenAt y.toList = some (.name y, y.toList.length)) (hfi : y ≠ "math.INFINITY") (hne : y ≠ function) :
    ∃ host, Hosts (fun _ : Unit => y) host (argumentOf function) ∧
      ∀ meaning, host.fits (definitions (fun _ : Unit => y) [()] meaning) .sum = true := by
  have har : SpelledHost (fun _ : Unit => y) [.name y, .mark ")"]
      ([].map .char ++ (.hit () :: ([].map .char ++ ([')'].map .char ++ [].map .char)))) :=
    .place (by simp) (.word (by simp) (by decide) (fun _ => by simp) (.nil (by simp)))
  have hopen : SpelledHost (fun _ : Unit => y) [.mark "(", .name y, .mark ")"]
      ([].map .char ++ (['('].map .char ++ ([].map .char ++
        (.hit () :: ([].map .char ++ ([')'].map .char ++ [].map .char)))))) :=
    .word (by simp) (by decide) (fun _ => by simp) har
  have hosts {host : Phrase .sum} (hs : SpelledHost (fun _ : Unit => y) host.words
      (argumentOf function)) : Hosts (fun _ : Unit => y) host (argumentOf function) :=
    ⟨hs, fun _ _ => hword, fun _ _ _ _ _ => rfl, fun _ _ => hfi⟩
  have ha (meaning : Unit → Phrase .sum) : (Phrase.single (.name y)).fits
      (definitions (fun _ : Unit => y) [()] meaning) .sum = true := by
    show ((definitions (fun _ : Unit => y) [()] meaning y).all _) = true
    rw [Option.all_eq_true]
    exact fun d _ => decide_eq_true (Phrase.width_le d.rank)
  rcases function_cases h with rfl | hf
  · refine ⟨.product (.factor (.power (.whole 10) (.atom (.group (.single (.name y)))))), hosts ?_, fun meaning => ?_⟩
    · have hp : SpelledHost (fun _ : Unit => y) [.whole 10, .mark "**", .mark "(", .name y, .mark ")"]
          ([].map .char ++ ("10".toList.map .char ++ ([].map .char ++ ("**".toList.map .char ++ _)))) :=
        .word (by simp) (by decide) (fun _ => by simp) (.word (by simp) (by decide) (fun _ => by simp) hopen)
      exact hp
    · exact ha meaning
  · refine ⟨.single (.call function fun _ : Fin 1 => .single (.name y)), hosts ?_, fun meaning => ?_⟩
    · have hcall : SpelledHost (fun _ : Unit => y) [.name function, .mark "(", .name y, .mark ")"]
          ([].map .char ++ (function.toList.map .char ++ _)) :=
        .word (by simp) hf (fun _ he => hne (Token.name.inj he).symm) hopen
      exact hcall
    · have hc : definitions (fun _ : Unit => y) [()] meaning function = none := definitions_none fun _ _ => hne
      show ((definitions (fun _ : Unit => y) [()] meaning function).isNone && decide (∀ _ : Fin 1, _)) = true
      rw [hc, Option.isNone_none, Bool.true_and, decide_eq_true_eq]
      exact fun _ => ha meaning

/-! ## Look-ups -/

section

variable [SpecialFunctions]

lemma keepsMeaning_filled (d : Definition) (value : Key → String) : KeepsMeaning value d.body (d.filled value) := by
  intro name host meaning env x hhost htext hfits hx
  unfold Definition.filled
  rw [toList_ofList]
  exact evaluates_fill hhost htext hfits hx

lemma keepsMeaning_template {t : Resolution} {code text : String}
    (h : Template.fill ⟨.strict, t.values⟩ code = .ok text) : KeepsMeaning t.valueOf code text := by
  intro name host meaning env x hhost htext hfits hx
  have hopen := hhost.spelled.unbraced (.inl rfl)
  have hc := hhost.spelled.unbraced (.inr rfl)
  rw [fill_code hopen hc h]
  exact evaluates_fill hhost htext hfits hx

lemma keepsArgument_transform {t : Transform} {function : String}
    (h : function = t.forward ∨ function = t.inverse) (value : String) : KeepsArgument function value := by
  intro y p env x hword hfi hne hva hx
  obtain ⟨host, hhost, hfits⟩ := hosts_argumentOf h hword hfi hne
  have hs : ∀ a ∈ hits (argumentOf function), Spelled p.words ((fun _ => value.toList) a) := fun _ _ => hva
  have hv : ∀ a ∈ hits (argumentOf function), Evaluates env ((fun _ => value.toList) a) (.ok ((fun _ => x) a)) :=
    fun _ _ => hx
  have hfit : host.fits (definitions (fun _ : Unit => y) (hits (argumentOf function)) fun _ => p) .sum = true := by
    rw [hits_argumentOf]
    exact hfits _
  have hf := (evaluates_fill hhost hs hfit hv).2
  rwa [fill_argumentOf, fill_argumentOf, hits_argumentOf] at hf

/-- Texts of deferred variables, generated code and a model's code keep their meaning if no value falls apart in its
place. A key had by a prefix puts the value in parentheses and always keeps it. -/
theorem substitution_keeps_meaning (w : Session) (overrides multiplicity : List (String × Value))
    (names : List String) (agenda : Agenda)
    (hrun : ((resolveAll names agenda).run.run (start w.library overrides multiplicity)).1 = .ok ()) :
    let src := (start w.library overrides multiplicity).toSources
    let t := ((resolveAll names agenda).run.run (start w.library overrides multiplicity)).2
    (∀ k, src.Asked names k → ∃ d, src.definition k = .ok d ∧
      (d.isCode = false → d.transform = none → t.valueOf k = d.filled t.valueOf) ∧
      (d.isCode = true → ∃ c ∈ t.components, c.key = d.base ∧ c.code = d.filled t.valueOf) ∧
      KeepsMeaning t.valueOf d.body (d.filled t.valueOf) ∧
      ∀ function, d.transform = some function →
        (∃ c ∈ t.components, c.key = k ∧ c.code = function ++ "(" ++ d.baseValue (d.filled t.valueOf) ++ ")") ∧
        KeepsArgument function (d.baseValue (d.filled t.valueOf))) ∧
    ∀ code text, Template.fill ⟨.strict, t.values⟩ code = .ok text → KeepsMeaning t.valueOf code text := by
  intro src t
  obtain ⟨ks, hkn, ha⟩ := knows_of_run hrun
  refine ⟨fun k hk => ?_, fun code text h => keepsMeaning_template h⟩
  obtain ⟨d, hd, -, hv, hcode⟩ := hkn.recorded ((ha k).mpr hk)
  refine ⟨d, hd, fun htext ht => ?_, fun hg => ?_, keepsMeaning_filled d _, fun function ht => ⟨?_, ?_⟩⟩
  · unfold Resolution.valueOf
    rw [hv, Option.getD_some, d.value_of_text htext ht]
    rfl
  · obtain ⟨c, hc, hkey, htext⟩ := d.exists_generated_base hg k (d.filled t.valueOf)
    exact ⟨c, hcode c hc, hkey, htext⟩
  · obtain ⟨c, hc, hkey, htext⟩ := d.exists_generated_transform ht k (d.filled t.valueOf)
    exact ⟨c, hcode c hc, hkey, htext⟩
  · obtain ⟨_, _, hth⟩ := Sources.through_of_transform hd ht
    obtain ⟨f, hf⟩ := throughPrefix?_function hth.through
    exact keepsArgument_transform hf _

end

/-! One override in the text of another: a product in the place of a factor, and a sum there. -/

def nestedOverrides (inner outer : String) : List (String × Value) :=
  [("foo", .str inner), ("bar", .str outer)]

def nested (inner outer : String) : Resolution :=
  ((resolveAll ["bar"] Builder.backwards).run.run (start ({} : Session).library (nestedOverrides inner outer) [])).2

def foo : Key :=
  ⟨none, "foo", none⟩

def bar : Key :=
  ⟨none, "bar", none⟩

/-- Numbers for the variables of the overrides. -/
noncomputable def sampleEnv : Env Exact :=
  { params := #[], places := [("p.a", .real 1), ("p.b", .real 3), ("c.k", .real 5)] }

def innerProduct : Phrase .sum :=
  .product (.times (.factor (.atom (.name "p.a"))) (.atom (.name "p.b")))

def outerDifference : Phrase .sum :=
  .sub (.single (.name "c.k")) (.times (.factor (.atom (.whole 2))) (.atom (.name "foo")))

lemma spelled_innerProduct : Spelled innerProduct.words "p.a*p.b".toList := by
  have hw : Spelled [.name "p.a", .mark "*", .name "p.b"]
      ([] ++ ("p.a".toList ++ ([] ++ ("*".toList ++ ([] ++ ("p.b".toList ++ [])))))) :=
    .cons (by simp) (by decide) (.cons (by simp) (by decide) (.cons (by simp) (by decide) (.nil (by simp))))
  exact hw

lemma hits_outerDifference : hits (pieces keyRule "c.k - 2*\x7bfoo\x7d".toList) = [foo] := by decide +kernel

lemma hosts_outerDifference : Hosts (fun _ : Key => "foo") outerDifference
    (pieces keyRule "c.k - 2*\x7bfoo\x7d".toList) where
  spelled := by
    have hp : pieces keyRule "c.k - 2*\x7bfoo\x7d".toList =
        [].map .char ++ ("c.k".toList.map .char ++ ([' '].map .char ++ ("-".toList.map .char ++
          ([' '].map .char ++ ("2".toList.map .char ++ ([].map .char ++ ("*".toList.map .char ++
            ([].map .char ++ (.hit foo :: [].map .char))))))))) := by
      decide +kernel
    rw [hp]
    exact .word (by simp) (by decide) (fun _ => by decide) (.word (by simp [isGap]) (by decide)
      (fun _ => by decide) (.word (by simp [isGap]) (by decide) (fun _ => by decide)
      (.word (by simp) (by decide) (fun _ => by decide) (.place (by simp) (.nil (by simp))))))
  word := fun _ _ => by decide
  distinct := by
    intro a ha b hb _
    rw [mem_singleton.mp ha, mem_singleton.mp hb]
  finite := fun _ _ => by decide

open scoped Standard in
theorem substitution_of_product : (nested "p.a*p.b" "c.k - 2*g.foo").valueOf bar = "c.k - 2*p.a*p.b" ∧
    ∃ r, Evaluates sampleEnv "c.k - 2*p.a*p.b".toList r ∧
      Evaluates (sampleEnv.bind (fun _ => "foo") [foo] fun _ => .real 1 * .real 3) "c.k - 2*foo".toList r := by
  have hrun : ((resolveAll ["bar"] Builder.backwards).run.run (start ({} : Session).library
      (nestedOverrides "p.a*p.b" "c.k - 2*g.foo") [])).1 = .ok () := by
    decide +kernel
  have ha : (start ({} : Session).library (nestedOverrides "p.a*p.b" "c.k - 2*g.foo") []).toSources.Asked ["bar"] bar :=
    ⟨"bar", by decide +kernel, _, by decide +kernel, .refl⟩
  have hde : (start ({} : Session).library (nestedOverrides "p.a*p.b" "c.k - 2*g.foo") []).toSources.definition bar =
        .ok ⟨⟨bar, "c.k - 2*g.foo", false, none⟩, ["foo"], "c.k - 2*\x7bfoo\x7d"⟩ := by
    decide +kernel
  have hfoo : (nested "p.a*p.b" "c.k - 2*g.foo").valueOf foo = "p.a*p.b" := by decide +kernel
  have hbar : (nested "p.a*p.b" "c.k - 2*g.foo").valueOf bar = "c.k - 2*p.a*p.b" := by decide +kernel
  have hn : fill (fun _ : Key => "foo".toList) (pieces keyRule "c.k - 2*\x7bfoo\x7d".toList) =
      "c.k - 2*foo".toList := by
    decide +kernel
  obtain ⟨d, hd, hv, -, hm, -⟩ := (substitution_keeps_meaning {}
    (nestedOverrides "p.a*p.b" "c.k - 2*g.foo") [] ["bar"] Builder.backwards hrun).1 bar ha
  obtain rfl := Except.ok.inj (hde.symm.trans hd)
  rw [← hv rfl rfl] at hm
  have hk : KeepsMeaning (nested "p.a*p.b" "c.k - 2*g.foo").valueOf "c.k - 2*\x7bfoo\x7d"
      ((nested "p.a*p.b" "c.k - 2*g.foo").valueOf bar) := hm
  rw [hbar] at hk
  have hfits : outerDifference.fits (definitions (fun _ : Key => "foo") [foo] fun _ => innerProduct) .sum = true := by
    decide
  have hall {P : Key → Prop} (h : P foo) : ∀ k ∈ hits (pieces keyRule "c.k - 2*\x7bfoo\x7d".toList), P k := by
    rw [hits_outerDifference]
    exact List.forall_mem_singleton.mpr h
  obtain ⟨-, r, hr, hr'⟩ := hk (fun _ => "foo") outerDifference (fun _ => innerProduct) sampleEnv
    (fun _ => .real 1 * .real 3) hosts_outerDifference
    (hall (by rw [hfoo]; exact spelled_innerProduct)) (by rw [hits_outerDifference]; exact hfits)
    (hall (by rw [hfoo]; exact ⟨_, rfl, rfl⟩))
  rw [hits_outerDifference, hn] at hr'
  exact ⟨hbar, r, hr, hr'⟩

open scoped Standard in
/-- Twice a sum becomes twice its first term and the second one: five, and not eight. -/
theorem grouping_lost : (nested "p.a + p.b" "2*g.foo").valueOf foo = "p.a + p.b" ∧
    (nested "p.a + p.b" "2*g.foo").valueOf bar = "2*p.a + p.b" ∧
    Evaluates sampleEnv "p.a + p.b".toList (.ok (.real 4)) ∧
    Evaluates (sampleEnv.bind (fun _ => "foo") [foo] fun _ => .real 4) "2*foo".toList (.ok (.real 8)) ∧
    Evaluates sampleEnv "2*p.a + p.b".toList (.ok (.real 5)) := by
  refine ⟨by decide +kernel, by decide +kernel, ?_, ?_, ?_⟩
  · have hsum : Evaluates sampleEnv "p.a + p.b".toList (.ok (.real 1 + .real 3)) := ⟨_, rfl, rfl⟩
    rw [Exact.real_add_real] at hsum
    norm_num at hsum
    exact hsum
  · have ht : Evaluates (sampleEnv.bind (fun _ => "foo") [foo] fun _ => .real 4) "2*foo".toList
        (.ok (ofInt 2 * .real 4)) := ⟨_, rfl, rfl⟩
    rw [ofInt_eq, Exact.real_mul_real] at ht
    norm_num at ht
    exact ht
  · have hw : Lexes "2*p.a + p.b".toList [.whole 2, .mark "*", .name "p.a", .mark "+", .name "p.b"] :=
      @lexes_of_tokens 6 _ _ rfl
    have hf : Evaluates sampleEnv "2*p.a + p.b".toList (.ok (ofInt 2 * .real 1 + .real 3)) :=
      ⟨.add (.mul (.whole 2) (.place "p.a")) (.place "p.b"),
        exprs?_of_denotes hw ⟨6, rfl⟩, rfl⟩
    rw [ofInt_eq, Exact.real_mul_real, Exact.real_add_real] at hf
    norm_num at hf
    exact hf

end GridBayes.Deferred
