import GridBayes.Deferred.Definition
import GridBayes.Proofs.Placeholder
import Mathlib.Data.List.Nodup
import Mathlib.Data.List.Perm.Subperm

/-! Keys do not grow. The keys in a definition are no longer than the texts that definitions are
taken from allow, whatever index is carried along. So there are finitely many keys that a look-up
can meet, and a bound on their number can be computed from the sources. -/
namespace GridBayes.Deferred
open List Except Resolution

/-! ## Runs of characters -/

def isTermChar (c : Char) : Bool :=
  Text.isWord c || c == '.' || isIndexChar c

def weight (cs : List Char) : Nat :=
  cs.length + cs.count '.'

/-- A text without braces in which adjacent characters of mentions take at most the room `n`. -/
structure Tame (n : Nat) (cs : List Char) : Prop where
  runs : ∀ t, t <:+ cs → weight (t.takeWhile isTermChar) ≤ n
  plain : '\x7b' ∉ cs

variable {a b cs name source : List Char} {n m : Nat} {c : Char} {grid index : Option (List Char)}
  {key base text : String} {multi : Value}

lemma weight_le_of_sublist (h : a.Sublist b) : weight a ≤ weight b := Nat.add_le_add h.length_le (h.count_le '.')

lemma weight_le_double (cs : List Char) : weight cs ≤ 2 * cs.length := by
  have := count_le_length (a := '.') (l := cs)
  unfold weight
  omega

lemma weight_le_takeWhile {p : Char → Bool} {w : List Char} (hw : ∀ c ∈ w, p c = true)
    (rest : List Char) : weight w ≤ weight ((w ++ rest).takeWhile p) := by
  rw [takeWhile_append_of_pos hw]
  exact weight_le_of_sublist (sublist_append_left w _)

lemma tame_of_weight (hw : weight cs ≤ n) (hp : '\x7b' ∉ cs) : Tame n cs := by
  refine ⟨fun t ht => (weight_le_of_sublist ?_).trans hw, hp⟩
  exact ( takeWhile_prefix _).sublist.trans ht.sublist

lemma tame_short (hlen : 2 * cs.length ≤ n) (hp : '\x7b' ∉ cs) : Tame n cs :=
  tame_of_weight ((weight_le_double cs).trans hlen) hp

lemma tame_nil (n : Nat) : Tame n [] := tame_short (Nat.zero_le n) not_mem_nil

lemma Tame.append (ha : Tame n a) (hb : Tame n b) (hc : isTermChar c = false) (hbr : c ≠ '\x7b') :
    Tame n (a ++ c :: b) := by
  refine ⟨fun t ht => ?_, ?_⟩
  · obtain ⟨pre, hpre⟩ := ht
    rcases append_eq_append_iff.mp hpre with ⟨u, hu, rfl⟩ | ⟨u, -, hu⟩
    · rw [Text.takeWhile_append_of_stop hc]
      exact ha.runs u ⟨pre, hu.symm⟩
    · cases u with
      | nil =>
        obtain rfl : c :: b = t := by exact hu
        rw [takeWhile_cons_of_neg (by simp [hc])]
        exact Nat.zero_le n
      | cons d u => exact hb.runs t ⟨u, ((cons.inj hu).2).symm⟩
  · simp only [mem_append, mem_cons, not_or]
    exact ⟨ha.plain, fun h => hbr h.symm, hb.plain⟩

lemma Tame.cons {n : Nat} {b : List Char} {c : Char} (hb : Tame n b)
    (hc : isTermChar c = false) (hbr : c ≠ '\x7b') : Tame n (c :: b) :=
  Tame.append (tame_nil n) hb hc hbr

/-! ## Mentions -/

lemma isTermChar_of_isWord (h : Text.isWord c = true) : isTermChar c = true := by simp [isTermChar, h]

lemma weight_dotted (grid : Option (List Char)) (name : List Char) :
    (stem grid name).length ≤ weight (dotted grid name) := by
  cases grid with
  | none => exact Nat.le_add_right _ _
  | some g =>
    have hc : 1 ≤ (g ++ '.' :: name).count '.' := one_le_count_iff.mpr (by simp)
    simp only [weight, stem, dotted, length_append, length_cons] at hc ⊢
    omega

lemma isTermChar_of_mem_dotted (hg : ∀ g ∈ grid, IsWord g) (hn : IsWord name) (hc : c ∈ dotted grid name) :
    isTermChar c = true := by
  cases grid with
  | none => exact isTermChar_of_isWord (hn.2 c hc)
  | some g =>
    simp only [dotted, mem_append, mem_cons] at hc
    rcases hc with hc | rfl | hc
    · exact isTermChar_of_isWord ((hg g rfl).2 c hc)
    · decide
    · exact isTermChar_of_isWord (hn.2 c hc)

lemma Mentions.length_le_of_tame (h : Mentions source grid name index) (htame : Tame (n + 3) source) :
    (stem grid name).length ≤ n ∧ ∀ i ∈ index, i.length ≤ n + 3 := by
  obtain ⟨hg, hn, hi, rest, hs⟩ := h
  refine ⟨?_, fun i hmem => ?_⟩
  · have hterm : ∀ c ∈ 'g' :: '.' :: dotted grid name, isTermChar c = true := by
      intro c hc
      rcases mem_cons.mp hc with rfl | hc
      · decide
      rcases mem_cons.mp hc with rfl | hc
      · decide
      exact isTermChar_of_mem_dotted hg hn hc
    have hrun := (weight_le_takeWhile hterm (indexPart index ++ rest)).trans (htame.runs _ hs)
    have hd : weight ('g' :: '.' :: dotted grid name) = weight (dotted grid name) + 3 := by
      simp [weight]
      omega
    have hstem := weight_dotted grid name
    omega
  · obtain rfl := hmem
    have hpart : i ++ rest <:+ source := by
      refine IsSuffix.trans ?_ hs
      exact ⟨'g' :: '.' :: (dotted grid name ++ ['-', '-']), by simp [indexPart]⟩
    have hterm : ∀ c ∈ i, isTermChar c = true := fun c hc => by simp [isTermChar, (hi i rfl).2 c hc]
    have hrun := (weight_le_takeWhile hterm rest).trans (htame.runs _ hpart)
    exact (Nat.le_add_right _ _).trans hrun

lemma Mentions.length_le (h : Mentions source grid name index) :
    (stem grid name).length ≤ source.length ∧ ∀ i ∈ index, i.length ≤ source.length := by
  obtain ⟨-, -, -, rest, hs⟩ := h
  have hlen := hs.length_le
  refine ⟨?_, fun i hmem => ?_⟩
  · cases grid with
    | none | some g => simp [stem, dotted] at hlen ⊢; omega
  · obtain rfl := hmem
    simp [indexPart] at hlen
    omega

/-! ## Combinations of copies -/

lemma brace_not_mem_toString (n : Nat) : '\x7b' ∉ (toString n).toList := fun h => by
  have := Text.isDigit_of_mem_toString h
  revert this; decide

lemma length_toString_le (n : Nat) : (toString (n + 1)).length ≤ n + 1 := by
  show (n + 1).repr.length ≤ n + 1
  rw [Nat.length_repr_le_iff (Nat.succ_pos n)]
  exact Nat.lt_pow_self (by decide)

lemma brace_not_mem_copies {v : Value} (h : copies v = .ok n) : '\x7b' ∉ v.text.toList := by
  cases v with
  | int m =>
    show '\x7b' ∉ (toString m).toList
    rw [Int.toString_eq_repr, Int.repr_eq_if]
    split
    · exact brace_not_mem_toString _
    · rw [String.toList_append]
      intro hmem
      rcases mem_append.mp hmem with hmem | hmem
      · revert hmem; decide
      · exact brace_not_mem_toString _ hmem
  | bool b => cases b <;> decide
  | _ => simp [copies] at h

lemma combination_cases {index : String} (h : combination index key base multi = .ok text) :
    ∃ n, copies multi = .ok n ∧ (text = sumOf base n id ∨ text = "(" ++ sumOf base n id ++ ") / " ++ multi.text ∨
        text = "-2.5*math.log10(" ++ sumOf base n (fun v => "10**(-" ++ v ++ "/2.5)") ++ ")") := by
  unfold combination at h
  dsimp only at h
  split at h
  · cases hn : copies multi with
    | error e => rw [hn] at h; cases h
    | ok n => rw [hn] at h; exact ⟨n, rfl, Or.inl (ok.inj h).symm⟩
  · split at h
    · cases hn : copies multi with
      | error e => rw [hn] at h; cases h
      | ok n => rw [hn] at h; exact ⟨n, rfl, Or.inr (Or.inl (ok.inj h).symm)⟩
    · split at h
      · cases hn : copies multi with
        | error e => rw [hn] at h; cases h
        | ok n => rw [hn] at h; exact ⟨n, rfl, Or.inr (Or.inr (ok.inj h).symm)⟩
      · cases h

lemma tame_term {i : Nat} (hbase : weight base.toList + 3 ≤ m) (hp : '\x7b' ∉ base.toList)
    (hi : 2 * (i + 1) ≤ m) : Tame m ("g." ++ base ++ "--" ++ toString (i + 1)).toList := by
  have hs : ("g." ++ base ++ "--" ++ toString (i + 1)).toList =
      ('g' :: '.' :: base.toList) ++ '-' :: '-' :: (toString (i + 1)).toList := by
    simp
  rw [hs]
  refine Tame.append (tame_of_weight ?_ ?_) (Tame.cons (tame_short ?_ ?_) ?_ ?_) ?_ ?_
  · simp [weight] at hbase ⊢
    omega
  · simpa using hp
  · exact (Nat.mul_le_mul_left 2 (length_toString_le i)).trans hi
  · exact brace_not_mem_toString _
  all_goals decide

lemma tame_join {terms : List String} (h : ∀ t ∈ terms, Tame m t.toList) : Tame m (Text.join " + " terms).toList := by
  induction terms with
  | nil => exact tame_nil m
  | cons t rest ih =>
    cases rest with
    | nil => exact h t mem_cons_self
    | cons u rest =>
      have hrest := ih fun t ht => h t (mem_cons_of_mem _ ht)
      have hjoin : (Text.join " + " (t :: u :: rest)).toList =
          t.toList ++ ' ' :: '+' :: ' ' :: (Text.join " + " (u :: rest)).toList := by
        rw [Text.join_cons_cons]
        simp
      rw [hjoin]
      refine Tame.append (h t mem_cons_self) (Tame.cons (Tame.cons hrest ?_ ?_) ?_ ?_) ?_ ?_
      all_goals decide

lemma tame_flux {v : String} (hm : 40 ≤ m) (h : Tame m v.toList) : Tame m ("10**(-" ++ v ++ "/2.5)").toList := by
  have hs : ("10**(-" ++ v ++ "/2.5)").toList =
      ['1', '0'] ++ '*' :: '*' :: '(' :: '-' :: (v.toList ++ '/' :: (['2', '.', '5'] ++ [')'])) := by
    simp
  rw [hs]
  have hend : Tame m (['2', '.', '5'] ++ [')']) := tame_short (by simp; omega) (by decide)
  have hlead : Tame m ['1', '0'] := tame_short (by simp; omega) (by decide)
  refine Tame.append hlead (Tame.cons (Tame.cons (Tame.cons (Tame.append h hend ?_ ?_) ?_ ?_) ?_ ?_) ?_ ?_) ?_ ?_
  all_goals decide

lemma tame_sumOf {code : String → String} (hbase : weight base.toList + 3 ≤ m) (hp : '\x7b' ∉ base.toList)
    (hn : 2 * n ≤ m) (hcode : ∀ v : String, Tame m v.toList → Tame m (code v).toList) :
    Tame m (sumOf base n code).toList := by
  refine tame_join fun t ht => ?_
  obtain ⟨i, hi, rfl⟩ := mem_map.mp ht
  have hlt := mem_range.mp hi
  exact hcode _ (tame_term hbase hp (by omega))

lemma tame_combination {index : String} (h : combination index key base multi = .ok text)
    (hn : copies multi = .ok n) (hbase : weight base.toList + 3 ≤ m) (hp : '\x7b' ∉ base.toList)
    (hc : 2 * (n + multi.text.length) ≤ m) (hm : 40 ≤ m) : Tame m text.toList := by
  obtain ⟨n', hn', htext⟩ := combination_cases h
  obtain rfl : n' = n := ok.inj (hn'.symm.trans hn)
  have hle : 2 * n' ≤ m := by omega
  rcases htext with rfl | rfl | rfl
  · exact tame_sumOf hbase hp hle fun v hv => hv
  · have hs : ("(" ++ sumOf base n' id ++ ") / " ++ multi.text).toList =
        '(' :: ((sumOf base n' id).toList ++ ')' :: ' ' :: '/' :: ' ' :: multi.text.toList) := by
      simp
    rw [hs]
    have ht : Tame m multi.text.toList := tame_short (by rw [String.length_toList]; omega) (brace_not_mem_copies hn)
    refine Tame.cons (Tame.append (tame_sumOf hbase hp hle fun v hv => hv)
      (Tame.cons (Tame.cons (Tame.cons ht ?_ ?_) ?_ ?_) ?_ ?_) ?_ ?_) ?_ ?_
    all_goals decide
  · have hs : ("-2.5*math.log10(" ++ sumOf base n' (fun v => "10**(-" ++ v ++ "/2.5)") ++ ")").toList =
        "-2.5*math.log10".toList ++ '(' ::
          ((sumOf base n' (fun v => "10**(-" ++ v ++ "/2.5)")).toList ++ ')' :: []) := by
      simp
    rw [hs]
    have hhead : Tame m "-2.5*math.log10".toList := tame_short (Nat.le_trans (by decide) hm) (by decide)
    refine Tame.append hhead (Tame.append (tame_sumOf hbase hp hle fun v hv => tame_flux hm hv)
      (tame_nil m) ?_ ?_) ?_ ?_
    all_goals decide

end GridBayes.Deferred
