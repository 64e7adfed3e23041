import GridBayes.Cache
import GridBayes.Proofs.BlockLayout
import GridBayes.Proofs.StableSort

/-! Cleaning up the folder of compiled models. A pattern that ends in a star fits the names that start with the rest of
it, and hashes have one length, so the files of a module are those with its hash. Sorted by their last use, the modules
to remove are those that enough others were used after. -/
namespace GridBayes
open List Operation

namespace Glob

/-- The character stands for itself in a pattern and does not part the steps of a path. -/
def isLiteral (c : Char) : Bool :=
  ['*', '?', '[', '/'].all (· != c)

variable {cs : List Char}

lemma partsFrom_literal (h : ∀ c ∈ cs, isLiteral c = true) (rest : List Char) :
    partsFrom 0 (cs ++ rest) = cs.map .char ++ partsFrom 0 rest := by
  induction cs with
  | nil => rfl
  | cons c cs ih =>
    obtain ⟨hc, hcs⟩ := forall_mem_cons.mp h
    rw [cons_append, map_cons, cons_append, ← ih hcs]
    refine partsFrom.eq_6 c (cs ++ rest) ?_ ?_ ?_ <;> rintro rfl <;> exact absurd hc (by decide)

lemma hasDoubleStar_literal (h : ∀ c ∈ cs, isLiteral c = true) : hasDoubleStar (cs ++ ['*']) = false := by
  induction cs with
  | nil => rfl
  | cons c cs ih =>
    obtain ⟨hc, hcs⟩ := forall_mem_cons.mp h
    rw [← ih hcs]
    refine hasDoubleStar.eq_2 c _ fun _ hstar _ => ?_
    subst hstar
    exact absurd hc (by decide)

lemma covers_literal (cs name : List Char) : covers (cs.map .char ++ [.any]) name = true ↔ cs <+: name := by
  induction cs generalizing name with
  | nil =>
    have hany : covers [.any] name = true := by induction name <;> simp_all [covers, someEnd]
    simp [hany]
  | cons c cs ih =>
    cases name with
    | nil => simp [covers]
    | cons d name => simp [covers, ih, eq_comm (a := d)]

lemma ofText_start {start : String} (h : ∀ c ∈ start.toList, isLiteral c = true) :
    ∃ g, ofText (start ++ "*") = .ok g ∧ ∀ name, g.fits name = true ↔ start.toList <+: name.toList := by
  have htext : (start ++ "*").toList = start.toList ++ ['*'] := String.toList_append
  have hsplit : Text.splitAt '/' (start ++ "*") = [start ++ "*"] := by
    unfold Text.splitAt
    rw [Text.splitChars_self, map_singleton, String.ofList_toList]
    intro c hc
    rw [htext, mem_append, mem_singleton] at hc
    rcases hc with hc | rfl
    · rw [beq_eq_false_iff_ne]
      rintro rfl
      exact absurd (h _ hc) (by decide)
    · rfl
  have hne (t : String) (ht : t.toList.getLast? ≠ some '*') : start ++ "*" ≠ t := by
    rintro rfl
    exact ht (by rw [htext, getLast?_concat])
  refine ⟨partsFrom 0 (start ++ "*").toList, ?_, fun name => ?_⟩
  · unfold ofText
    simp [hsplit, hasDoubleStar_literal h, hne "." (by decide)]
  · rw [htext, partsFrom_literal h]
    exact covers_literal _ _

end Glob

namespace Cache

/-! ## What a clean-up leaves -/

/-- The module may go: it is not excluded and was last used too long ago. -/
def isStale (c : Cache) (p : CleanupPolicy) (m : CachedFile) : Bool :=
  m.isModule && !p.exclude.contains m.hash && decide (p.staleAfter < c.age m)

def usedAfter (a b : CachedFile) : Bool :=
  decide (b.accessed < a.accessed) || (a.accessed == b.accessed && decide (a.hash < b.hash))

/-- How many modules that may go were used after the given one. -/
def rank (c : Cache) (p : CleanupPolicy) (m : CachedFile) : Nat :=
  (c.files.filter (c.isStale p)).countP (usedAfter · m)

/-- How many of the modules that may go stay. -/
def spared (c : Cache) (p : CleanupPolicy) : Nat :=
  if 0 ≤ p.keep then p.keep.toNat else c.files.countP (c.isStale p) - (-p.keep).toNat

def ofHash (f : CachedFile) (hash : String) : Bool :=
  "sl_gen_".toList.isPrefixOf f.name.toList && hash == f.hash

/-- The file belongs to a module that may go and is not among those used last. -/
def removes (c : Cache) (p : CleanupPolicy) (f : CachedFile) : Bool :=
  f.isRemovable && c.files.any fun m => c.isStale p m && decide (c.spared p ≤ c.rank p m) && ofHash f m.hash

def IsHash (hash : String) : Prop :=
  hash.toList.length = 40 ∧ hash.toList.all Glob.isLiteral = true

/-- Modules are named by hashes, each by its own. -/
structure Hashed (c : Cache) : Prop where
  named : ∀ m ∈ c.files, m.isModule = true → IsHash m.hash
  distinct : ((c.files.filter CachedFile.isModule).map CachedFile.hash).Nodup

/-! ## Modules in the order of their last use -/

lemma mem_drop_iff_countP {α : Type} {ahead : α → α → Bool} (hasymm : ∀ a b, ahead a b = true → ahead b a = false)
    {l : List α} (hl : l.Pairwise fun a b => ahead a b = true) (n : Nat) (x : α) :
    x ∈ l.drop n ↔ x ∈ l ∧ n ≤ l.countP (ahead · x) := by
  induction l generalizing n with
  | nil => simp
  | cons a l ih =>
    obtain ⟨ha, hl⟩ := pairwise_cons.mp hl
    cases n with
    | zero => simp
    | succ n =>
      rw [drop_succ_cons, ih hl, mem_cons, countP_cons]
      by_cases hx : x ∈ l
      · simp [hx, ha x hx]
      · refine iff_of_false (fun h => hx h.1) ?_
        rintro ⟨rfl | hmem, hle⟩
        · -- the first element is ahead of all others
          have hnone : l.countP (ahead · x) = 0 := countP_eq_zero.mpr fun b hb => by simp [hasymm x b (ha b hb)]
          have hself : ahead x x = false := Bool.eq_false_iff.mpr fun h => by simp [hasymm x x h] at h
          rw [hnone, hself] at hle
          simp at hle
        · exact hx hmem

def ahead (a b : Int × String) : Bool :=
  decide (a.1 < b.1) || (a.1 == b.1 && decide (a.2 < b.2))

lemma ahead_asymm (a b : Int × String) (h : ahead a b = true) : ahead b a = false := by
  simp only [ahead, Bool.or_eq_true, Bool.and_eq_true, decide_eq_true_eq, beq_iff_eq, Bool.or_eq_false_iff,
    decide_eq_false_iff_not, Bool.and_eq_false_imp] at h ⊢
  rcases h with h | ⟨h, hlt⟩
  · exact ⟨by omega, fun heq => by omega⟩
  · exact ⟨by omega, fun _ hgt => String.lt_irrefl _ (String.lt_trans hlt hgt)⟩

lemma ahead_of_precedes {a b : Int × String} (h : precedes a b = true) (hne : a.2 ≠ b.2) : ahead a b = true := by
  simp only [precedes, ahead, Bool.or_eq_true, Bool.and_eq_true, decide_eq_true_eq, Text.le_iff] at h ⊢
  exact h.imp_right fun h => ⟨h.1, String.not_le.mp fun hge => hne (String.le_antisymm h.2 hge)⟩

variable {c : Cache} (p : CleanupPolicy)

lemma pairwise_candidates (hd : ((c.files.filter CachedFile.isModule).map CachedFile.hash).Nodup) :
    (c.candidates p).Pairwise fun a b => ahead a b = true := by
  have hsub : (c.files.filter (c.isStale p)).Sublist (c.files.filter CachedFile.isModule) :=
    monotone_filter_right _ fun m hm => (Bool.and_eq_true_iff.mp (Bool.and_eq_true_iff.mp hm).1).1
  have hnodup : ((c.candidates p).map Prod.snd).Nodup := by
    refine ((mergeSort_perm _ _).map Prod.snd).nodup_iff.mpr ?_
    rw [map_map]
    exact (hsub.map CachedFile.hash).nodup hd
  have hsorted : (c.candidates p).Pairwise fun a b => precedes a b = true := by
    refine pairwise_mergeSort (fun a b d hab hbd => ?_) (fun a b => ?_) _
    · simp only [precedes, Bool.or_eq_true, Bool.and_eq_true, decide_eq_true_eq, beq_iff_eq, Text.le_iff] at *
      rcases hab with hab | ⟨hab, hle⟩ <;> rcases hbd with hbd | ⟨hbd, hle'⟩
      · exact .inl (by omega)
      · exact .inl (by omega)
      · exact .inl (by omega)
      · exact .inr ⟨by omega, String.le_trans hle hle'⟩
    · simp only [precedes, Bool.or_eq_true, Bool.and_eq_true, decide_eq_true_eq, beq_iff_eq, Text.le_iff]
      grind
  exact (hsorted.and (pairwise_map.mp hnodup)).imp fun h => ahead_of_precedes h.1 h.2

lemma ahead_key (a b : CachedFile) : ahead (c.age a, a.hash) (c.age b, b.hash) = usedAfter a b := by
  have hlt : c.age a < c.age b ↔ b.accessed < a.accessed := by
    unfold age
    omega
  have heq : c.age a = c.age b ↔ a.accessed = b.accessed := by
    unfold age
    omega
  simp only [ahead, usedAfter, hlt, Bool.beq_eq_decide_eq, heq]

lemma mem_condemned (h : c.Hashed) (hash : String) : hash ∈ c.condemned p ↔
    ∃ m ∈ c.files, c.isStale p m = true ∧ c.spared p ≤ c.rank p m ∧ m.hash = hash := by
  have hperm : (c.candidates p).Perm ((c.files.filter (c.isStale p)).map fun m => (c.age m, m.hash)) :=
    mergeSort_perm _ _
  have hdrop : dropFrom p.keep (c.candidates p) = (c.candidates p).drop (c.spared p) := by
    unfold dropFrom spared
    rw [hperm.length_eq, length_map, countP_eq_length_filter]
    split <;> rfl
  have hrank (m : CachedFile) : (c.candidates p).countP (ahead · (c.age m, m.hash)) = c.rank p m := by
    rw [hperm.countP_eq, countP_map]
    exact countP_congr fun m' _ => by simp [ahead_key]
  unfold condemned
  simp only [hdrop, mem_map, mem_drop_iff_countP ahead_asymm (pairwise_candidates p h.distinct), hperm.mem_iff,
    mem_filter]
  constructor
  · rintro ⟨_, ⟨⟨m, ⟨hm, hs⟩, rfl⟩, hle⟩, rfl⟩
    exact ⟨m, hm, hs, hrank m ▸ hle, rfl⟩
  · rintro ⟨m, hm, hs, hle, rfl⟩
    exact ⟨_, ⟨⟨m, ⟨hm, hs⟩, rfl⟩, hrank m ▸ hle⟩, rfl⟩

/-! ## Files of a hash -/

lemma prefix_stemOf_iff {hash : String} (hl : hash.toList.length = 40) (f : CachedFile) :
    (CachedFile.stemOf hash).toList <+: f.name.toList ↔ ofHash f hash = true := by
  have hstem : (CachedFile.stemOf hash).toList = "sl_gen_".toList ++ hash.toList := String.toList_append
  have hhash (rest : List Char) (hr : "sl_gen_".toList ++ rest = f.name.toList) :
      hash = f.hash ↔ hash.toList <+: rest := by
    have hdrop : ("sl_gen_".toList ++ rest).drop 7 = rest := drop_left' (by decide)
    rw [CachedFile.hash, Text.takeFirst, Text.dropFirst, String.toList_ofList, ← hr, hdrop, prefix_iff_eq_take, hl,
      ← String.toList_inj, String.toList_ofList]
  simp only [ofHash, Bool.and_eq_true, beq_iff_eq, isPrefixOf_iff_prefix]
  constructor
  · rintro ⟨more, hmore⟩
    rw [hstem] at hmore
    exact ⟨⟨_, hmore⟩, (hhash _ hmore).mpr (prefix_append _ _)⟩
  · rintro ⟨⟨rest, hrest⟩, heq⟩
    rw [hstem, ← hrest, prefix_append_right_inj]
    exact (hhash rest hrest).mp heq

lemma without_eq {hash : String} (h : IsHash hash) (c : Cache) :
    c.without hash = .ok { c with files := c.files.filter fun f => !(f.isRemovable && ofHash f hash) } := by
  have hstem : (CachedFile.stemOf hash).toList.all Glob.isLiteral = true := by
    rw [CachedFile.stemOf, String.toList_append, all_append, h.2]
    decide
  obtain ⟨g, hg, hfits⟩ := Glob.ofText_start (all_eq_true.mp hstem)
  unfold without
  rw [hg]
  refine congrArg (fun fs => Except.ok (⟨fs, c.now⟩ : Cache)) (filter_congr fun f _ => ?_)
  rw [Bool.and_comm, show g.fits f.name = ofHash f hash from
    Bool.eq_iff_iff.mpr ((hfits _).trans (prefix_stemOf_iff h.1 f))]

lemma outcome_removeAll {hashes : List String} (h : ∀ x ∈ hashes, IsHash x) (c : Cache) : outcome (removeAll hashes) c =
      (.ok (), { c with files := c.files.filter fun f => !(f.isRemovable && hashes.any (ofHash f)) }) := by
  induction hashes generalizing c with
  | nil =>
    have hall : (c.files.filter fun f => !(f.isRemovable && [].any (ofHash f))) = c.files := by simp
    rw [hall]
    rfl
  | cons hash rest ih =>
    obtain ⟨hhash, hrest⟩ := forall_mem_cons.mp h
    have hstep : outcome (removeAll (hash :: rest)) c = outcome (removeAll rest)
        { c with files := c.files.filter fun f => !(f.isRemovable && ofHash f hash) } := by
      rw [removeAll, outcome_bind_ok (outcome_get c), without_eq hhash]
      rfl
    rw [hstep, ih hrest, filter_filter]
    refine congrArg (fun fs => (Except.ok (), (⟨fs, c.now⟩ : Cache))) (filter_congr fun f _ => ?_)
    rw [any_cons]
    cases f.isRemovable <;> cases ofHash f hash <;> simp

/-- A clean-up removes the files of the modules that may go and are not among those used last, and nothing else. -/
theorem cleanup_removes_exactly (h : c.Hashed) : (cleanup p).run.run c =
    (.ok (), { c with files := c.files.filter fun f => !c.removes p f }) := by
  have hok : ∀ x ∈ c.condemned p, IsHash x := by
    intro x hx
    obtain ⟨m, hm, hs, -, rfl⟩ := (mem_condemned p h x).mp hx
    exact h.named m hm (Bool.and_eq_true_iff.mp (Bool.and_eq_true_iff.mp hs).1).1
  have hrun : (cleanup p).run.run c = outcome (removeAll (c.condemned p)) c := rfl
  rw [hrun, outcome_removeAll hok]
  refine congrArg (fun fs => (Except.ok (), (⟨fs, c.now⟩ : Cache))) (filter_congr fun f _ => ?_)
  have hany : (c.condemned p).any (ofHash f) =
      c.files.any fun m => c.isStale p m && decide (c.spared p ≤ c.rank p m) && ofHash f m.hash := by
    rw [Bool.eq_iff_iff]
    simp only [any_eq_true, mem_condemned p h, Bool.and_eq_true, decide_eq_true_eq]
    constructor
    · rintro ⟨_, ⟨m, hm, hs, hr, rfl⟩, hf⟩
      exact ⟨m, hm, ⟨hs, hr⟩, hf⟩
    · rintro ⟨m, hm, ⟨hs, hr⟩, hf⟩
      exact ⟨_, ⟨m, hm, hs, hr, rfl⟩, hf⟩
  rw [removes, hany]

/-! Three modules that were last used at different times, of which one is kept, and one that is excluded. -/

def hashOf (letter : Char) : String :=
  String.ofList (List.replicate 40 letter)

def fourModules : Cache where
  files := [⟨CachedFile.stemOf (hashOf 'A') ++ ".so", "", 30⟩, ⟨CachedFile.stemOf (hashOf 'A') ++ ".pyx", "", 90⟩,
    ⟨CachedFile.stemOf (hashOf 'B') ++ ".so", "", 10⟩, ⟨CachedFile.stemOf (hashOf 'C') ++ ".so", "", 20⟩,
    ⟨CachedFile.stemOf (hashOf 'C') ++ ".txt", "", 20⟩, ⟨CachedFile.stemOf (hashOf 'D') ++ ".so", "", 0⟩]
  now := 100

lemma hashed_fourModules : fourModules.Hashed where
  named := by
    unfold IsHash
    decide +kernel
  distinct := by decide +kernel

theorem cleanup_removes_exactly_fourModules : ∃ left,
    (cleanup ⟨[hashOf 'D'], 1, 50⟩).run.run fourModules = (.ok (), left) ∧ left.files.map (·.accessed) = [30, 90, 20, 0] :=
  ⟨_, cleanup_removes_exactly _ hashed_fourModules, by decide +kernel⟩

end Cache

end GridBayes
