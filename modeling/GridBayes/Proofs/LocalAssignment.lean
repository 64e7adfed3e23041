import GridBayes.Proofs.ComponentOrder

/-! Local variables and their assignments. A key whose code is generated has a local variable for its value. The
code is assigned once for each key that brings it: the key itself, and every key that is had from it by a prefix. -/
namespace GridBayes.Deferred
open List Operation Resolution Builder

/-! ## Counting in blocks -/

lemma countP_eq_one_iff_of_nodup {α : Type} {p : α → Bool} {l : List α} {x : α} (hl : l.Nodup) (hx : x ∈ l)
    (hp : p x = true) : l.countP p = 1 ↔ ∀ y ∈ l, p y = true → y = x := by
  have hmem : x ∈ l.filter p := mem_filter.mpr ⟨hx, hp⟩
  rw [countP_eq_length_filter]
  constructor
  · intro hone y hy hpy
    obtain ⟨z, hz⟩ := length_eq_one_iff.mp hone
    have hmem' : y ∈ l.filter p := mem_filter.mpr ⟨hy, hpy⟩
    rw [hz, mem_singleton] at hmem hmem'
    rw [hmem, hmem']
  · intro hall
    have hperm : (l.filter p).Perm [x] := by
      refine (perm_ext_iff_of_nodup (hl.filter p) (nodup_singleton x)).mpr fun y => ?_
      rw [mem_filter, mem_singleton]
      constructor
      · rintro ⟨hy, hpy⟩
        exact hall y hy hpy
      · rintro rfl
        exact ⟨hx, hp⟩
    exact hperm.length_eq

/-- An item stands once in some blocks if no other place in them has one like it. -/
lemma countP_flatMap_eq_one_iff {α β : Type} {f : α → List β} {as : List α} (has : as.Nodup)
    (hf : ∀ a ∈ as, (f a).Nodup) {p : β → Bool} {a : α} {b : β} (ha : a ∈ as) (hb : b ∈ f a) (hp : p b = true) :
    (as.flatMap f).countP p = 1 ↔ ∀ a' ∈ as, ∀ b' ∈ f a', p b' = true → a' = a ∧ b' = b := by
  -- The places are numbered by the blocks they are in, so that no place is met twice.
  have hpl : (as.flatMap fun a => (f a).map (Prod.mk a)).Nodup := by
    refine nodup_flatMap.mpr ⟨fun a ha => (hf a ha).map (Prod.mk_right_injective a), ?_⟩
    refine has.imp fun {x y} hne => ?_
    rintro place hx hy
    obtain ⟨b, -, rfl⟩ := mem_map.mp hx
    obtain ⟨b', -, heq⟩ := mem_map.mp hy
    exact hne (Prod.mk.inj heq).1.symm
  have hi : as.flatMap f = (as.flatMap fun a => (f a).map (Prod.mk a)).map Prod.snd := by
    rw [map_flatMap]
    simp
  have hpla : (a, b) ∈ as.flatMap fun a => (f a).map (Prod.mk a) := mem_flatMap.mpr ⟨a, ha, mem_map_of_mem hb⟩
  rw [hi, countP_map, countP_eq_one_iff_of_nodup hpl hpla hp]
  constructor
  · intro h a' ha' b' hb' hp'
    exact Prod.mk.inj (h (a', b') (mem_flatMap.mpr ⟨a', ha', mem_map_of_mem hb'⟩) hp')
  · intro h place hmem hp'
    obtain ⟨a', ha', hmem⟩ := mem_flatMap.mp hmem
    obtain ⟨b', hb', rfl⟩ := mem_map.mp hmem
    obtain ⟨rfl, rfl⟩ := h a' ha' b' hb' hp'
    rfl

/-! ## Keys with a local variable -/

namespace Sources

variable {src : Sources} {k b : Key} {d : Definition}

def HasLocal (src : Sources) (k : Key) : Prop :=
  ∃ d, src.definition k = .ok d ∧ (d.isCode = true ∨ d.transform.isSome = true)

instance (src : Sources) (k : Key) : Decidable (src.HasLocal k) :=
  decidable_of_iff ((src.definition k).toOption.any fun d => d.isCode || d.transform.isSome) (by
    unfold HasLocal
    cases src.definition k <;> simp [Except.toOption])

lemma value_of_local (hl : Yields Listed src.library) (hd : src.definition k = .ok d)
    (hlo : d.isCode = true ∨ d.transform.isSome = true) (filled : String) : d.value k filled = localOf k.text := by
  unfold Definition.value Definition.baseValue
  cases ht : d.transform with
  | some function => rfl
  | none =>
    have hcode : d.isCode = true := by simpa [ht] using hlo
    rw [hcode, base_eq hl hd ht]
    rfl

lemma HasLocal.exists_code (hl : Yields Listed src.library) (h : src.HasLocal k) :
    ∃ c ∈ src.generatedBy k, c.key = k := by
  obtain ⟨d, hd, hlo⟩ := h
  exact (Stands.own hd hlo).generated hl

lemma nodup_generatedBy (hl : Yields Listed src.library) (k : Key) : (src.generatedBy k).Nodup := by
  cases hd : src.definition k with
  | error e =>
    unfold generatedBy
    rw [hd]
    exact nodup_nil
  | ok d =>
    rw [generatedBy_eq hd]
    unfold Definition.generated
    cases hcode : d.isCode with
    | false => cases d.transform <;> simp
    | true =>
      cases ht : d.transform with
      | none => simp
      | some function =>
        have hne := base_ne_of_transform hl hd hcode hd ht
        simp only [↓reduceIte, cons_append, nil_append, nodup_cons, mem_singleton,
          not_mem_nil, not_false_eq_true, nodup_nil, and_true]
        intro heq
        exact hne (congrArg Generated.key heq)

variable {grid : Grid} {function : String}

lemma HasLocal.not_input (h : src.HasLocal b) (ht : src.Through k b grid function) : b.name ∉ grid.inputs := by
  obtain ⟨hp, hk, hn⟩ := ht.named
  obtain ⟨d, hd, hl⟩ := h
  cases origin_of_definition hd with
  | override _ hw => simp [hw] at hl
  | composite _ hi hworded => cases (hp _ hi).symm.trans hworded
  | grid _ _ hk' _ _ hw =>
    obtain rfl := hk.unique hk'
    simpa [hw, gridWording] using hl
  | transform ht' =>
    obtain rfl := hk.unique ht'.known
    exact absurd hn ht'.unnamed

lemma HasLocal.brings_iff (hl : Yields Listed src.library) (h : src.HasLocal b) (hne : k ≠ b)
    (hd : src.definition k = .ok d) :
    (∃ c ∈ src.generatedBy k, c.key = b) ↔ ∃ grid function, src.Through k b grid function := by
  constructor
  · rintro ⟨c, hc, hkey⟩
    obtain ⟨grid, function, ht, -⟩ := through_of_generatedBy_ne hl hc hkey hne
    exact ⟨grid, function, ht⟩
  · rintro ⟨grid, function, ht⟩
    obtain ⟨-, hg⟩ := generated_through hl ht hd (d.filled src.meaning)
    refine ⟨⟨b.grid, b.index, b.name, d.filled src.meaning⟩, ?_, rfl⟩
    rw [generatedBy_eq hd, hg, if_neg (h.not_input ht)]
    simp

end Sources

lemma Knows.count_local_eq_one_iff {src : Sources} {ks : List Key} {t : Resolution} (h : Knows src ks t)
    (hl : Yields Listed src.library) {k : Key} (hk : k ∈ ks) (hlo : src.HasLocal k) (hgrid : k.grid ≠ none) :
    t.components.countP (fun c => "v." ++ c.key.localName == localOf k.text) = 1 ↔
      (∀ k' ∈ ks, ∀ grid function, ¬ src.Through k' k grid function) ∧
        ∀ c ∈ t.components, "v." ++ c.key.localName = localOf k.text → c.key = k := by
  obtain ⟨own, hown, hkey⟩ := hlo.exists_code hl
  have hname : "v." ++ own.key.localName = localOf k.text := by
    rw [hkey]
    exact (h.written k hk).spelled.assigned_iff.mpr hgrid
  rw [h.components, countP_flatMap_eq_one_iff h.distinct (fun k' _ => Sources.nodup_generatedBy hl k') hk
    hown (by simpa using hname)]
  simp only [beq_iff_eq, mem_flatMap]
  constructor
  · intro hone
    refine ⟨fun k' hk' grid function ht => ?_, ?_⟩
    · have hne : k' ≠ k := by
        rintro rfl
        exact ht.unnamed ht.named.2.2
      obtain ⟨d, hd⟩ := h.definition hk'
      obtain ⟨c, hc, hckey⟩ := (hlo.brings_iff hl hne hd).mpr ⟨grid, function, ht⟩
      have hcn : "v." ++ c.key.localName = localOf k.text := by rw [hckey.trans hkey.symm, hname]
      exact hne (hone k' hk' c hc hcn).1
    · rintro c ⟨k', hk', hc⟩ hcn
      rw [(hone k' hk' c hc hcn).2, hkey]
  · rintro ⟨ht, hcl⟩ k' hk' c hc hcn
    have hckey := hcl c ⟨k', hk', hc⟩ hcn
    refine ⟨?_, Sources.generated_unique hl hc hown (hckey.trans hkey.symm)⟩
    by_contra hne
    obtain ⟨d, hd⟩ := h.definition hk'
    obtain ⟨grid, function, hp⟩ := (hlo.brings_iff hl hne hd).mp ⟨c, hc, hckey⟩
    exact ht k' hk' grid function hp

/-! ## Assignments of the code -/

variable {cs : List Generated} {added : List DeferredAssignment}

lemma generated_of_pushes {b b' : Builder} (hs : ∀ c ∈ cs, c.key.Spelled)
    (hpush : (cs.forM push).run.run b = (.ok (), b')) :
    ∃ added, b'.generated = b.generated ++ added ∧ Forall₂ (fun c a => a.var = "v." ++ c.key.localName) cs added := by
  obtain ⟨added, had, said, used, rfl⟩ := (follows_pushes cs b).of_outcome hpush
  refine ⟨added, rfl, ?_⟩
  have hall := mapM_eq_ok.mp had
  clear hpush had
  induction hall with
  | nil => exact .nil
  | cons ha _ ih =>
    refine .cons (var_of_assignmentFor (hs _ mem_cons_self) ha) ?_
    exact ih fun c hc => hs c (mem_cons_of_mem _ hc)

lemma vars_of_forall₂ (h : Forall₂ (fun c a => a.var = "v." ++ c.key.localName) cs added) :
    added.map (·.var) = cs.map fun c => "v." ++ c.key.localName := by
  induction h with
  | nil => rfl
  | cons ha _ ih => rw [map_cons, map_cons, ha, ih]

lemma forall₂_var_iff (h : Forall₂ (fun c a => a.var = "v." ++ c.key.localName) cs added) (k : Key) (name : String) :
    Forall₂ (fun c a => c.key = k → a.var = name) cs added ↔ ∀ c ∈ cs, c.key = k → "v." ++ c.key.localName = name := by
  induction h with
  | nil => simp
  | cons ha _ ih => rw [forall₂_cons, forall_mem_cons, ih, ha]

/-- The local variable of a key with code is its value. It is assigned once, by that code, exactly if the key is one
of a grid, no key asked for or led to is had from it by a prefix, and no other key's code goes to a variable spelled
the same. -/
theorem local_assigned_once_iff (w : Session) (overrides multiplicity : List (String × Value))
    (names : List String) (agenda : Agenda) (b b' : Builder)
    (hrun : ((resolveAll names agenda).run.run (start w.library overrides multiplicity)).1 = .ok ())
    (hpush : (((resolveAll names agenda).run.run (start w.library overrides multiplicity)).2.components.forM
      Builder.push).run.run b = (.ok (), b')) :
    let src := (start w.library overrides multiplicity).toSources
    let t := ((resolveAll names agenda).run.run (start w.library overrides multiplicity)).2
    ∃ added, b'.generated = b.generated ++ added ∧
      List.Forall₂ (fun c a => a.var = "v." ++ c.key.localName) t.components added ∧
      ∀ k, src.Asked names k → src.HasLocal k →
        t.values.lookup k.text = some (localOf k.text) ∧ (∃ c ∈ t.components, c.key = k) ∧
        ((added.map (·.var)).count (localOf k.text) = 1 ∧
            List.Forall₂ (fun c a => c.key = k → a.var = localOf k.text) t.components added ↔
          k.grid ≠ none ∧ (∀ k', src.Asked names k' → ∀ grid function, ¬ src.Through k' k grid function) ∧
            ∀ c ∈ t.components, "v." ++ c.key.localName = localOf k.text → c.key = k) := by
  intro src t
  have hl : Yields Listed src.library := listed_library w
  obtain ⟨ks, hkn, ha⟩ := knows_of_run hrun
  have hs : ∀ c ∈ t.components, c.key.Spelled := by
    intro c hc
    rw [hkn.components] at hc
    obtain ⟨k, hk, hc⟩ := List.mem_flatMap.mp hc
    exact spelled_of_generatedBy hl (hkn.written k hk) hc
  obtain ⟨added, hg, hvars⟩ := generated_of_pushes hs hpush
  refine ⟨added, hg, hvars, fun k hk hlo => ?_⟩
  have hmem : k ∈ ks := (ha k).mpr hk
  obtain ⟨own, hown, hkey⟩ := hlo.exists_code hl
  have hcode : own ∈ t.components := by
    rw [hkn.components]
    exact List.mem_flatMap.mpr ⟨k, hmem, hown⟩
  have hco : (added.map (·.var)).count (localOf k.text) =
      t.components.countP (fun c => "v." ++ c.key.localName == localOf k.text) := by
    rw [vars_of_forall₂ hvars, List.count_eq_countP, List.countP_map]
    rfl
  refine ⟨?_, ⟨own, hcode, hkey⟩, ?_⟩
  · obtain ⟨d, hd, -, hv, -⟩ := hkn.recorded hmem
    obtain ⟨d', hd', hhas⟩ := hlo
    obtain rfl := Except.ok.inj (hd.symm.trans hd')
    rw [hv, Sources.value_of_local hl hd hhas]
  · have hs : "v." ++ k.localName = localOf k.text ↔ k.grid ≠ none := (hkn.written k hmem).spelled.assigned_iff
    have hn : List.Forall₂ (fun c a => c.key = k → a.var = localOf k.text) t.components added ↔ k.grid ≠ none := by
      rw [forall₂_var_iff hvars, ← hs]
      constructor
      · intro hall
        rw [← hall own hcode hkey, hkey]
      · rintro hname c - rfl
        exact hname
    have ha : ∀ k', src.Asked names k' ↔ k' ∈ ks := fun k' => (ha k').symm
    rw [hco, hn, and_comm]
    refine and_congr_right fun hgrid => ?_
    simp only [ha]
    exact hkn.count_local_eq_one_iff hl hmem hlo hgrid

/-! An output of a grid is asked for as it is and through its logarithm. -/

def lineBuilder : Builder where
  library := lineSession.library

lemma resolveAll_logarithm :
    ((resolveAll ["t.y", "t.log_y"] backwards).run.run (start lineSession.library [] [])).1 = .ok () ∧
    ((resolveAll ["t.y", "t.log_y"] backwards).run.run
      (start lineSession.library [] [])).2.values.lookup "t__y" = some "v.t__y" ∧
    ((resolveAll ["t.y", "t.log_y"] backwards).run.run (start lineSession.library [] [])).2.components =
      [⟨some "t", none, "y", "c.grid__t__y._interp1d(p.x)"⟩, ⟨some "t", none, "log_y", "math.log10(v.t__y)"⟩,
        ⟨some "t", none, "y", "c.grid__t__y._interp1d(p.x)"⟩] := by
  decide +kernel

lemma pushes_logarithm : ∃ b', (((resolveAll ["t.y", "t.log_y"] backwards).run.run
    (start lineSession.library [] [])).2.components.forM push).run.run lineBuilder = (.ok (), b') ∧
      b'.generated.map (·.var) = ["v.t__y", "v.t__log_y", "v.t__y"] := by
  rw [resolveAll_logarithm.2.2]
  unfold lineBuilder
  exact ⟨_, Prod.ext (by decide +kernel) rfl, by decide +kernel⟩

theorem local_assigned_once_logarithm : ∃ b', (((resolveAll ["t.y", "t.log_y"] Builder.backwards).run.run
      (start Builder.lineSession.library [] [])).2.components.forM Builder.push).run.run lineBuilder = (.ok (), b') ∧
    (b'.generated.map (·.var)).count "v.t__log_y" = 1 := by
  obtain ⟨hok, -, hc⟩ := resolveAll_logarithm
  obtain ⟨b', hpush, -⟩ := pushes_logarithm
  have ha : (start Builder.lineSession.library [] []).toSources.Asked ["t.y", "t.log_y"] ⟨some "t", "log_y", none⟩ :=
    ⟨"t__log_y", by decide +kernel, _, by decide +kernel, .refl⟩
  have hh : (start Builder.lineSession.library [] []).toSources.HasLocal ⟨some "t", "log_y", none⟩ := by
    decide +kernel
  obtain ⟨added, hg, -, hl⟩ := local_assigned_once_iff Builder.lineSession [] [] ["t.y", "t.log_y"]
    Builder.backwards lineBuilder b' hok hpush
  have hlo : localOf (Key.text ⟨some "t", "log_y", none⟩) = "v.t__log_y" := by decide +kernel
  obtain ⟨-, -, honce⟩ := hl _ ha hh
  rw [hlo, hc] at honce
  refine ⟨b', hpush, ?_⟩
  rw [hg]
  refine (honce.mpr ⟨by simp, fun k' _ grid function ht => ?_, by decide +kernel⟩).1
  obtain ⟨-, hk, hn⟩ := ht.named
  rw [grid_line hk] at hn
  exact absurd hn (by decide)

/-- The variable is assigned for the output and for its logarithm. -/
theorem local_assigned_twice :
    ((resolveAll ["t.y", "t.log_y"] Builder.backwards).run.run (start Builder.lineSession.library [] [])).1 = .ok () ∧
    ((resolveAll ["t.y", "t.log_y"] Builder.backwards).run.run
      (start Builder.lineSession.library [] [])).2.values.lookup "t__y" = some "v.t__y" ∧
    ∃ b', (((resolveAll ["t.y", "t.log_y"] Builder.backwards).run.run
      (start Builder.lineSession.library [] [])).2.components.forM Builder.push).run.run lineBuilder = (.ok (), b') ∧
      (b'.generated.map (·.var)).count "v.t__y" = 2 := by
  obtain ⟨hok, hv, -⟩ := resolveAll_logarithm
  obtain ⟨b', hpush, hvars⟩ := pushes_logarithm
  refine ⟨hok, hv, b', hpush, ?_⟩
  rw [hvars]
  decide

end GridBayes.Deferred
