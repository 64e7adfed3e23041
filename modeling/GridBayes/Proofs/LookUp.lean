import GridBayes.Deferred.Resolution
import GridBayes.Proofs.Visits

/-! Looking up keys. A look-up finds the meaning of every key that has one, whatever was looked up
before, and it is refused for a reason: a key it comes to has no definition, or leads back to
itself. Keys are never looked up so deep that the limit on the depth is felt. -/
namespace GridBayes.Deferred
open List Relation Operation Resolution

/-! ## What a look-up knows -/

/-- The state of a look-up in which the keys `ks` have got their values, in this order. -/
structure Knows (src : Sources) (ks : List Key) (s : Resolution) : Prop where
  written : ∀ k ∈ ks, k.Written
  distinct : ks.Nodup
  meaningful : ∀ k ∈ ks, src.Meaningful k
  closed : ∀ k ∈ ks, ∀ k', src.Depends k k' → k' ∈ ks
  sources : s.toSources = src
  values : s.values = ks.map fun k => (k.text, src.meaning k)
  components : s.components = ks.flatMap src.generatedBy

variable {ks : List Key} {k k' : Key} {src : Sources} {s : Resolution} {e : Fault} {fuel : Nat} {name : String}

lemma lookup_map_text (hks : ∀ k ∈ ks, k.Written) (hk : k.Written) (value : Key → String) :
    (ks.map fun k => (k.text, value k)).lookup k.text = if k ∈ ks then some (value k) else none := by
  induction ks with
  | nil => simp
  | cons k' ks ih =>
    rw [map_cons, lookup_cons, ih fun k hk => hks k (mem_cons_of_mem _ hk)]
    by_cases htext : k.text = k'.text
    · obtain rfl := hk.text_inj (hks k' mem_cons_self) htext
      simp
    · have hne : k ≠ k' := fun h => htext (by rw [h])
      have hbeq : (k.text == k'.text) = false := by simpa using htext
      simp [hbeq, hne]

lemma Knows.lookup (h : Knows src ks s) (hk : k.Written) :
    s.values.lookup k.text = if k ∈ ks then some (src.meaning k) else none := by
  rw [h.values]
  exact lookup_map_text h.written hk src.meaning

lemma Knows.extend {t : Resolution} (h : Knows src ks s) {d : Definition} (hk : k.Written) (hnew : k ∉ ks)
    (hd : src.definition k = .ok d) (hkeys : ∀ k' ∈ d.keys, k' ∈ ks) (hs : t.toSources = s.toSources)
    (hv : t.values = setEntry s.values k.text (d.value k (d.filled src.meaning)))
    (hc : t.components = s.components ++ d.generated k (d.filled src.meaning)) : Knows src (ks ++ [k]) t := by
  obtain ⟨hm, hme⟩ := Sources.meaningful_of_keys hd fun k' hk' => h.meaningful k' (hkeys k' hk')
  refine ⟨?_, ?_, ?_, ?_, hs.trans h.sources, ?_, ?_⟩
  · intro k' hk'
    rcases mem_append.mp hk' with hk' | hk'
    · exact h.written k' hk'
    · obtain rfl := mem_singleton.mp hk'
      exact hk
  · exact h.distinct.append (nodup_singleton k) fun x hx hx' => hnew (mem_singleton.mp hx' ▸ hx)
  · intro k' hk'
    rcases mem_append.mp hk' with hk' | hk'
    · exact h.meaningful k' hk'
    · obtain rfl := mem_singleton.mp hk'
      exact hm
  · intro k' hk' k'' hdep
    rcases mem_append.mp hk' with hk' | hk'
    · exact mem_append_left _ (h.closed k' hk' k'' hdep)
    · obtain rfl := mem_singleton.mp hk'
      obtain ⟨d', hd', hmem⟩ := Sources.depends_iff.mp hdep
      cases hd.symm.trans hd'
      exact mem_append_left _ (hkeys k'' hmem)
  · have hnone : s.values.lookup k.text = none := by rw [h.lookup hk, if_neg hnew]
    rw [hv, setEntry_of_lookup_none hnone, h.values, ← hme, map_append]
    rfl
  · rw [hc, h.components, ← Sources.generatedBy_eq hd]
    simp

/-! ## One key -/

def noted (s : Resolution) (d : Definition) : Resolution :=
  { s with graph := setEntry s.graph d.base.text d.node }

def kept (s : Resolution) (k : Key) (d : Definition) (filled : String) : Resolution :=
  { s with
    components := s.components ++ d.generated k filled
    graph :=
      match d.transform with
      | none => s.graph
      | some f => setEntry s.graph k.text ⟨[d.baseValue filled], localOf k.text, d.transformed f filled⟩ }

lemma outcome_define (find : Key → ResolutionM String) (k : Key) (s : Resolution) : outcome (define find k) s =
      match s.definition k with
      | .error e => (.error e, s)
      | .ok d =>
        match outcome (fillPieces find (Text.pieces keyRule d.body.toList)) (noted s d) with
        | (.error e, t) => (.error e, t)
        | (.ok chars, t) =>
          (.ok (d.value k (String.ofList chars)), kept t k d (String.ofList chars)) := by
  unfold define
  rw [outcome_bind_ok (outcome_get s), outcome_bind, outcome_ofExcept]
  cases hd : s.definition k with
  | error e => rfl
  | ok d =>
    dsimp only
    unfold note
    rw [outcome_bind_ok (outcome_modify _ s)]
    unfold fill
    rw [outcome_bind, outcome_bind]
    have hn : ({ s with graph := setEntry s.graph d.base.text d.node } : Resolution) = noted s d := rfl
    rw [hn]
    rcases outcome (fillPieces find (Text.pieces keyRule d.body.toList)) (noted s d) with ⟨r, t⟩
    cases r with
    | error e => rfl
    | ok chars =>
      dsimp only
      unfold kept
      cases ht : d.transform with
      | none => rfl
      | some f => rfl

def pushed (s : Resolution) (k : Key) : Resolution :=
  { s with stack := s.stack ++ [k.text] }

lemma outcome_resolve_known {v : String} (h : s.values.lookup k.text = some v) :
    outcome (resolve (fuel + 1) k) s = (.ok v, s) := by
  rw [resolve, outcome_bind_ok (outcome_get s), h]
  rfl

lemma outcome_resolve_circular (h : s.values.lookup k.text = none) (hs : k.text ∈ s.stack) :
    outcome (resolve (fuel + 1) k) s = (.error (.circularDefinition k.text), s) := by
  rw [resolve, outcome_bind_ok (outcome_get s), h]
  rw [if_pos (contains_iff_mem.mpr hs)]
  rfl

lemma outcome_resolve_new (h : s.values.lookup k.text = none) (hs : k.text ∉ s.stack) :
    outcome (resolve (fuel + 1) k) s = match outcome (define (resolve fuel) k) (pushed s k) with
      | (.error e, t) => (.error e, t)
      | (.ok v, t) => (.ok v, t.settled k.text v) := by
  rw [resolve, outcome_bind_ok (outcome_get s), h]
  rw [if_neg fun hmem => hs (contains_iff_mem.mp hmem)]
  show outcome (set (pushed s k) >>= fun _ => define (resolve fuel) k >>= fun value =>
    modify (fun s => s.settled k.text value) >>= fun _ => pure value) s = _
  rw [outcome_bind_ok (outcome_set (pushed s k) s), outcome_bind]
  rcases outcome (define (resolve fuel) k) (pushed s k) with ⟨r, t⟩
  cases r <;> rfl

lemma erase_pushed {path : List String} {key : String} (h : key ∉ path) : (path ++ [key]).erase key = path := by
  rw [erase_append_right _ h, erase_cons_head, append_nil]

/-- Why a key has no value: a key it leads to has no definition, or leads back to itself. -/
def Sources.Fails (src : Sources) (k : Key) (e : Fault) : Prop :=
  ∃ k', src.Reaches k k' ∧ (src.definition k' = .error e ∨ src.Circular k' ∧ e = .circularDefinition k'.text)

lemma Sources.Fails.of_depends (h : src.Fails k' e) (hdep : src.Depends k k') : src.Fails k e := by
  obtain ⟨k'', hr, hwhy⟩ := h
  exact ⟨k'', ReflTransGen.head hdep hr, hwhy⟩

lemma Sources.Fails.not_grounded (h : src.Fails k e) : ¬ src.Grounded k := by
  intro hg
  obtain ⟨k', hr, he | ⟨hc, -⟩⟩ := h
  · obtain ⟨body, hbody⟩ := hg.defined k' hr
    obtain ⟨d, hd, -⟩ := Sources.definition_iff.mpr hbody
    cases hd.symm.trans he
  · exact hg.acyclic k' hr hc

/-! ## Operations that look up keys -/

/-- What looking up a key preserves, from the moment it is entered until it is left. -/
structure Preserved (src : Sources) (I : List (Event Key) → Resolution → Prop) : Prop where
  knows {es : List (Event Key)} {s : Resolution} : I es s → Knows src (done es) s
  entered {es : List (Event Key)} {s : Resolution} {k : Key} {d : Definition} : I es s → k.Written → k ∉ done es →
    src.definition k = .ok d → I (es ++ [.entered k]) (noted (pushed s k) d)
  refused {es : List (Event Key)} {s : Resolution} {k : Key} {e : Fault} : I es s → k.Written → k ∉ done es →
    src.definition k = .error e → I es (pushed s k)
  left {es : List (Event Key)} {s : Resolution} {k : Key} {d : Definition} {stack : List String} : I es s →
    k.Written → k ∉ done es → src.definition k = .ok d → (∀ k' ∈ d.keys, k' ∈ done es) →
    s.stack = stack ++ [k.text] → k.text ∉ stack → I (es ++ [.left k])
      ((kept s k d (d.filled src.meaning)).settled k.text (d.value k (d.filled src.meaning)))

/-- The operation looks up the wanted keys while those on the path are. It gives `a` having visited what they lead
to, or says why one has no value, and keeps what is preserved. -/
def LooksUp {α : Type} (src : Sources) (I : List (Event Key) → Resolution → Prop) (left : List String)
    (path wanted : List Key) (m : ResolutionM α) (a : α) : Prop :=
  ∀ es s, I es s → s.stack = left ++ path.map Key.text →
    (∃ new t, outcome m s = (.ok a, t) ∧ I (es ++ new) t ∧ t.stack = s.stack ∧ Visits src (done es) wanted new) ∨
    ∃ e new t, outcome m s = (.error e, t) ∧ I (es ++ new) t ∧ (left = [] → ∃ w ∈ wanted, src.Fails w e)

section
variable {α β : Type} {I : List (Event Key) → Resolution → Prop} {left : List String} {path : List Key}

lemma looksUp_pure (a : α) : LooksUp src I left path [] (pure a) a := by
  intro es s hs _
  exact Or.inl ⟨[], s, rfl, by rwa [append_nil], rfl, .nil⟩

lemma LooksUp.bind {first second : List Key} {m : ResolutionM α} {a : α} {f : α → ResolutionM β}
    {b : β} (hm : LooksUp src I left path first m a) (hf : LooksUp src I left path second (f a) b) :
    LooksUp src I left path (first ++ second) (m >>= f) b := by
  intro es s hs hst
  rcases hm es s hs hst with ⟨new, t, hout, ht, hts, hv⟩ | ⟨e, new, t, hout, ht, hwhy⟩
  · rw [outcome_bind_ok hout]
    rcases hf _ t ht (hts.trans hst) with
      ⟨new', u, hout', hu, hus, hv'⟩ | ⟨e, new', u, hout', hu, hwhy⟩
    · rw [append_assoc] at hu
      rw [done_append] at hv'
      exact Or.inl ⟨new ++ new', u, hout', hu, hus.trans hts, hv.append hv'⟩
    · rw [append_assoc] at hu
      refine Or.inr ⟨e, new ++ new', u, hout', hu, fun hleft => ?_⟩
      obtain ⟨w, hw, he⟩ := hwhy hleft
      exact ⟨w, mem_append_right _ hw, he⟩
  · refine Or.inr ⟨e, new, t, outcome_bind_error hout f, ht, fun hleft => ?_⟩
    obtain ⟨w, hw, he⟩ := hwhy hleft
    exact ⟨w, mem_append_left _ hw, he⟩

lemma looksUp_fillPieces {find : Key → ResolutionM String} {value : Key → String} {pieces : List (Text.Piece Key)}
    (hfind : ∀ k ∈ Text.hits pieces, LooksUp src I left path [k] (find k) (value k)) :
    LooksUp src I left path (Text.hits pieces) (fillPieces find pieces)
      (Text.fill (fun k => (value k).toList) pieces) := by
  induction pieces with
  | nil => exact looksUp_pure []
  | cons piece rest ih =>
    cases piece with
    | char c =>
      rw [Text.hits, ← append_nil (Text.hits rest)]
      exact (ih hfind).bind (looksUp_pure _)
    | hit k =>
      have hrest := (ih fun k' hk' => hfind k' (mem_cons_of_mem k hk')).bind (f := fun chars =>
        pure ((value k).toList ++ chars)) (looksUp_pure _)
      rw [append_nil] at hrest
      exact (hfind k mem_cons_self).bind hrest

lemma looksUp_resolve_succ (hI : Preserved src I) (hwr : k.Written) (hc : k.text ∈ path.map Key.text → src.Circular k)
    (hfill : ∀ d, src.definition k = .ok d → k.text ∉ path.map Key.text → LooksUp src I left (path ++ [k]) d.keys
        (fillPieces (resolve fuel) (Text.pieces keyRule d.body.toList))
        (Text.fill (fun k => (src.meaning k).toList) (Text.pieces keyRule d.body.toList))) :
    LooksUp src I left path [k] (resolve (fuel + 1) k) (src.meaning k) := by
  intro es s hs hst
  have hl := (hI.knows hs).lookup hwr
  by_cases hk : k ∈ done es
  · rw [if_pos hk] at hl
    exact Or.inl ⟨[], s, outcome_resolve_known hl, by rwa [append_nil], rfl, .known hk .nil⟩
  rw [if_neg hk] at hl
  by_cases hmet : k.text ∈ s.stack
  · refine Or.inr ⟨_, [], s, outcome_resolve_circular hl hmet, by rwa [append_nil], ?_⟩
    rintro rfl
    rw [hst] at hmet
    exact ⟨k, mem_singleton_self k, k, ReflTransGen.refl, Or.inr ⟨hc hmet, rfl⟩⟩
  rw [outcome_resolve_new hl hmet, outcome_define]
  have hdef : (pushed s k).definition k = src.definition k := by
    rw [← (hI.knows hs).sources]
    rfl
  rw [hdef]
  cases hd : src.definition k with
  | error e =>
    refine Or.inr ⟨e, [], pushed s k, rfl, ?_, fun _ => ⟨k, mem_singleton_self k, k, ReflTransGen.refl, Or.inl hd⟩⟩
    rw [append_nil]
    exact hI.refused hs hwr hk hd
  | ok d =>
    have hp : (noted (pushed s k) d).stack = left ++ (path ++ [k]).map Key.text := by
      show s.stack ++ [k.text] = _
      rw [hst, map_append, append_assoc]
      rfl
    have ha : k.text ∉ path.map Key.text := fun h => hmet (hst ▸ mem_append_right _ h)
    have hde : ∀ k' ∈ d.keys, src.Depends k k' := fun k' hk' => Sources.depends_iff.mpr ⟨d, hd, hk'⟩
    rcases hfill d hd ha _ _ (hI.entered hs hwr hk hd) hp with
      ⟨new, t, hout, ht, hts, hv⟩ | ⟨e, new, t, hout, ht, hwhy⟩
    · have hdone : done (es ++ [.entered k] ++ new) = done es ++ done new := by rw [done_append, done_entered]
      rw [done_entered] at hv
      have hkeys := hv.known_or_done
      have hkn := hI.knows ht
      rw [hdone] at hkn
      -- A key that has a value does not lead back to itself.
      have hf : k ∉ done es ++ done new := fun hmem => by
        obtain ⟨w, hw, hr⟩ := hv.reaches k ((mem_append.mp hmem).resolve_left hk)
        exact (hkn.meaningful k hmem).not_circular (TransGen.head' (hde w hw) hr)
      have hleft := hI.left ht hwr (hdone ▸ hf) hd (hdone ▸ hkeys) hts hmet
      rw [append_assoc, append_assoc] at hleft
      obtain ⟨-, hm⟩ := Sources.meaningful_of_keys hd fun k' hk' => hkn.meaningful k' (hkeys k' hk')
      refine Or.inl ⟨_, _, ?_, hleft, ?_, .new hk hd hv .nil⟩
      · dsimp only
        rw [hout, hm]
        rfl
      · show t.stack.erase k.text = s.stack
        rw [hts]
        exact erase_pushed hmet
    · rw [append_assoc] at ht
      refine Or.inr ⟨e, _, t, ?_, ht, fun hnone => ?_⟩
      · dsimp only
        rw [hout]
      · obtain ⟨w, hw, he⟩ := hwhy hnone
        exact ⟨k, mem_singleton_self k, he.of_depends (hde w hw)⟩

/-- A key is looked up while those on the path are, each of which leads to it. The path grows with
every call, so the depth that is left suffices. -/
lemma looksUp_resolve (hI : Preserved src I) {n : Nat} (fuel : Nat) (hk : k.Within (src.wordLength n))
    (hpath : ∀ p ∈ path, p.Within (src.wordLength n)) (hdi : (path.map Key.text).Nodup)
    (hlead : ∀ p ∈ path, TransGen src.Depends p k) (hfuel : src.depth n ≤ fuel + path.length) :
    LooksUp src I left path [k] (resolve fuel k) (src.meaning k) := by
  induction fuel generalizing k path with
  | zero =>
    have hlt : (path.map Key.text).length < src.depth n := by
      refine length_lt_depth hdi fun t ht => ?_
      obtain ⟨p, hp, rfl⟩ := mem_map.mp ht
      exact ⟨p, hpath p hp, rfl⟩
    rw [length_map] at hlt
    omega
  | succ fuel ih =>
    refine looksUp_resolve_succ hI ⟨_, hk⟩ (fun hmet => ?_) fun d hd hmet => ?_
    · obtain ⟨p, hp, htext⟩ := mem_map.mp hmet
      obtain rfl := (hpath p hp).text_inj hk htext
      exact hlead p hp
    · refine looksUp_fillPieces fun k' hk' => ih (hk.of_mem_keys hd hk') ?_ ?_ ?_ ?_
      · exact forall_mem_append.mpr ⟨hpath, forall_mem_singleton.mpr hk⟩
      · rw [map_append]
        exact hdi.append (nodup_singleton _) fun t ht ht' => hmet (mem_singleton.mp ht' ▸ ht)
      · have hdep : src.Depends k k' := Sources.depends_iff.mpr ⟨d, hd, hk'⟩
        exact forall_mem_append.mpr
          ⟨fun p hp => (hlead p hp).tail hdep, forall_mem_singleton.mpr (TransGen.single hdep)⟩
      · rw [length_append, length_singleton]
        omega

/-! ## Names -/

/-- Why a name has no value: it is no key, or its key has none. -/
def Sources.Refuses (src : Sources) (name : String) (e : Fault) : Prop :=
  (Key.ofText? name = none ∧ e = .notAKey name) ∨ ∃ k, Key.ofText? name = some k ∧ src.Fails k e

lemma Knows.lookup_name (h : Knows src ks s) (hname : Key.ofText? name = none) : s.values.lookup name = none := by
  rw [h.values, lookup_eq_none_iff]
  intro e he
  obtain ⟨k, hk, rfl⟩ := mem_map.mp he
  refine bne_iff_ne.mpr fun heq => ?_
  rw [heq, (h.written k hk).ofText?] at hname
  cases hname

lemma looksUp_resolveName (hI : Preserved src I) (hname : Key.ofText? name = some k) :
    LooksUp src I left [] [k] (resolveName name) () := by
  obtain ⟨htext, hw⟩ := Key.ofText?_some hname
  intro es s hs hst
  have hl := (hI.knows hs).lookup ⟨_, hw _ (Nat.le_refl _)⟩
  rw [htext] at hl
  unfold resolveName
  rw [outcome_bind_ok (outcome_get s), hl]
  by_cases hk : k ∈ done es
  · rw [if_pos hk]
    exact Or.inl ⟨[], s, rfl, by rwa [append_nil], rfl, .known hk .nil⟩
  · rw [if_neg hk, hname, (hI.knows hs).sources]
    have hlen : name.length ≤ src.wordLength name.length := by
      unfold Sources.wordLength
      omega
    have hr : LooksUp src I left [] [k] (resolve (src.depth name.length) k) (src.meaning k) :=
      looksUp_resolve hI _ (hw _ hlen) (by simp) (by simp) (by simp) (Nat.le_add_right _ _)
    exact hr.bind (looksUp_pure ()) es s hs hst

lemma outcome_resolveEach (hI : Preserved src I) (names : List String) (es : List (Event Key)) (hs : I es s) :
    (∃ new t, outcome (resolveEach names) s = (.ok (), t) ∧ I (es ++ new) t ∧ t.stack = s.stack ∧
      (∀ name ∈ names, ∃ k, Key.ofText? name = some k) ∧
      Visits src (done es) (names.filterMap Key.ofText?) new) ∨
    ∃ e new t, outcome (resolveEach names) s = (.error e, t) ∧ I (es ++ new) t ∧
      (s.stack = [] → ∃ name ∈ names, src.Refuses name e) := by
  induction names generalizing es s with
  | nil => exact Or.inl ⟨[], s, rfl, by rwa [append_nil], rfl, by simp, .nil⟩
  | cons name rest ih =>
    cases hname : Key.ofText? name with
    | none =>
      have hout : outcome (resolveName name) s = (.error (.notAKey name), s) := by
        unfold resolveName
        rw [outcome_bind_ok (outcome_get s), (hI.knows hs).lookup_name hname, hname]
        rfl
      exact Or.inr ⟨_, [], s, outcome_bind_error hout _, by rwa [append_nil],
        fun _ => ⟨name, mem_cons_self, Or.inl ⟨hname, rfl⟩⟩⟩
    | some k =>
      rw [filterMap_cons_some hname]
      rcases looksUp_resolveName hI hname es s hs (append_nil _).symm with
        ⟨new, t, hout, ht, hts, hv⟩ | ⟨e, new, t, hout, ht, hwhy⟩
      · rw [resolveEach, outcome_bind_ok hout]
        rcases ih _ ht with ⟨new', u, hout', hu, hus, hkeys, hv'⟩ | ⟨e, new', u, hout', hu, hwhy⟩
        · rw [append_assoc] at hu
          rw [done_append] at hv'
          exact Or.inl ⟨new ++ new', u, hout', hu, hus.trans hts,
            forall_mem_cons.mpr ⟨⟨k, hname⟩, hkeys⟩, hv.append hv'⟩
        · rw [append_assoc] at hu
          refine Or.inr ⟨e, new ++ new', u, hout', hu, fun hnone => ?_⟩
          obtain ⟨other, ho, he⟩ := hwhy (hts.trans hnone)
          exact ⟨other, mem_cons_of_mem _ ho, he⟩
      · refine Or.inr ⟨e, new, t, outcome_bind_error hout _, ht, fun hnone => ?_⟩
        obtain ⟨w, hw, he⟩ := hwhy hnone
        exact ⟨name, mem_cons_self, Or.inr ⟨k, hname, mem_singleton.mp hw ▸ he⟩⟩

end

/-! ## All names -/

def Sources.Asked (src : Sources) (names : List String) (k : Key) : Prop :=
  ∃ name ∈ requested names, ∃ w, Key.ofText? name = some w ∧ src.Reaches w k

lemma Knows.of_reaches (h : Knows src ks s) (hk : k ∈ ks) (hr : src.Reaches k k') : k' ∈ ks := by
  induction hr with
  | refl => exact hk
  | tail _ hdep ih => exact h.closed _ ih _ hdep

lemma preserved_knows (src : Sources) : Preserved src fun es s => Knows src (done es) s where
  knows h := h
  entered h _ _ _ := by
    rw [done_entered]
    exact ⟨h.written, h.distinct, h.meaningful, h.closed, h.sources, h.values, h.components⟩
  refused h _ _ _ := ⟨h.written, h.distinct, h.meaningful, h.closed, h.sources, h.values, h.components⟩
  left h hk hnew hd hkeys _ _ := by
    rw [done_left]
    exact h.extend hk hnew hd hkeys rfl rfl rfl

lemma knows_start (library : Except Fault Registry) (overrides multiplicity : List (String × Value)) :
    Knows (start library overrides multiplicity).toSources [] (start library overrides multiplicity) :=
  ⟨by simp, by simp, by simp, by simp, rfl, rfl, rfl⟩

/-- In any order, all keys that the names lead to have been looked up in the end, or a name has no value. -/
lemma outcome_resolveAll (library : Except Fault Registry)
    (overrides multiplicity : List (String × Value)) (names : List String) (agenda : Agenda) :
    let s := start library overrides multiplicity
    let src := s.toSources
    (∃ ks t, outcome (resolveAll names agenda) s = (.ok (), t) ∧ Knows src ks t ∧ t.stack = [] ∧
      (∀ name ∈ requested names, ∃ k, Key.ofText? name = some k ∧ k ∈ ks) ∧
      ∀ k, k ∈ ks ↔ src.Asked names k) ∨
    ∃ e t, outcome (resolveAll names agenda) s = (.error e, t) ∧ ∃ name ∈ requested names, src.Refuses name e := by
  intro s src
  have hmem : ∀ name, name ∈ agenda.order (requested names) ↔ name ∈ requested names :=
    fun name => (agenda.perm _).mem_iff
  rcases outcome_resolveEach (preserved_knows src) (agenda.order (requested names)) []
      (knows_start library overrides multiplicity) with
    ⟨es, t, hout, ht, hs, hkeys, hv⟩ | ⟨e, -, t, hout, -, hwhy⟩
  · have hkn := hv.known_or_done
    have hr : ∀ name ∈ requested names, ∃ k, Key.ofText? name = some k ∧ k ∈ done es := by
      intro name hname
      obtain ⟨k, hk⟩ := hkeys name ((hmem name).mpr hname)
      exact ⟨k, hk, hkn k (mem_filterMap.mpr ⟨name, (hmem name).mpr hname, hk⟩)⟩
    refine Or.inl ⟨done es, t, hout, ht, hs, hr, fun k => ⟨fun hk => ?_, ?_⟩⟩
    · obtain ⟨w, hw, hre⟩ := hv.reaches k hk
      obtain ⟨name, hname, hofText⟩ := mem_filterMap.mp hw
      exact ⟨name, (hmem name).mp hname, w, hofText, hre⟩
    · rintro ⟨name, hname, w, hw, hre⟩
      obtain ⟨w', hw', hkn⟩ := hr name hname
      cases hw.symm.trans hw'
      exact ht.of_reaches hkn hre
  · obtain ⟨name, hname, he⟩ := hwhy rfl
    exact Or.inr ⟨e, t, hout, name, (hmem name).mp hname, he⟩

lemma Sources.Refuses.not_grounded (h : src.Refuses name e) : ¬ ∃ k, Key.ofText? name = some k ∧ src.Grounded k := by
  rintro ⟨k, hk, hg⟩
  rcases h with ⟨hnone, -⟩ | ⟨k', hk', hf⟩
  · cases hk.symm.trans hnone
  · obtain rfl := Option.some.inj (hk.symm.trans hk')
    exact hf.not_grounded hg

lemma Sources.Refuses.library_tooDeep (h : src.Refuses name .tooDeep) : src.library = .error .tooDeep := by
  by_contra hl
  rcases h with ⟨-, h⟩ | ⟨k, -, k', -, h | ⟨-, h⟩⟩
  · cases h
  · exact Sources.definition_refuses (fun e he heq => hl (heq ▸ he)) k' _ h rfl
  · cases h

/-- All names get values, in any order, exactly if every key they lead to has a definition and none leads to itself.
Otherwise a name has none, and the reason is never the depth. -/
theorem resolveAll_ok_iff_grounded (library : Except Fault Registry)
    (overrides multiplicity : List (String × Value)) (names : List String) (agenda : Agenda) :
    let s := start library overrides multiplicity
    let src := s.toSources
    let run := (resolveAll names agenda).run.run s
    (run.1 = .ok () ↔ ∀ name ∈ requested names, ∃ k, Key.ofText? name = some k ∧ src.Grounded k) ∧
    (run.1 = .ok () → run.2.stack = s.stack ∧ ∀ name ∈ requested names, ∃ k v, Key.ofText? name = some k ∧
        run.2.values.lookup name = some v ∧ src.Resolves k v) ∧
    ∀ e, run.1 = .error e → (∃ name ∈ requested names, src.Refuses name e) ∧
      (e = .tooDeep → library = .error .tooDeep) := by
  intro s src run
  have hrun : run = outcome (resolveAll names agenda) s := rfl
  rcases outcome_resolveAll library overrides multiplicity names agenda with
    ⟨ks, t, hout, ht, hs, hw, -⟩ | ⟨e, t, hout, name, hname, he⟩
  · rw [hrun, hout]
    have hm : ∀ name ∈ requested names, ∃ k, Key.ofText? name = some k ∧
        k ∈ ks ∧ src.Meaningful k := fun name hname => by
      obtain ⟨k, hk, hkn⟩ := hw name hname
      exact ⟨k, hk, hkn, ht.meaningful k hkn⟩
    refine ⟨⟨fun _ name hname => ?_, fun _ => rfl⟩, fun _ => ⟨hs, fun name hname => ?_⟩, ?_⟩
    · obtain ⟨k, hk, -, hv⟩ := hm name hname
      exact ⟨k, hk, hv.grounded⟩
    · obtain ⟨k, hk, hkn, hv⟩ := hm name hname
      refine ⟨k, src.meaning k, hk, ?_, hv⟩
      have hl := ht.lookup (ht.written k hkn)
      rwa [(Key.ofText?_some hk).1, if_pos hkn] at hl
    · rintro e ⟨⟩
  · rw [hrun, hout]
    refine ⟨⟨fun h => ?_, fun h => ?_⟩, fun h => ?_, fun e' he' => ?_⟩
    · cases h
    · exact absurd (h name hname) he.not_grounded
    · cases h
    · obtain rfl := Except.error.inj he'
      refine ⟨⟨name, hname, he⟩, ?_⟩
      rintro rfl
      exact he.library_tooDeep

/-! ## The graph -/

variable {d : Definition} {es : List (Event Key)}

def Definition.transformNotes (d : Definition) (k : Key) (filled : String) : List (String × Node) :=
  match d.transform with
  | none => []
  | some f => [(k.text, ⟨[d.baseValue filled], localOf k.text, d.transformed f filled⟩)]

noncomputable def Sources.notes (src : Sources) : Event Key → List (String × Node)
  | .entered k =>
    match src.definition k with
    | .ok d => [(d.base.text, d.node)]
    | .error _ => []
  | .left k =>
    match src.definition k with
    | .ok d => d.transformNotes k (d.filled src.meaning)
    | .error _ => []

lemma Sources.notes_entered (hd : src.definition k = .ok d) : src.notes (.entered k) = [(d.base.text, d.node)] := by
  rw [notes, hd]

lemma Sources.notes_left (hd : src.definition k = .ok d) :
    src.notes (.left k) = d.transformNotes k (d.filled src.meaning) := by
  rw [notes, hd]

def graphOf (notes : List (String × Node)) : List (String × Node) :=
  notes.foldl (fun graph n => setEntry graph n.1 n.2) []

lemma graphOf_append_singleton (notes : List (String × Node)) (key : String) (node : Node) :
    graphOf (notes ++ [(key, node)]) = setEntry (graphOf notes) key node :=
  foldl_concat ..

structure Traced (src : Sources) (ks : List Key) (es : List (Event Key)) (s : Resolution) : Prop
    extends Knows src ks s where
  graph : s.graph = graphOf (es.flatMap src.notes)

lemma preserved_traced (src : Sources) : Preserved src fun es s => Traced src (done es) es s where
  knows h := h.toKnows
  entered {es s k d} h hk hnew hd := by
    refine ⟨(preserved_knows src).entered h.toKnows hk hnew hd, ?_⟩
    rw [flatMap_append, flatMap_singleton, Sources.notes_entered hd, graphOf_append_singleton, ← h.graph]
    rfl
  refused h hk hnew hd := ⟨(preserved_knows src).refused h.toKnows hk hnew hd, h.graph⟩
  left {es s k d stack} h hk hnew hd hkeys hs hmet := by
    refine ⟨(preserved_knows src).left h.toKnows hk hnew hd hkeys hs hmet, ?_⟩
    rw [flatMap_append, flatMap_singleton, Sources.notes_left hd]
    show (kept s k d (d.filled src.meaning)).graph = _
    unfold kept Definition.transformNotes
    cases d.transform with
    | none => exact h.graph.trans (congrArg graphOf (append_nil _).symm)
    | some f => rw [graphOf_append_singleton, ← h.graph]

/-! ## Requests for one key -/

lemma request_none (library : Except Fault Registry) (overrides multiplicity : List (String × Value))
    {name text : String} (hname : requested [name] = [text]) (hnone : Key.ofText? text = none)
    (agenda : Agenda) : ∃ e, (outcome (resolveAll [name] agenda) (start library overrides multiplicity)).1 =
      .error e := by
  rcases outcome_resolveAll library overrides multiplicity [name] agenda with
    ⟨ks, t, -, -, -, hw, -⟩ | ⟨e, t, hout, -⟩
  · obtain ⟨k, hk, -⟩ := hw text (by rw [hname]; exact mem_singleton_self _)
    cases hk.symm.trans hnone
  · exact ⟨e, by rw [hout]⟩

lemma request_one (library : Except Fault Registry) (overrides multiplicity : List (String × Value)) {name : String}
    (hk : k.Written) (hname : requested [name] = [k.text]) (agenda : Agenda) :
    let s := start library overrides multiplicity
    let src := s.toSources
    let run := outcome (resolveAll [name] agenda) s
    (src.Meaningful k ∧ run.1 = .ok () ∧ ∃ es, Visits src [] [k] es ∧ Traced src (done es) es run.2) ∨
      (¬ src.Meaningful k ∧ ∃ e, run.1 = .error e) := by
  intro s src run
  rcases outcome_resolveAll library overrides multiplicity [name] agenda with
    ⟨ks, t, hout, ht, -, hw, -⟩ | ⟨e, t, hout, name', hname', hr⟩
  · have hrun : run = (.ok (), t) := hout
    obtain ⟨k', hk', hmem⟩ := hw k.text (by rw [hname]; exact mem_singleton_self _)
    cases hk.ofText?.symm.trans hk'
    have ho : agenda.order [k.text] = [k.text] := perm_singleton.mp (agenda.perm _)
    have heach : outcome (resolveEach [k.text]) s = (.ok (), t) := by
      rw [← ho, ← hname]
      exact hout
    have hs : Traced src [] [] s := ⟨knows_start library overrides multiplicity, rfl⟩
    rcases outcome_resolveEach (preserved_traced src) [k.text] [] hs with
      ⟨es, u, hout', hu, -, -, hv⟩ | ⟨e, -, u, hout', -⟩
    · cases heach.symm.trans hout'
      rw [filterMap_cons_some hk.ofText?] at hv
      rw [hrun]
      exact Or.inl ⟨ht.meaningful k hmem, rfl, es, hv, hu⟩
    · cases heach.symm.trans hout'
  · have hrun : run = (.error e, t) := hout
    rw [hname, mem_singleton] at hname'
    rw [hname'] at hr
    refine Or.inr ⟨fun hm => ?_, e, by rw [hrun]⟩
    exact hr.not_grounded ⟨k, hk.ofText?, hm.grounded⟩

end GridBayes.Deferred
