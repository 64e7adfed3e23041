import GridBayes.Deferred.Graph
import GridBayes.Proofs.LocalAssignment

/-! Which names have a node in the graph of a look-up. A node is noted under the base of a definition when a key is
begun, and under the key itself once a transform is done; a value is written at the end. So the graph has a node for
every value, and nodes without a value for bases that nobody asked for and for keys that were begun and refused. -/
namespace GridBayes.Deferred
open List Operation Resolution
open Text (pieces hits)

namespace Resolution

def names (s : Resolution) : List String :=
  s.values.map Prod.fst

def nodes (s : Resolution) : List String :=
  s.graph.map Prod.fst

def Met (s : Resolution) (k : Key) : Prop :=
  k.Written ∧ (k.text ∈ s.names ∨ k.text ∈ s.stack)

def HasBase (s : Resolution) (src : Sources) (name : String) : Prop :=
  ∃ k d, s.Met k ∧ src.definition k = .ok d ∧ d.base.text = name

variable {s : Resolution}

lemma met_pushed {k k' : Key} (hk : k.Written) : (pushed s k).Met k' ↔ s.Met k' ∨ k' = k := by
  have hs : k'.text ∈ (pushed s k).stack ↔ k'.text ∈ s.stack ∨ k'.text = k.text := by simp [pushed]
  have hn : k'.text ∈ (pushed s k).names ↔ k'.text ∈ s.names := Iff.rfl
  unfold Met
  rw [hs, ← or_assoc]
  constructor
  · rintro ⟨hk', hmet | htext⟩
    · exact Or.inl ⟨hk', hmet⟩
    · exact Or.inr (hk'.text_inj hk htext)
  · rintro (⟨hk', hmet⟩ | rfl)
    · exact ⟨hk', Or.inl hmet⟩
    · exact ⟨hk, Or.inr rfl⟩

lemma hasBase_pushed {src : Sources} {k : Key} {name : String} (hk : k.Written) :
    (pushed s k).HasBase src name ↔ s.HasBase src name ∨ ∃ d, src.definition k = .ok d ∧ d.base.text = name := by
  unfold HasBase
  simp only [met_pushed hk, or_and_right, exists_or, exists_and_left, exists_eq_left]

end Resolution

/-! ## Nodes in one state -/

/-- The nodes of a state: one for each value, and one for the base of each key begun. -/
structure Drawn (src : Sources) (s : Resolution) : Prop where
  distinct : s.nodes.Nodup
  apart : ∀ name ∈ s.stack, name ∉ s.names
  nodes : ∀ name, name ∈ s.nodes ↔ name ∈ s.names ∨ s.HasBase src name

namespace Drawn

variable {src : Sources} {s : Resolution} {k : Key} {d : Definition}

lemma apart_pushed (h : Drawn src s) (hnew : k.text ∉ s.names) : ∀ name ∈ (pushed s k).stack, name ∉ s.names := by
  intro name hname
  rcases mem_append.mp hname with hname | hname
  · exact h.apart name hname
  · rw [mem_singleton.mp hname]
    exact hnew

lemma entered (h : Drawn src s) (hk : k.Written) (hnew : k.text ∉ s.names)
    (hd : src.definition k = .ok d) : Drawn src (noted (pushed s k) d) where
  distinct := nodup_map_fst_setEntry h.distinct _ _
  apart := h.apart_pushed hnew
  nodes name := by
    have hn : name ∈ (noted (pushed s k) d).nodes ↔ name ∈ s.nodes ∨ name = d.base.text := mem_map_fst_setEntry
    have hbase : (∃ d', src.definition k = .ok d' ∧ d'.base.text = name) ↔ name = d.base.text := by simp [hd, eq_comm]
    show _ ↔ name ∈ s.names ∨ (pushed s k).HasBase src name
    rw [hn, h.nodes, hasBase_pushed hk, hbase, or_assoc]

lemma begun (h : Drawn src s) (hk : k.Written) (hnew : k.text ∉ s.names) {e : Fault}
    (hd : src.definition k = .error e) : Drawn src (pushed s k) where
  distinct := h.distinct
  apart := h.apart_pushed hnew
  nodes name := by
    have hbase : (pushed s k).HasBase src name ↔ s.HasBase src name := by
      refine (hasBase_pushed hk).trans ?_
      simp [hd]
    rw [hbase]
    exact h.nodes name

lemma left (h : Drawn src s) (hk : k.Written) {stack : List String} (hs : s.stack = stack ++ [k.text])
    (hmet : k.text ∉ stack) (hd : src.definition k = .ok d) (hbase : d.transform = none → d.base = k)
    (filled value : String) : Drawn src ((kept s k d filled).settled k.text value) := by
  have hbe : k.text ∈ s.stack := by simp [hs]
  have hp : ((kept s k d filled).settled k.text value).stack = stack := by
    show s.stack.erase k.text = stack
    rw [hs, erase_pushed hmet]
  have hn : ∀ name, name ∈ ((kept s k d filled).settled k.text value).names ↔
      name ∈ s.names ∨ name = k.text := fun name => mem_map_fst_setEntry
  have hsame : ∀ k', ((kept s k d filled).settled k.text value).Met k' ↔ s.Met k' := by
    intro k'
    unfold Met
    rw [hn, hp, hs, mem_append, mem_singleton, or_assoc, or_comm (a := k'.text = k.text)]
  -- without a transform the node was noted when the key was begun
  have hown : k.text ∈ s.nodes ∨ d.transform ≠ none := by
    by_cases ht : d.transform = none
    · left
      rw [h.nodes]
      exact Or.inr ⟨k, d, ⟨hk, Or.inr hbe⟩, hd, by rw [hbase ht]⟩
    · exact Or.inr ht
  refine ⟨?_, ?_, fun name => ?_⟩
  · show ((kept s k d filled).graph.map Prod.fst).Nodup
    unfold kept
    split
    · exact h.distinct
    · exact nodup_map_fst_setEntry h.distinct _ _
  · intro name hname hmem
    rw [hp] at hname
    rcases (hn name).mp hmem with hmem | rfl
    · exact h.apart name (hs ▸ mem_append_left _ hname) hmem
    · exact hmet hname
  · have hno : name ∈ ((kept s k d filled).settled k.text value).nodes ↔ name ∈ s.nodes ∨ name = k.text := by
      show name ∈ (kept s k d filled).graph.map Prod.fst ↔ _
      unfold kept
      split
      · rename_i ht
        refine ⟨Or.inl, ?_⟩
        rintro (hname | rfl)
        · exact hname
        · exact hown.resolve_right fun hne => hne ht
      · exact mem_map_fst_setEntry
    have hb : ((kept s k d filled).settled k.text value).HasBase src name ↔ s.HasBase src name := by
      unfold HasBase
      simp only [hsame]
    rw [hno, h.nodes, hb, hn, or_right_comm]

end Drawn

lemma preserved_drawn {src : Sources} (hl : Yields Listed src.library) :
    Preserved src fun es s => Orderly src (done es) s ∧ Drawn src s := by
  have hnew {es : List (Event Key)} {s : Resolution} {k : Key} (h : Orderly src (done es) s) (hk : k.Written)
      (hnew : k ∉ done es) : k.text ∉ s.names := fun hmem => by
    have hsome := isSome_lookup_iff.mpr hmem
    rw [h.lookup hk, if_neg hnew] at hsome
    cases hsome
  refine ⟨fun h => h.1.toKnows, fun h hk hf hd => ?_, fun h hk hf hd => ?_, fun h hk hf hd hkeys hs hmet => ?_⟩
  · exact ⟨(preserved_orderly src).entered h.1 hk hf hd, h.2.entered hk (hnew h.1 hk hf) hd⟩
  · exact ⟨(preserved_orderly src).refused h.1 hk hf hd, h.2.begun hk (hnew h.1 hk hf) hd⟩
  · refine ⟨(preserved_orderly src).left h.1 hk hf hd hkeys hs hmet, h.2.left hk hs hmet hd (fun hdi => ?_) _ _⟩
    rcases Sources.base_cases hl hd with ⟨-, hbase⟩ | ⟨grid, function, ht, -⟩
    · exact hbase
    · cases hdi.symm.trans ht

/-! ## Nodes after some requests -/

lemma drawn_start (library : Except Fault Registry) (overrides multiplicity : List (String × Value)) :
    Drawn (start library overrides multiplicity).toSources (start library overrides multiplicity) where
  distinct := nodup_nil
  apart := by simp [start]
  nodes name := by simp [HasBase, Met, Resolution.names, Resolution.nodes, start]

def Resolution.Answers (s : Resolution) : List (List String × Agenda) → Prop
  | [] => True
  | request :: requests =>
    (outcome (resolveAll request.1 request.2) s).1 = .ok () ∧
      Answers (outcome (resolveAll request.1 request.2) s).2 requests

variable {src : Sources} {ks : List Key} {s t : Resolution}

lemma drawn_request (hl : Yields Listed src.library) (h : Orderly src ks s) (hd : Drawn src s)
    (request : List String × Agenda) : let run := outcome (resolveAll request.1 request.2) s
    ∃ new, Orderly src (ks ++ new) run.2 ∧ Drawn src run.2 ∧ (run.1 = .ok () → run.2.stack = s.stack ∧
      ∀ k, k ∈ ks ++ new ↔ k ∈ ks ∨ src.Asked request.1 k) := by
  intro run
  have hmem : ∀ name, name ∈ request.2.order (requested request.1) ↔ name ∈ requested request.1 :=
    fun name => (request.2.perm _).mem_iff
  rw [← done_map_left ks] at h
  rcases outcome_resolveEach (preserved_drawn hl) (request.2.order (requested request.1)) _ ⟨h, hd⟩ with
    ⟨new, t, hout, ⟨ht, htd⟩, hs, -, hv⟩ | ⟨e, new, t, hout, ⟨ht, htd⟩, -⟩
  · have hrun : run = (.ok (), t) := hout
    rw [done_append, done_map_left] at ht
    rw [done_map_left] at hv
    rw [hrun]
    refine ⟨done new, ht, htd, fun _ => ⟨hs, fun k => ⟨fun hk => ?_, ?_⟩⟩⟩
    · refine (mem_append.mp hk).imp_right fun hk => ?_
      obtain ⟨w, hw, hr⟩ := hv.reaches k hk
      obtain ⟨name, hname, hofText⟩ := mem_filterMap.mp hw
      exact ⟨name, (hmem name).mp hname, w, hofText, hr⟩
    · rintro (hk | ⟨name, hname, w, hofText, hr⟩)
      · exact mem_append_left _ hk
      · exact ht.of_reaches (hv.known_or_done w (mem_filterMap.mpr ⟨name, (hmem name).mpr hname, hofText⟩)) hr
  · have hrun : run = (.error e, t) := hout
    rw [done_append, done_map_left] at ht
    rw [hrun]
    exact ⟨done new, ht, htd, fun hok => by cases hok⟩

lemma drawn_afterRequests (hl : Yields Listed src.library) (h : Orderly src ks s) (hd : Drawn src s)
    (requests : List (List String × Agenda)) :
    ∃ new, Orderly src (ks ++ new) (s.afterRequests requests) ∧ Drawn src (s.afterRequests requests) ∧
      (s.Answers requests → (s.afterRequests requests).stack = s.stack ∧
        ∀ k, k ∈ ks ++ new ↔ k ∈ ks ∨ ∃ request ∈ requests, src.Asked request.1 k) := by
  induction requests generalizing ks s with
  | nil => exact ⟨[], by rwa [append_nil], hd, fun _ => ⟨rfl, by simp⟩⟩
  | cons request requests ih =>
    obtain ⟨new, ht, htd, han⟩ := drawn_request hl h hd request
    obtain ⟨new', hu, hud, ha⟩ := ih ht htd
    rw [append_assoc] at hu ha
    refine ⟨new ++ new', hu, hud, ?_⟩
    rintro ⟨hok, hrest⟩
    obtain ⟨hus, hmem⟩ := ha hrest
    obtain ⟨hs, hask⟩ := han hok
    refine ⟨hus.trans hs, fun k => ?_⟩
    rw [hmem, hask]
    simp [or_assoc]

lemma drawing_ok_iff_names (t : Resolution) : (∃ drawing, Drawing.ofResolution t = .ok drawing) ↔
    (∀ name ∈ t.names, name ∈ t.nodes) ∧ ∀ name ∈ t.nodes, name ∈ t.names := by
  have hv : t.values.all (fun e => (t.graph.map (·.1)).contains e.1) = true ↔ ∀ name ∈ t.names, name ∈ t.nodes := by
    simp [Resolution.names, Resolution.nodes]
  have hn : (t.graph.map (·.1)).all (fun k => (t.values.lookup k).isSome) = true ↔
      ∀ name ∈ t.nodes, name ∈ t.names := by
    rw [all_eq_true]
    exact forall₂_congr fun name _ => isSome_lookup_iff
  rw [← hv, ← hn, ← Bool.and_eq_true]
  unfold Drawing.ofResolution
  dsimp only
  split
  · rename_i hall
    exact ⟨fun _ => hall, fun _ => ⟨_, rfl⟩⟩
  · rename_i hall
    refine ⟨?_, fun h => absurd h hall⟩
    rintro ⟨drawing, hd⟩
    cases hd

lemma Drawn.drawing_ok_iff (h : Drawn src t)
    (hl : Yields Listed src.library) : (∃ drawing, Drawing.ofResolution t = .ok drawing) ↔
      (∀ k d, t.Met k → src.definition k = .ok d → ∀ b grid function, src.Through k b grid function →
        b.text ∈ t.names) ∧
      ∀ k d, k.Written → k.text ∈ t.stack → src.definition k = .ok d → d.transform ≠ none := by
  rw [drawing_ok_iff_names]
  constructor
  · rintro ⟨-, hn⟩
    have hbase : ∀ k d, t.Met k → src.definition k = .ok d → d.base.text ∈ t.names :=
      fun k d hmet hd => hn _ ((h.nodes _).mpr (Or.inr ⟨k, d, hmet, hd, rfl⟩))
    refine ⟨fun k d hmet hd b grid function ht => ?_, fun k d hk hs hd hdi => ?_⟩
    · rw [← (ht.definition hl hd).1]
      exact hbase k d hmet hd
    · rcases Sources.base_cases hl hd with ⟨-, hown⟩ | ⟨grid, function, ht, -⟩
      · have hmem := hbase k d ⟨hk, Or.inr hs⟩ hd
        rw [hown] at hmem
        exact h.apart _ hs hmem
      · cases hdi.symm.trans ht
  · rintro ⟨ht, hopen⟩
    refine ⟨fun name hname => (h.nodes name).mpr (Or.inl hname), fun name hname => ?_⟩
    rcases (h.nodes name).mp hname with hname | ⟨k, d, hmet, hd, rfl⟩
    · exact hname
    · rcases Sources.base_cases hl hd with ⟨hdi, hown⟩ | ⟨grid, function, -, hp, -⟩
      · rw [hown]
        exact hmet.2.resolve_right fun hs => hopen k d hmet.1 hs hd hdi
      · exact ht k d hmet hd _ grid function hp

lemma Knows.mem_names (h : Knows src ks t) (k : Key) : k.Written ∧ k.text ∈ t.names ↔ k ∈ ks := by
  constructor
  · rintro ⟨hk, hmem⟩
    have hsome := isSome_lookup_iff.mpr hmem
    rw [h.lookup hk] at hsome
    by_contra hnot
    rw [if_neg hnot] at hsome
    cases hsome
  · intro hmem
    have hk := h.written k hmem
    refine ⟨hk, isSome_lookup_iff.mp ?_⟩
    rw [h.lookup hk, if_pos hmem]
    rfl

/-- After any requests no name has two nodes and every value has one. The graph can be drawn exactly if every base
that a prefix led from has a value and every key that a refused request left open is had by a prefix; without
refusals, if those bases were asked for as well. -/
theorem graph_drawn_iff (w : Session) (overrides multiplicity : List (String × Value))
    (requests : List (List String × Agenda)) :
    let s := start w.library overrides multiplicity
    let src := s.toSources
    let t := s.afterRequests requests
    t.nodes.Nodup ∧ (∀ name, name ∈ t.nodes ↔ name ∈ t.names ∨ t.HasBase src name) ∧
    ((∃ drawing, Drawing.ofResolution t = .ok drawing) ↔
      (∀ k d, t.Met k → src.definition k = .ok d → ∀ b grid function, src.Through k b grid function →
        b.text ∈ t.names) ∧
      ∀ k d, k.Written → k.text ∈ t.stack → src.definition k = .ok d → d.transform ≠ none) ∧
    (s.Answers requests → ((∃ drawing, Drawing.ofResolution t = .ok drawing) ↔
      ∀ request ∈ requests, ∀ k, src.Asked request.1 k → ∀ b grid function, src.Through k b grid function →
        ∃ request' ∈ requests, ∃ k', src.Asked request'.1 k' ∧ k'.text = b.text)) := by
  intro s src t
  have hl : Yields Listed src.library := listed_library w
  obtain ⟨ks, hkn, hdr, han⟩ := drawn_afterRequests hl
    (orderly_start w.library overrides multiplicity) (drawn_start w.library overrides multiplicity) requests
  rw [List.nil_append] at hkn han
  have hok := hdr.drawing_ok_iff hl
  refine ⟨hdr.distinct, hdr.nodes, hok, fun hall => ?_⟩
  obtain ⟨hs, hmem⟩ := han hall
  have hnone : ∀ name, name ∉ t.stack := by
    intro name hname
    rw [show t.stack = [] from hs] at hname
    cases hname
  have hmem : ∀ k, k ∈ ks ↔ ∃ request ∈ requests, src.Asked request.1 k := by simpa using hmem
  have hn : ∀ name, name ∈ t.names ↔ ∃ request ∈ requests, ∃ k, src.Asked request.1 k ∧ k.text = name := by
    intro name
    have hkeys : t.names = ks.map Key.text := by
      unfold Resolution.names
      rw [hkn.values, List.map_map]
      rfl
    rw [hkeys, List.mem_map]
    constructor
    · rintro ⟨k, hk, rfl⟩
      obtain ⟨request, hr, ha⟩ := (hmem k).mp hk
      exact ⟨request, hr, k, ha, rfl⟩
    · rintro ⟨request, hr, k, ha, rfl⟩
      exact ⟨k, (hmem k).mpr ⟨request, hr, ha⟩, rfl⟩
  refine hok.trans ⟨?_, ?_⟩
  · rintro ⟨ht, -⟩ request hr k ha b grid function hp
    have hk : k ∈ ks := (hmem k).mpr ⟨request, hr, ha⟩
    obtain ⟨d, hd⟩ := hkn.definition hk
    obtain ⟨hw, hname⟩ := (hkn.mem_names k).mpr hk
    exact (hn _).mp (ht k d ⟨hw, Or.inl hname⟩ hd b grid function hp)
  · intro ht
    refine ⟨fun k d hmet _ b grid function hp => ?_, fun k d _ hopen => absurd hopen (hnone _)⟩
    have hname : k.text ∈ t.names := hmet.2.resolve_right (hnone _)
    obtain ⟨request, hr, ha⟩ := (hmem k).mp ((hkn.mem_names k).mp ⟨hmet.1, hname⟩)
    exact (hn _).mpr (ht request hr k ha b grid function hp)

/-- A logarithm asked for alone cannot be drawn: the output has a node and no value. -/
theorem graph_of_logarithm :
    ((resolveAll ["t.log_y"] Builder.backwards).run.run (start Builder.lineSession.library [] [])).1 = .ok () ∧
    (let t := ((resolveAll ["t.log_y"] Builder.backwards).run.run (start Builder.lineSession.library [] [])).2
    t.names = ["t__x", "t__log_y"] ∧ t.nodes = ["t__y", "t__x", "t__log_y"] ∧
      Drawing.ofResolution t = .error .graphMismatch) := by
  exact ⟨by decide +kernel, by decide +kernel, by decide +kernel, by decide +kernel⟩

end GridBayes.Deferred
