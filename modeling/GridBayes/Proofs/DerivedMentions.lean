import GridBayes.Proofs.ComponentOrder

/-! What the texts of derived values may mention. A new grid is refused as soon as one of its texts
mentions a name that the mentioned grid does not list, its own names included. The look-up is more
generous: it also has names that a transform leads to. So the two agree on the names that are listed,
and only there. -/
namespace GridBayes.GridDefinition
open Operation Deferred List Except

/-! ## Mentions -/

def mentionsIn : Value → List Reference
  | .str code => references code
  | _ => []

def mentions (d : GridDefinition) : List (String × Reference) :=
  (sorted d.derived).flatMap fun (k, v) => (mentionsIn v).map (Prod.mk k)

/-- The mention is of a name that its grid does not list, or the grids cannot be looked at. -/
inductive Lacking (d : GridDefinition) (library : Except Fault (List (String × Grid)))
    (r : Reference) : Fault → Prop where
  | own (hgrid : r.grid = some d.name) (hname : r.name ∉ d.defined) : Lacking d library r .missingPart
  | other {g : String} {grids : List (String × Grid)} {grid : Grid} (hgrid : r.grid = some g)
      (hne : g ≠ d.name) (hlibrary : library = .ok grids) (hlookup : grids.lookup g = some grid)
      (hname : r.name ∉ grid.names) : Lacking d library r .missingPart
  | unreadable {g : String} {e : Fault} (hgrid : r.grid = some g) (hne : g ≠ d.name)
      (hlibrary : library = .error e) : Lacking d library r e

def warning (d : GridDefinition) (library : Except Fault (List (String × Grid))) (derived : String)
    (r : Reference) : String :=
  match r.grid, library with
  | some g, .ok grids =>
    if g ≠ d.name ∧ (grids.lookup g).isNone then
      "Warning: derived value " ++ derived ++ " refers to an undefined grid " ++ g ++ ".\n"
    else ""
  | _, _ => ""

variable {d : GridDefinition} {library : Except Fault (List (String × Grid))} {r : Reference}

lemma checkMention_eq_error_iff {derived : String} {e : Fault} :
    d.checkMention library derived r = .error e ↔ d.Lacking library r e := by
  constructor
  · intro h
    unfold checkMention at h
    split at h
    · cases h
    rename_i g hgrid
    split at h
    · rename_i hg
      obtain rfl := eq_of_beq hg
      split at h
      · cases h
      · rename_i hname
        cases h
        exact .own hgrid (by simpa using hname)
    · rename_i hg
      have hne : g ≠ d.name := by simpa using hg
      split at h
      · obtain rfl := error.inj h
        exact .unreadable hgrid hne rfl
      · split at h
        · rename_i hlo
          split at h
          · cases h
          · rename_i hname
            cases h
            exact .other hgrid hne rfl hlo (by simpa using hname)
        · cases h
  · intro h
    unfold checkMention
    cases h with
    | own hgrid hname => simp [hgrid, hname]
    | other hgrid hne hl hlo hname => simp [hgrid, hne, hl, hlo, hname]
    | unreadable hgrid hne hl => simp [hgrid, hne, hl]

lemma checkMention_eq_ok {derived s : String} (h : d.checkMention library derived r = .ok s) :
    s = d.warning library derived r := by
  unfold checkMention at h
  unfold warning
  cases hgrid : r.grid with
  | none =>
    rw [hgrid] at h
    exact (ok.inj h).symm
  | some g =>
    rw [hgrid] at h
    by_cases hg : g = d.name
    · simp only [hg, beq_self_eq_true, if_true] at h
      split at h
      · obtain rfl := ok.inj h
        cases library <;> simp [hg]
      · cases h
    · simp only [beq_eq_false_iff_ne.mpr hg, Bool.false_eq_true, if_false] at h
      cases library with
      | error e => cases h
      | ok grids =>
        cases hl : grids.lookup g with
        | none => simpa [hg, hl] using h.symm
        | some grid =>
          simp only [hl] at h
          split at h
          · simpa [hl] using h.symm
          · cases h

def mentionChecks (d : GridDefinition) (library : Except Fault (List (String × Grid)))
    (ms : List (String × Reference)) : List Check :=
  ms.map fun m => d.mentionCheck library m.1 m.2

/-- The checks before the first mention that is refused. -/
lemma exists_first_lacking {ms : List (String × Reference)} (h : ∃ m ∈ ms, ∃ e, d.Lacking library m.2 e) :
    ∃ (before : List Check) (texts : List String) (m : String × Reference) (rest : List Check) (e : Fault),
      m ∈ ms ∧ d.Lacking library m.2 e ∧ before.map Check.result = texts.map .ok ∧
        d.mentionChecks library ms = before ++ ⟨.error e, m.2.grid.any (· != d.name)⟩ :: rest := by
  induction ms with
  | nil => simp at h
  | cons m ms ih =>
    cases hm : d.checkMention library m.1 m.2 with
    | error e =>
      refine ⟨[], [], m, d.mentionChecks library ms, e, mem_cons_self, checkMention_eq_error_iff.mp hm, rfl, ?_⟩
      rw [mentionChecks, map_cons, mentionCheck, hm]
      rfl
    | ok s =>
      have hrest : ∃ m' ∈ ms, ∃ e, d.Lacking library m'.2 e := by
        obtain ⟨m', hm', e, he⟩ := h
        rcases mem_cons.mp hm' with rfl | hm'
        · rw [checkMention_eq_error_iff.mpr he] at hm
          cases hm
        · exact ⟨m', hm', e, he⟩
      obtain ⟨before, texts, m', rest, e, hmem, he, htexts, hmap⟩ := ih hrest
      refine ⟨d.mentionCheck library m.1 m.2 :: before, s :: texts, m', rest, e, mem_cons_of_mem _ hmem, he, ?_, ?_⟩
      · rw [map_cons, htexts, mentionCheck, hm]
        rfl
      · rw [mentionChecks] at hmap ⊢
        rw [map_cons, hmap]
        rfl

/-! ## The other checks -/

/-- The text of a derived value with nothing in it; what is no text stays. -/
def silenced : Value → Value
  | .str _ => .str ""
  | v => v

def silent (d : GridDefinition) : GridDefinition :=
  { d with derived := d.derived.map fun (k, v) => (k, silenced v) }

def Passes (checks : List Check) : Prop :=
  ∀ x ∈ checks, ∃ s, x.result = .ok s

def Quiet (checks : List Check) : Prop :=
  ∀ x ∈ checks, x = ⟨.ok "", false⟩

lemma sorted_silent (d : GridDefinition) :
    sorted d.silent.derived = (sorted d.derived).map fun (k, v) => (k, silenced v) :=
  Text.sortBy_map d.derived

variable {α : Type} {grid : Grid}

lemma overlap_silent (d : GridDefinition) (b : List (String × α)) :
    overlap d.silent.derived b = overlap d.derived b := by
  unfold overlap silent
  rw [any_map]
  rfl

lemma checkDerived_of_silenced {k : String} {v : Value} (h : Passes (d.silent.checkDerived library k (silenced v))) :
    d.checkDerived library k v = (mentionsIn v).map (d.mentionCheck library k) := by
  unfold checkDerived at h ⊢
  split at h
  · obtain ⟨s, hs⟩ := h _ mem_cons_self
    cases hs
  · rename_i hname
    rw [if_neg hname]
    cases v with
    | str code => rfl
    | _ =>
      obtain ⟨s, hs⟩ := h _ mem_cons_self
      cases hs

lemma passes_append {xs ys : List Check} : Passes (xs ++ ys) ↔ Passes xs ∧ Passes ys :=
  forall_mem_append

lemma quiet_map {xs : List α} {f : α → Except Fault Unit}
    (h : Passes (xs.map fun x => ⟨(f x).map fun _ => "", false⟩)) :
    Quiet (xs.map fun x => ⟨(f x).map fun _ => "", false⟩) := by
  intro y hy
  obtain ⟨s, hs⟩ := h y hy
  obtain ⟨x, -, rfl⟩ := mem_map.mp hy
  cases hx : f x with
  | error e =>
    rw [hx] at hs
    cases hs
  | ok u => rfl

lemma quiet_pair {a b : Bool} {e e' : Fault}
    (h : Passes [⟨if a then .error e else .ok "", false⟩, ⟨if b then .error e' else .ok "", false⟩]) :
    Quiet [⟨if a then .error e else .ok "", false⟩, ⟨if b then .error e' else .ok "", false⟩] := by
  intro x hx
  obtain ⟨s, hs⟩ := h x hx
  rcases mem_pair.mp hx with rfl | rfl
  · cases a <;> cases hs
    rfl
  · cases b <;> cases hs
    rfl

lemma check_of_silent (h : Passes (d.silent.check library)) :
    ∃ before after, Quiet before ∧ Quiet after ∧ d.check library =
      before ++ (d.mentionChecks library d.mentions ++ after) := by
  unfold check at h
  simp only [overlap_silent, sorted_silent, map_map, passes_append] at h
  obtain ⟨⟨⟨⟨⟨hf, hi⟩, ho⟩, hn⟩, hd⟩, hm⟩ := h
  have hme : ((sorted d.derived).map fun (k, v) => d.checkDerived library k v).flatten =
      d.mentionChecks library d.mentions := by
    unfold mentions mentionChecks
    rw [map_flatMap]
    refine flatMap_congr ?_
    rintro ⟨k, v⟩ he
    have hp : Passes (d.silent.checkDerived library k (silenced v)) :=
      fun x hx => hd x (mem_flatten.mpr ⟨_, mem_map_of_mem he, hx⟩)
    refine (checkDerived_of_silenced hp).trans ?_
    rw [map_map]
    rfl
  have hb : Quiet (_ ++ _ ++ _ ++ _) :=
    forall_mem_append.mpr ⟨forall_mem_append.mpr ⟨forall_mem_append.mpr
      ⟨quiet_pair hf, quiet_map hi⟩, quiet_map ho⟩, quiet_pair hn⟩
  refine ⟨_, _, hb, quiet_map hm, ?_⟩
  rw [← append_assoc, ← hme]
  rfl

/-! ## The look-up -/

/-- A transform leads from one of the names to this one, by its prefix or by adding it. -/
inductive ThroughPrefix (names : List String) (name : String) : Prop where
  | added (t : Transform) (h : t.tag ++ name ∈ names) : ThroughPrefix names name
  | removed (t : Transform) (rest : String) (hname : name = t.tag ++ rest) (h : rest ∈ names) : ThroughPrefix names name

lemma isSome_throughPrefix?_iff {name : String} :
    (Resolution.throughPrefix? grid name).isSome ↔ ThroughPrefix grid.names name := by
  constructor
  · intro h
    obtain ⟨⟨base, f⟩, hbase⟩ := Option.isSome_iff_exists.mp h
    obtain ⟨hmem, t, rfl | hdrop⟩ := throughPrefix?_some hbase
    · exact .added t hmem
    · obtain ⟨rest, hrest, rfl⟩ := Option.map_eq_some_iff.mp hdrop
      have hname := afterStart?_some hrest
      refine .removed t (String.ofList rest) ?_ hmem
      exact String.toList_inj.mp (by rw [hname, String.toList_append, String.toList_ofList])
  · have hall (t : Transform) : t ∈ Transform.all := by cases t <;> decide
    intro h
    unfold Resolution.throughPrefix?
    rw [findSome?_isSome_iff]
    cases h with
    | added t hmem => exact ⟨t, hall t, by rw [if_pos (contains_iff_mem.mpr hmem)]; rfl⟩
    | removed t rest hname hmem =>
      refine ⟨t, hall t, ?_⟩
      split
      · rfl
      · rw [hname]
        simp [Text.dropStart?, afterStart?_append, hmem]

lemma ofGrid_eq_unresolved_iff {k : Key} : Sources.ofGrid grid k = .error (.unresolved k.text) ↔
      k.name ∉ grid.names ∧ ¬ ThroughPrefix grid.names k.name := by
  rw [← isSome_throughPrefix?_iff]
  have hne (name : String) : Sources.ofGridName grid name k.index ≠ .error (.unresolved k.text) := by
    intro h
    cases Sources.ofGridName_refuses (P := (· = .badArgument)) rfl _ _ _ _ h
  unfold Sources.ofGrid
  by_cases hname : k.name ∈ grid.names
  · simp [hname, hne]
  · cases ht : Resolution.throughPrefix? grid k.name with
    | none => simp [hname]
    | some found =>
      simp only [contains_iff_mem, hname, Option.isSome_some, not_true, and_false, iff_false]
      intro h
      obtain h | ⟨_, -, ⟨⟩⟩ := bind_eq_error.mp h
      exact hne _ h

end GridBayes.GridDefinition

namespace GridBayes.Session
open Operation GridDefinition Deferred

/-! ## Making a grid -/

lemma looked_said (w : Session) (reads again : Bool) (said : String) :
    { w.looked reads with said := said }.looked again = { w.looked (reads || again) with said := said } := by
  cases reads <;> cases again <;> rfl

lemma outcome_runChecks_append {checks : List Check} {texts : List String} (h : checks.map Check.result = texts.map .ok)
    (rest : List Check) (w : Session) : outcome (runChecks (checks ++ rest)) w =
      outcome (runChecks rest) { w.looked (checks.any Check.reads) with said := w.said ++ String.join texts } := by
  induction checks generalizing w texts with
  | nil =>
    obtain rfl := List.map_eq_nil_iff.mp h.symm
    simp [looked]
  | cons c checks ih =>
    cases texts with
    | nil => cases h
    | cons s texts =>
      obtain ⟨hc, h⟩ := List.cons.inj h
      have hsaid : (w.looked c.reads).said = w.said := by cases c.reads <;> rfl
      rw [List.cons_append, runChecks, outcome_bind_ok (outcome_modify _ w), hc,
        outcome_bind_ok (outcome_ofExcept _ _), outcome_bind_ok (m := say s) (outcome_modify _ _), ih h, looked_said,
        List.any_cons, String.join_cons, hsaid, String.append_assoc]

lemma outcome_runChecks_quiet {before : List Check} (h : Quiet before) (rest : List Check) (w : Session) :
    outcome (runChecks (before ++ rest)) w = outcome (runChecks rest) w := by
  induction before with
  | nil => rfl
  | cons x before ih =>
    obtain ⟨rfl, hb⟩ := List.forall_mem_cons.mp h
    have hsame : { w with said := w.said ++ "" } = w := by rw [String.append_empty]
    exact (congrArg (outcome (runChecks (before ++ rest))) hsame).trans (ih hb)

/-- What follows the checks of a new grid: its file is written and the folder is read again. -/
def keep (d : GridDefinition) : SessionM Unit := do
  let w ← get
  let a ← ofExcept d.toArchive
  let store ← ofExcept (w.store.write (w.gridFile d.name) (.archive a))
  modify fun w => { w with store := store }
  reload

lemma outcome_create_of_ok {d : GridDefinition} {w : Session} {reads : Bool} {said : String}
    (h : outcome (runChecks (d.check w.library)) w = (.ok (), { w.looked reads with said := said })) :
    outcome (create d) w = outcome (keep d) { w.looked reads with said := said } := by
  unfold create keep
  rw [outcome_bind_ok (outcome_get w), outcome_bind_ok h, outcome_bind_ok (outcome_get _)]
  cases reads <;> rfl

variable {e : Fault}

lemma outcome_create_of_error {d : GridDefinition} {w t : Session}
    (h : outcome (runChecks (d.check w.library)) w = (.error e, t)) : outcome (create d) w = (.error e, t) := by
  unfold create
  rw [outcome_bind_ok (outcome_get w), outcome_bind_error h]

variable {w : Session} {d : GridDefinition}

/-- A derived value mentions another grid, so that the folder is read. -/
def mentionsOthers (d : GridDefinition) : Bool :=
  d.mentions.any fun m => m.2.grid.any (· != d.name)

lemma outcome_create_of_listed (ho : Passes (d.silent.check w.library))
    (hl : ∀ m ∈ d.mentions, ∀ e, ¬ d.Lacking w.library m.2 e) :
    outcome (create d) w = outcome (keep d) { w.looked (mentionsOthers d) with
      said := w.said ++ String.join (d.mentions.map fun m => d.warning w.library m.1 m.2) } := by
  obtain ⟨before, after, hb, ha, hc⟩ := check_of_silent ho
  have ht : (d.mentionChecks w.library d.mentions).map Check.result =
      (d.mentions.map fun m => d.warning w.library m.1 m.2).map .ok := by
    rw [mentionChecks, List.map_map, List.map_map]
    refine List.map_congr_left fun m hm => ?_
    show d.checkMention w.library m.1 m.2 = .ok (d.warning w.library m.1 m.2)
    cases hr : d.checkMention w.library m.1 m.2 with
    | error e => exact absurd (checkMention_eq_error_iff.mp hr) (hl _ hm e)
    | ok s => rw [checkMention_eq_ok hr]
  have hreads : (d.mentionChecks w.library d.mentions).any Check.reads = mentionsOthers d := List.any_map
  apply outcome_create_of_ok
  rw [hc, outcome_runChecks_quiet hb, outcome_runChecks_append ht, hreads, ← List.append_nil after,
    outcome_runChecks_quiet ha]
  rfl

lemma outcome_create_of_lacking (ho : Passes (d.silent.check w.library))
    (hl : ∃ m ∈ d.mentions, ∃ e, d.Lacking w.library m.2 e) :
    ∃ m ∈ d.mentions, ∃ e, d.Lacking w.library m.2 e ∧
      ∃ reads said, outcome (create d) w = (.error e, { w.looked reads with said := said }) := by
  obtain ⟨before, after, hb, -, hc⟩ := check_of_silent ho
  obtain ⟨passed, texts, m, rest, e, hm, he, htexts, hmap⟩ := exists_first_lacking hl
  refine ⟨m, hm, e, he, passed.any Check.reads || m.2.grid.any (· != d.name), w.said ++ String.join texts,
    outcome_create_of_error ?_⟩
  rw [hc, outcome_runChecks_quiet hb, hmap, List.append_assoc, outcome_runChecks_append htexts, ← looked_said]
  rfl

/-- Where all else is in order, a new grid is refused exactly for names that the mentioned grid does not list, and
nothing is written; missing grids are only named. Names that a transform leads to are refused too. The folder is read for
each mention of another grid. -/
theorem create_refuses_exactly_unlisted_mentions (w : Session) (d : GridDefinition)
    (hothers : Passes (d.silent.check w.library)) :
    ((∀ m ∈ d.mentions, ∀ e, ¬ d.Lacking w.library m.2 e) → outcome (create d) w =
        outcome (keep d) { w.looked (mentionsOthers d) with
          said := w.said ++ String.join (d.mentions.map fun m => d.warning w.library m.1 m.2) }) ∧
    ((∃ m ∈ d.mentions, ∃ e, d.Lacking w.library m.2 e) → ∃ m ∈ d.mentions, ∃ e, d.Lacking w.library m.2 e ∧
        ∃ reads said, outcome (create d) w = (.error e, { w.looked reads with said := said })) ∧
    ∀ grid : Grid, (∀ n, n ∈ grid.names ↔ n ∈ d.defined) → ∀ m ∈ d.mentions,
      m.2.grid = some d.name → ∀ index, let k : Key := ⟨some d.name, m.2.name, index⟩
      (Sources.ofGrid grid k ≠ .error (.unresolved k.text) ↔ m.2.name ∈ d.defined ∨ ThroughPrefix grid.names m.2.name) ∧
      ((∃ e, d.Lacking w.library m.2 e) ↔ m.2.name ∉ d.defined) := by
  refine ⟨outcome_create_of_listed hothers, outcome_create_of_lacking hothers, ?_⟩
  intro grid hn m _ hown index k
  refine ⟨?_, ?_⟩
  · rw [Ne, ofGrid_eq_unresolved_iff, hn, not_and_or, not_not, not_not]
  · refine ⟨?_, fun hname => ⟨_, .own hown hname⟩⟩
    rintro ⟨e, ⟨-, hname⟩ | ⟨hgrid, hne, -, -, -⟩ | ⟨hgrid, hne, -⟩⟩
    · exact hname
    · exact absurd (Option.some.inj (hgrid.symm.trans hown)) hne
    · exact absurd (Option.some.inj (hgrid.symm.trans hown)) hne

/-! ## A grid with one derived value -/

def lineWith (code : String) : GridDefinition where
  name := "gr"
  inputs := [("a", ⟨[2], #[0.0, 1.0]⟩)]
  outputs := [("n", ⟨[2], #[1.0, 2.0]⟩)]
  derived := [("m", .str code)]

lemma library_empty : Session.library {} = .ok [] := rfl

lemma mentions_lineWith (code : String) : (lineWith code).mentions = (references code).map (Prod.mk "m") :=
  List.append_nil _

lemma passes_lineWith (code : String) : Passes ((lineWith code).silent.check (Session.library {})) := by
  have hi : checkInput "a" ⟨[2], #[0.0, 1.0]⟩ = .ok () := rfl
  have ho : checkOutput [2] "n" ⟨[2], #[1.0, 2.0]⟩ = .ok () := by
    unfold checkOutput
    rw [← Array.any_toList]
    rfl
  have hc : (lineWith code).silent.check (Session.library {}) = List.replicate 6 ⟨.ok "", false⟩ := by
    show _ ++ [Check.mk ((checkInput "a" _).map _) _] ++ [Check.mk ((checkOutput [2] "n" _).map _) _] ++ _ ++ _ ++ _ = _
    rw [ho]
    rfl
  rw [hc]
  exact fun x hx => ⟨"", by rw [List.eq_of_mem_replicate hx]⟩

lemma lacking_lineWith_iff {code : String} {r : Reference} : (lineWith code).Lacking (Session.library {}) r e ↔
      e = .missingPart ∧ r.grid = some "gr" ∧ r.name ∉ ["a", "n", "m"] := by
  rw [library_empty]
  constructor
  · rintro (⟨hgrid, hname⟩ | ⟨-, -, ⟨⟩, hl, -⟩ | ⟨-, -, ⟨⟩⟩)
    · exact ⟨rfl, hgrid, hname⟩
    · cases hl
  · rintro ⟨rfl, hgrid, hname⟩
    exact .own hgrid hname

/-- The logarithm of an output, which the look-up has, cannot be mentioned. -/
theorem lineWith_log_refused : Passes ((lineWith "2*g.gr.log_n").silent.check (Session.library {})) ∧
      ThroughPrefix (lineWith "2*g.gr.log_n").defined "log_n" ∧
      ∃ said, outcome (create (lineWith "2*g.gr.log_n")) {} = (.error .missingPart, { said := said }) := by
  refine ⟨passes_lineWith _, .removed .log10 "n" (by decide) (by decide), ?_⟩
  have hm : (lineWith "2*g.gr.log_n").mentions = [("m", ⟨some "gr", "log_n", none⟩)] := by
    rw [mentions_lineWith]
    rfl
  obtain ⟨m, -, e, hl, hr⟩ := outcome_create_of_lacking (passes_lineWith "2*g.gr.log_n")
    ⟨_, hm ▸ List.mem_cons_self, .missingPart, lacking_lineWith_iff.mpr (by decide)⟩
  rw [(lacking_lineWith_iff.mp hl).1] at hr
  obtain ⟨reads, said, hr⟩ := hr
  exact ⟨said, by cases reads <;> exact hr⟩

/-- An output of the grid itself and a name of a grid that is not there can be mentioned. -/
theorem lineWith_unknown_accepted : Passes ((lineWith "g.gr.n + g.other.x").silent.check (Session.library {})) ∧
      outcome (create (lineWith "g.gr.n + g.other.x")) {} = outcome (keep (lineWith "g.gr.n + g.other.x"))
        { said := "Warning: derived value m refers to an undefined grid other.\n" } := by
  refine ⟨passes_lineWith _, ?_⟩
  have hme : (lineWith "g.gr.n + g.other.x").mentions =
      [("m", ⟨some "gr", "n", none⟩), ("m", ⟨some "other", "x", none⟩)] := by
    rw [mentions_lineWith]
    rfl
  refine ((create_refuses_exactly_unlisted_mentions {} _ (passes_lineWith _)).1 ?_).trans ?_
  · rw [hme]
    intro m hm e he
    obtain ⟨-, hgrid, hname⟩ := lacking_lineWith_iff.mp he
    rcases List.mem_pair.mp hm with rfl | rfl
    · exact hname (by decide)
    · exact absurd hgrid (by decide)
  · rw [hme, library_empty]
    rfl

end GridBayes.Session
