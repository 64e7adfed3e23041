import GridBayes.Proofs.ComponentOrder
import GridBayes.Sampler.Fit
import GridBayes.Sampler.HalvedEnsemble

/-! The constants that stand for interpolators. Such a constant is named by a grid and an output with two
underscores between, and the model and the sampler split the name there again. They get the grid and the
output back exactly if the output's name holds no two underscores in a row and the grid's does not start
with them. -/
namespace GridBayes.Text
open List
open Deferred (splitWordFrom_cons)

/-! ## Splitting at two underscores -/

def joint : List Char :=
  ['_', '_']

lemma splitWordFrom_joint (b : List Char) : splitWordFrom joint 0 (joint ++ b) = [] :: splitWordFrom joint 0 b := by
  rfl

lemma splitWordFrom_first {a : List Char} (h : ¬ joint <:+: a ++ ['_']) (b : List Char) :
    splitWordFrom joint 0 (a ++ (joint ++ b)) = a :: splitWordFrom joint 0 b := by
  induction a with
  | nil => exact splitWordFrom_joint b
  | cons c a ih =>
    have hs : ¬ joint <+: c :: (a ++ (joint ++ b)) := by
      rintro ⟨after, ha⟩
      cases a with
      | nil =>
        cases ha
        exact h (infix_refl _)
      | cons d a =>
        obtain ⟨rfl, hnext⟩ := cons.inj ha
        cases hnext
        exact h ⟨[], a ++ ['_'], rfl⟩
    rw [cons_append, splitWordFrom_cons hs, ih fun hi => h (infix_cons hi)]

end GridBayes.Text

namespace GridBayes.Deferred
open List Operation Text

/-! ## Outputs that can be mentioned -/

/-- The name of the constant that stands for the interpolator of an output. -/
def constantFor (grid output : String) : String :=
  "grid__" ++ grid ++ "__" ++ output

lemma toList_constantFor (grid output : String) : (constantFor grid output).toList =
    "grid".toList ++ (joint ++ (grid.toList ++ (joint ++ output.toList))) := by
  simp [constantFor, joint]

/-- The text with the grid is read as a mention of the output, and the text of its key as that key. -/
structure Referable (grid output : String) : Prop where
  mention : references ("g." ++ grid ++ "." ++ output) = [⟨some grid, output, none⟩]
  key : Key.ofText? (grid ++ "__" ++ output) = some ⟨some grid, output, none⟩

/-- The output has no two underscores in a row, and the grid does not start with them. -/
structure PlainNames (grid output : String) : Prop where
  grid : ¬ joint <+: grid.toList
  output : ¬ joint <:+: output.toList

lemma splitGrid_le {done x y grid name : List Char} (hx : done ++ x ≠ []) (hy : y ≠ [])
    (h : splitGrid done (x ++ (joint ++ y)) = some (grid, name)) : grid.length ≤ (done ++ x).length := by
  induction x generalizing done with
  | nil =>
    rw [append_nil] at hx
    have hs : splitGrid done ([] ++ (joint ++ y)) = some (done, y) := by
      show splitGrid done ('_' :: '_' :: y) = _
      rw [splitGrid, if_neg (by simp [hx, hy])]
    rw [hs] at h
    cases h
    simp
  | cons c x ih =>
    rw [cons_append] at h
    unfold splitGrid at h
    have hmore (hrest : splitGrid (done ++ [c]) (x ++ (joint ++ y)) = some (grid, name)) :
        grid.length ≤ (done ++ c :: x).length := by
      have hle := ih (by simp) hrest
      simpa using hle
    split at h
    · split at h
      · exact hmore h
      · obtain ⟨rfl, -⟩ := Prod.mk.inj (Option.some.inj h)
        simp
    · exact hmore h

lemma two_le_length_grid {source : String} {r : Reference} {g : String} (h : r ∈ references source)
    (hg : r.grid = some g) : 2 ≤ g.toList.length := by
  obtain ⟨before, after, rest, -, hrule⟩ := Text.mem_hits_pieces h
  have hread := (atWord_eq_some.mp hrule).2
  unfold referenceAt? at hread
  split at hread
  · rcases Option.or_eq_some_iff.mp hread with hgridded | ⟨-, hnamed⟩
    · unfold griddedAt? at hgridded
      split at hgridded
      · obtain ⟨hlong, hnamed⟩ := Option.ite_none_right_eq_some.mp hgridded
        obtain ⟨name, index, -, -, rfl, -⟩ := namedAt?_some hnamed
        obtain rfl := Option.some.inj hg
        rwa [String.toList_ofList]
      · cases hgridded
    · obtain ⟨name, index, -, -, rfl, -⟩ := namedAt?_some hnamed
      cases hg
  · cases hread

namespace Referable

variable {grid output : String} (h : Referable grid output)

include h

lemma written : Key.Written ⟨some grid, output, none⟩ := ⟨_, (Key.ofText?_some h.key).2 _ (Nat.le_refl _)⟩

lemma splitGrid_eq : splitGrid [] (grid.toList ++ (joint ++ output.toList)) = some (grid.toList, output.toList) := by
  obtain ⟨-, word, index, -, -, hkey, -⟩ := h.written
  unfold keyOfWord at hkey
  split at hkey
  · rename_i g n hs
    have hword : word = g ++ '_' :: '_' :: n := splitGrid_some hs
    injection hkey with hgrid hname
    obtain rfl : grid = String.ofList g := Option.some.inj hgrid
    rw [hname, String.toList_ofList, String.toList_ofList]
    rwa [hword] at hs
  · injection hkey with hgrid
    cases hgrid

lemma free_iff : ¬ joint <:+: grid.toList ++ ['_'] ↔ ¬ joint <+: grid.toList := by
  refine not_congr ⟨?_, fun hst => (hst.isInfix).trans (infix_append' [] _ _)⟩
  rintro ⟨x, y, hxy⟩
  have hlong := two_le_length_grid (h.mention ▸ mem_singleton_self _) rfl
  by_cases hx : x = []
  · subst hx
    exact prefix_of_prefix_length_le ⟨y, hxy⟩ (prefix_append _ _) hlong
  · -- the word would be split at this joint
    have hword : grid.toList ++ (joint ++ output.toList) = x ++ (joint ++ (y ++ '_' :: output.toList)) := by
      have hcut : grid.toList ++ (joint ++ output.toList) = grid.toList ++ ['_'] ++ '_' :: output.toList := by
        simp [joint]
      rw [hcut, ← hxy]
      simp
    have hs := h.splitGrid_eq
    rw [hword] at hs
    have hle := splitGrid_le (by exact hx) (by simp) hs
    have hsize := congrArg length hxy
    simp only [joint, length_append, length_cons, length_nil] at hsize hle
    omega

lemma gridColumn_of_plain (hp : PlainNames grid output) :
    Model.gridColumn (constantFor grid output) = .ok (grid, output) := by
  have hs : splitWord "__" (constantFor grid output) = ["grid", grid, output] := by
    show (splitWordFrom joint 0 _).map String.ofList = _
    rw [toList_constantFor, splitWordFrom_first (by decide), splitWordFrom_first (h.free_iff.mpr hp.grid),
      splitWordFrom_free hp.output]
    simp
  unfold Model.gridColumn
  rw [hs]

lemma gridColumn_of_not_plain (hp : ¬ PlainNames grid output) :
    Model.gridColumn (constantFor grid output) = .error .badUnpacking := by
  have hmany : 4 ≤ (splitWord "__" (constantFor grid output)).length := by
    unfold splitWord
    rw [length_map]
    show 4 ≤ (splitWordFrom joint 0 _).length
    rw [toList_constantFor, splitWordFrom_first (by decide)]
    by_cases hgrid : joint <+: grid.toList
    · obtain ⟨rest, hrest⟩ := hgrid
      rw [← hrest, append_assoc, splitWordFrom_joint]
      have htwo : joint <:+: rest ++ (joint ++ output.toList) := ⟨rest, output.toList, by simp⟩
      simpa [joint] using two_le_length_splitWordFrom htwo
    · rw [splitWordFrom_first (h.free_iff.mpr hgrid)]
      have ho : joint <:+: output.toList := by
        by_contra hfree
        exact hp ⟨hgrid, hfree⟩
      simpa [joint] using two_le_length_splitWordFrom ho
  unfold Model.gridColumn
  split
  · rename_i heq
    rw [heq] at hmany
    simp at hmany
  · rfl

lemma mem_symbols_interpolation {g : Grid} (hg : g.name = grid) :
    Symbol.var .const (constantFor grid output) ∈ Template.symbols (Resolution.interpolation g output) := by
  subst hg
  have hs := h.written.spelled
  have hword : ∀ c ∈ (constantFor g.name output).toList, isWord c = true := by
    rw [toList_constantFor]
    simp only [forall_mem_append]
    have hj : ∀ c ∈ joint, isWord c = true := all_eq_true.mp rfl
    exact ⟨all_eq_true.mp rfl, hj, hs.grid g.name rfl, hj, hs.name⟩
  obtain ⟨rest, hrest⟩ : ∃ rest, (Resolution.interpolation g output).toList =
      'c' :: '.' :: ((constantFor g.name output).toList ++ '.' :: rest) := by
    unfold Resolution.interpolation constantFor
    simp
  obtain ⟨name, hname⟩ : ∃ name, (constantFor g.name output).toList = 'g' :: name :=
    ⟨_, toList_constantFor g.name output⟩
  have hv : Symbol.variableAt? ('c' :: '.' :: ((constantFor g.name output).toList ++ '.' :: rest)) =
      some ((.const, (constantFor g.name output).toList), '.' :: rest) := by
    change Symbol.variableAt? (VarKind.const.letter :: _) = _
    refine variableAt?_append ⟨'g', name, hname, rfl⟩ hword ?_
    rintro _ ⟨⟩
    decide
  have hrule : Symbol.variableRule [] ('c' :: '.' :: ((constantFor g.name output).toList ++ '.' :: rest)) =
      some (.var .const (constantFor g.name output), '.' :: rest) := by
    simp [Symbol.variableRule, Rule.atWord, afterWord, Symbol.symbolAt?, hv]
  unfold Template.symbols Template.variablePieces
  rw [SymbolSet.mem_ofList, hrest, pieces, piecesFrom, hrule]
  exact mem_cons_self

end Referable

/-! ## Loading -/

def interpolatorOf (grids : Registry) (p : String × String) : Except Fault (String × Interpolator Float) :=
  match grids.lookup p.1 with
  | none => .error .missingField
  | some g => (g.build p.2 [] id).map (Prod.mk (constantFor p.1 p.2))

def numbersOf (given : List (String × Float)) (names : List String) : List (String × Float) :=
  names.filterMap fun c => (given.lookup c).map (Prod.mk c)

def GivesNumbers (given : List (String × Float)) (names : List String) : Prop :=
  ∀ c ∈ names, (given.lookup c).isSome = !startsWith "grid__" c

variable {grids : Registry} {given : List (String × Float)} {names : List String} {pairs : List (String × String)}

lemma startsWith_constantFor (grid output : String) : startsWith "grid__" (constantFor grid output) = true := by
  have hs := afterStart?_append "grid__".toList (grid.toList ++ ("__".toList ++ output.toList))
  unfold startsWith constantFor
  rw [String.toList_append, String.toList_append, String.toList_append, append_assoc, append_assoc]
  rfl

/-! One constant at a time. -/

lemma load_number {c : String} {x : Float} (hx : given.lookup c = some x) (hc : startsWith "grid__" c = false)
    (library : Except Fault Registry) (m : Model Float) :
    Model.load library given (c :: names) m =
      Model.load library given names { m with constants := m.constants ++ [(c, x)] } := by
  rw [Model.load]
  simp only [hx, hc]
  rfl

variable {p : String × String}

lemma load_interpolator (hp : Referable p.1 p.2) (hpl : PlainNames p.1 p.2)
    (hx : given.lookup (constantFor p.1 p.2) = none) (m : Model Float) :
    Model.load (.ok grids) given (constantFor p.1 p.2 :: names) m = interpolatorOf grids p >>= fun built =>
        Model.load (.ok grids) given names { m with interpolators := m.interpolators ++ [built] } := by
  rw [Model.load]
  simp only [hx, startsWith_constantFor, hp.gridColumn_of_plain hpl]
  unfold interpolatorOf
  show (match grids.lookup p.1 with
    | none => throw Fault.missingField
    | some g => _) = _
  cases grids.lookup p.1 with
  | none => rfl
  | some g =>
    show (g.build p.2 [] id >>= fun built => _) = (g.build p.2 [] id).map _ >>= _
    cases g.build p.2 [] id <;> rfl

lemma load_unreadable (hp : Referable p.1 p.2) (hpl : ¬ PlainNames p.1 p.2)
    (hx : given.lookup (constantFor p.1 p.2) = none) (library : Except Fault Registry) (m : Model Float) :
    Model.load library given (constantFor p.1 p.2 :: names) m = .error .badUnpacking := by
  rw [Model.load]
  simp only [hx, startsWith_constantFor, hp.gridColumn_of_not_plain hpl]
  rfl

/-! All constants. -/

lemma load_of_plain (hg : GivesNumbers given names)
    (hpa : names.filter (startsWith "grid__") = pairs.map fun p => constantFor p.1 p.2)
    (hr : ∀ p ∈ pairs, Referable p.1 p.2) (hpl : ∀ p ∈ pairs, PlainNames p.1 p.2) (m : Model Float) :
    Model.load (.ok grids) given names m = pairs.mapM (interpolatorOf grids) >>= fun built =>
      .ok { m with
        constants := m.constants ++ numbersOf given names
        interpolators := m.interpolators ++ built } := by
  induction names generalizing m pairs with
  | nil =>
    obtain rfl : pairs = [] := map_eq_nil_iff.mp hpa.symm
    simp [Model.load, numbersOf, pure, Except.pure, bind, Except.bind]
  | cons c names ih =>
    obtain ⟨hc, hn⟩ := forall_mem_cons.mp hg
    cases hs : startsWith "grid__" c with
    | false =>
      rw [hs] at hc
      obtain ⟨x, hx⟩ := Option.isSome_iff_exists.mp hc
      rw [filter_cons_of_neg (by simp [hs])] at hpa
      rw [load_number hx hs, ih hn hpa hr hpl]
      simp [numbersOf, hx]
    | true =>
      rw [hs] at hc
      have hx : given.lookup c = none := by simpa using hc
      rw [filter_cons_of_pos hs] at hpa
      obtain ⟨p, pairs, rfl, rfl, hrest⟩ := map_eq_cons_iff.mp hpa.symm
      obtain ⟨hp, hr⟩ := forall_mem_cons.mp hr
      obtain ⟨hpp, hpl⟩ := forall_mem_cons.mp hpl
      have hnu : numbersOf given (constantFor p.1 p.2 :: names) = numbersOf given names := by simp [numbersOf, hx]
      rw [load_interpolator hp hpp hx, hnu, mapM_cons, bind_assoc]
      refine bind_congr fun built => ?_
      rw [ih hn hrest.symm hr hpl]
      simp

/-- A constant that cannot be read back ends the loading, unless an interpolator before it does. -/
lemma load_of_not_plain (hg : GivesNumbers given names)
    (hpa : names.filter (startsWith "grid__") = pairs.map fun p => constantFor p.1 p.2)
    (hr : ∀ p ∈ pairs, Referable p.1 p.2) (hpl : ∃ p ∈ pairs, ¬ PlainNames p.1 p.2) (m : Model Float) :
    ∃ e, Model.load (.ok grids) given names m = .error e ∧
      (e = .badUnpacking ∨ ∃ p ∈ pairs, PlainNames p.1 p.2 ∧ interpolatorOf grids p = .error e) := by
  induction names generalizing m pairs with
  | nil =>
    obtain rfl : pairs = [] := map_eq_nil_iff.mp hpa.symm
    simp at hpl
  | cons c names ih =>
    obtain ⟨hc, hn⟩ := forall_mem_cons.mp hg
    cases hs : startsWith "grid__" c with
    | false =>
      rw [hs] at hc
      obtain ⟨x, hx⟩ := Option.isSome_iff_exists.mp hc
      rw [filter_cons_of_neg (by simp [hs])] at hpa
      rw [load_number hx hs]
      exact ih hn hpa hr hpl _
    | true =>
      rw [hs] at hc
      have hx : given.lookup c = none := by simpa using hc
      rw [filter_cons_of_pos hs] at hpa
      obtain ⟨p, pairs, rfl, rfl, hrest⟩ := map_eq_cons_iff.mp hpa.symm
      obtain ⟨hp, hr⟩ := forall_mem_cons.mp hr
      by_cases hpp : PlainNames p.1 p.2
      · rw [load_interpolator hp hpp hx]
        cases hb : interpolatorOf grids p with
        | error e => exact ⟨e, rfl, Or.inr ⟨p, mem_cons_self, hpp, hb⟩⟩
        | ok built =>
          have ho := ((exists_mem_cons_iff ..).mp hpl).resolve_left (not_not.mpr hpp)
          obtain ⟨e, he, hca⟩ := ih hn hrest.symm hr ho { m with interpolators := m.interpolators ++ [built] }
          refine ⟨e, he, hca.imp_right ?_⟩
          rintro ⟨q, hq, hq'⟩
          exact ⟨q, mem_cons_of_mem _ hq, hq'⟩
      · exact ⟨_, load_unreadable hp hpp hx _ _, Or.inl rfl⟩

/-! ## The grids of a sampler -/

def outputsOf (pairs : List (String × String)) (grid : String) : List String :=
  (pairs.filter (·.1 == grid)).map (·.2)

lemma lookup_grouped (pairs : List (String × String)) (used : List (String × List String)) (grid : String) :
    ((pairs.foldl (fun used (grid, name) => setEntry used grid ((used.lookup grid).getD [] ++ [name]))
      used).lookup grid).getD [] = (used.lookup grid).getD [] ++ outputsOf pairs grid := by
  induction pairs generalizing used with
  | nil => simp [outputsOf]
  | cons p pairs ih =>
    rw [foldl_cons, ih, lookup_setEntry]
    by_cases hp : p.1 = grid
    · simp [hp, outputsOf]
    · simp [hp, Ne.symm hp, outputsOf]

lemma lookup_constantTypes {grid output code : String} {index : Option String} {b t : Builder}
    (hcode : startsWith "c.grid__" code = true)
    (h : outcome (Builder.push ⟨some grid, index, output, code⟩) b = (.ok (), t)) :
    t.constantTypes.lookup (constantFor grid output) = some "GridInterpolator" := by
  obtain ⟨a, -, said, used, rfl⟩ := (Builder.follows_push ⟨some grid, index, output, code⟩ b).of_outcome h
  have hname : Builder.interpolator? ⟨some grid, index, output, code⟩ = some (constantFor grid output) := by
    unfold Builder.interpolator? constantFor
    rw [if_pos hcode, String.append_assoc, String.append_assoc]
    rfl
  simp only [Builder.withGenerated, Builder.withInterpolators, foldl_cons, foldl_nil, hname]
  exact (lookup_setEntry _ _ _ _).trans (if_pos rfl)

section

variable [EnsembleLibrary] {s : Sampler}

lemma gridsUsed_of_plain
    (hpa : s.code.constantNames.filter (startsWith "grid__") = pairs.map fun p => constantFor p.1 p.2)
    (hr : ∀ p ∈ pairs, Referable p.1 p.2) (hpl : ∀ p ∈ pairs, PlainNames p.1 p.2) :
    ∃ used, s.gridsUsed = .ok used ∧ ∀ grid, (used.lookup grid).getD [] = outputsOf pairs grid := by
  have hc : (s.code.constantNames.filter (startsWith "grid__")).mapM Model.gridColumn = .ok pairs := by
    rw [hpa, mapM_eq_ok, forall₂_map_left_iff, forall₂_same]
    exact fun p hp => (hr p hp).gridColumn_of_plain (hpl p hp)
  refine ⟨_, bind_eq_ok.mpr ⟨pairs, hc, rfl⟩, fun grid => ?_⟩
  exact lookup_grouped pairs [] grid

lemma gridsUsed_of_not_plain
    (hpa : s.code.constantNames.filter (startsWith "grid__") = pairs.map fun p => constantFor p.1 p.2)
    (hr : ∀ p ∈ pairs, Referable p.1 p.2) (hpl : ∃ p ∈ pairs, ¬ PlainNames p.1 p.2) :
    s.gridsUsed = .error .badUnpacking := by
  have hc : (pairs.map fun p => constantFor p.1 p.2).mapM Model.gridColumn = .error .badUnpacking := by
    clear hpa
    induction pairs with
    | nil => simp at hpl
    | cons p pairs ih =>
      obtain ⟨hp, hr⟩ := forall_mem_cons.mp hr
      rw [map_cons, mapM_cons]
      by_cases hpp : PlainNames p.1 p.2
      · have ho := ((exists_mem_cons_iff ..).mp hpl).resolve_left (not_not.mpr hpp)
        rw [hp.gridColumn_of_plain hpp, ih hr ho]
        rfl
      · rw [hp.gridColumn_of_not_plain hpp]
        rfl
  unfold Sampler.gridsUsed
  rw [hpa, hc]
  rfl

/-- Constants for interpolators are named by a grid and an output. If these names are plain, sampler and model read
each constant back as that grid and output. Otherwise the sampler cannot list its grids, and there is no model. -/
theorem grid_constants_read_back_iff_plain (code : ModelCode) (pairs : List (String × String))
    (hpairs : code.constantNames.filter (startsWith "grid__") = pairs.map fun p => constantFor p.1 p.2)
    (hreferable : ∀ p ∈ pairs, Referable p.1 p.2) :
    (∀ p ∈ pairs, (∀ g : Grid, g.name = p.1 →
        Symbol.var .const (constantFor p.1 p.2) ∈ Template.symbols (Resolution.interpolation g p.2)) ∧
      (∀ index text b t, startsWith "c.grid__" text = true →
        outcome (Builder.push ⟨some p.1, index, p.2, text⟩) b = (.ok (), t) →
          t.constantTypes.lookup (constantFor p.1 p.2) = some "GridInterpolator") ∧
      (PlainNames p.1 p.2 → Model.gridColumn (constantFor p.1 p.2) = .ok p) ∧
      (¬ PlainNames p.1 p.2 → Model.gridColumn (constantFor p.1 p.2) = .error .badUnpacking)) ∧
    ((∀ p ∈ pairs, PlainNames p.1 p.2) → (∀ s : Sampler, s.code = code → ∃ used, s.gridsUsed = .ok used ∧
        ∀ grid, (used.lookup grid).getD [] = outputsOf pairs grid) ∧
      ∀ grids given, GivesNumbers given code.constantNames →
        Model.create code (.ok grids) given = pairs.mapM (interpolatorOf grids) >>= fun built =>
          .ok ⟨code, numbersOf given code.constantNames, built⟩) ∧
    ((∃ p ∈ pairs, ¬ PlainNames p.1 p.2) → (∀ s : Sampler, s.code = code → s.gridsUsed = .error .badUnpacking) ∧
      ∀ grids given, GivesNumbers given code.constantNames → ∃ e, Model.create code (.ok grids) given = .error e ∧
          (e = .badUnpacking ∨ ∃ p ∈ pairs, PlainNames p.1 p.2 ∧ interpolatorOf grids p = .error e)) := by
  refine ⟨fun p hp => ⟨fun g => (hreferable p hp).mem_symbols_interpolation, ?_, ?_, ?_⟩, fun hpl => ⟨?_, ?_⟩,
    fun hpl => ⟨?_, ?_⟩⟩
  · exact fun index text b t => lookup_constantTypes
  · exact (hreferable p hp).gridColumn_of_plain
  · exact (hreferable p hp).gridColumn_of_not_plain
  · rintro s rfl
    exact gridsUsed_of_plain hpairs hreferable hpl
  · intro grids given hg
    exact load_of_plain hg hpairs hreferable hpl _
  · rintro s rfl
    exact gridsUsed_of_not_plain hpairs hreferable hpl
  · intro grids given hg
    exact load_of_not_plain hg hpairs hreferable hpl _

end

/-! A program that reads two outputs of one grid, one of them with underscores in its name. -/

def twoOutputs : ModelCode :=
  { (Model.impossible : Model Float).code with constantNames := ["grid__gr__n", "grid__gr__n__1", "k"] }

lemma referable_indexed : Referable "gr" "n__1" where
  mention := by decide +kernel
  key := by decide +kernel

/-- The constant of an output that can be mentioned is not read back. -/
theorem grid_constant_unreadable : GridDefinition.isValidName "n__1" = true ∧ Referable "gr" "n__1" ∧
      Model.gridColumn (constantFor "gr" "n__1") = .error .badUnpacking :=
  ⟨by decide, referable_indexed, by decide +kernel⟩

theorem grid_constants_read_back_iff_plain_twoOutputs : twoOutputs.constantNames.filter (startsWith "grid__") =
      [("gr", "n"), ("gr", "n__1")].map (fun p => constantFor p.1 p.2) ∧
    ∀ s : Sampler, s.code = twoOutputs → s.gridsUsed = .error .badUnpacking := by
  have hpa : twoOutputs.constantNames.filter (startsWith "grid__") =
      [("gr", "n"), ("gr", "n__1")].map (fun p => constantFor p.1 p.2) := by decide +kernel
  refine ⟨hpa, ((grid_constants_read_back_iff_plain twoOutputs _ hpa ?_).2.2 ?_).1⟩
  · intro p hp
    rcases mem_pair.mp hp with rfl | rfl
    · exact ⟨by decide +kernel, by decide +kernel⟩
    · exact referable_indexed
  · exact ⟨("gr", "n__1"), by simp, fun h => h.output ⟨['n'], ['1'], rfl⟩⟩

end GridBayes.Deferred
