import Mathlib
import GridBayes.Posterior
import GridBayes.Proofs.FinishedRun
import GridBayes.Proofs.WrittenFile
import GridBayes.Sampler.HalvedEnsemble

/-! What a saved posterior is read back as. The samples, their statistics, the values of the constants and all texts come
back; the names of the constants do not, as those of the outputs are read in their place. -/
namespace GridBayes
open Operation List

/-! ## Entries of an archive -/

/-- The text that is kept of a text: no zero characters at its end. -/
def Text.kept (s : String) : String :=
  String.ofList (s.toList.reverse.dropWhile (· == '\x00')).reverse

lemma Text.kept_eq {s : String} (h : s.toList.getLast? ≠ some '\x00') : kept s = s := by
  rw [← head?_reverse] at h
  have hdrop : s.toList.reverse.dropWhile (· == '\x00') = s.toList.reverse := by
    cases hs : s.toList.reverse with
    | nil => rfl
    | cons c cs =>
      rw [hs] at h
      exact dropWhile_cons_of_neg (by simpa using h)
  rw [kept, hdrop, reverse_reverse, String.ofList_toList]

namespace Tensor

variable {α : Type}

lemma chunks_flatten (width : Nat) (rows : List (List α)) (h : ∀ r ∈ rows, r.length = width) :
    chunks width rows.length rows.flatten = rows := by
  induction rows with
  | nil => rfl
  | cons r rows ih =>
    obtain ⟨hr, h⟩ := forall_mem_cons.mp h
    rw [length_cons, chunks, flatten_cons, take_left' hr, drop_left' hr, ih h]

lemma chunks_one (xs : List α) : chunks 1 xs.length xs = xs.map ([·]) := by
  induction xs with
  | nil => rfl
  | cons x xs ih => exact congrArg _ ih

end Tensor

namespace StoredArray

lemma kind_texts (x : String) (xs : List String) : CellKind.ofCells ((x :: xs).map Cell.ofText) = .text := by
  have hw (cells : List Cell) : cells.foldl (fun k c => CellKind.wider k c.kind) .text = .text := by
    induction cells with
    | nil => rfl
    | cons c cells ih => cases c <;> exact ih
  have hall : ((x :: xs).map Cell.ofText).foldl (fun k c => CellKind.wider k c.kind) .flag = .text := hw _
  simp only [CellKind.ofCells, hall]
  rfl

lemma texts_ofTexts (xs : List String) : (ofTexts xs).texts = .ok (xs.map Text.kept) := by
  cases xs with
  | nil => rfl
  | cons x xs =>
    have hce : ((x :: xs).map Cell.ofText).map (Cell.widen .text) = (x :: xs).map fun y => .text (Text.kept y) :=
      map_map
    have hc := Tensor.chunks_one ((x :: xs).map fun y => Cell.text (Text.kept y))
    simp only [texts, parts, ofTexts, ofCells, kind_texts, hce, shape, Tensor.volume, foldr_nil]
    rw [length_map] at hc
    rw [hc]
    simp [Except.map, text, shape, Cell.toText, Cell.toValue, Value.text]

lemma beside_reals {width n : Nat} {rows : List (List Float)} (h : ∀ r ∈ rows, r.length = width) :
    (ofReals ⟨[rows.length, min n width], (rows.map (·.take n)).flatten.toArray⟩).beside
      (ofReals ⟨[rows.length, width - n], (rows.map (·.drop n)).flatten.toArray⟩) =
      .ok (ofReals ⟨[rows.length, width], rows.flatten.toArray⟩) := by
  have hpart (part : List Float → List Float) (w : Nat) (hpart : ∀ r ∈ rows, (part r).length = w) :
      Tensor.chunks w rows.length (rows.map (map (Cell.widen .real) ∘ map Cell.real ∘ part)).flatten =
        rows.map fun r => (part r).map Cell.real := by
    have hce : map (Cell.widen .real) ∘ map Cell.real ∘ part = fun r => (part r).map Cell.real :=
      funext fun r => map_map
    have hc := Tensor.chunks_flatten w (rows.map fun r => (part r).map Cell.real) (by simpa using hpart)
    rw [length_map] at hc
    rwa [hce]
  have htake := hpart (·.take n) (min n width) fun r hr => by rw [length_take, h r hr]
  have hdrop := hpart (·.drop n) (width - n) fun r hr => by rw [length_drop, h r hr]
  have hs : min n width + (width - n) = width := by omega
  simp [beside, ofReals, Tensor.map, asVector, shape, CellKind.wider, Tensor.volume, hs, htake, hdrop]

end StoredArray

/-! ## Covariances -/

lemma mul_comm_float (a b : Float) : a * b = b * a := by
  have hsign (s t : Float.Model.UnpackedFloat.Sign) : s * t = t * s := by cases s <;> cases t <;> rfl
  have hmul (spec : Float.Model.Format) (x y : Float.Model.UnpackedFloat) : x.mul spec y = y.mul spec x := by
    cases x <;> cases y <;> simp [Float.Model.UnpackedFloat.mul, Nat.mul_comm, Int.add_comm, hsign]
  change Float.mul a b = Float.mul b a
  simp only [Float.mul]
  congr 1
  change Float.Model.pack _ = Float.Model.pack _
  rw [hmul]

namespace Statistics

lemma map_getD_range {α : Type} {n : Nat} {xs : List α} (h : xs.length = n) (d : α) :
    (range n).map (fun i => xs.getD i d) = xs := by
  subst h
  refine ext_getElem (by simp) fun i hi hi' => ?_
  simp [getElem?_eq_getElem hi']

/-- The table of a function of two places. -/
def square (n : Nat) (F : Nat → Nat → Float) : List (List Float) :=
  (range n).map fun i => (range n).map (F i)

/-- A table that turning does not change. -/
def IsSymmetric (n : Nat) (m : List (List Float)) : Prop :=
  ∃ F : Nat → Nat → Float, (∀ i j, F i j = F j i) ∧ m = square n F

lemma IsSymmetric.add_outer {n : Nat} {m : List (List Float)} {d : List Float} (h : IsSymmetric n m)
    (hd : d.length = n) : IsSymmetric n (zipWith addRows m (outer d d)) := by
  obtain ⟨F, hF, rfl⟩ := h
  refine ⟨fun i j => F i j + d.getD i 0.0 * d.getD j 0.0, fun i j => ?_, ?_⟩
  · simp only [hF i j, mul_comm_float (d.getD i 0.0)]
  · conv_lhs => rw [← map_getD_range hd 0.0]
    simp only [square, outer, addRows, zipWith_map, zipWith_self, map_map, Function.comp_def]

lemma isSymmetric_scatter {width : Nat} {center : List Float} {rows : List (List Float)}
    (hc : center.length = width) (h : ∀ r ∈ rows, r.length = width) : IsSymmetric width (scatter center rows) := by
  refine foldlRecOn rows _ ?_ fun acc hacc r hr => ?_
  · exact ⟨fun _ _ => 0.0, fun _ _ => rfl, by simp [square, hc]⟩
  · exact hacc.add_outer (by simp [h r hr, hc])

lemma isSymmetric_covariance {width : Nat} {rows : List (List Float)} (h : ∀ r ∈ rows, r.length = width) :
    IsSymmetric width (covariance width rows) := by
  obtain ⟨F, hF, hs⟩ := isSymmetric_scatter (Stats.length_columnMeans h) h
  refine ⟨fun i j => F i j * (1.0 / Scalar.ofNat (rows.length - 1)), fun i j => by simp only [hF i j], ?_⟩
  rw [covariance, hs]
  simp [square]

end Statistics

/-! ## Statistics -/

namespace Stats

def map {α β : Type} (f : α → β) (s : Stats α) : Stats β :=
  ⟨s.mean.map f, s.cov.map (·.map f), s.std.map f, s.p16.map f, s.p50.map f, s.p84.map f⟩

lemma ofTable_toRows {p : Samples} {st : Stats Float} (h : ofSamples p.width p.rows = .ok st) :
    ofTable (StoredArray.ofReals ⟨[(st.toRows true).length, 5 + (st.toRows true).length],
      (st.toRows true).flatten.toArray⟩).cells = .ok (st.map Cell.real) := by
  obtain ⟨F, hF, hcov⟩ := Statistics.isSymmetric_covariance p.rows_width
  have hmean := length_mean h
  have hl : st.std.length = p.width ∧ st.p16.length = p.width ∧ st.p50.length = p.width ∧ st.p84.length = p.width := by
    simp [ofSamples_eq_ok h, assemble, hcov, Statistics.square, Statistics.columns]
  have hs : st.cov = Statistics.square p.width F := by
    rw [ofSamples_eq_ok h]
    exact hcov
  obtain ⟨hstd, h16, h50, h84⟩ := hl
  generalize p.width = n at *
  have hrows : st.toRows true = (range n).map fun i =>
      [st.mean, st.std, st.p16, st.p50, st.p84].map (fun xs => xs.getD i Scalar.nan) ++ (range n).map (F i) := by
    rw [toRows, hmean]
    refine map_congr_left fun i hi => ?_
    have hi : i < n := mem_range.mp hi
    simp [hs, Statistics.square, hi, hF i]
  have hch := Tensor.chunks_flatten (5 + n) ((st.toRows true).map (·.map Cell.real)) (by simp [hrows]; omega)
  rw [length_map] at hch
  have hle : (st.toRows true).length = n := by simp [hrows]
  have hdata : ((st.toRows true).flatten.toArray.map Cell.real).toList = ((st.toRows true).map (·.map Cell.real)).flatten := by
    simp
  have hc (xs : List Float) (hxs : xs.length = n) :
      xs.map Cell.real = (range n).map fun i => .real (xs.getD i Scalar.nan) := by
    conv_lhs => rw [← Statistics.map_getD_range hxs Scalar.nan, map_map]
    rfl
  rw [hle] at hch ⊢
  simp only [ofTable, StoredArray.ofReals, Tensor.map, Tensor.rows, hdata, hch]
  rw [hrows]
  simp [map, hc _ hmean, hc _ hstd, hc _ h16, hc _ h50, hc _ h84, hs, Statistics.square]

end Stats

namespace Posterior
open Fit

variable [EnsembleLibrary]

/-- What is read back of a saved posterior; the constants are named as the outputs. -/
def restored (s : Sampler) (session : Session) (p : Samples) (st : Stats Float) (used : List (String × List String))
    (cited : List String) : Posterior where
  paramNames := s.code.paramNames.map Text.kept
  outputNames := s.code.outputNames.map Text.kept
  constants := .ofReals (.ofList s.last.constants)
  constantNames := s.code.outputNames.map Text.kept
  code := Text.kept s.text
  codeHash := Text.kept (Hash.ofText s.text)
  grids := used.map fun e => Text.kept e.1
  gridVariables := used.flatMap fun e => e.2.map fun k => Text.kept (e.1 ++ "__" ++ k)
  stats := some (st.map Cell.real)
  time := Text.kept session.time
  version := Text.kept Fit.version
  runtime := Text.kept session.runtime
  citations := Text.kept (Text.join "\n" cited)
  samples := some (.ofReals ⟨[p.rows.length, p.width], p.rows.flatten.toArray⟩)

lemma ofArchive_archiveOf (file : String) (s : Sampler) (session : Session) {p : Samples} {st : Stats Float}
    (used : List (String × List String)) (cited : List String) (h : Stats.ofSamples p.width p.rows = .ok st) :
    ofArchive file (archiveOf s session p st used cited) false true = .ok (restored s session p st used cited) := by
  have hst := Stats.ofTable_toRows h
  have hs := StoredArray.beside_reals (n := s.code.ndim) p.rows_width
  have htext (x : String) : (StoredArray.ofText x).text = Text.kept x := rfl
  simp [restored, ofArchive, FileKind.posteriorKeys, Archive.has, Archive.array, Archive.array?, Archive.textOf, textsOf, statsOf,
    samplesOf, archiveOf, Item.text, Item.texts, Item.reals, matrix, lookup, StoredArray.texts_ofTexts, hst, hs,
    htext, map_flatMap, Function.comp_def, bind, Except.bind, Except.map, pure, Except.pure]

end Posterior

namespace Fit

section

variable [EnsembleLibrary] {f g : Fit} {m m' : Model Float}

def withModel (f : Fit) (x : Option (Model Float)) : Fit :=
  { f with sampler := { f.sampler with model := x } }

lemma takeOver_eq_ok {entries : List (String × Value)} (h : outcome (takeOver m entries) f = (.ok m', g)) :
    ∃ x, g = f.withModel x := by
  induction entries generalizing m f with
  | nil =>
    cases h
    exact ⟨_, rfl⟩
  | cons e entries ih =>
    obtain ⟨x, -, h⟩ := outcome_ofExcept_bind_eq_ok.mp h
    obtain ⟨m, -, h⟩ := outcome_ofExcept_bind_eq_ok.mp h
    obtain ⟨x, rfl⟩ := ih h
    exact ⟨x, rfl⟩

lemma model_eq_ok (h : outcome model f = (.ok m, g)) : ∃ x, g = f.withModel x := by
  unfold model at h
  rw [outcome_bind_ok (m := current) rfl] at h
  split at h
  · obtain ⟨given, -, h⟩ := outcome_ofExcept_bind_eq_ok.mp h
    rw [outcome_bind_ok (m := get) rfl] at h
    obtain ⟨m, -, h⟩ := outcome_ofExcept_bind_eq_ok.mp h
    cases h
    exact ⟨_, rfl⟩
  · split at h
    · exact takeOver_eq_ok h
    · cases h
      exact ⟨_, rfl⟩

lemma save_eq_ok {file : String} (hf : Finished f) (h : outcome (save (.str file)) f = (.ok (), g)) :
    ∃ p st used cited x t, f.sampler.posterior = some p ∧ f.sampler.stats = some st ∧
      Stats.ofSamples p.width p.rows = .ok st ∧ f.sampler.gridsUsed = .ok used ∧
      outcome citations (f.withModel x) = (.ok cited, t) ∧
      g.session.store.archive (Path.ofText (Path.withExtension ".npz" file)) =
        .ok (archiveOf f.sampler f.session p st used cited) := by
  obtain ⟨p, st, hp, hst, hof⟩ := hf
  obtain ⟨a, t, ha, h⟩ := outcome_bind_eq_ok.mp h
  unfold toArchive at ha
  rw [outcome_bind_ok (m := current) rfl, outcome_bind_ok (m := get) rfl] at ha
  obtain ⟨used, hused, ha⟩ := outcome_ofExcept_bind_eq_ok.mp ha
  have hpo : outcome posterior f = (.ok p, f) := by simp [posterior, current, outcome_bind, hp]
  rw [outcome_bind_ok hpo] at ha
  obtain ⟨m, u, hm, ha⟩ := outcome_bind_eq_ok.mp ha
  obtain ⟨x, rfl⟩ := model_eq_ok hm
  have hst' : (f.withModel x).sampler.stats = some st := hst
  rw [outcome_bind_ok (outcome_stats hst')] at ha
  obtain ⟨cited, t, hc, ha⟩ := outcome_bind_eq_ok.mp ha
  cases ha
  obtain ⟨_, hfile, h⟩ := outcome_ofExcept_bind_eq_ok.mp h
  cases hfile
  rw [outcome_bind_ok (m := get) rfl] at h
  obtain ⟨store, hs, h⟩ := outcome_ofExcept_bind_eq_ok.mp h
  cases h
  exact ⟨p, st, used, cited, x, t, hp, hst, hof, hused, hc, Store.archive_write hs⟩

/-- Every run that is not refused leaves samples and statistics, which are read back once saved, but for zero
characters that end a text. -/
theorem load_saved (f : Fit) : (∀ settings start, Ends (fun _ => Finished) (run settings start)) ∧
    (∀ s : String, s.toList.getLast? ≠ some '\x00' → Text.kept s = s) ∧
    ∀ g file, Finished f → outcome (save (.str file)) f = (.ok (), g) →
      ∃ p st used cited x t, f.sampler.posterior = some p ∧ f.sampler.stats = some st ∧
        f.sampler.gridsUsed = .ok used ∧ outcome citations (f.withModel x) = (.ok cited, t) ∧
        Posterior.load g.session.store (Path.withExtension ".npz" file) false true =
          .ok (.restored f.sampler f.session p st used cited) := by
  refine ⟨ends_run, fun s => Text.kept_eq, fun g file hf hsave => ?_⟩
  obtain ⟨p, st, used, cited, x, t, hp, hst, hof, hused, hc, ha⟩ := save_eq_ok hf hsave
  exact ⟨p, st, used, cited, x, t, hp, hst, hused, hc,
    bind_eq_ok.mpr ⟨_, ha, Posterior.ofArchive_archiveOf _ _ _ _ _ hof⟩⟩

end

/-- One constant and no output, after a run. -/
def oneConstant : Fit where
  session := {}
  sampler := {
    kind := .builtin
    code := { (Model.impossible : Model Float).code with constantNames := ["lo"] }
    source := .seeded 0
    model := some .impossible
    posterior := some ⟨2, [[1.0, 2.0]], by simp⟩
    stats := (Stats.ofSamples 2 [[1.0, 2.0]]).toOption }

lemma finished_oneConstant : Finished oneConstant := ⟨_, _, rfl, rfl, rfl⟩

lemma save_oneConstant : ∃ g, outcome (save (.str "f")) oneConstant = (.ok (), g) := ⟨_, rfl⟩

theorem load_saved_oneConstant : ∃ g q, Finished oneConstant ∧ outcome (save (.str "f")) oneConstant = (.ok (), g) ∧
    Posterior.load g.session.store "f.npz" false true = .ok q := by
  obtain ⟨g, hg⟩ := save_oneConstant
  obtain ⟨p, st, used, cited, x, t, -, -, -, -, hload⟩ := (load_saved oneConstant).2.2 g "f" finished_oneConstant hg
  exact ⟨g, _, finished_oneConstant, hg, hload⟩

theorem oneConstant_name_lost : ∃ g q, outcome (save (.str "f")) oneConstant = (.ok (), g) ∧
    Posterior.load g.session.store "f.npz" false true = .ok q ∧ oneConstant.sampler.constantNames = ["lo"] ∧
    q.constantNames = [] := by
  obtain ⟨g, hg⟩ := save_oneConstant
  obtain ⟨p, st, used, cited, x, t, -, -, hof, -, -, ha⟩ := save_eq_ok finished_oneConstant hg
  exact ⟨g, _, hg, bind_eq_ok.mpr ⟨_, ha, Posterior.ofArchive_archiveOf _ _ _ _ _ hof⟩, rfl, rfl⟩

end Fit

end GridBayes
