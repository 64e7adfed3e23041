import GridBayes.Sampler.Batch
import GridBayes.Proofs.Operation

/-! What a run leaves behind that has come to its end: samples in rows of one length, with a column for each coordinate
and each output, and their statistics, which have an entry for each column. The code and the settings that the sampler
was made with stay as they are. -/
namespace GridBayes
open Operation List Statistics

/-! ## Statistics of samples -/

namespace Stats

lemma length_columnMeans {width : Nat} {rows : List (List Float)} (h : ∀ r ∈ rows, r.length = width) :
    (columnMeans width rows).length = width := by
  have hsums : ∀ acc : List Float, acc.length = width → (rows.foldl addRows acc).length = width := by
    induction rows with
    | nil => exact fun _ hacc => hacc
    | cons r rows ih =>
      obtain ⟨hr, h⟩ := forall_mem_cons.mp h
      intro acc hacc
      exact ih h _ (by simp [addRows, hr, hacc])
  rw [columnMeans, length_map]
  exact hsums _ length_replicate

lemma ofSamples_eq_ok {width : Nat} {rows : List (List Float)} {st : Stats Float} (h : ofSamples width rows = .ok st) :
    st = assemble (columnMeans width rows) (covariance width rows) ((columns width rows).map (quantiles parts)) := by
  by_cases he : rows.isEmpty
  · simp [ofSamples, he, bind, Except.bind] at h
  · by_cases hone : width = 1
    · simp [ofSamples, he, hone, throw, throwThe, MonadExceptOf.throw] at h
    · simp only [ofSamples, he, hone] at h
      cases h
      rfl

lemma length_mean {p : Samples} {st : Stats Float} (h : ofSamples p.width p.rows = .ok st) :
    st.mean.length = p.width := by
  rw [ofSamples_eq_ok h]
  exact length_columnMeans p.rows_width

end Stats

/-! ## Settings -/

lemma Settings.lookup_withDefault (entries : List (String × Value)) (key k : String) (v : Value) :
    (withDefault entries key v).lookup k = (entries.lookup k).or (if k = key then some v else none) := by
  unfold withDefault
  by_cases hk : k = key
  · subst hk
    cases h : entries.lookup k <;> simp [lookup_append, h]
  · have hnone : [(key, v)].lookup k = none := by rw [lookup_cons, beq_false_of_ne hk, lookup_nil]
    split <;> simp [lookup_append, hnone]

lemma Settings.word_eq_ok {n k : Int} (h : word n = .ok k) : n = k := by
  unfold word at h
  split at h
  · exact Except.ok.inj h
  · cases h

lemma Chain.ndim_create {t : Target Float} {ndim size : Int} {source : Source} {c : Chain Float}
    (h : create t ndim size none source = .ok c) : c.ndim = ndim.toNat := by
  unfold create at h
  dsimp only at h
  split at h
  · cases h
  · split at h
    · cases h
    · obtain ⟨-, -, h⟩ := bind_eq_ok.mp h
      obtain ⟨factor, -, h⟩ := bind_eq_ok.mp h
      cases h
      rfl

namespace Fit

variable [EnsembleLibrary] {α β : Type}

/-! ## What a run leaves alone -/

/-- What the user chose when the sampler was made. -/
def fixed (s : Sampler) : SamplerKind × ModelCode × List (String × Value) :=
  (s.kind, s.code, s.init)

/-- The same sampler, at another time. -/
def Same (f g : Fit) : Prop :=
  fixed g.sampler = fixed f.sampler

lemma Same.code {f g : Fit} (h : Same f g) : g.sampler.code = f.sampler.code := congrArg (·.2.1) h

instance : Std.Refl Same := ⟨fun _ => rfl⟩

instance : Trans Same Same Same := ⟨fun h h' => Eq.trans h' h⟩

lemma same_change {k : Sampler → Sampler} (h : ∀ s, fixed (k s) = fixed s) : Moves Same (change k) := fun f => h f.sampler

lemma same_inSession (m : SessionM α) : Moves Same (inSession m) := by
  intro f
  rw [inSession, outcome_bind_ok (outcome_get _)]
  rcases m.run.run f.session with ⟨r, w⟩
  dsimp only
  rw [outcome_bind_ok (outcome_set _ _), outcome_ofExcept]
  rfl

lemma same_current : Moves Same current := moves_same fun _ => rfl

lemma same_takeOver (m : Model Float) (entries : List (String × Value)) : Moves Same (takeOver m entries) := by
  induction entries generalizing m with
  | nil => exact moves_pure _
  | cons e entries ih =>
    refine (moves_ofExcept _).bind fun _ => (moves_ofExcept _).bind fun m => Moves.bind ?_ fun _ => ih m
    exact same_change fun _ => rfl

lemma same_model : Moves Same model := by
  refine same_current.bind fun s => ?_
  split
  · refine (moves_ofExcept _).bind fun _ => moves_get.bind fun _ => (moves_ofExcept _).bind fun _ =>
      Moves.bind ?_ fun _ => moves_pure _
    exact same_change fun _ => rfl
  · exact moves_ite (same_takeOver _ _) (moves_pure _)

lemma same_validate (allowNaN : Bool) : Moves Same (validate allowNaN) := by
  unfold validate say
  repeat' first
    | with_reducible exact same_current
    | with_reducible exact moves_throw _
    | with_reducible exact moves_pure _
    | with_reducible exact same_inSession _
    | with_reducible exact moves_ofExcept _
    | with_reducible refine moves_ite ?_ ?_
    | with_reducible refine moves_forM fun _ => ?_
    | with_reducible refine Moves.bind ?_ fun _ => ?_

lemma same_launch (settings : List (String × Value)) (start : Option (Tensor Float)) :
    Moves Same (launch settings start) := by
  unfold launch launchBuiltin launchEnsemble chainStart ensembleStart constantValues searchStart changeLast
  repeat' first
    | with_reducible exact same_current
    | with_reducible exact moves_throw _
    | with_reducible exact moves_pure _
    | with_reducible exact same_model
    | with_reducible exact same_validate _
    | with_reducible exact moves_ofExcept _
    | with_reducible exact same_change fun _ => rfl
    | with_reducible refine moves_ite ?_ ?_
    | with_reducible refine moves_mapM fun _ => ?_
    | with_reducible refine Moves.bind ?_ fun _ => ?_
    | split

lemma same_keptRows : Moves Same keptRows := by
  refine same_current.bind fun _ => (same_current.bind fun _ => ?_).bind fun _ => moves_ofExcept _
  split
  · exact moves_pure _
  · exact moves_throw _

variable {P : β → Fit → Prop} {f g : Fit}

/-- Where the operation is not refused, its result and the state after it are such. -/
def Ends (P : α → Fit → Prop) (m : FitM α) : Prop :=
  ∀ ⦃f g a⦄, outcome m f = (.ok a, g) → P a g

lemma Ends.of_eq {P : α → Fit → Prop} {m : FitM α} {a : α} (hm : Ends P m) (h : outcome m f = (.ok a, g)) : P a g := hm h

lemma ends_bind {m : FitM α} {k : α → FitM β} (h : ∀ a, Ends P (k a)) : Ends P (m >>= k) := by
  intro f g b hout
  obtain ⟨a, u, -, hout⟩ := outcome_bind_eq_ok.mp hout
  exact h a hout

lemma ends_ofExcept_bind {x : Except Fault α} {k : α → FitM β} (h : ∀ a, x = .ok a → Ends P (k a)) :
    Ends P (ofExcept x >>= k) := by
  intro f g b hout
  obtain ⟨a, ha, hout⟩ := outcome_ofExcept_bind_eq_ok.mp hout
  exact h a ha hout

lemma ends_pure {b : β} (h : ∀ f, P b f) : Ends P (pure b) := by
  intro f g a hout
  cases hout
  exact h f

/-- The number of coordinates that a sampler is told, which by default is that of the parameters. -/
def dimension (s : Sampler) : Value :=
  (s.init.lookup "ndim").getD (.int s.code.ndim)

lemma Same.dimension (h : Same f g) : dimension g.sampler = dimension f.sampler := by
  have hinit : g.sampler.init = f.sampler.init := congrArg (·.2.2) h
  rw [Fit.dimension, Fit.dimension, hinit, h.code]

def Launch.ndim : Launch → Nat
  | .chain c _ _ => c.ndim
  | .ensemble e _ _ => EnsembleLibrary.ndim e

lemma ndim_launchBuiltin {settings : List (String × Value)} {start : Option (Tensor Float)} {n : Nat} {l : Launch}
    (hn : dimension f.sampler = .int n) (h : outcome (launchBuiltin settings start) f = (.ok l, g)) : l.ndim = n := by
  have hcounted {k : Int} (hk : Settings.counted ((f.sampler.init.lookup "ndim").getD .null) = .ok k) : k = n := by
    unfold dimension at hn
    cases hv : f.sampler.init.lookup "ndim" with
    | none =>
      rw [hv] at hk
      cases hk
    | some v =>
      rw [hv] at hk hn
      cases hn
      exact (Settings.word_eq_ok hk).symm
  unfold launchBuiltin at h
  rw [outcome_bind_ok (m := current) rfl] at h
  refine Ends.of_eq (P := fun (l : Launch) _ => l.ndim = n) ?_ h
  refine ends_bind fun _ => ends_bind fun _ => ends_bind fun m => ends_ofExcept_bind fun k hk => ends_bind fun _ =>
    ends_ofExcept_bind fun c hc => ends_bind fun _ => ends_bind fun _ => ends_bind fun _ => ends_bind fun _ =>
    ends_bind fun _ => ends_bind fun _ => ends_pure fun _ => ?_
  show c.ndim = n
  rw [Chain.ndim_create hc, hcounted hk, Int.toNat_natCast]

lemma ndim_launchEnsemble {settings : List (String × Value)} {start : Option (Tensor Float)} {n : Nat} {l : Launch}
    (hn : dimension f.sampler = .int n) (h : outcome (launchEnsemble settings start) f = (.ok l, g)) : l.ndim = n := by
  have hlookup (size : Value) : (Settings.withDefault (Settings.withDefault f.sampler.init "nwalkers" size) "ndim"
      (.int f.sampler.code.ndim)).lookup "ndim" = some (.int n) := by
    unfold dimension at hn
    rw [Settings.lookup_withDefault, Settings.lookup_withDefault, if_pos rfl, if_neg (by decide)]
    cases hv : f.sampler.init.lookup "ndim" <;> simp_all
  unfold launchEnsemble at h
  rw [outcome_bind_ok (m := current) rfl] at h
  refine Ends.of_eq (P := fun (l : Launch) _ => l.ndim = n) ?_ h
  refine ends_bind fun _ => ends_bind fun m => ends_bind fun _ => ends_bind fun _ => ends_bind fun _ => ends_bind fun _ =>
    ends_bind fun _ => ends_bind fun _ => ends_bind fun parallel => ?_
  have hmade {settings : List (String × Value)} {start : Option (Tensor Float)} {size : Value} :
      Ends (fun (l : Launch) _ => l.ndim = n) (do
        let s ← current
        let init := Settings.withDefault (Settings.withDefault f.sampler.init "nwalkers" size) "ndim"
          (.int f.sampler.code.ndim)
        let e ← ofExcept (EnsembleLibrary.create init parallel m.target s.source)
        return .ensemble e settings start) :=
    ends_bind fun _ => ends_ofExcept_bind fun _ he => ends_pure fun _ => EnsembleLibrary.ndim_create he (hlookup size)
  dsimp only
  split
  · exact ends_bind fun _ => hmade
  · exact hmade

lemma ndim_launch {settings : List (String × Value)} {start : Option (Tensor Float)} {n : Nat} {l : Launch}
    (hn : dimension f.sampler = .int n) (h : outcome (launch settings start) f = (.ok l, g)) : l.ndim = n := by
  unfold launch at h
  dsimp only at h
  split at h
  · cases h
  rw [outcome_bind_ok (m := current) rfl] at h
  split at h
  · cases h
  · exact ndim_launchBuiltin hn h
  · exact ndim_launchEnsemble hn h
  · obtain ⟨_, _, -, h⟩ := outcome_bind_eq_ok.mp h
    cases h

/-! ## The end of a run -/

/-- What a run from one state leaves in another. -/
structure Leaves (f g : Fit) (p : Samples) (st : Stats Float) : Prop where
  posterior : g.sampler.posterior = some p
  stats : g.sampler.stats = some st
  ofSamples : Stats.ofSamples p.width p.rows = .ok st
  width : ∀ n : Nat, dimension f.sampler = .int n → p.width = n + f.sampler.code.outputNames.length

lemma conclude_eq_ok {ndim : Nat} {points : List (List Float)} (h : outcome (conclude ndim points) f = (.ok (), g)) :
    ∃ p st, g.sampler.posterior = some p ∧ g.sampler.stats = some st ∧ Stats.ofSamples p.width p.rows = .ok st ∧
      p.width = ndim + f.sampler.code.outputNames.length := by
  unfold conclude at h
  obtain ⟨m, u, hu, h⟩ := same_model.exists_of_bind h
  obtain ⟨outputs, -, h⟩ := outcome_ofExcept_bind_eq_ok.mp h
  rw [outcome_bind_ok (m := current) rfl, outcome_bind_ok (m := change _) rfl] at h
  obtain ⟨st, hst, h⟩ := outcome_ofExcept_bind_eq_ok.mp h
  cases h
  exact ⟨_, st, rfl, rfl, hst, by rw [← hu.code]; rfl⟩

lemma run_eq_ok {settings : List (String × Value)} {start : Option (Tensor Float)}
    (h : outcome (run settings start) f = (.ok (), g)) : ∃ p st, Leaves f g p st := by
  obtain ⟨l, t, hl, h⟩ := outcome_bind_eq_ok.mp h
  have hsame : Same f t := (same_launch settings start).of_eq hl
  have hconclude {u : Fit} {points : List (List Float)} (hu : Same t u)
      (h : outcome (conclude l.ndim points) u = (.ok (), g)) : ∃ p st, Leaves f g p st := by
    obtain ⟨p, st, hp, hst, hof, hw⟩ := conclude_eq_ok h
    exact ⟨p, st, hp, hst, hof, fun n hn => by rw [hw, ndim_launch hn hl, hu.code, hsame.code]⟩
  cases l with
  | chain c settings points =>
    unfold sample runChain at h
    rw [outcome_bind_ok (m := current) rfl] at h
    split at h
    rw [outcome_bind_ok (m := change _) rfl] at h
    obtain ⟨_, v, hv, h⟩ := (same_inSession _).exists_of_bind h
    obtain ⟨_, -, h⟩ := outcome_ofExcept_bind_eq_ok.mp h
    obtain ⟨_, -, h⟩ := outcome_ofExcept_bind_eq_ok.mp h
    exact hconclude hv h
  | ensemble e settings start =>
    unfold sample at h
    dsimp only at h
    rw [outcome_bind_ok (m := change _) rfl] at h
    obtain ⟨_, v, hv, h⟩ := (same_inSession _).exists_of_bind h
    obtain ⟨_, -, h⟩ := outcome_ofExcept_bind_eq_ok.mp h
    obtain ⟨_, w, hw, h⟩ := same_keptRows.exists_of_bind h
    rw [EnsembleLibrary.ndim_run] at h
    exact hconclude (Eq.trans hw hv) h

def Finished (f : Fit) : Prop :=
  ∃ p st, f.sampler.posterior = some p ∧ f.sampler.stats = some st ∧ Stats.ofSamples p.width p.rows = .ok st

lemma ends_run (settings : List (String × Value)) (start : Option (Tensor Float)) :
    Ends (fun _ => Finished) (run settings start) := by
  intro f g _ h
  obtain ⟨p, st, hl⟩ := run_eq_ok h
  exact ⟨p, st, hl.posterior, hl.stats, hl.ofSamples⟩

lemma outcome_stats {st : Stats Float} (h : f.sampler.stats = some st) : outcome stats f = (.ok st, f) := by
  simp [stats, current, outcome_bind, h]

end Fit

end GridBayes
