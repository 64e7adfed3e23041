import GridBayes.Proofs.ChainSupport
import GridBayes.Proofs.Compaction

/-! Thinning in the course of a run. A round announces to keep every second sample after the first tenth, and takes the
others again. The check of the numbers fails if those samples are odd in number. Where it does not, the steps go on
from the number of kept samples, as if that counted steps, and overwrite samples that should stay. -/
namespace GridBayes.Chain
open List Operation Scalar

variable {α : Type} {c d : Chain α} {n k : Nat}

/-! ## The thinning of a round -/

/-- How many samples a round announces to keep. -/
def kept (n : Nat) : Nat :=
  (n - n / 10) / 2

/-- Every second sample is as many as are announced exactly if the number of samples after the first tenth is even. -/
lemma everySecond_eq_iff (n : Nat) : everySecond n (n / 10) = kept n ↔ (n - n / 10) % 2 = 0 := by
  unfold everySecond kept
  omega

/-- The thinning of a round, and the state that its steps begin in. -/
def thinRound (s : RunSettings α) (n : Nat) : ChainM α Unit :=
  tell s.progress "." >>= fun _ => thinOut (n / 10) (kept n)

def thinned (s : RunSettings α) (n : Nat) (c : Chain α) : Chain α :=
  (outcome (thinRound s n) c).2

lemma outcome_tell (progress : Bool) (text : String) (c : Chain α) : ∃ said,
    outcome (tell progress text) c = (.ok (), { c with said := said }) := by
  unfold tell
  split
  · exact ⟨_, rfl⟩
  · exact ⟨c.said, rfl⟩

lemma fst_outcome_tell {m : ChainM α Unit} {e : Fault} (progress : Bool) (text : String) :
    (outcome (m >>= fun _ => tell progress text) c).1 = .error e ↔ (outcome m c).1 = .error e := by
  rw [outcome_bind]
  rcases outcome m c with ⟨_ | _, d⟩
  · exact Iff.rfl
  · obtain ⟨said, hsaid⟩ := outcome_tell progress text d
    dsimp only
    rw [hsaid]

lemma outcome_thinRound (hc : Shaped n c) (s : RunSettings α) : ∃ said r, c.recording = some r ∧
    outcome (thinRound s n) c =
      if (n - n / 10) % 2 = 0 then (.ok (), { c with said, recording := some (compact c.size (n / 10) (kept n) r) })
      else (.error .shapesDiffer, { c with said }) := by
  obtain ⟨-, r, hr, hsize, -⟩ := hc
  obtain ⟨said, htell⟩ := outcome_tell s.progress "." c
  refine ⟨said, r, hr, ?_⟩
  unfold thinRound thinOut
  rw [outcome_bind_ok htell, outcome_bind_ok (outcome_get _)]
  dsimp only
  rw [hr]
  dsimp only
  have hiff := everySecond_eq_iff n
  rw [hsize]
  by_cases h : (n - n / 10) % 2 = 0
  · simp [h, hiff.mpr h]
  · simp [h, hiff]

lemma thinned_eq (hc : Shaped n c) (heven : (n - n / 10) % 2 = 0) (s : RunSettings α) :
    outcome (thinRound s n) c = (.ok (), thinned s n c) ∧ Shaped n (thinned s n c) ∧
      (thinned s n c).walkers = c.walkers ∧ (thinned s n c).target = c.target ∧
      ∀ k w, (thinned s n c).entry k w = c.entry (if k < kept n then n / 10 + 2 * k else k) w := by
  obtain ⟨said, r, hr, hout⟩ := outcome_thinRound hc s
  obtain ⟨hw, _, hr', hsize, hwidth⟩ := hc
  cases hr.symm.trans hr'
  rw [if_pos heven] at hout
  have hthinned : thinned s n c = _ := congrArg Prod.snd hout
  have hkeeps := keeps_compact c.size (n / 10) (kept n) r
  rw [hthinned]
  refine ⟨hout, ⟨hw, _, rfl, hkeeps.size.trans hsize, hkeeps.widths _ hwidth⟩, rfl, rfl, fun k w => ?_⟩
  rw [entry, entry, hr]
  refine memoryEntry_compact hwidth (fun j hj => ?_) k w
  rw [hsize]
  unfold kept at hj
  omega

/-! ## What a run can refuse -/

variable [Scalar α] {scale jumpFraction : α} {s : RunSettings α} {start : List (Array α)}

lemma refusesOnly_place {P : Fault → Prop} (hP : ∀ point e, c.target.logProb point = .error e → P e) :
    RefusesOnly P (outcome (place start) c).1 := by
  induction start generalizing c with
  | nil => exact refusesOnly_ok ()
  | cons point start ih =>
    unfold place
    rw [outcome_bind_ok (outcome_get c), outcome_bind, outcome_ofExcept]
    cases hpoint : c.target.logProb point with
    | error e => exact refusesOnly_error.mpr (hP point e hpoint)
    | ok logProb => exact @ih { c with walkers := c.walkers.push ⟨point, logProb⟩ } hP

lemma refusesOnly_checkRoom (shape : List Nat) : RefusesOnly (· ≠ .shapesDiffer) (Tensor.checkRoom shape) := by
  unfold Tensor.checkRoom
  dsimp only
  split
  · exact refusesOnly_error.mpr (by decide)
  · split
    · exact refusesOnly_error.mpr (by decide)
    · exact refusesOnly_ok ()

/-- Shapes differ in the thinning only. -/
lemma refusesOnly_gather (s : RunSettings α) (start : List (Array α)) (c : Chain α) :
    RefusesOnly (fun e => e ≠ .shapesDiffer ∨ ∃ point, c.target.logProb point = .error e)
      (outcome (gather s start) c).1 := by
  unfold gather
  rw [outcome_bind_ok (outcome_get c)]
  split
  · exact refusesOnly_error.mpr (.inl (by decide))
  · rw [outcome_bind, outcome_ofExcept]
    cases hroom : Tensor.checkRoom [s.samples.toNat, c.size, c.ndim + 1] with
    | error e => exact refusesOnly_error.mpr (.inl (refusesOnly_checkRoom _ e hroom))
    | ok _ =>
      dsimp only
      rw [outcome_bind_ok (outcome_set _ _)]
      refine refusesOnly_outcome_bind (refusesOnly_place fun point e he => .inr ⟨point, he⟩) fun _ d hd => ?_
      obtain ⟨ws, -, -, rfl⟩ := place_eq_ok hd
      exact ((acts_prepare s).bind fun _ => acts_advance (by decide) _ _ _ _ _).refuses _

lemma refusesOnly_convergence (c : Chain α) : RefusesOnly (· ≠ .shapesDiffer) c.convergence := by
  unfold convergence
  split
  · exact refusesOnly_error.mpr (by decide)
  · dsimp only
    split
    · exact refusesOnly_error.mpr (by decide)
    · exact refusesOnly_ok _

/-! ## Rounds -/

lemma adapt_succ {x : α} (hx : c.convergence = .ok x) (s : RunSettings α) (n rounds : Nat) (thin : Int) :
    outcome (adapt s n (n / 10) (kept n) (rounds + 1) thin) c =
      if lt s.threshold x then outcome (thinRound s n >>= fun _ =>
        advance s.scale s.jumpFraction (inWord (2 * thin)) true n (kept n) >>= fun _ =>
        adapt s n (n / 10) (kept n) rounds (inWord (2 * thin))) c
      else (.ok (), c) := by
  have hvalue : outcome (ofExcept c.convergence) c = (.ok x, c) := (outcome_ofExcept _ c).trans (by rw [hx])
  rw [adapt, thinRound, outcome_bind_ok (outcome_get c), outcome_bind_ok hvalue, bind_assoc]
  split <;> rfl

lemma adapt_error {e : Fault} (he : c.convergence = .error e) (s : RunSettings α) (n burn keep rounds : Nat)
    (thin : Int) : outcome (adapt s n burn keep (rounds + 1) thin) c = (.error e, c) := by
  rw [adapt, outcome_bind_ok (outcome_get c), outcome_bind_error (outcome_ofExcept _ c |>.trans (by rw [he]))]

lemma Shaped.advance (hc : Shaped n c) {count first : Nat} {thin : Int}
    (h : outcome (advance scale jumpFraction thin true count first) c = (.ok (), d)) : Shaped n d := by
  obtain ⟨acts, rfl⟩ := (leads_advance _ _ _ _ _).of_eq h
  exact hc.after acts

lemma refusesOnly_adapt (heven : (n - n / 10) % 2 = 0) (hc : Shaped n c) (rounds : Nat) (thin : Int) :
    RefusesOnly (fun e => e ≠ .shapesDiffer ∨ ∃ point, c.target.logProb point = .error e)
      (outcome (adapt s n (n / 10) (kept n) rounds thin) c).1 := by
  induction rounds generalizing c thin with
  | zero => exact refusesOnly_ok ()
  | succ rounds ih =>
    cases hx : c.convergence with
    | error e =>
      rw [adapt_error hx]
      exact refusesOnly_error.mpr (.inl (refusesOnly_convergence c e hx))
    | ok x =>
      obtain ⟨hthin, hshaped, -, htarget, -⟩ := thinned_eq hc heven s
      have hadvance : Acts s.scale (· ≠ .shapesDiffer)
        (advance s.scale s.jumpFraction (inWord (2 * thin)) true n (kept n)) := acts_advance (by decide) _ _ _ _ _
      rw [adapt_succ hx]
      split
      · rw [outcome_bind_ok hthin, ← htarget]
        refine refusesOnly_outcome_bind (hadvance.refuses _) fun _ d hd => ?_
        exact (hadvance.leads.of_eq hd).target ▸ ih (hshaped.advance hd) _
      · exact refusesOnly_ok ()

lemma shaped_of_gather (h : outcome (gather s start) c = (.ok (), d)) : Shaped s.samples.toNat d := by
  obtain ⟨hsize, ws, _, hws, -, ⟨acts, rfl⟩, hmain⟩ := gather_eq_ok h
  exact ((shaped_begun (by rw [← hsize, ← hws, length_map])).after acts).advance hmain

lemma target_of_gather (h : outcome (gather s start) c = (.ok (), d)) : d.target = c.target := by
  obtain ⟨-, _, _, -, -, hlead, hmain⟩ := gather_eq_ok h
  exact (Trans.trans hlead ((leads_advance _ _ _ _ _).of_eq hmain)).target

/-- Rounds are refused for their thinning exactly if one is made and the number of samples after the first tenth is
odd. -/
lemma adapt_shapesDiffer_iff (hc : Shaped n c) (htarget : ∀ point, c.target.logProb point ≠ .error .shapesDiffer)
    (rounds : Nat) (thin : Int) :
    (outcome (adapt s n (n / 10) (kept n) rounds thin) c).1 = .error .shapesDiffer ↔
      0 < rounds ∧ (n - n / 10) % 2 = 1 ∧ ∃ x, c.convergence = .ok x ∧ lt s.threshold x = true := by
  by_cases heven : (n - n / 10) % 2 = 0
  · refine ⟨fun h => ?_, fun h => by omega⟩
    rcases refusesOnly_adapt heven hc rounds thin _ h with hne | ⟨point, hpoint⟩
    · exact absurd rfl hne
    · exact absurd hpoint (htarget point)
  · cases rounds with
    | zero => exact ⟨(by cases ·), fun h => absurd h.1 (Nat.lt_irrefl 0)⟩
    | succ rounds =>
      cases hx : c.convergence with
      | error e =>
        rw [adapt_error hx]
        refine ⟨fun h => absurd (Except.error.inj h) (refusesOnly_convergence c e hx), ?_⟩
        rintro ⟨-, -, x, h, -⟩
        cases h
      | ok x =>
        obtain ⟨_, _, -, hout⟩ := outcome_thinRound hc s
        rw [if_neg heven] at hout
        rw [adapt_succ hx, outcome_bind_error hout]
        have hodd : (n - n / 10) % 2 = 1 := by omega
        simp only [Except.ok.injEq, exists_eq_left', hodd, Nat.succ_pos, true_and]
        split <;> simp_all

/-- The thinning of a run fits unless the number of samples after the first tenth is odd. Then the run is refused
exactly if it makes a round: if it may, and the samples that it has without rounds are above the threshold. -/
theorem thinning_refused_iff (s : RunSettings α) (start : List (Array α))
    (htarget : ∀ point, c.target.logProb point ≠ .error .shapesDiffer) :
    (everySecond s.samples.toNat (s.samples.toNat / 10) = kept s.samples.toNat ↔
      (s.samples.toNat - s.samples.toNat / 10) % 2 = 0) ∧
    ((outcome (run s start) c).1 = .error .shapesDiffer ↔
      (s.samples.toNat - s.samples.toNat / 10) % 2 = 1 ∧ lt 1.0 s.threshold = true ∧ 0 < s.rounds ∧
      ∃ d x, outcome (run { s with rounds := 0 } start) c = (.ok (), d) ∧ d.convergence = .ok x ∧
        lt s.threshold x = true) := by
  refine ⟨everySecond_eq_iff _, ?_⟩
  have hrounds : gather { s with rounds := 0 } start = gather s start := rfl
  rcases hgather : outcome (gather s start) c with ⟨e | ⟨⟩, d⟩
  · rw [run, run, hrounds, outcome_bind_error hgather, outcome_bind_error hgather]
    refine ⟨fun h => ?_, ?_⟩
    · cases h
      rcases refusesOnly_gather s start c .shapesDiffer (by rw [hgather]) with hne | ⟨point, hpoint⟩
      · exact absurd rfl hne
      · exact absurd hpoint (htarget point)
    · rintro ⟨-, -, -, _, _, h, -⟩
      cases h
  · obtain ⟨said, hsaid⟩ := outcome_tell s.progress " done.\n" d
    have hwithout : outcome (run { s with rounds := 0 } start) c = (.ok (), { d with said := said }) := by
      rw [run, hrounds, outcome_bind_ok hgather, ← hsaid]
      unfold finish
      split <;> rfl
    have hd : d.target = c.target := target_of_gather hgather
    have hadapt := adapt_shapesDiffer_iff (s := s) (shaped_of_gather hgather) (fun point => hd ▸ htarget point)
      s.rounds.toNat s.thin
    rw [hwithout, run, outcome_bind_ok hgather, finish]
    by_cases hadapts : lt 1.0 s.threshold = true
    · rw [if_pos hadapts, fst_outcome_tell]
      refine hadapt.trans ⟨?_, ?_⟩
      · rintro ⟨hrounds, hodd, x, hx, hover⟩
        exact ⟨hodd, hadapts, by omega, _, x, rfl, hx, hover⟩
      · rintro ⟨hodd, -, hrounds, _, x, heq, hx, hover⟩
        cases heq
        exact ⟨by omega, hodd, x, hx, hover⟩
    · rw [if_neg hadapts, hsaid]
      exact ⟨(by cases ·), fun h => absurd h.2.1 hadapts⟩

/-- Three walkers that have been at such points, with a target that has no probability anywhere. -/
def wandered (points : List α) : Chain α where
  target := .impossible
  ndim := 1
  size := 3
  factor := [[1.0]]
  source := { stream := fun _ => 7 }
  walkers := Array.replicate 3 ⟨#[9.0], -infinity⟩
  recording := some (points.map fun x => Array.replicate 3 ⟨#[x], -infinity⟩).toArray

def oneRound (samples : Int) : RunSettings α where
  samples
  burnIn := 0
  thin := 1
  scale := 2.0
  jumpFraction := 0.0
  threshold := 1.1
  rounds := 1

lemma logProb_impossible (point : Array α) : (Target.impossible : Target α).logProb point = .ok (-infinity) ∨
    (Target.impossible : Target α).logProb point = .ok (0.0 + -infinity) := by
  unfold Target.logProb
  by_cases h : (!isFinite (0.0 : α)) = true
  · exact .inl (if_pos h)
  · exact .inr (if_neg h)

lemma wandered_not_refused (points : List α) (point : Array α) (e : Fault) :
    (wandered points).target.logProb point ≠ .error e := by
  intro he
  rcases logProb_impossible point with h | h <;> cases he.symm.trans h

theorem thinning_refused_iff_four :
    (∀ point, (wandered ([] : List Float)).target.logProb point ≠ .error .shapesDiffer) ∧
    (outcome (run (oneRound 4) [#[1.0], #[2.0], #[3.0]]) (wandered ([] : List Float))).1 ≠ .error .shapesDiffer := by
  refine ⟨fun point => wandered_not_refused [] point _, fun h => ?_⟩
  obtain ⟨hodd, -⟩ := (thinning_refused_iff _ _ fun point => wandered_not_refused [] point _).2.mp h
  exact absurd hodd (by decide)

/-- Of five samples three are every second one, and two are announced. -/
theorem five_samples_refused : everySecond 5 (5 / 10) = 3 ∧ kept 5 = 2 ∧
    (outcome (adapt (oneRound 5) 5 (5 / 10) (kept 5) 1 1) (wandered [0.0, 2.0, 4.0, 6.0, (8.0 : Float)])).1 =
      .error .shapesDiffer := by
  decide +kernel

/-! ## The records of a round -/

/-- The walkers some steps after the thinning of a round that records them at every so many steps. -/
def later (s : RunSettings α) (n every : Nat) (c : Chain α) (count : Nat) : Record α :=
  (outcome (steps s.scale s.jumpFraction every true count (kept n)) (thinned s n c)).2.walkers

/-- The first record that a round writes: its steps are counted from the number of samples that are kept. -/
def firstWritten (n every : Nat) : Nat :=
  (kept n + every - 1) / every

lemma firstWritten_le_iff {every : Nat} (hevery : 0 < every) : firstWritten n every ≤ k ↔ kept n ≤ k * every := by
  have hsucc : (k + 1) * every = k * every + every := Nat.succ_mul k every
  unfold firstWritten
  rw [← Nat.lt_succ_iff, Nat.succ_eq_add_one, Nat.div_lt_iff_lt_mul hevery, hsucc]
  omega

lemma firstWritten_le_kept {every : Nat} (hevery : 0 < every) : firstWritten n every ≤ kept n :=
  (firstWritten_le_iff hevery).mpr (Nat.le_mul_of_pos_right _ hevery)

lemma firstWritten_eq_iff {every : Nat} (hevery : 2 ≤ every) : firstWritten n every = kept n ↔ kept n ≤ 1 := by
  have hle (k : Nat) : firstWritten n every ≤ k ↔ kept n ≤ k * every := firstWritten_le_iff (by omega)
  have hall : firstWritten n every ≤ kept n := firstWritten_le_kept (by omega)
  refine ⟨fun heq => ?_, fun hone => ?_⟩
  · by_contra hmany
    have hgrow : (kept n - 1) * 2 ≤ (kept n - 1) * every := Nat.mul_le_mul_left _ hevery
    have hless := (hle (kept n - 1)).mpr (by omega)
    omega
  · by_contra hne
    have hnone := (hle 0).mp (by omega)
    omega

/-- What a round leaves: every second sample in front of the first record that it writes, and from there on its own
walkers, one record for as many steps as it says. -/
structure Resampled (s : RunSettings α) (n every : Nat) (c d : Chain α) : Prop where
  shaped : Shaped n d
  walkers : d.walkers = later s n every c (n * every - kept n)
  front : ∀ k w, k < firstWritten n every → d.entry k w = c.entry (n / 10 + 2 * k) w
  behind : ∀ k w, firstWritten n every ≤ k → k < n → d.entry k w = (later s n every c (k * every - kept n + 1))[w]?

/-- Rounds one after another, each with twice the thinning of the one before. -/
inductive Rounds (s : RunSettings α) (n : Nat) : Nat → Chain α → Chain α → Prop
  | done {thin : Nat} {c : Chain α} : Rounds s n thin c c
  | round {thin : Nat} {c d e : Chain α} (first : Resampled s n (2 * thin) c d) (rest : Rounds s n (2 * thin) d e) :
    Rounds s n thin c e

lemma two_le_of_convergence (hc : Shaped n c) {x : α} (hx : c.convergence = .ok x) : 2 ≤ n := by
  obtain ⟨-, r, hr, rfl, -⟩ := hc
  rw [convergence, hr] at hx
  dsimp only at hx
  split at hx
  · cases hx
  · omega

lemma resampled_of_steps (hc : Shaped n c) (heven : (n - n / 10) % 2 = 0) {every : Nat} (hevery : 0 < every)
    (h : outcome (steps s.scale s.jumpFraction every true (n * every - kept n) (kept n)) (thinned s n c) =
      (.ok (), d)) : Resampled s n every c d := by
  obtain ⟨-, hshaped, -, -, hentry⟩ := thinned_eq hc heven s
  have hfirst (k : Nat) : firstWritten n every ≤ k ↔ kept n ≤ k * every := firstWritten_le_iff hevery
  have hkept : firstWritten n every ≤ kept n := firstWritten_le_kept hevery
  have hrow {k : Nat} (hk : k < n) := row_steps hevery hshaped hk h
  refine ⟨?_, by rw [later, h], fun k w hlt => ?_, fun k w hle hk => ?_⟩
  · obtain ⟨acts, rfl⟩ := (acts_steps (P := fun _ => True) _ _ _ _ _).leads.of_eq h
    exact hshaped.after acts
  · have hk : k < n := by
      unfold kept at hkept
      omega
    have hbefore := (hfirst k).not.mp (Nat.not_le.mpr hlt)
    rw [entry_eq, hrow hk, if_neg (by omega), ← entry_eq, hentry, if_pos (by omega)]
  · have hsteps := (hfirst k).mp hle
    have hlt : k * every < n * every := Nat.mul_lt_mul_of_pos_right hk hevery
    rw [entry_eq, hrow hk, if_pos (by omega)]
    rfl

/-- A round goes on with what it leaves, unless the target refuses a point. -/
lemma round_cases {thin : Nat} (hthin : 1 ≤ thin) (hfit : n * (2 * thin) < 2147483648) (hc : Shaped n c)
    (heven : (n - n / 10) % 2 = 0) {x : α} (hx : c.convergence = .ok x) (hover : lt s.threshold x = true)
    (rounds : Nat) :
    (∃ e point, c.target.logProb point = .error e ∧
      (outcome (adapt s n (n / 10) (kept n) (rounds + 1) thin) c).1 = .error e) ∨
    ∃ d, Resampled s n (2 * thin) c d ∧ outcome (adapt s n (n / 10) (kept n) (rounds + 1) thin) c =
      outcome (adapt s n (n / 10) (kept n) rounds (2 * thin : Nat)) d := by
  obtain ⟨hthinned, hshaped, -, htarget, -⟩ := thinned_eq hc heven s
  have htwo := two_le_of_convergence hc hx
  have hword : inWord (2 * (thin : Int)) = (2 * thin : Nat) := by
    have hle : 2 * (2 * thin) ≤ n * (2 * thin) := Nat.mul_le_mul_right _ htwo
    exact inWord_eq (by omega) (by omega)
  have hcount : (inWord (n * (2 * thin : Nat))).toNat = n * (2 * thin) := by
    rw [← Int.natCast_mul, inWord_eq (by omega) (by omega), Int.toNat_natCast]
  have hadvance := outcome_advance hshaped s.scale s.jumpFraction (2 * thin : Nat) (kept n)
  rw [hcount] at hadvance
  have hacts : Acts s.scale (fun _ => False)
    (steps s.scale s.jumpFraction (2 * thin : Nat) true (n * (2 * thin) - kept n) (kept n)) := acts_steps _ _ _ _ _
  have hrefused := hacts.refuses (thinned s n c)
  rw [adapt_succ hx, if_pos hover, outcome_bind_ok hthinned, hword]
  rcases hround : outcome (steps s.scale s.jumpFraction (2 * thin : Nat) true (n * (2 * thin) - kept n) (kept n))
    (thinned s n c) with ⟨e | ⟨⟩, d⟩
  · rw [hround, htarget] at hrefused
    obtain ⟨point, hpoint⟩ := (hrefused e rfl).resolve_left id
    exact .inl ⟨e, point, hpoint, by rw [outcome_bind_error (hadvance.trans hround)]⟩
  · exact .inr ⟨d, resampled_of_steps hc heven (by omega) hround, outcome_bind_ok (hadvance.trans hround) _⟩

lemma rounds_of_adapt {thin rounds : Nat} (hthin : 1 ≤ thin) (hfit : n * (2 ^ rounds * thin) < 2147483648)
    (hc : Shaped n c) (heven : (n - n / 10) % 2 = 0)
    (h : outcome (adapt s n (n / 10) (kept n) rounds thin) c = (.ok (), d)) : Rounds s n thin c d := by
  induction rounds generalizing c thin with
  | zero =>
    cases h
    exact .done
  | succ rounds ih =>
    have hpow : 2 ^ (rounds + 1) * thin = 2 ^ rounds * (2 * thin) := by rw [Nat.pow_succ, Nat.mul_assoc]
    rw [hpow] at hfit
    have hless : n * (2 * thin) ≤ n * (2 ^ rounds * (2 * thin)) :=
      Nat.mul_le_mul_left n (Nat.le_mul_of_pos_left _ (Nat.two_pow_pos rounds))
    cases hx : c.convergence with
    | error e =>
      rw [adapt_error hx] at h
      cases h
    | ok x =>
      by_cases hover : lt s.threshold x = true
      · rcases round_cases hthin (by omega) hc heven hx hover rounds with ⟨e, -, -, he⟩ | ⟨e, he, hround⟩
        · rw [h] at he
          cases he
        · exact .round he (ih (by omega) hfit he.shaped (hround.symm.trans h))
      · rw [adapt_succ hx, if_neg hover] at h
        cases h
        exact .done

/-- The steps of a round are counted from the number of kept samples, as if it were a number of steps. So the samples
are overwritten from `firstWritten` on, which is the number of kept samples only if that is at most one. A run makes
such rounds with the samples that it gathers. -/
theorem round_records (s : RunSettings α) (start : List (Array α)) {n thin : Nat} (hthin : 1 ≤ thin)
    (heven : (n - n / 10) % 2 = 0) :
    (firstWritten n (2 * thin) = kept n ↔ kept n ≤ 1) ∧
    (∀ c x rounds, Shaped n c → n * (2 * thin) < 2147483648 → c.convergence = .ok x → lt s.threshold x = true →
      later s n (2 * thin) c 0 = c.walkers ∧
      ((∃ e point, c.target.logProb point = .error e ∧
        (outcome (adapt s n (n / 10) (kept n) (rounds + 1) thin) c).1 = .error e) ∨
      ∃ d, Resampled s n (2 * thin) c d ∧ outcome (adapt s n (n / 10) (kept n) (rounds + 1) thin) c =
        outcome (adapt s n (n / 10) (kept n) rounds (2 * thin : Nat)) d)) ∧
    (∀ c d, s.samples = n → s.thin = thin → n * (2 ^ s.rounds.toNat * thin) < 2147483648 →
      outcome (run s start) c = (.ok (), d) → ∃ c₁ c₂ said, outcome (gather s start) c = (.ok (), c₁) ∧ Shaped n c₁ ∧
        Rounds s n thin c₁ c₂ ∧ d = { c₂ with said }) := by
  refine ⟨firstWritten_eq_iff (by omega), fun c x rounds hc hfit hx hover => ?_, fun c d hn hs hfit hrun => ?_⟩
  · obtain ⟨-, -, hwalkers, -, -⟩ := thinned_eq hc heven s
    exact ⟨hwalkers, round_cases hthin hfit hc heven hx hover rounds⟩
  · obtain ⟨⟨⟩, c₁, hgather, hfinish⟩ := outcome_bind_eq_ok.mp hrun
    have hshaped := shaped_of_gather hgather
    rw [hn, Int.toNat_natCast] at hshaped
    rw [finish, hn, hs, Int.toNat_natCast] at hfinish
    by_cases hadapts : lt 1.0 s.threshold = true
    · rw [if_pos hadapts] at hfinish
      obtain ⟨⟨⟩, c₂, hadapt, htell⟩ := outcome_bind_eq_ok.mp hfinish
      obtain ⟨said, hsaid⟩ := outcome_tell s.progress " done.\n" c₂
      rw [hsaid] at htell
      cases htell
      exact ⟨c₁, c₂, said, hgather, hshaped, rounds_of_adapt hthin hfit hshaped heven hadapt, rfl⟩
    · rw [if_neg hadapts] at hfinish
      obtain ⟨said, hsaid⟩ := outcome_tell s.progress " done.\n" c₁
      have hd := hsaid.symm.trans hfinish
      cases hd
      exact ⟨c₁, c₁, said, hgather, hshaped, .done, rfl⟩

section

open Exact
open scoped Standard

noncomputable def four : Chain Exact :=
  wandered [real 0, real 8, real 7, real 15]

lemma shaped_four : Shaped 4 four := by
  refine ⟨rfl, _, rfl, rfl, fun r hr => ?_⟩
  obtain ⟨x, -, rfl⟩ := List.mem_map.mp (List.mem_toArray.mp hr)
  rfl

lemma convergence_four : four.convergence = .ok (real (9 / 8)) := by
  have hdiffer : disagreement [real 0, real 8] [real 7, real 15] = real (9 / 8) := by
    norm_num [disagreement, Statistics.mean, Statistics.variance, Statistics.sum, Scalar.sqrt]
  have hlowest : (-infinity : Exact) = infinite true := rfl
  have hworse : worse (-infinity) (real (9 / 8)) = real (9 / 8) := by
    simp [hlowest, worse, isNaN, Scalar.eq, Scalar.lt, Less]
  norm_num [convergence, trace, four, wandered, hdiffer, List.range_succ, Statistics.mean, Statistics.sum, hworse]

lemma threshold_lt_four : lt (oneRound 4 : RunSettings Exact).threshold (real (9 / 8)) = true := by
  norm_num [oneRound]

noncomputable def noRound : RunSettings Exact :=
  { oneRound 4 with threshold := 0.0 }

lemma exists_noRound : ∃ d, outcome (run noRound spread) nowhere = (.ok (), d) := by
  have hpoints : (spread.map fun p => (⟨p, -infinity⟩ : Walker Exact)).map Walker.point = spread := rfl
  rw [← hpoints, outcome_run (by simp [logProb_nowhere]) ?_ rfl rfl rfl ?_ ?_]
  · have hacts (left : Nat) : Acts noRound.scale (fun _ => False)
      (steps noRound.scale noRound.jumpFraction noRound.thin true left 0) := acts_steps _ _ _ _ _
    obtain ⟨⟨⟩, d, hd⟩ := (hacts _).returns (c := begun noRound nowhere _) fun p e he => by
      cases he.symm.trans (logProb_nowhere p)
    exact ⟨d, hd⟩
  · simp [fits, noRound, oneRound, spread, nowhere, oneSided]
    norm_num
  all_goals
    rw [Bool.eq_false_iff]
    norm_num [noRound, oneRound]

theorem round_records_four :
    (∃ d, outcome (adapt (oneRound 4) 4 (4 / 10) (kept 4) 1 1) four = (.ok (), d) ∧
      ∀ w, d.entry 0 w = four.entry 0 w ∧ d.entry 1 w = (later (oneRound 4) 4 2 four 1)[w]?) ∧
    ∃ d c₁ c₂ said, outcome (run noRound spread) nowhere = (.ok (), d) ∧ Shaped 4 c₁ ∧ Rounds noRound 4 1 c₁ c₂ ∧
      d = { c₂ with said } := by
  have hrounds (s : RunSettings Exact) := round_records s spread (Nat.le_refl 1) (n := 4) (by decide)
  constructor
  · rcases ((hrounds (oneRound 4)).2.1 four _ 0 shaped_four (by decide) convergence_four threshold_lt_four).2 with
      ⟨e, point, he, -⟩ | ⟨d, hd, hround⟩
    · exact absurd he (wandered_not_refused _ point e)
    · exact ⟨d, hround, fun w => ⟨hd.front 0 w (by decide), hd.behind 1 w (by decide) (by decide)⟩⟩
  · obtain ⟨d, hrun⟩ := exists_noRound
    obtain ⟨c₁, c₂, said, -, hc, hr, hd⟩ := (hrounds noRound).2.2 nowhere d rfl rfl (by decide) hrun
    exact ⟨d, c₁, c₂, said, hrun, hc, hr, hd⟩

/-- The walkers of an impossible target stay. -/
lemma later_four (count : Nat) : later (oneRound 4) 4 2 four count = four.walkers := by
  obtain ⟨-, -, hwalkers, htarget, -⟩ := thinned_eq shaped_four (by decide) (oneRound 4)
  have hsteps : Acts (oneRound 4 : RunSettings Exact).scale (fun _ => True)
    (steps (oneRound 4).scale (oneRound 4).jumpFraction (2 : Nat) true count (kept 4)) := acts_steps _ _ _ _ _
  obtain ⟨acts, hacts⟩ := hsteps.leads (thinned (oneRound 4) 4 four)
  rw [later, hacts, ← hwalkers]
  refine walkers_passed_of_impossible (fun p _ v hv => ?_) _ (after_mem_passed _ acts)
  rw [htarget] at hv
  rcases logProb_impossible p with h | h <;> cases hv.symm.trans h <;> rfl

/-- Two samples are announced to be kept, but the second is not the third of before: the walkers are written there. -/
theorem second_sample_lost : ∃ d, outcome (adapt (oneRound 4) 4 (4 / 10) (kept 4) 1 1) four = (.ok (), d) ∧
    1 < kept 4 ∧ four.entry (4 / 10 + 2 * 1) 0 = some ⟨#[real 7], -infinity⟩ ∧
    d.entry 1 0 = some ⟨#[real 9], -infinity⟩ := by
  rcases round_cases (Nat.le_refl 1) (by decide) shaped_four (by decide) convergence_four threshold_lt_four 0 with
    ⟨e, point, he, -⟩ | ⟨d, hd, hround⟩
  · exact absurd he (wandered_not_refused _ point e)
  · refine ⟨d, hround, by decide, rfl, ?_⟩
    rw [hd.behind 1 0 (by decide) (by decide), later_four]
    norm_num [four, wandered]

end

end GridBayes.Chain
