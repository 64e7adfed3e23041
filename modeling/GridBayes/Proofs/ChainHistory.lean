import GridBayes.Proofs.ExactScalar
import GridBayes.Proofs.Operation
import GridBayes.Sampler.Chain

/-! What a run of the ensemble passes through. A run is a list of acts: numbers are drawn, walkers are offered
points, and the memory of samples is written, thinned out and learned from. Only offers move walkers, and an
offer leaves a walker where it is or takes it to a point together with its probability. So every sample is a
state that its walker was in, unless the steps of the run do not fit in a word and it was never written. -/
namespace GridBayes.Chain
open List Operation Scalar Except

variable {α : Type}

/-! ## The memory -/

def memoryEntry (memory : Array (Record α)) (k w : Nat) : Option (Walker α) :=
  memory[k]?.bind (·[w]?)

def entry (c : Chain α) (k w : Nat) : Option (Walker α) :=
  c.recording.bind (memoryEntry · k w)

/-- Memory that holds nothing new: each sample was one of the same walker before. -/
structure Keeps (memory kept : Array (Record α)) : Prop where
  size : kept.size = memory.size
  widths : ∀ n, (∀ r ∈ memory, r.size = n) → ∀ r ∈ kept, r.size = n
  entries : ∀ k w x, memoryEntry kept k w = some x → ∃ k', memoryEntry memory k' w = some x

lemma Keeps.foldl {ι : Type} {f : Array (Record α) → ι → Array (Record α)} (hf : ∀ m i, Keeps m (f m i))
    (l : List ι) (memory : Array (Record α)) : Keeps memory (l.foldl f memory) := by
  induction l generalizing memory with
  | nil => exact ⟨rfl, fun _ h => h, fun k _ _ h => ⟨k, h⟩⟩
  | cons i l ih =>
    obtain ⟨hsize, hw, he⟩ := ih (f memory i)
    obtain ⟨hsize', hw', he'⟩ := hf memory i
    refine ⟨hsize.trans hsize', fun n h => hw n (hw' n h), fun k w x h => ?_⟩
    obtain ⟨k', hk'⟩ := he k w x h
    exact he' k' w x hk'

lemma keeps_copyWalker (memory : Array (Record α)) (source dest i : Nat) :
    Keeps memory (copyWalker memory source dest i) := by
  unfold copyWalker
  cases hw : memory[source]?.bind (·[i]?) with
  | none => exact ⟨rfl, fun _ h => h, fun k _ _ h => ⟨k, h⟩⟩
  | some v =>
    refine ⟨Array.size_modify, fun n h r hr => ?_, fun k w x h => ?_⟩
    · obtain ⟨k, hk⟩ := Array.mem_iff_getElem?.mp hr
      rw [Array.getElem?_modify] at hk
      split at hk
      · obtain ⟨r', hr', rfl⟩ := Option.map_eq_some_iff.mp hk
        rw [Array.size_setIfInBounds]
        exact h r' (Array.mem_of_getElem? hr')
      · exact h r (Array.mem_of_getElem? hk)
    · unfold memoryEntry at h ⊢
      rw [Array.getElem?_modify] at h
      split at h
      · cases hr : memory[k]? with
        | none => simp [hr] at h
        | some r =>
          rw [hr, Option.map_some, Option.bind_some, Array.getElem?_setIfInBounds] at h
          split at h
          · rename_i hi
            split at h
            · exact ⟨source, by rw [← h, ← hi, hw]⟩
            · cases h
          · exact ⟨k, by rw [hr]; exact h⟩
      · exact ⟨k, h⟩

lemma keeps_compact (size burn count : Nat) (memory : Array (Record α)) :
    Keeps memory (compact size burn count memory) :=
  Keeps.foldl (fun m k => Keeps.foldl (fun m i => keeps_copyWalker m _ k i) _ m) _ memory

def row (c : Chain α) (k : Nat) : Option (Record α) :=
  c.recording.bind (·[k]?)

def SameMemory (c d : Chain α) : Prop :=
  d.recording = c.recording

instance : Std.Refl (SameMemory (α := α)) where
  refl _ := rfl

instance : Trans (SameMemory (α := α)) SameMemory SameMemory where
  trans h h' := Eq.trans h' h

variable {c d : Chain α} {n k w i : Nat} {thin : Int} {x : Walker α} {jumpFraction : α} {start : List (Array α)}
  {s : RunSettings α}

lemma row_record (c : Chain α) (k j : Nat) : (outcome (record j) c).2.row k =
    if j = k then (c.row k).map fun _ => c.walkers else c.row k := by
  show (c.recording.map _).bind _ = if j = k then (c.recording.bind _).map _ else c.recording.bind _
  cases c.recording with
  | none => simp
  | some r =>
    simp only [Option.map_some, Option.bind_some, Array.getElem?_setIfInBounds]
    split
    · split <;> simp_all
    · rfl

structure Shaped (n : Nat) (c : Chain α) : Prop where
  walkers : c.walkers.size = c.size
  memory : ∃ r, c.recording = some r ∧ r.size = n ∧ ∀ record ∈ r, record.size = c.size

lemma Shaped.exists_row (h : Shaped n c) (hk : k < n) : ∃ r, c.row k = some r := by
  obtain ⟨-, r, hr, rfl, -⟩ := h
  exact ⟨r[k], by simp [row, hr]⟩

lemma entry_eq (c : Chain α) (k w : Nat) : c.entry k w = (c.row k).bind (·[w]?) := (Option.bind_assoc ..).symm

lemma Shaped.lt_of_entry (h : Shaped n c) (hx : c.entry k w = some x) : k < n := by
  obtain ⟨-, r, hr, rfl, -⟩ := h
  rw [entry_eq, row, hr] at hx
  obtain ⟨record, hre, -⟩ := Option.bind_eq_some_iff.mp hx
  exact (Array.getElem?_eq_some_iff.mp hre).1

variable [Scalar α] {scale : α}

/-! ## Acts -/

inductive Act where
  | draw
  | stretch (i : Nat)
  | jump (i : Nat)
  | record (k : Nat)
  | thinOut (burn keep : Nat)
  | learn (count : Nat)
  | say (text : String)

namespace Act

def perform (scale : α) : Act → ChainM α Unit
  | draw => discard Chain.draw
  | stretch i => Chain.stretch scale i
  | jump i => Chain.jump i
  | record k => Chain.record k
  | thinOut burn keep => Chain.thinOut burn keep
  | learn count => learnFactor count
  | say text => Chain.say text

def offer (scale : α) (c : Chain α) : Act → Option (Array α)
  | stretch i => do
    let (n, source) := c.source.next
    let w ← c.walkers[i]?
    let other ← c.walkers[Walker.partner i (n % (c.size - 1))]?
    return w.stretched other (Walker.stretchFactor scale (Source.toUnit source.next.1))
  | jump i => c.walkers[i]?.map fun w => w.jumped c.factor (c.source.units c.ndim).1
  | _ => none

def next (scale : α) (c : Chain α) (a : Act) : Chain α :=
  (outcome (a.perform scale) c).2

end Act

def after (scale : α) (c : Chain α) (acts : List Act) : Chain α :=
  acts.foldl (Act.next scale) c

/-- The states that some acts pass through, from the first to the last. -/
def passed (scale : α) : Chain α → List Act → List (Chain α)
  | c, [] => [c]
  | c, a :: acts => c :: passed scale (a.next scale c) acts

def offers (scale : α) : Chain α → List Act → List (Array α)
  | _, [] => []
  | c, a :: acts => (a.offer scale c).toList ++ offers scale (a.next scale c) acts

lemma after_append (c : Chain α) (acts more : List Act) :
    after scale c (acts ++ more) = after scale (after scale c acts) more :=
  foldl_append

lemma passed_append (c : Chain α) (acts more : List Act) {e : Chain α}
    (h : e ∈ passed scale c acts ∨ e ∈ passed scale (after scale c acts) more) : e ∈ passed scale c (acts ++ more) := by
  induction acts generalizing c with
  | nil =>
    rcases h with h | h
    · cases more <;> simp_all [passed]
    · exact h
  | cons a acts ih =>
    rcases h with h | h
    · rcases mem_cons.mp h with rfl | h
      · exact mem_cons_self
      · exact mem_cons_of_mem _ (ih _ (.inl h))
    · exact mem_cons_of_mem _ (ih _ (.inr h))

lemma after_mem_passed (c : Chain α) (acts : List Act) : after scale c acts ∈ passed scale c acts := by
  induction acts generalizing c with
  | nil => exact mem_singleton_self c
  | cons a acts ih => exact mem_cons_of_mem _ (ih _)

/-- What holds at first and is kept by every act holds of every state that is passed. -/
lemma forall_passed {P : Chain α → Prop} (hnext : ∀ c a, P c → P (Act.next scale c a)) (hc : P c)
    (acts : List Act) : ∀ e ∈ passed scale c acts, P e := by
  induction acts generalizing c with
  | nil => exact forall_mem_singleton.mpr hc
  | cons a acts ih => exact forall_mem_cons.mpr ⟨hc, ih (hnext c a hc)⟩

/-! ## What an act does -/

/-- A walker is offered a point or nobody is, a record is written, or the memory is thinned. -/
inductive Effect (c : Chain α) (p : Option (Array α)) (d : Chain α) : Prop where
  | aside (htarget : d.target = c.target) (hsize : d.size = c.size) (hmemory : d.recording = c.recording)
      (hwalkers : d.walkers = c.walkers)
  | offered {i : Nat} {w : Walker α} {point : Array α} {logProb gain threshold : α}
      (htarget : d.target = c.target) (hsize : d.size = c.size) (hmemory : d.recording = c.recording)
      (hpoint : p = some point) (hw : c.walkers[i]? = some w) (hp : c.target.logProb point = .ok logProb)
      (hgain : gain = logProb ∨ ∃ x, gain = x + logProb)
      (hwalkers : d.walkers = c.walkers.setIfInBounds i (w.offered ⟨point, logProb⟩ gain threshold))
  | recorded (k : Nat) (hd : d = { c with recording := c.recording.map (·.setIfInBounds k c.walkers) })
  | thinned {burn keep : Nat} {r : Array (Record α)} (hr : c.recording = some r)
      (hd : d = { c with recording := some (compact c.size burn keep r) })

lemma outcome_drawUnits (n : Nat) (c : Chain α) : outcome (drawUnits n) c =
    (.ok (c.source.units n : List α × Source).1, { c with source := (c.source.units n : List α × Source).2 }) := by
  induction n generalizing c with
  | zero => rfl
  | succ n ih =>
    have hunit : outcome drawUnit c =
        (.ok (Source.toUnit c.source.next.1 : α), { c with source := c.source.next.2 }) := rfl
    unfold drawUnits
    rw [outcome_bind_ok hunit, outcome_bind_ok (ih _)]
    rfl

/-- Points that are refused are refused by the target. -/
def RefusedByTarget (c : Chain α) (x : Except Fault Unit) : Prop :=
  ∀ e, x = .error e → ∃ point, c.target.logProb point = .error e

lemma effect_jump (scale : α) (i : Nat) (c : Chain α) :
    Effect c (Act.offer scale c (.jump i)) (Act.next scale c (.jump i)) ∧
      (Act.next scale c (.jump i)).recording = c.recording ∧ RefusedByTarget c (outcome (jump i) c).1 := by
  unfold Act.next Act.perform Act.offer jump
  rw [outcome_bind_ok (outcome_get c), outcome_bind_ok (outcome_drawUnits _ _), outcome_bind_ok (outcome_get _)]
  dsimp only
  cases hw : c.walkers[i]? with
  | none => exact ⟨.aside rfl rfl rfl rfl, rfl, fun _ h => nomatch h⟩
  | some w =>
    rw [outcome_bind]
    cases hp : c.target.logProb (w.jumped c.factor (c.source.units c.ndim).1) with
    | error e => exact ⟨.aside rfl rfl rfl rfl, rfl, fun _ h => ⟨_, error.inj h ▸ hp⟩⟩
    | ok logProb => exact ⟨.offered rfl rfl rfl rfl hw hp (.inl rfl) rfl, rfl, fun _ h => nomatch h⟩

lemma effect_stretch (scale : α) (i : Nat) (c : Chain α) :
    Effect c (Act.offer scale c (.stretch i)) (Act.next scale c (.stretch i)) ∧
      (Act.next scale c (.stretch i)).recording = c.recording ∧ RefusedByTarget c (outcome (stretch scale i) c).1 := by
  have hdraw (c : Chain α) : outcome draw c = (.ok c.source.next.1, { c with source := c.source.next.2 }) := rfl
  have hunit (c : Chain α) : outcome drawUnit c =
    (.ok (Source.toUnit c.source.next.1 : α), { c with source := c.source.next.2 }) := rfl
  unfold Act.next Act.perform Act.offer stretch
  rw [outcome_bind_ok (hdraw c), outcome_bind_ok (outcome_get _), outcome_bind_ok (hunit _),
    outcome_bind_ok (outcome_get _)]
  dsimp only
  cases hw : c.walkers[i]? with
  | none => exact ⟨.aside rfl rfl rfl rfl, rfl, fun _ h => nomatch h⟩
  | some w =>
    cases c.walkers[Walker.partner i (c.source.next.1 % (c.size - 1))]? with
    | none => exact ⟨.aside rfl rfl rfl rfl, rfl, fun _ h => nomatch h⟩
    | some other =>
      rw [outcome_bind]
      cases hp : c.target.logProb (w.stretched other (Walker.stretchFactor scale
        (Source.toUnit c.source.next.2.next.1))) with
      | error e => exact ⟨.aside rfl rfl rfl rfl, rfl, fun _ h => ⟨_, error.inj h ▸ hp⟩⟩
      | ok logProb => exact ⟨.offered rfl rfl rfl rfl hw hp (.inr ⟨_, rfl⟩) rfl, rfl, fun _ h => nomatch h⟩

lemma effect (scale : α) (c : Chain α) (a : Act) : Effect c (a.offer scale c) (a.next scale c) := by
  cases a with
  | draw => exact .aside rfl rfl rfl rfl
  | stretch i => exact (effect_stretch scale i c).1
  | jump i => exact (effect_jump scale i c).1
  | record k => exact .recorded k rfl
  | thinOut burn keep =>
    unfold Act.next Act.perform thinOut
    rw [outcome_bind_ok (outcome_get c)]
    cases hr : c.recording with
    | none => exact .aside rfl rfl rfl rfl
    | some r =>
      dsimp only
      split
      · exact .aside rfl rfl rfl rfl
      · exact .thinned hr rfl
  | learn count =>
    unfold Act.next Act.perform learnFactor
    rw [outcome_bind_ok (outcome_get c)]
    split
    · exact .aside rfl rfl rfl rfl
    · dsimp only
      split <;> exact .aside rfl rfl rfl rfl
  | say text => exact .aside rfl rfl rfl rfl

/-! ## What acts keep -/

/-- Every walker knows the logarithm of the probability that a target gives to its point. -/
structure Coherent (t : Target α) (c : Chain α) : Prop where
  target : c.target = t
  walkers : ∀ w ∈ c.walkers, t.logProb w.point = .ok w.logProb

variable {t : Target α}

lemma Coherent.next (h : Coherent t c) (a : Act) : Coherent t (a.next scale c) := by
  obtain ⟨rfl, hwa⟩ := h
  cases effect scale c a with
  | aside ht _ _ hsame => exact ⟨ht, by rwa [hsame]⟩
  | offered ht _ _ _ hw hp _ hset =>
    refine ⟨ht, fun v hv => ?_⟩
    rw [hset] at hv
    rcases Array.mem_or_eq_of_mem_setIfInBounds hv with hv | rfl
    · exact hwa v hv
    · unfold Walker.offered
      split
      · exact hp
      · exact hwa _ (Array.mem_of_getElem? hw)
  | recorded _ hd | thinned _ hd =>
    rw [hd]
    exact ⟨rfl, hwa⟩

lemma Shaped.next (h : Shaped n c) (a : Act) : Shaped n (a.next scale c) := by
  obtain ⟨hw, r, hr, hn, hwi⟩ := h
  cases effect scale c a with
  | aside _ hsize hm hsame => exact ⟨by rw [hsame, hsize, hw], r, by rw [hm, hr], hn, by rwa [hsize]⟩
  | offered _ hsize hm _ _ _ _ hset =>
    exact ⟨by rw [hset, hsize, Array.size_setIfInBounds, hw], r, by rw [hm, hr], hn, by rwa [hsize]⟩
  | recorded k hd =>
    rw [hd]
    refine ⟨hw, _, by rw [hr]; rfl, by rw [Array.size_setIfInBounds, hn], fun record hre => ?_⟩
    rcases Array.mem_or_eq_of_mem_setIfInBounds hre with hre | rfl
    · exact hwi record hre
    · exact hw
  | thinned hr' hd =>
    rw [hd]
    cases hr.symm.trans hr'
    exact ⟨hw, _, rfl, (keeps_compact _ _ _ r).size.trans hn, (keeps_compact _ _ _ r).widths _ hwi⟩

lemma Shaped.after (h : Shaped n c) (acts : List Act) : Shaped n (after scale c acts) :=
  forall_passed (fun _ a h => h.next a) h acts _ (after_mem_passed c acts)

structure Alike (c d : Chain α) : Prop where
  target : d.target = c.target
  size : d.size = c.size
  width : d.walkers.size = c.walkers.size

lemma Alike.next (h : Alike c d) (a : Act) : Alike c (a.next scale d) := by
  obtain ⟨ht, hsize, hw⟩ := h
  cases effect scale d a with
  | aside ht' hsize' _ hsame => exact ⟨ht'.trans ht, hsize'.trans hsize, by rw [hsame, hw]⟩
  | offered ht' hsize' _ _ _ _ _ hset =>
    exact ⟨ht'.trans ht, hsize'.trans hsize, by rw [hset, Array.size_setIfInBounds, hw]⟩
  | recorded _ hd | thinned _ hd =>
    rw [hd]
    exact ⟨ht, hsize, hw⟩

lemma alike_passed (c : Chain α) (acts : List Act) : ∀ e ∈ passed scale c acts, Alike c e :=
  forall_passed (fun _ a h => h.next a) ⟨rfl, rfl, rfl⟩ acts

lemma entry_next {a : Act} (h : (a.next scale c).entry k w = some x) :
    (∃ k', c.entry k' w = some x) ∨ c.walkers[w]? = some x := by
  cases effect scale c a with
  | aside _ _ hm | offered _ _ hm =>
    unfold entry at h
    rw [hm] at h
    exact .inl ⟨k, h⟩
  | recorded k' hd =>
    rw [hd] at h
    cases hr : c.recording with
    | none => simp [entry, hr] at h
    | some r =>
      simp only [entry, hr, Option.map_some, Option.bind_some, memoryEntry, Array.getElem?_setIfInBounds] at h
      split at h
      · split at h
        · exact .inr h
        · cases h
      · exact .inl ⟨k, by rw [entry, hr]; exact h⟩
  | thinned hr hd =>
    rw [hd] at h
    obtain ⟨k', hk'⟩ := (keeps_compact _ _ _ _).entries k w x h
    exact .inl ⟨k', by rw [entry, hr]; exact hk'⟩

/-- A sample after some acts was there before, or its walker was in this state once. -/
lemma entry_after {acts : List Act} (h : (after scale c acts).entry k w = some x) :
    (∃ k', c.entry k' w = some x) ∨ ∃ e ∈ passed scale c acts, e.walkers[w]? = some x := by
  induction acts generalizing c with
  | nil => exact .inl ⟨k, h⟩
  | cons a acts ih =>
    rcases ih h with ⟨k', h⟩ | ⟨e, he, hx⟩
    · rcases entry_next h with h | h
      · exact .inl h
      · exact .inr ⟨c, mem_cons_self, h⟩
    · exact .inr ⟨e, mem_cons_of_mem _ he, hx⟩

/-! ## Runs as acts -/

def Leads (scale : α) (c d : Chain α) : Prop :=
  ∃ acts, d = after scale c acts

instance : Std.Refl (Leads scale) where
  refl _ := ⟨[], rfl⟩

instance : Trans (Leads scale) (Leads scale) (Leads scale) where
  trans := by
    rintro c _ _ ⟨acts, rfl⟩ ⟨more, rfl⟩
    exact ⟨acts ++ more, (after_append c acts more).symm⟩

lemma Leads.target (h : Leads scale c d) : d.target = c.target := by
  obtain ⟨acts, rfl⟩ := h
  exact (alike_passed c acts _ (after_mem_passed c acts)).target

/-- The operation is a list of acts. It refuses for such reasons only, or for one that the target refuses a point for. -/
structure Acts {β : Type} (scale : α) (P : Fault → Prop) (m : ChainM α β) : Prop where
  leads : Moves (Leads scale) m
  refuses : ∀ c, RefusesOnly (fun e => P e ∨ ∃ point, c.target.logProb point = .error e) (outcome m c).1

section

variable {P : Fault → Prop} {β γ : Type} {m m' : ChainM α β}

lemma Acts.bind {f : β → ChainM α γ} (hm : Acts scale P m) (hf : ∀ b, Acts scale P (f b)) : Acts scale P (m >>= f) where
  leads := hm.leads.bind fun b => (hf b).leads
  refuses c := refusesOnly_outcome_bind (hm.refuses c) fun b d hd => (hm.leads.of_eq hd).target ▸ (hf b).refuses d

lemma Acts.returns (h : Acts scale (fun _ => False) m)
    (ht : ∀ point e, c.target.logProb point ≠ .error e) : ∃ b d, outcome m c = (.ok b, d) := by
  rcases hm : outcome m c with ⟨e | b, d⟩
  · rcases h.refuses c e (by rw [hm]) with ⟨⟨⟩⟩ | ⟨point, hp⟩
    exact absurd hp (ht point e)
  · exact ⟨b, d, rfl⟩

lemma acts_of_refuses (hm : Moves (Leads scale) m) (h : ∀ c, RefusesOnly P (outcome m c).1) : Acts scale P m :=
  ⟨hm, fun c e he => .inl (h c e he)⟩

lemma acts_pure (b : β) : Acts scale P (pure b : ChainM α β) :=
  acts_of_refuses (moves_pure b) fun _ => refusesOnly_ok b

lemma acts_get : Acts scale P (get : ChainM α (Chain α)) := acts_of_refuses moves_get fun c => refusesOnly_ok c

lemma acts_throw {e : Fault} (he : P e) : Acts scale P (throw e : ChainM α β) :=
  acts_of_refuses (moves_throw e) fun _ => refusesOnly_error.mpr he

lemma acts_ite {p : Prop} [Decidable p] (h : Acts scale P m) (h' : Acts scale P m') :
    Acts scale P (if p then m else m') := by
  split
  · exact h
  · exact h'

lemma leads_perform (a : Act) : Moves (Leads scale) (a.perform scale) := fun _ => ⟨[a], rfl⟩

/-- What holds of the moves of single walkers and of sequences holds of a step. -/
lemma step_of {Q : ∀ {β : Type}, ChainM α β → Prop} (hpure : ∀ {β : Type} (b : β), Q (pure b))
    (hbind : ∀ {β γ : Type} {m : ChainM α β} {f : β → ChainM α γ}, Q m → (∀ b, Q (f b)) → Q (m >>= f)) (hget : Q get)
    (hdraw : Q draw) (hjump : ∀ i, Q (jump i)) (hs : ∀ i, Q (stretch scale i)) (jumpFraction : α) :
    Q (step scale jumpFraction) := by
  have hw {f : Nat → ChainM α Unit} (hf : ∀ i, Q (f i)) (left i : Nat) : Q (forWalkers f left i) := by
    induction left generalizing i with
    | zero => exact hpure _
    | succ left ih => exact hbind (hf i) fun _ => ih (i + 1)
  refine hbind (hbind hdraw fun _ => hpure _) fun _ => hbind hget fun _ => ?_
  split
  · exact hw hjump _ _
  · exact hw hs _ _

lemma acts_step (jumpFraction : α) : Acts scale P (step scale jumpFraction) :=
  step_of (Q := Acts scale P) acts_pure Acts.bind acts_get
    (acts_of_refuses (fun _ => ⟨[.draw], rfl⟩) fun _ => refusesOnly_ok _)
    (fun i => ⟨leads_perform (.jump i), fun c e he => .inr ((effect_jump scale i c).2.2 e he)⟩)
    (fun i => ⟨leads_perform (.stretch i), fun c e he => .inr ((effect_stretch scale i c).2.2 e he)⟩) _

lemma acts_stepAt (jumpFraction : α) (thin : Int) (recorded : Bool) (i : Nat) :
    Acts scale P (stepAt scale jumpFraction thin recorded i) :=
  (acts_step jumpFraction).bind fun _ => acts_ite (acts_get.bind fun _ =>
    acts_of_refuses (leads_perform (.record _)) fun _ => refusesOnly_ok _) (acts_pure _)

lemma acts_steps (jumpFraction : α) (thin : Int) (recorded : Bool) (left i : Nat) :
    Acts scale P (steps scale jumpFraction thin recorded left i) := by
  induction left generalizing i with
  | zero => exact acts_pure _
  | succ left ih => exact (acts_stepAt jumpFraction thin recorded i).bind fun _ => ih (i + 1)

lemma acts_advance (hP : P .badRunSetting) (jumpFraction : α) (thin : Int) (recorded : Bool) (count start : Nat) :
    Acts scale P (advance scale jumpFraction thin recorded count start) := by
  have hs : Acts scale P (steps scale jumpFraction thin recorded ((inWord (count * thin)).toNat - start) start) :=
    acts_steps _ _ _ _ _
  have hthrow : Acts scale P (throw .badRunSetting >>= fun _ : PUnit => _) := (acts_throw hP).bind fun _ => hs
  unfold advance
  split
  · refine acts_get.bind fun c => ?_
    cases c.recording with
    | none => exact hthrow
    | some r => exact acts_ite hthrow hs
  · exact hs

lemma acts_tell (progress : Bool) (text : String) : Acts scale P (tell progress text : ChainM α Unit) :=
  acts_ite (acts_of_refuses (leads_perform (.say text)) fun _ => refusesOnly_ok _) (acts_pure _)

lemma acts_learnFactor (count : Nat) : Acts scale (· ≠ .shapesDiffer) (learnFactor count : ChainM α Unit) := by
  refine acts_of_refuses (leads_perform (.learn count)) fun c => ?_
  unfold learnFactor
  rw [outcome_bind_ok (outcome_get c)]
  split
  · exact refusesOnly_error.mpr (by decide)
  · dsimp only
    split
    · exact refusesOnly_ok ()
    · exact refusesOnly_error.mpr (by decide)

end

lemma leads_stepAt (jumpFraction : α) : Moves (Leads scale) (stepAt scale jumpFraction thin true i) :=
  (acts_stepAt (P := fun _ => True) jumpFraction _ _ _).leads

lemma leads_advance (jumpFraction : α) (thin : Int) (recorded : Bool) (count start : Nat) :
    Moves (Leads scale) (advance scale jumpFraction thin recorded count start) :=
  (acts_advance (P := fun _ => True) trivial _ _ _ _ _).leads

lemma leads_adapt (s : RunSettings α) (samples burn keep rounds : Nat) (thin : Int) :
    Moves (Leads s.scale) (adapt s samples burn keep rounds thin) := by
  induction rounds generalizing thin with
  | zero => exact moves_pure _
  | succ rounds ih =>
    refine moves_get.bind fun c => (moves_ofExcept _).bind fun x => moves_ite ?_ (moves_pure _)
    exact (acts_tell (P := fun _ => True) _ _).leads.bind fun _ => (leads_perform (.thinOut burn keep)).bind fun _ =>
      (leads_advance _ _ _ _ _).bind fun _ => ih _

/-! ## Recorded steps -/

lemma sameMemory_step (jumpFraction : α) : Moves SameMemory (step scale jumpFraction) :=
  step_of (Q := Moves SameMemory) moves_pure Moves.bind moves_get (fun _ => rfl)
    (fun i c => (effect_jump scale i c).2.1) (fun i c => (effect_stretch scale i c).2.1) _

lemma row_stepAt {thin : Nat} (hthin : 0 < thin) (hc : Shaped n c) (hk : k < n)
    (h : outcome (stepAt scale jumpFraction thin true i) c = (.ok (), d)) :
    d.row k = if k * thin = i then some d.walkers else c.row k := by
  obtain ⟨⟨⟩, c₁, hstep, h⟩ := outcome_bind_eq_ok.mp h
  obtain ⟨acts, rfl⟩ := (acts_step (P := fun _ => True) jumpFraction).leads.of_eq hstep
  have hsame : (after scale c acts).row k = c.row k := congrArg (·.bind (·[k]?)) ((sameMemory_step _).of_eq hstep)
  have hafter : Shaped n (after scale c acts) := hc.after acts
  obtain ⟨r, hr⟩ := hafter.exists_row hk
  split at h
  · rename_i hi
    rw [← Int.ofNat_tmod, Bool.true_and, beq_iff_eq, Int.natCast_eq_zero] at hi
    obtain ⟨q, rfl⟩ := Nat.dvd_of_mod_eq_zero hi
    obtain rfl : _ = d := congrArg Prod.snd h
    rw [outcome_bind_ok (outcome_get _), ← Int.ofNat_tdiv, placeOf_natCast, Int.toNat_natCast, row_record,
      Nat.mul_div_cancel_left q hthin]
    by_cases hq : q = k
    · rw [if_pos hq, if_pos (by rw [← hq, Nat.mul_comm]), hr]
      rfl
    · rw [if_neg hq, hsame, if_neg]
      rw [Nat.mul_comm, Nat.mul_right_inj (Nat.ne_of_gt hthin)]
      exact Ne.symm hq
  · rename_i hi
    obtain rfl : after scale c acts = d := congrArg Prod.snd h
    rw [hsame, if_neg]
    rintro rfl
    rw [← Int.ofNat_tmod] at hi
    simp at hi

/-- The records that steps write, and those that they leave alone. -/
lemma row_steps {left thin : Nat} (hthin : 0 < thin) (hc : Shaped n c) (hk : k < n)
    (h : outcome (steps scale jumpFraction thin true left i) c = (.ok (), d)) : d.row k =
      if i ≤ k * thin ∧ k * thin < i + left then
        some (outcome (steps scale jumpFraction thin true (k * thin - i + 1) i) c).2.walkers
      else c.row k := by
  induction left generalizing c i with
  | zero =>
    cases h
    rw [if_neg (by omega)]
  | succ left ih =>
    rw [steps] at h
    obtain ⟨⟨⟩, e, hfirst, h⟩ := outcome_bind_eq_ok.mp h
    obtain ⟨acts, hacts⟩ := (leads_stepAt jumpFraction).of_eq hfirst
    have hrest := ih (hacts ▸ hc.after acts) h
    have hrow := row_stepAt hthin hc hk hfirst
    have hpart (m : Nat) : outcome (steps scale jumpFraction thin true (m + 1) i) c =
        outcome (steps scale jumpFraction thin true m (i + 1)) e := by
      rw [steps, outcome_bind_ok hfirst]
    rw [hrest, hpart]
    rcases Nat.lt_trichotomy (k * thin) i with hlt | rfl | hgt
    · rw [if_neg (by omega), if_neg (by omega), hrow, if_neg (by omega)]
    · rw [if_neg (by omega), if_pos (by omega), hrow, if_pos rfl, Nat.sub_self]
      rfl
    · have hsame : e.row k = c.row k := by rw [hrow, if_neg (by omega)]
      rw [hsame, show k * thin - (i + 1) + 1 = k * thin - i by omega]
      exact if_congr (by omega) rfl rfl

lemma passed_steps {left : Nat} (h : outcome (steps scale jumpFraction thin true left i) c = (.ok (), d)) :
    ∃ acts, d = after scale c acts ∧ ∀ m ≤ left,
      (outcome (steps scale jumpFraction thin true m i) c).2 ∈ passed scale c acts := by
  induction left generalizing c i with
  | zero =>
    cases h
    refine ⟨[], rfl, fun m hm => ?_⟩
    obtain rfl := Nat.le_zero.mp hm
    exact mem_cons_self
  | succ left ih =>
    rw [steps] at h
    obtain ⟨⟨⟩, e, hfirst, h⟩ := outcome_bind_eq_ok.mp h
    obtain ⟨first, rfl⟩ := (leads_stepAt jumpFraction).of_eq hfirst
    obtain ⟨rest, rfl, hrest⟩ := ih h
    refine ⟨first ++ rest, (after_append ..).symm, fun m hm => ?_⟩
    cases m with
    | zero => exact passed_append _ _ _ (.inl (by cases first <;> exact mem_cons_self))
    | succ m =>
      rw [steps, outcome_bind_ok hfirst]
      exact passed_append _ _ _ (.inr (hrest m (Nat.le_of_succ_le_succ hm)))

lemma outcome_advance (hc : Shaped n c) (scale jumpFraction : α) (thin : Int) (first : Nat) :
    outcome (advance scale jumpFraction thin true n first) c =
      outcome (steps scale jumpFraction thin true ((inWord (n * thin)).toNat - first) first) c := by
  obtain ⟨-, r, hr, hsize, -⟩ := hc
  unfold advance
  rw [if_pos rfl, outcome_bind_ok (outcome_get c), hr]
  dsimp only
  rw [if_neg (by omega)]

/-! ## The whole run -/

lemma place_eq_ok (h : outcome (place start) c = (.ok (), d)) :
    ∃ ws : List (Walker α), ws.map Walker.point = start ∧ (∀ w ∈ ws, c.target.logProb w.point = .ok w.logProb) ∧
      d = { c with walkers := c.walkers ++ ws } := by
  induction start generalizing c with
  | nil =>
    cases h
    exact ⟨[], rfl, by simp, by simp⟩
  | cons point start ih =>
    obtain ⟨_, _, hget, h⟩ := outcome_bind_eq_ok.mp h
    cases hget
    obtain ⟨logProb, hp, h⟩ := outcome_ofExcept_bind_eq_ok.mp h
    obtain ⟨_, _, hset, h⟩ := outcome_bind_eq_ok.mp h
    cases hset
    obtain ⟨ws, rfl, hws, rfl⟩ := ih h
    exact ⟨⟨point, logProb⟩ :: ws, rfl, forall_mem_cons.mpr ⟨hp, hws⟩, by simp⟩

lemma outcome_place {ws : List (Walker α)} (hws : ∀ w ∈ ws, c.target.logProb w.point = .ok w.logProb) :
    outcome (place (ws.map Walker.point)) c = (.ok (), { c with walkers := c.walkers ++ ws }) := by
  induction ws generalizing c with
  | nil => simp [place]
  | cons w ws ih =>
    obtain ⟨hw, hws⟩ := forall_mem_cons.mp hws
    rw [map_cons, place, outcome_bind_ok (outcome_get c), hw]
    refine (ih (c := { c with walkers := c.walkers.push w }) hws).trans ?_
    simp

lemma acts_prepare (s : RunSettings α) : Acts s.scale (· ≠ .shapesDiffer) (prepare s) := by
  have hadvance (recorded : Bool) (count : Nat) : Acts s.scale (· ≠ .shapesDiffer)
    (advance s.scale s.jumpFraction s.thin recorded count 0) := acts_advance (by decide) _ _ _ _ _
  have hafter := (acts_tell s.progress "done.\n").bind fun _ => (hadvance false s.burnIn.toNat).bind fun _ =>
    acts_tell s.progress "Sampling."
  exact (acts_tell _ _).bind fun _ => acts_ite ((hadvance _ _).bind fun _ =>
    (acts_learnFactor _).bind fun _ => hafter) hafter

lemma leads_finish (s : RunSettings α) : Moves (Leads s.scale) (finish s) := by
  have htell : Moves (Leads s.scale) (tell s.progress " done.\n") := (acts_tell (P := fun _ => True) _ _).leads
  exact moves_ite ((leads_adapt _ _ _ _ _ _).bind fun _ => htell) htell

/-- A run comes to its samples by acts, and takes all of them once. -/
lemma gather_eq_ok (h : outcome (gather s start) c = (.ok (), d)) :
    start.length = c.size ∧ ∃ ws c₁, ws.map Walker.point = start ∧
      (∀ w ∈ ws, c.target.logProb w.point = .ok w.logProb) ∧ Leads s.scale (begun s c ws) c₁ ∧
      outcome (advance s.scale s.jumpFraction s.thin true s.samples.toNat 0) c₁ = (.ok (), d) := by
  obtain ⟨_, _, hget, h⟩ := outcome_bind_eq_ok.mp h
  cases hget
  cases hfits : c.fits s start with
  | false =>
    rw [hfits] at h
    cases h
  | true =>
    rw [hfits] at h
    obtain ⟨-, -, h⟩ := outcome_ofExcept_bind_eq_ok.mp h
    obtain ⟨_, _, hset, h⟩ := outcome_bind_eq_ok.mp h
    cases hset
    obtain ⟨⟨⟩, _, hp, h⟩ := outcome_bind_eq_ok.mp h
    obtain ⟨ws, hws, hc, rfl⟩ := place_eq_ok hp
    obtain ⟨⟨⟩, c₁, hlead, h⟩ := (acts_prepare s).leads.exists_of_bind h
    simp only [fits, Bool.and_eq_true, beq_iff_eq] at hfits
    exact ⟨hfits.1.2, ws, c₁, hws, hc, by simpa [begun] using hlead, h⟩

lemma shaped_begun {ws : List (Walker α)} (h : ws.length = c.size) : Shaped s.samples.toNat (begun s c ws) :=
  ⟨by simp [begun, h], _, rfl, by simp, by simp [begun]⟩

lemma entry_begun {ws : List (Walker α)} (h : (begun s c ws).entry k w = some x) : x = blank c.ndim := by
  simp only [entry, begun, Option.bind_some, memoryEntry, Array.getElem?_replicate] at h
  split at h
  · rw [Option.bind_some, Array.getElem?_replicate] at h
    split at h
    · exact (Option.some.inj h).symm
    · cases h
  · cases h

lemma lt_inWord {samples : Int} {thin : Nat} (hn : k < samples.toNat) (hthin : 0 < thin)
    (hfit : samples * thin < 2147483648) : k * thin < (inWord (samples.toNat * thin)).toNat := by
  have hs : samples.toNat = samples := Int.toNat_of_nonneg (by omega)
  rw [hs, inWord_eq (Int.mul_nonneg (by omega) (by omega)) hfit, ← hs]
  exact Nat.mul_lt_mul_of_pos_right hn hthin

/-- A run without jumps, burn-in and adaptation makes its steps from the start. -/
lemma outcome_run {l : List (Walker α)} (hws : ∀ w ∈ l, c.target.logProb w.point = .ok w.logProb)
    (hfits : c.fits s (l.map Walker.point) = true)
    (hroom : Tensor.checkRoom [s.samples.toNat, c.size, c.ndim + 1] = .ok ()) (hquiet : s.progress = false)
    (hburn : s.burnIn = 0) (hjumps : lt 0.0 s.jumpFraction = false) (hrounds : lt 1.0 s.threshold = false) :
    outcome (run s (l.map Walker.point)) c =
      outcome (steps s.scale s.jumpFraction s.thin true (inWord (s.samples.toNat * s.thin)).toNat 0) (begun s c l) := by
  have hplace := outcome_place (c := begun s c []) hws
  have hbegun : { begun s c [] with walkers := (begun s c []).walkers ++ l } = begun s c l := by simp [begun]
  rw [hbegun] at hplace
  have hprepare : outcome (prepare s) (begun s c l) = (.ok (), begun s c l) := by
    simp only [prepare, tell, hquiet, hburn, hjumps, advance, Int.toNat_zero, Int.natCast_zero, Int.zero_mul]
    rfl
  have hfinish (c : Chain α) : outcome (finish s) c = (.ok (), c) := by
    simp only [finish, tell, hquiet, hrounds]
    rfl
  have hfits' := hfits
  simp only [fits, Bool.and_eq_true, beq_iff_eq, length_map] at hfits
  have hsteps := outcome_advance (shaped_begun (s := s) hfits.1.2) s.scale s.jumpFraction s.thin 0
  unfold run gather
  rw [outcome_bind, outcome_bind_ok (outcome_get c), hfits', hroom]
  rw [if_neg (by decide), outcome_bind_ok (outcome_ofExcept _ c), outcome_bind_ok (outcome_set _ c),
    outcome_bind_ok hplace, outcome_bind_ok hprepare, hsteps, Nat.sub_zero]
  rcases outcome _ _ with ⟨_ | _, d⟩
  · rfl
  · exact hfinish d

/-- A run is a list of acts. Each sample is a state that its walker was in, or was never written. -/
lemma run_acts (hrun : outcome (run s start) c = (.ok (), d)) :
    ∃ ws acts, ws.map Walker.point = start ∧ (∀ w ∈ ws, c.target.logProb w.point = .ok w.logProb) ∧
      d = after s.scale (begun s c ws) acts ∧ Shaped s.samples.toNat d ∧
      ∀ k w x, d.entry k w = some x → (∃ e ∈ passed s.scale (begun s c ws) acts, e.walkers[w]? = some x) ∨
        x = blank c.ndim ∧ (s.thin < 1 ∨ 2147483648 ≤ s.samples * s.thin) := by
  obtain ⟨⟨⟩, _, hgather, hfinish⟩ := outcome_bind_eq_ok.mp hrun
  obtain ⟨later, rfl⟩ := (leads_finish s).of_eq hfinish
  obtain ⟨hs, ws, _, hws, hp, ⟨before, rfl⟩, hmain⟩ := gather_eq_ok hgather
  have hb : Shaped s.samples.toNat (begun s c ws) := shaped_begun (by rw [← hs, ← hws, length_map])
  rw [outcome_advance (hb.after before)] at hmain
  obtain ⟨main, rfl, hpassed⟩ := passed_steps hmain
  rw [← after_append, ← after_append]
  refine ⟨ws, _, hws, hp, rfl, hb.after _, fun k w x hx => ?_⟩
  by_cases hfit : s.thin < 1 ∨ 2147483648 ≤ s.samples * s.thin
  · rcases entry_after hx with ⟨_, h⟩ | h
    · exact .inr ⟨entry_begun h, hfit⟩
    · exact .inl h
  · -- every record is written once, so what the memory holds before the later acts are states too
    obtain ⟨hlow, hhigh⟩ := not_or.mp hfit
    obtain ⟨thin, hthin⟩ := Int.eq_ofNat_of_zero_le (by omega : 0 ≤ s.thin)
    rw [hthin] at hmain hpassed hlow hhigh
    rw [after_append, after_append] at hx
    rcases entry_after hx with ⟨k', h⟩ | ⟨e, he, hx⟩
    · have hk' := ((hb.after before).after main).lt_of_entry h
      have hlt := lt_inWord hk' (by omega) (Int.not_le.mp hhigh)
      rw [entry_eq, row_steps (by omega) (hb.after before) hk' hmain, if_pos (by omega)] at h
      exact .inl ⟨_, passed_append _ _ _ (.inr (passed_append _ _ _ (.inl (hpassed _ (by omega))))), h⟩
    · exact .inl ⟨e, passed_append _ _ _ (.inr (passed_append _ _ _ (.inr he))), hx⟩

/-- Samples are states that their walkers were in, with their probabilities. Steps are counted in a word of 32 bits;
if they do not fit, samples can stay blank. -/
theorem run_samples {s : RunSettings α} {start : List (Array α)} {c d : Chain α} (hthin : 1 ≤ s.thin)
    (hrun : outcome (run s start) c = (.ok (), d)) :
    ∃ ws acts records, ws.map Walker.point = start ∧ (∀ w ∈ ws, c.target.logProb w.point = .ok w.logProb) ∧
      d = after s.scale (begun s c ws) acts ∧ d.records = .ok records ∧ records.length = s.samples.toNat ∧
      ∀ r ∈ records, r.size = c.size ∧ ∀ (w : Nat) (x : Walker α), r[w]? = some x →
        (c.target.logProb x.point = .ok x.logProb ∧ ∃ e ∈ passed s.scale (begun s c ws) acts, e.walkers[w]? = some x) ∨
        (x = blank c.ndim ∧ 2147483648 ≤ s.samples * s.thin) := by
  obtain ⟨ws, acts, hws, hp, rfl, ⟨-, memory, hm, hsize, hw⟩, hen⟩ := run_acts hrun
  have hc : Coherent c.target (begun s c ws) := ⟨rfl, by simpa [begun] using hp⟩
  refine ⟨ws, acts, memory.toList, hws, hp, rfl, by rw [records, hm], by simpa using hsize, fun r hr => ?_⟩
  have hr := Array.mem_toList_iff.mp hr
  refine ⟨(hw r hr).trans (alike_passed (begun s c ws) acts _ (after_mem_passed _ acts)).size, fun w x hx => ?_⟩
  obtain ⟨k, hk⟩ := Array.mem_iff_getElem?.mp hr
  have hent : (after s.scale (begun s c ws) acts).entry k w = some x := by
    rw [entry_eq, row, hm, Option.bind_some, hk]
    exact hx
  rcases hen k w x hent with ⟨e, he, hx⟩ | ⟨hb, hfit⟩
  · exact .inl ⟨(forall_passed (fun _ a h => h.next a) hc acts e he).walkers x (Array.mem_of_getElem? hx), e, he, hx⟩
  · exact .inr ⟨hb, hfit.resolve_left (Int.not_lt.mpr hthin)⟩

section

open scoped Standard

/-- Three walkers under a target that is the same everywhere, with random numbers that are all zero. -/
noncomputable def level : Chain Exact where
  target := { transform := .ok, logPrior := fun _ => .ok 0.0, logLike := fun _ => .ok 0.0 }
  ndim := 1
  size := 3
  factor := [[1.0]]
  source := { stream := fun _ => 0 }

noncomputable def once : RunSettings Exact where
  samples := 1
  burnIn := 0
  thin := 1
  scale := 2.0
  jumpFraction := 0.0
  threshold := 0.0

noncomputable def spread : List (Array Exact) :=
  [#[1.0], #[2.0], #[4.0]]

/-- A step of three walkers, where all points have probabilities. -/
lemma outcome_run_once {c : Chain Exact} {v : Array Exact → Exact} (hv : ∀ p, c.target.logProb p = .ok (v p))
    (hsize : c.size = 3) (hndim : c.ndim = 1) : outcome (run once spread) c =
      outcome (steps 2.0 0.0 1 true 1 0) (begun once c (spread.map fun p => ⟨p, v p⟩)) := by
  refine outcome_run (s := once) (l := spread.map fun p => ⟨p, v p⟩) (by simp [hv]) ?_ (by rw [hsize, hndim]; rfl)
    rfl rfl ?_ ?_
  · simp [fits, once, spread, hsize, hndim]
    norm_num
  · rw [Bool.eq_false_iff]
    norm_num [once]
  · rw [Bool.eq_false_iff]
    norm_num [once]

lemma logProb_level (p : Array Exact) : level.target.logProb p = .ok 0 := by
  have hzero : (0.0 : ℝ) + 0.0 = 0 := by norm_num
  simp [Target.logProb, level, bind, Except.bind, pure, Except.pure, Exact.zero_def, hzero]

/-- All offers so far were taken. -/
structure Level (n : Nat) (c : Chain Exact) : Prop where
  target : c.target = level.target
  stream : c.source.stream = fun _ => 0
  ndim : c.ndim = 1
  size : c.size = 3
  walkers : c.walkers.size = 3
  logProb : ∀ w ∈ c.walkers, w.logProb = 0
  stretches : c.stretches = ⟨n, n⟩

lemma toUnit_zero : (Source.toUnit 0 : Exact) = .real 0 := by
  norm_num [Source.toUnit, Source.top]

open Classical in
lemma accepts_level {w : Walker Exact} (hw : w.logProb = 0) :
    w.accepts (Walker.stretchGain 1 (Walker.stretchFactor 2.0 (Source.toUnit 0)) 0) (log (Source.toUnit 0)) = true := by
  have hlog : (log (.real 0) : Exact) = .infinite true := by
    simp [log, Exact.logarithm]
  have hfactor : Walker.stretchFactor 2.0 (.real 0) = Exact.real 2⁻¹ := by
    have : (Scalar.sqrt (.real 2) : Exact) = .real (Real.sqrt 2) := by
      simp [Scalar.sqrt]
    rw [Walker.stretchFactor, Exact.two_eq, Exact.one_eq, this]
    norm_num [← sq]
  rw [toUnit_zero, hfactor, Walker.stretchGain, Exact.log_real (by norm_num), hlog, Walker.accepts, hw, Exact.zero_def]
  simp only [Exact.ofNat_eq, Exact.real_mul_real, Exact.real_add_real, Exact.real_sub_real]
  exact decide_eq_true_iff.mpr trivial

lemma Level.stretch {n i : Nat} {c : Chain Exact} (h : Level n c) (hi : i < 3) :
    ∃ d, outcome (Chain.stretch 2.0 i) c = (.ok (), d) ∧ Level (n + 1) d := by
  obtain ⟨ht, hs, hn, hsize, hw, hp, htally⟩ := h
  have hwi : c.walkers[i]? = some c.walkers[i] := Array.getElem?_eq_getElem (by omega)
  have hj : Walker.partner i 0 < c.walkers.size := by
    unfold Walker.partner
    split <;> omega
  have hwj : c.walkers[Walker.partner i 0]? = some c.walkers[Walker.partner i 0] := Array.getElem?_eq_getElem hj
  have hdraw (c : Chain Exact) : outcome draw c =
    (.ok (c.source.stream c.source.used), { c with source := c.source.next.2 }) := rfl
  have hunit (c : Chain Exact) : outcome drawUnit c =
    (.ok (Source.toUnit (c.source.stream c.source.used)), { c with source := c.source.next.2 }) := rfl
  unfold Chain.stretch
  rw [outcome_bind_ok (hdraw c), outcome_bind_ok (outcome_get _), outcome_bind_ok (hunit _),
    outcome_bind_ok (outcome_get _)]
  simp only [Source.next, hs, Nat.zero_mod, hwi, hwj, ht]
  rw [outcome_bind_ok ((outcome_ofExcept _ _).trans (by rw [logProb_level])), outcome_bind_ok (hunit _)]
  simp only [hn]
  refine ⟨_, outcome_modify .., rfl, rfl, rfl, hsize, by simp [hw], ?_, ?_⟩
  · intro w hw
    rcases Array.mem_or_eq_of_mem_setIfInBounds hw with hw | rfl
    · exact hp w hw
    · unfold Walker.offered
      split
      · rfl
      · exact hp _ (Array.getElem_mem _)
  · dsimp only
    rw [accepts_level (hp _ (Array.getElem_mem _)), htally]
    rfl

lemma Level.step {n : Nat} {c : Chain Exact} (h : Level n c) :
    ∃ d, outcome (Chain.step 2.0 0.0) c = (.ok (), d) ∧ Level (n + 3) d := by
  have hwalkers {c : Chain Exact} (h : Level n c) :
      ∃ d, outcome (forWalkers (Chain.stretch 2.0) 3 0) c = (.ok (), d) ∧ Level (n + 3) d := by
    obtain ⟨d₀, h₀, hl⟩ := h.stretch (i := 0) (by decide)
    obtain ⟨d₁, h₁, hl⟩ := hl.stretch (i := 1) (by decide)
    obtain ⟨d₂, h₂, hl⟩ := hl.stretch (i := 2) (by decide)
    refine ⟨d₂, ?_, hl⟩
    simp only [forWalkers]
    rw [outcome_bind_ok h₀, outcome_bind_ok h₁, outcome_bind_ok h₂, outcome_pure]
  have hunit : outcome drawUnit c =
    (.ok (Source.toUnit (c.source.stream c.source.used)), { c with source := c.source.next.2 }) := rfl
  have hlt : lt (Source.toUnit (c.source.stream c.source.used)) (0.0 : Exact) = false := by
    rw [h.stream, toUnit_zero, Bool.eq_false_iff]
    norm_num
  obtain ⟨d, hd, hl⟩ := hwalkers (c := { c with source := c.source.next.2 }) { h with }
  refine ⟨d, ?_, hl⟩
  rw [Chain.step, outcome_bind_ok hunit, outcome_bind_ok (outcome_get _), hlt, if_neg (by decide)]
  exact (congrArg (fun n => outcome (forWalkers (Chain.stretch 2.0) n 0) _) h.size).trans hd

theorem run_samples_level : ∃ d records, outcome (run once spread) level = (.ok (), d) ∧
    d.stretches = ⟨3, 3⟩ ∧ d.records = .ok records ∧ records.length = 1 ∧ ∀ r ∈ records, r.size = 3 ∧
      ∀ (w : Nat) (x : Walker Exact), r[w]? = some x → level.target.logProb x.point = .ok x.logProb := by
  have hstart : Level 0 (begun once level (spread.map fun p => ⟨p, 0⟩)) :=
    ⟨rfl, rfl, rfl, rfl, rfl, by simp [begun], rfl⟩
  obtain ⟨d, hstep, hd⟩ := hstart.step
  have hrun : outcome (run once spread) level = (.ok (), (outcome (record 0) d).2) := by
    rw [outcome_run_once logProb_level rfl rfl, steps, stepAt, outcome_bind, outcome_bind_ok hstep]
    rfl
  obtain ⟨ws, acts, records, -, -, -, hre, hl, hs⟩ := run_samples (by decide) hrun
  refine ⟨_, records, hrun, hd.stretches, hre, hl, fun r hr => ⟨(hs r hr).1, fun w x hx => ?_⟩⟩
  rcases (hs r hr).2 w x hx with ⟨h, -⟩ | ⟨-, h⟩
  · exact h
  · exact absurd h (by decide)

end

/-- Three walkers at one point, with a target that has no probability anywhere. -/
def stuck : Chain Float where
  target := .impossible
  ndim := 1
  size := 3
  factor := [[1.0]]
  source := { stream := fun _ => 7 }

def stuckRun (samples thin : Int) : ChainM Float Unit :=
  run { samples, burnIn := 0, thin, scale := 2.0, jumpFraction := 0.0, threshold := 0.0 } [#[1.0], #[1.0], #[1.0]]

/-- Twice the thinning is too much for a word: the samples are where no walker was. -/
theorem stuck_blank : ∃ d r x, outcome (stuckRun 2 1073741824) stuck = (.ok (), d) ∧ d.records = .ok [r, r] ∧
    r[0]? = some x ∧ x.point = #[0.0] ∧ stuck.target.logProb x.point ≠ .ok x.logProb :=
  ⟨_, _, _, rfl, rfl, rfl, rfl, by decide⟩

end GridBayes.Chain
