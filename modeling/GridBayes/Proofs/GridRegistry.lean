import GridBayes.Grid.Session
import GridBayes.Proofs.Operation

/-! How long a grid stays in the list of grids that are known. Every look at the list reads the folder again, so a
grid that was registered by its file stays only until then. What is looked up is always what the folder holds. -/
namespace GridBayes.Session
open Operation List

variable {w v : Session} {file name : String} {g : Grid}

/-! ## Looking at the list -/

lemma outcome_reload (w : Session) : outcome reload w = (w.folderGrids.2, { w with registry := w.folderGrids.1 }) := by
  unfold reload
  rw [outcome_bind_ok (outcome_get w)]
  cases h : w.folderGrids.2 <;> simp only [h] <;> rfl

lemma outcome_grids (w : Session) : outcome grids w = (w.library, { w with registry := w.folderGrids.1 }) := by
  have hr := outcome_reload w
  have hl : w.library = w.folderGrids.2.map fun _ => w.folderGrids.1 := rfl
  unfold grids
  cases h : w.folderGrids.2 with
  | ok u =>
    rw [h] at hr hl
    rw [outcome_bind_ok hr, hl]
    rfl
  | error e =>
    rw [h] at hr hl
    rw [outcome_bind_error hr, hl]
    rfl

def folderGrid (w : Session) (name : String) : Except Fault Grid := do
  match (← w.library).lookup name with
  | some g => return g
  | none => throw .missingField

lemma outcome_grid (w : Session) (name : String) :
    outcome (grid name) w = (w.folderGrid name, { w with registry := w.folderGrids.1 }) := by
  have hg := outcome_grids w
  unfold grid folderGrid
  cases h : w.library with
  | error e =>
    rw [h] at hg
    exact outcome_bind_error hg _
  | ok r =>
    rw [h] at hg
    rw [outcome_bind_ok hg]
    simp only [bind, Except.bind]
    cases r.lookup name <;> rfl

lemma folderGrid_eq_ok : w.folderGrid name = .ok g ↔ ∃ r, w.library = .ok r ∧ r.lookup name = some g := by
  refine bind_eq_ok.trans (exists_congr fun r => and_congr_right fun _ => ?_)
  cases r.lookup name <;> simp [pure, Except.pure]

/-! ## Registering -/

lemma outcome_register {r : Registry} (h : registered w.registry w.store file = .ok r) :
    outcome (register file) w = (.ok (), { w with registry := r }) := by
  unfold register
  rw [outcome_bind_ok (outcome_get w), h]
  rfl

lemma outcome_register_error {e : Fault} (h : registered w.registry w.store file = .error e) :
    outcome (register file) w = (.error e, w) := by
  unfold register
  rw [outcome_bind_ok (outcome_get w), h]
  rfl

lemma registered_eq_ok {registry : Registry} (h : registered registry w.store file = .ok v.registry) :
    ∃ g, w.openGrid file = .ok g ∧ v.registry = registry ++ [(Path.stem file, g)] ∧
      v.registry.lookup (Path.stem file) = some g := by
  obtain ⟨a, ha, h⟩ := bind_eq_ok.mp h
  split at h
  · cases h
  · dsimp only at h
    split at h
    · cases h
    · rename_i hfree
      obtain ⟨g, hg, h⟩ := bind_eq_ok.mp h
      have h := (Except.ok.inj h).symm
      refine ⟨g, bind_eq_ok.mpr ⟨a, ha, hg⟩, h, ?_⟩
      rw [h, lookup_append, Option.not_isSome_iff_eq_none.mp hfree]
      simp

/-! ## Runs -/

/-- What can be done with the list while the files stay as they are. -/
inductive Act where
  | register (file : String)
  | reload
  | list
  | get (name : String)

def Act.isRead : Act → Bool
  | list | get _ => true
  | _ => false

def Act.run : Act → SessionM Unit
  | register file => Session.register file
  | reload => Session.reload
  | list => do let _ ← grids
  | get name => do let _ ← grid name

def after (w : Session) (acts : List Act) : Session :=
  acts.foldl (fun w a => (outcome a.run w).2) w

lemma run_eq (a : Act) (w : Session) : ∃ r, (outcome a.run w).2 = { w with registry := r } ∧
    (a.isRead = true → r = w.folderGrids.1) := by
  cases a with
  | register file =>
    cases h : registered w.registry w.store file with
    | ok r => exact ⟨r, congrArg Prod.snd (outcome_register h), nofun⟩
    | error e => exact ⟨w.registry, congrArg Prod.snd (outcome_register_error h), nofun⟩
  | reload => exact ⟨_, congrArg Prod.snd (outcome_reload w), nofun⟩
  | list =>
    refine ⟨_, ?_, fun _ => rfl⟩
    rw [Act.run, outcome_bind, outcome_grids]
    cases w.library <;> rfl
  | get name =>
    refine ⟨_, ?_, fun _ => rfl⟩
    rw [Act.run, outcome_bind, outcome_grid]
    cases w.folderGrid name <;> rfl

lemma after_eq (acts : List Act) (w : Session) : ∃ r, after w acts = { w with registry := r } := by
  induction acts generalizing w with
  | nil => exact ⟨w.registry, rfl⟩
  | cons a acts ih =>
    obtain ⟨r, hr, -⟩ := run_eq a w
    obtain ⟨r', hr'⟩ := ih { w with registry := r }
    refine ⟨r', ?_⟩
    rw [after, foldl_cons, hr]
    exact hr'

lemma lookup_after_register (files : List String) (h : w.registry.lookup name = some g) :
    (after w (files.map .register)).registry.lookup name = some g := by
  induction files generalizing w with
  | nil => exact h
  | cons file files ih =>
    refine ih (w := (outcome (register file) w).2) ?_
    cases hfile : registered w.registry w.store file with
    | error e => rwa [outcome_register_error hfile]
    | ok r =>
      rw [outcome_register hfile]
      obtain ⟨g', -, hr, -⟩ := registered_eq_ok (v := { w with registry := r }) hfile
      rw [hr, lookup_append, h]
      rfl

/-- A registered grid stays until the list is read next. From then on it is found exactly if the folder has it by
that name. -/
theorem registered_until_read (h : outcome (register file) w = (.ok (), v)) : ∃ g, w.openGrid file = .ok g ∧
      (∀ files : List String, (after v (files.map .register)).registry.lookup (Path.stem file) = some g) ∧
      ∀ acts : List Act, ((outcome (grid (Path.stem file)) (after v acts)).1 = .ok g ↔
          ∃ r, w.library = .ok r ∧ r.lookup (Path.stem file) = some g) ∧
        (outcome grids (after v acts)).1 = w.library ∧
        ∀ a : Act, a.isRead = true → (outcome a.run (after v acts)).2.registry = w.folderGrids.1 := by
  cases hfile : registered w.registry w.store file with
  | error e => cases h.symm.trans (outcome_register_error hfile)
  | ok r =>
    cases h.symm.trans (outcome_register hfile)
    obtain ⟨g, hg, -, hl⟩ := registered_eq_ok (v := { w with registry := r }) hfile
    refine ⟨g, hg, fun files => lookup_after_register files hl, fun acts => ?_⟩
    obtain ⟨r', hr'⟩ := after_eq acts { w with registry := r }
    rw [hr', outcome_grid, outcome_grids]
    refine ⟨folderGrid_eq_ok, rfl, fun a ha => ?_⟩
    obtain ⟨_, hrun, hread⟩ := run_eq a { w with registry := r' }
    rw [hrun]
    exact hread ha

def beside : Session where
  store := {
    files := [(["gr.npz"], .archive [("_grid_spec", .text "a -> n"), ("_bounds", .reals ⟨[2, 2], #[0.0, 1.0, 1.0, 2.0]⟩),
      ("_shape", .array (.ofCounts [2])), ("a", .reals ⟨[2], #[0.0, 1.0]⟩), ("n", .reals ⟨[2], #[1.0, 2.0]⟩)])]
    folders := [[], ["grids"]] }

theorem registered_until_read_beside : ∃ v g, outcome (register "gr.npz") beside = (.ok (), v) ∧
    beside.openGrid "gr.npz" = .ok g ∧ ∀ files : List String,
      (after v (files.map .register)).registry.lookup "gr" = some g := by
  have h := outcome_of_fst (show (outcome (register "gr.npz") beside).1 = .ok () from rfl)
  obtain ⟨g, hg, hs, -⟩ := registered_until_read h
  exact ⟨_, g, h, hg, hs⟩

/-- It can be registered, but not looked up in the list that is read next. -/
theorem beside_forgotten : ∃ v, outcome (register "gr.npz") beside = (.ok (), v) ∧ v.registry.map Prod.fst = ["gr"] ∧
    (outcome grids v).1 = .ok [] ∧ (outcome (grid "gr") v).1 = .error .missingField :=
  ⟨_, outcome_of_fst rfl, rfl, rfl, rfl⟩

end GridBayes.Session
