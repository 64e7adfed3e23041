import GridBayes.Grid.Create
import GridBayes.Plot.Corner

/-! The grids that are known at a time. They are read from a folder; single files can be added to
the list, but every look at the list reads the folder again. -/
namespace GridBayes

abbrev Registry := List (String × Grid)

/-- Files, the grids that are known, and what was said and plotted. -/
structure Session where
  store : Store := {}
  time : String := ""
  runtime : String := ""
  registry : Registry := []
  gridFolder : Path := ["grids"]
  plotter : Plotter := {}
  plotted : List PlotCall := []
  said : String := ""

abbrev SessionM := ExceptT Fault (StateM Session)

namespace Session

def say (s : String) : SessionM Unit :=
  modify fun w => { w with said := w.said ++ s }

def plotCorner (samples : StoredArray) (file : Value) (options : List (String × Value)) :
    SessionM Unit := do
  let w ← get
  let (calls, text) ← ofExcept (Plot.corner w.plotter samples file options)
  set { w with plotted := w.plotted ++ calls, said := w.said ++ text }

/-- A file adds its grid to the registry under its name. -/
def registered (registry : Registry) (store : Store) (file : String) : Except Fault Registry := do
  let a ← store.archive (Path.ofText file)
  if !a.has "_grid_spec" then throw (.notAGridFile file)
  let name := Path.stem file
  if (registry.lookup name).isSome then throw .gridTaken
  let grid ← Grid.ofArchive file a
  return registry ++ [(name, grid)]

def register (file : String) : SessionM Unit := do
  let w ← get
  let registry ← ofExcept (registered w.registry w.store file)
  set { w with registry := registry }

def isPassedOver (f : Fault) : Bool :=
  f.kind == .value || f.kind == .assertion || f.kind == .jsonSyntax

/-- Adds the grids of some files. Files that are no grids are passed over. -/
def registerAll (store : Store) : Registry → List String → Registry × Except Fault Unit
  | registry, [] => (registry, .ok ())
  | registry, file :: rest =>
    match registered registry store file with
    | .ok registry => registerAll store registry rest
    | .error e => if isPassedOver e then registerAll store registry rest else (registry, .error e)

def folderGrids (w : Session) : Registry × Except Fault Unit :=
  registerAll w.store [] ((w.store.names w.gridFolder ".npz").map fun name => Path.toText (w.gridFolder ++ [name]))

/-- The registry becomes what the folder of grids holds now. -/
def reload : SessionM Unit := do
  let w ← get
  let (registry, result) := w.folderGrids
  set { w with registry := registry }
  ofExcept result

def grids : SessionM Registry := do
  reload
  return (← get).registry

def library (w : Session) : Except Fault Registry :=
  let (registry, result) := w.folderGrids
  result.map fun _ => registry

def grid (name : String) : SessionM Grid := do
  match (← grids).lookup name with
  | some g => return g
  | none => throw .missingField

def sayAll : List (Except Fault String) → SessionM Unit
  | [] => return ()
  | .error e :: _ => throw e
  | .ok s :: rest => do
    say s
    sayAll rest

def gridFile (w : Session) (name : String) : Path :=
  Path.ofText <| Path.withExtension ".npz" <|
    if name.toList.contains '/' then name
    else if name == "" || name == "." then w.gridFolder.toText
    else w.gridFolder.toText ++ "/" ++ name

/-- The session after a look at the grids, which reads the folder. -/
def looked (w : Session) (reads : Bool) : Session :=
  if reads then { w with registry := w.folderGrids.1 } else w

def runChecks : List GridDefinition.Check → SessionM Unit
  | [] => return ()
  | c :: rest => do
    modify (looked · c.reads)
    say (← ofExcept c.result)
    runChecks rest

/-- A grid is checked and written, and the registry is read again. -/
def create (d : GridDefinition) : SessionM Unit := do
  let w ← get
  runChecks (d.check w.library)
  let a ← ofExcept d.toArchive
  let store ← ofExcept (w.store.write (w.gridFile d.name) (.archive a))
  modify fun w => { w with store := store }
  reload

def openGrid (w : Session) (file : String) : Except Fault Grid := do
  Grid.ofArchive file (← w.store.archive (Path.ofText file))

end Session

end GridBayes
