import GridBayes.CommandLine.Run
import GridBayes.Folders
import GridBayes.Sampler.HalvedEnsemble
import GridBayes.Storage.Json

/-! The program on a computer: it reads the files that the command line names and the grids of their
folder, runs, and writes what has changed. -/
namespace GridBayes.CommandLine

def pathExists (name : String) : IO Bool := do
  try
    let _ ← IO.FS.realPath name
    return true
  catch _ => return false

def readInto (store : Store) (path : Path) (name : String) : IO Store := do
  try
    let text ← IO.FS.readFile name
    let store := store.makeFolder path.parent
    return (store.write path (Content.ofText name text)).toOption.getD store
  catch _ => return store

def baseFolder : IO String := do
  match ← IO.getEnv "STARLORD_DATA_DIR" with
  | some folder => return folder
  | none =>
    let home := (← IO.getEnv "HOME").getD "."
    return home ++ "/" ++ Path.toText (Folders.ofSystem "Linux" [])

def readGrids (store : Store) (folder : String) : IO Store := do
  if !(← pathExists folder) then return store
  (← (← IO.FS.realPath folder).readDir).foldlM (fun store entry =>
    if Text.endsWith ".npz" entry.fileName then
      readInto store ["grids", entry.fileName] (folder ++ "/" ++ entry.fileName)
    else return store) (store.makeFolder ["grids"])

def namedFiles (a : Arguments) : List String :=
  [a.input, a.batch >>= Given.text?].filterMap id

def readStore (words : List String) : IO Store := do
  let store ← readGrids {} ((← baseFolder) ++ "/grids")
  match Arguments.parse words with
  | .error _ => return store
  | .ok a =>
    let store ← (namedFiles a).foldlM (fun s name => readInto s (Path.ofText name) name) store
    [a.output, a.batchSummary].filterMap (· >>= Given.text?) |>.foldlM (fun s name => do
      let folder := (Path.ofText name).parent
      if ← pathExists (Path.toText folder) then return s.makeFolder folder else return s) store

def writeChanges (before after : Store) : IO Unit :=
  after.files.forM fun (path, content) => do
    let text := content.toText
    if (before.read? path).map Content.toText != some text then
      IO.FS.writeFile (Path.toText path) text

def start (words : List String) : IO UInt32 := do
  let store ← readStore words
  let seed := (← IO.getRandomBytes 8).toList.foldl (fun n b => 256 * n + b.toUInt64) 0
  let session : Session := { store := store }
  let (result, console) := (Console.run (Source.seeded seed) words).run.run { session := session }
  IO.print console.session.said
  writeChanges store console.session.store
  if let some (file, drawing) := console.graph then IO.FS.writeFile (file ++ ".gv") drawing.source
  match result with
  | .ok status => return UInt32.ofNat (status.getD 0).toNat
  | .error e =>
    IO.eprintln e.wording
    return 1

end GridBayes.CommandLine

def main (words : List String) : IO UInt32 :=
  GridBayes.CommandLine.start words
