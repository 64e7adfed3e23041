import GridBayes.Hash.Shake
import GridBayes.Storage.Path
import GridBayes.Text.Glob
import GridBayes.Value.Update

/-! The folder of compiled models. The code of a model and what was compiled from it are named by the
hash of the code. Modules that were not used for a long time are cleaned up, apart from a few that
were used last. -/
namespace GridBayes

/-- A file of the cache, with the time of its last use. -/
structure CachedFile where
  name : String
  content : String := ""
  accessed : Int
deriving Repr, DecidableEq

structure Cache where
  files : List CachedFile := []
  now : Int := 0
deriving Repr, DecidableEq

/-- What a cleanup spares. -/
structure CleanupPolicy where
  exclude : List String := []
  /-- How many stale modules stay, those used last; a negative number removes only that many. -/
  keep : Int := 20
  staleAfter : Int := 7 * 86400 * 1000000000

abbrev CacheM := ExceptT Fault (StateM Cache)

namespace CachedFile

def stemOf (hash : String) : String :=
  "sl_gen_" ++ hash

def hash (f : CachedFile) : String :=
  Text.takeFirst 40 (Text.dropFirst 7 f.name)

def moduleExtensions : List String :=
  [".so", ".dll", ".dynlib", ".sl"]

def isRemovable (f : CachedFile) : Bool :=
  (".pyx" :: moduleExtensions).contains (Path.extension f.name)

def isModule (f : CachedFile) : Bool :=
  Glob.fits (Glob.partsFrom 0 "sl_gen_*.so".toList) f.name

end CachedFile

namespace Cache

def age (c : Cache) (f : CachedFile) : Int :=
  c.now - f.accessed

def precedes (a b : Int × String) : Bool :=
  decide (a.1 < b.1) || (a.1 == b.1 && Text.le a.2 b.2)

/-- Modules that were not used for long, the latest used first. -/
def candidates (c : Cache) (p : CleanupPolicy) : List (Int × String) :=
  let stale := c.files.filter fun f =>
    f.isModule && !p.exclude.contains f.hash && decide (p.staleAfter < c.age f)
  (stale.map fun f => (c.age f, f.hash)).mergeSort precedes

def dropFrom {α : Type} (position : Int) (xs : List α) : List α :=
  if 0 ≤ position then xs.drop position.toNat else xs.drop (xs.length - (-position).toNat)

def condemned (c : Cache) (p : CleanupPolicy) : List String :=
  (dropFrom p.keep (c.candidates p)).map (·.2)

/-- A cache without the files of one program. -/
def without (c : Cache) (hash : String) : Except Fault Cache := do
  let pattern ← Glob.ofText (CachedFile.stemOf hash ++ "*")
  return { c with files := c.files.filter fun f => !(pattern.fits f.name && f.isRemovable) }

def removeAll : List String → CacheM Unit
  | [] => return ()
  | hash :: rest => do
    let c ← get
    set (← ofExcept (c.without hash))
    removeAll rest

def cleanup (p : CleanupPolicy) : CacheM Unit := do
  removeAll ((← get).condemned p)

def names (c : Cache) : List String :=
  Text.sort (c.files.map (·.name))

def modulesOf (c : Cache) (hash : String) : Except Fault (List String) := do
  let pattern ← Glob.ofText (CachedFile.stemOf hash ++ ".*.*")
  return Text.sortBy Path.stemOf ((c.files.map (·.name)).filter pattern.fits)

def folder : String :=
  "cache"

def pathOf (name : String) : String :=
  folder ++ "/" ++ name

/-- Loads the compiled module of a hash. There must be exactly one; no compiled code is run here, so even that
fails. -/
def load (c : Cache) (hash : Value) : Except Fault Unit := do
  if !hash.isKey then throw .badArgument
  let hash := hash.text
  match ← c.modulesOf hash with
  | [] => throw (.moduleMissing hash)
  | [name] =>
    let ext := Path.extension name
    if !CachedFile.moduleExtensions.contains ext then throw (.moduleFormat ext)
    if ext != ".so" then throw (.moduleUnsupported (pathOf name))
    throw .moduleBroken
  | files => throw (.moduleAmbiguous (files.map pathOf))

def find? (c : Cache) (name : String) : Option CachedFile :=
  c.files.find? fun f => f.name == name

def write (c : Cache) (name content : String) : Cache :=
  if (c.find? name).isSome then
    { c with files := c.files.map fun f => if f.name == name then { f with content := content } else f }
  else { c with files := c.files ++ [⟨name, content, c.now⟩] }

/-- The code of a program is kept under its hash, once. -/
def keepCode (c : Cache) (code : String) : Cache :=
  let name := CachedFile.stemOf (Hash.ofText code) ++ ".pyx"
  if (c.find? name).isSome then c else c.write name code

/-- The hash of code that is compiled. Without its module the folder is cleaned up and the code refused. -/
def compile (code : Value) : CacheM String := do
  let code ← ofExcept (code.needText .missingPart)
  let hash := Hash.ofText code
  modify fun c => c.keepCode code
  if (← ofExcept ((← get).modulesOf hash)).isEmpty then
    cleanup { exclude := [hash] }
    throw .compilationFailed
  return hash

end Cache

end GridBayes
