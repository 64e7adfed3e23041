import GridBayes.Storage.Store

/-! Where things are kept: a base folder, which depends on the system unless it was chosen, and in it a
folder for compiled models and one for grids. -/
namespace GridBayes

structure Folders where
  base : Path
deriving Repr, DecidableEq

namespace Folders

def cache (f : Folders) : Path :=
  f.base ++ ["cycache"]

def grids (f : Folders) : Path :=
  f.base ++ ["grids"]

def ofSystem (system : String) (home : Path) : Path :=
  match system with
  | "Linux" => home ++ [".config", "starlord"]
  | "Darwin" => home ++ ["Library", "Application Support", "starlord"]
  | _ => home ++ [".starlord"]

def isReachable (store : Store) (p : Path) : Bool :=
  (List.range (p.length + 1)).all fun k =>
    let place := Path.resolve (p.take k)
    store.folders.contains place || (!place.isEmpty && place.all (· == ".."))

def made (store : Store) (p : Path) : Store :=
  if Path.isOutside p then store else store.makeFolder (Path.resolve p)

/-- Finds the folders and makes missing ones. A chosen base folder must stand in one that exists, the home folder
must exist. -/
def prepare (store : Store) (system : String) (home : Path) (chosen : Option Path) :
    Except Fault (Folders × Store) := do
  let needed := match chosen with
    | some base => base.parent
    | none => home
  if !isReachable store needed then throw .parentMissing
  let f : Folders := ⟨chosen.getD (ofSystem system home)⟩
  if f.base.any fun part => Store.longestName < part.utf8ByteSize then throw .nameTooLong
  return (f, [f.base, f.cache, f.grids].foldl made store)

end Folders

end GridBayes
