import GridBayes.Storage.Path
import GridBayes.Storage.Printed

/-! Files and what they hold, as one value. A file is a text or an archive of named arrays. -/
namespace GridBayes

abbrev Archive := List (String × Item)

namespace Archive

def has (a : Archive) (key : String) : Bool :=
  (a.lookup key).isSome

def array? (a : Archive) (key : String) : Except Fault (Option StoredArray) :=
  match a.lookup key with
  | none => .ok none
  | some (.array x) => .ok (some x)
  | some .unreadable => .error .unreadableEntry

def array (a : Archive) (key : String) : Except Fault StoredArray := do
  match ← a.array? key with
  | some x => return x
  | none => throw .missingField

def textOf (a : Archive) (key : String) : Except Fault String :=
  (a.array? key).map fun x => (x.map StoredArray.text).getD ""

def ofValues (entries : List (String × Value)) : Except Fault Archive := do
  let a : Archive ← entries.mapM fun (k, v) => do return (k, ← Item.ofValue v)
  if a.has "file" then throw .reservedName
  return a

end Archive

inductive Content where
  | text (s : String)
  | archive (a : Archive)

structure Store where
  files : List (Path × Content) := []
  folders : List Path := [[]]

namespace Store

def longestName : Nat := 255

def step (s : Store) (done : Path) (part : String) : Except Fault Path :=
  if (s.files.lookup done).isSome then .error .notAFolder
  else if !s.folders.contains done then .error .fileMissing
  else if part == "." then .ok done
  else if part != ".." then
    if longestName < part.utf8ByteSize then .error .nameTooLong else .ok (done ++ [part])
  else if done.getLast?.all (· == "..") then
    if s.folders.contains (done ++ [part]) then .ok (done ++ [part]) else .error .fileMissing
  else .ok done.parent

def resolve (s : Store) (p : Path) : Except Fault Path := do
  if p.any fun part => part.toList.contains '\x00' then throw .nulInName
  p.foldlM s.step []

def content (s : Store) (p : Path) : Except Fault Content := do
  let p ← s.resolve p
  match s.files.lookup p with
  | some c => return c
  | none => throw (if s.folders.contains p then .isFolder else .fileMissing)

def read? (s : Store) (p : Path) : Option Content :=
  (s.content p).toOption

def write (s : Store) (p : Path) (c : Content) : Except Fault Store := do
  let isFolder := p.getLast? == some "."
  let p ← s.resolve (if isFolder then p.dropLast else p)
  if isFolder || s.folders.contains p then throw .isFolder
  return { s with files := (s.files.filter fun f => f.1 != p) ++ [(p, c)] }

def makeFolder (s : Store) (p : Path) : Store :=
  { s with folders := (s.folders ++ (List.range (p.length + 1)).map p.take).eraseDups }

def names (s : Store) (folder : Path) (ext : String) : List String :=
  let found := s.files.filterMap fun (p, _) =>
    match p.getLast? with
    | some name => if p.parent == folder && Text.endsWith ext name then some name else none
    | none => none
  Text.sortBy Path.stemOf found

def endMark : List UInt8 :=
  [80, 75, 5, 6]

def endSize : Nat := 22

def lastMark? : (place : Nat) → List UInt8 → Option Nat
  | _, [] => none
  | place, b :: rest =>
    match lastMark? (place + 1) rest with
    | some found => some found
    | none => if endMark.isPrefixOf (b :: rest) then some place else none

def endRecord? (bytes : List UInt8) : Option (List UInt8) :=
  let last := bytes.drop (bytes.length - endSize)
  if last.length == endSize && endMark.isPrefixOf last && last.drop 20 == [0, 0] then some last
  else
    (lastMark? 0 bytes).bind fun place =>
      let record := (bytes.drop place).take endSize
      if record.length == endSize then some record else none

def isEmptyArchive (bytes : List UInt8) : Bool :=
  (endRecord? bytes).any fun record => (record.drop 12).take 4 == [0, 0, 0, 0]

/-- The archive of a text. One that ends an empty list is an empty archive; any other is none. -/
def archiveOfText (t : String) : Except Fault Archive :=
  if t.isEmpty then .error .fileEnds
  else if Text.startsWith "PK\x03\x04" t || Text.startsWith "PK\x05\x06" t then
    if isEmptyArchive t.toUTF8.toList then .ok [] else .error .brokenArchive
  else .error .notAnArchive

def archive (s : Store) (p : Path) : Except Fault Archive := do
  match ← s.content p with
  | .archive a => return a
  | .text t => archiveOfText t

end Store

end GridBayes
