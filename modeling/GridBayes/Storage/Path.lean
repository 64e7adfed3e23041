import GridBayes.Text.Basic

/-! Names of files in folders. A path is the list of its parts, from the working folder. -/
namespace GridBayes

abbrev Path := List String

namespace Path

def parent (p : Path) : Path :=
  p.dropLast

/-- Takes one more part: a point stays, two points go up, or out of the working folder. -/
def step (p : Path) (part : String) : Path :=
  if part == "" || part == "." then p
  else if part == ".." && p.getLast?.any (· != "..") then p.parent
  else p ++ [part]

def parts (s : String) : Path :=
  (Text.splitAt '/' s).filter fun part => part != "" && part != "."

def resolve (p : Path) : Path :=
  p.foldl step []

def isOutside (p : Path) : Bool :=
  (resolve p).head? == some ".."

/-- The path of a text, with two points as they are. A root starts with a slash, a folder ends with a point, and the
empty text names no file. -/
def ofText (s : String) : Path :=
  if s.isEmpty then [""]
  else (if Text.startsWith "/" s then ["/"] else []) ++ parts s
    ++ if Text.endsWith "/" s || Text.endsWith "/." s then ["."] else []

def toText (p : Path) : String :=
  Text.join "/" p

def shown (s : String) : String :=
  let lead :=
    match s.toList with
    | '/' :: '/' :: '/' :: _ => "/"
    | '/' :: '/' :: _ => "//"
    | '/' :: _ => "/"
    | _ => ""
  let text := lead ++ toText (parts s)
  if text == "" then "." else text

def fileName (s : String) : String :=
  ((parts s).getLast?).getD ""

def stemOf (name : String) : String :=
  let parts := Text.splitAt '.' name
  match parts.getLast? with
  | some "" | none => name
  | some _ =>
    let stem := Text.join "." parts.dropLast
    if stem == "" then name else stem

def stem (s : String) : String :=
  stemOf (fileName s)

def extension (s : String) : String :=
  let name := fileName s
  Text.dropFirst (stemOf name).length name

def withExtension (ext s : String) : String :=
  if Text.endsWith ext s then s else s ++ ext

end Path

end GridBayes
