import GridBayes.Text.CharClass

/-! Searching a text from left to right. A rule looks at what stands before and after a place and
says whether a match starts there and what is left after it; matches do not overlap. -/
namespace GridBayes.Text

inductive Piece (α : Type) where
  | char (c : Char)
  | hit (a : α)
deriving Repr, DecidableEq

/-- What is read at the start of a text, and what is left. -/
abbrev Reader (α : Type) := List Char → Option (α × List Char)

/-- Where matches start, given the characters before, nearest first. -/
abbrev Rule (α : Type) := (before : List Char) → Reader α

/-- The pieces of a text; `inside` counts the characters of the current match still to be passed. -/
def piecesFrom {α : Type} (rule : Rule α) : (before : List Char) → (inside : Nat) → List Char →
    List (Piece α)
  | _, _, [] => []
  | before, k + 1, c :: rest => piecesFrom rule (c :: before) k rest
  | before, 0, c :: rest =>
    match rule before (c :: rest) with
    | some (a, left) => .hit a :: piecesFrom rule (c :: before) (rest.length - left.length) rest
    | none => .char c :: piecesFrom rule (c :: before) 0 rest

def pieces {α : Type} (rule : Rule α) (cs : List Char) : List (Piece α) :=
  piecesFrom rule [] 0 cs

def hits {α : Type} : List (Piece α) → List α
  | [] => []
  | .char _ :: rest => hits rest
  | .hit a :: rest => a :: hits rest

def fill {α : Type} (f : α → List Char) : List (Piece α) → List Char
  | [] => []
  | .char c :: rest => c :: fill f rest
  | .hit a :: rest => f a ++ fill f rest

def substitute {α : Type} (rule : Rule α) (f : α → List Char) (cs : List Char) : List Char :=
  fill f (pieces rule cs)

/-! ## Words -/

def afterWord : List Char → Bool
  | c :: _ => isWord c
  | [] => false

/-- Matches that do not start inside a word. -/
def Rule.atWord {α : Type} (read : Reader α) : Rule α := fun before after =>
  if afterWord before then none else read after

def wordAt? (first : Char → Bool) : Reader (List Char)
  | c :: rest => if first c then some (c :: rest.takeWhile isWord, rest.dropWhile isWord) else none
  | [] => none

end GridBayes.Text
