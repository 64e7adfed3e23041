import GridBayes.Text.Basic

/-! Paragraphs in lines of a limited width. -/
namespace GridBayes.Text

/-- The parts of a word, broken after a hyphen between letters. The part begun is reversed. -/
def hyphenParts : (part : List Char) → List Char → List (List Char)
  | part, [] => [part.reverse]
  | a :: b :: part, '-' :: c :: d :: rest =>
    if a.isAlpha && b.isAlpha && c.isAlpha && d.isAlpha then
      ('-' :: a :: b :: part).reverse :: hyphenParts [] (c :: d :: rest)
    else hyphenParts ('-' :: a :: b :: part) (c :: d :: rest)
  | part, c :: rest => hyphenParts (c :: part) rest

/-- Pieces that are not broken; one that begins a word has a space in front. -/
def chunks (s : String) : List String :=
  (splitAt ' ' s).flatMap fun word =>
    match hyphenParts [] word.toList with
    | [] => []
    | first :: rest => String.ofList (' ' :: first) :: rest.map String.ofList

def wrapFrom (width : Nat) : (line : String) → List String → List String
  | line, [] => [line]
  | line, piece :: rest =>
    if line.length + piece.length ≤ width then wrapFrom width (line ++ piece) rest
    else line :: wrapFrom width (stripOf [' '] piece) rest

def wrap (width : Nat) (s : String) : List String :=
  match chunks s with
  | [] => []
  | piece :: rest => wrapFrom width (stripOf [' '] piece) rest

end GridBayes.Text
