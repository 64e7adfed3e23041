import GridBayes.Fault

/-! Patterns for names of files: a star stands for any text, a question mark for any character, and
brackets for one character of a set. -/
namespace GridBayes

inductive Glob.Part where
  | char (c : Char)
  | one
  | any
  | range (inside : Bool) (ranges : List (Char × Char))
deriving Repr, DecidableEq

abbrev Glob := List Glob.Part

namespace Glob

/-! ## Reading patterns -/

def ranges : List Char → List (Char × Char)
  | a :: '-' :: b :: rest => (a, b) :: ranges rest
  | a :: rest => (a, a) :: ranges rest
  | [] => []

def bracket? : List Char → Option (List Char × List Char)
  | [] => none
  | c :: rest =>
    let body := rest.takeWhile (· != ']')
    match rest.drop body.length with
    | [] => none
    | _ :: after => some (c :: body, after)

def set? : List Char → Option (Part × List Char)
  | '!' :: rest => (bracket? rest).map fun (body, after) => (.range false (ranges body), after)
  | cs => (bracket? cs).map fun (body, after) => (.range true (ranges body), after)

def partsFrom : (inside : Nat) → List Char → Glob
  | _, [] => []
  | k + 1, _ :: rest => partsFrom k rest
  | 0, '*' :: rest => .any :: partsFrom 0 rest
  | 0, '?' :: rest => .one :: partsFrom 0 rest
  | 0, '[' :: rest =>
    match set? rest with
    | some (part, after) => part :: partsFrom (rest.length - after.length) rest
    | none => .char '[' :: partsFrom 0 rest
  | 0, c :: rest => .char c :: partsFrom 0 rest

def hasDoubleStar : List Char → Bool
  | '*' :: '*' :: _ => true
  | _ :: rest => hasDoubleStar rest
  | [] => false

def nothing : Glob :=
  [.range true []]

/-- The pattern of a text. Two stars must stand alone between slashes; a pattern of several steps fits no name. -/
def ofText (s : String) : Except Fault Glob :=
  let steps := (Text.splitAt '/' s).filter fun step => step != "" && step != "."
  if steps.any fun step => step != "**" && hasDoubleStar step.toList then .error .badPattern
  else
    match steps with
    | [step] => .ok (partsFrom 0 step.toList)
    | _ => .ok nothing

/-! ## Matching -/

def someEnd (test : List Char → Bool) : List Char → Bool
  | [] => test []
  | c :: rest => test (c :: rest) || someEnd test rest

def covers : Glob → List Char → Bool
  | [], cs => cs.isEmpty
  | .any :: parts, cs => someEnd (covers parts) cs
  | .char a :: parts, c :: rest => c == a && covers parts rest
  | .one :: parts, _ :: rest => covers parts rest
  | .range inside rs :: parts, c :: rest =>
    (rs.any fun (a, b) => a ≤ c && c ≤ b) == inside && covers parts rest
  | _ :: _, [] => false

def fits (g : Glob) (name : String) : Bool :=
  g.covers name.toList

end Glob

end GridBayes
