import GridBayes.Text.CharClass

/-! Cutting and joining text. The work is done on lists of characters, so that each operation has
a plain recursive definition; the versions on `String` wrap them. -/
namespace GridBayes.Text

/-! ## Both ends -/

def trimChars (p : Char → Bool) (cs : List Char) : List Char :=
  ((cs.dropWhile p).reverse.dropWhile p).reverse

def strip (s : String) : String :=
  String.ofList (trimChars isBlank s.toList)

def stripOf (set : List Char) (s : String) : String :=
  String.ofList (trimChars (set.contains ·) s.toList)

/-! ## Splitting -/

def splitChars (p : Char → Bool) : List Char → List (List Char)
  | [] => [[]]
  | c :: rest =>
    if p c then [] :: splitChars p rest
    else
      match splitChars p rest with
      | [] => [[c]]
      | piece :: more => (c :: piece) :: more

def splitAt (sep : Char) (s : String) : List String :=
  (splitChars (· == sep) s.toList).map String.ofList

def afterStart? : (start text : List Char) → Option (List Char)
  | [], text => some text
  | _ :: _, [] => none
  | a :: start, b :: text => if a == b then afterStart? start text else none

/-- Splits at every occurrence of `sep`; `inside` counts characters of one still to be passed. -/
def splitWordFrom (sep : List Char) : (inside : Nat) → List Char → List (List Char)
  | _, [] => [[]]
  | k + 1, _ :: rest => splitWordFrom sep k rest
  | 0, c :: rest =>
    if (afterStart? sep (c :: rest)).isSome then
      [] :: splitWordFrom sep (sep.length - 1) rest
    else
      match splitWordFrom sep 0 rest with
      | [] => [[c]]
      | piece :: more => (c :: piece) :: more

def splitWord (sep s : String) : List String :=
  (splitWordFrom sep.toList 0 s.toList).map String.ofList

def isLineEnd (c : Char) : Bool :=
  let n := c.toNat
  (10 ≤ n && n ≤ 13) || (28 ≤ n && n ≤ 30) || n == 133 || n == 8232 || n == 8233

/-- The lines of a text. Carriage return and line feed are one end, and an end at the end starts no line. -/
def lineChars : (line : List Char) → List Char → List (List Char)
  | [], [] => []
  | line@(_ :: _), [] => [line.reverse]
  | line, '\r' :: '\n' :: rest => line.reverse :: lineChars [] rest
  | line, c :: rest =>
    if isLineEnd c then line.reverse :: lineChars [] rest else lineChars (c :: line) rest

def lines (s : String) : List String :=
  (lineChars [] s.toList).map String.ofList

/-! ## Joining, replacing, padding -/

def join (sep : String) (pieces : List String) : String :=
  sep.intercalate pieces

theorem join_cons_cons (sep x y : String) (rest : List String) :
    join sep (x :: y :: rest) = x ++ (sep ++ join sep (y :: rest)) := by
  rw [join, String.intercalate_cons_cons, String.append_assoc]
  rfl

def replaceChar (old new : Char) (s : String) : String :=
  String.ofList (s.toList.map fun c => if c == old then new else c)

def replaceWord (old new s : String) : String :=
  join new (splitWord old s)

def padRight (width : Nat) (s : String) : String :=
  s ++ String.ofList (List.replicate (width - s.length) ' ')

def withNewlines (s : String) : String :=
  replaceChar '\r' '\n' (replaceWord "\r\n" "\n" s)

def padLeft (width : Nat) (s : String) : String :=
  String.ofList (List.replicate (width - s.length) ' ') ++ s

def dropFirst (n : Nat) (s : String) : String :=
  String.ofList (s.toList.drop n)

def takeFirst (n : Nat) (s : String) : String :=
  String.ofList (s.toList.take n)

def startsWith (start s : String) : Bool :=
  (afterStart? start.toList s.toList).isSome

def endsWith (finish s : String) : Bool :=
  (afterStart? finish.toList.reverse s.toList.reverse).isSome

def dropStart? (start s : String) : Option String :=
  (afterStart? start.toList s.toList).map String.ofList

def le (a b : String) : Bool :=
  !decide (b < a)

variable {α : Type} (key : α → String)

def insertBy (a : α) : List α → List α
  | [] => [a]
  | b :: l => if le (key a) (key b) then a :: b :: l else b :: insertBy a l

/-- In the order of the keys; what has the same key stays in order. -/
def sortBy (l : List α) : List α :=
  l.foldr (insertBy key) []

theorem insertBy_perm (a : α) (l : List α) : (insertBy key a l).Perm (a :: l) := by
  induction l with
  | nil => exact .refl _
  | cons b l ih =>
    unfold insertBy
    split
    · exact .refl _
    · exact (ih.cons b).trans (.swap a b l)

theorem sortBy_perm (l : List α) : (sortBy key l).Perm l := by
  induction l with
  | nil => exact .refl _
  | cons a l ih => exact (insertBy_perm key a _).trans (ih.cons a)

def sort (xs : List String) : List String :=
  sortBy id xs

def dedup (xs : List String) : List String :=
  (xs.foldl (fun seen x => if seen.contains x then seen else x :: seen) []).reverse

end GridBayes.Text
