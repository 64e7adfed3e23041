import GridBayes.Storage.Cell

/-! Arrays as texts. All cells of an array are written in one width, rows stand in brackets, long rows
are broken into lines, and of large arrays only the edges are shown. -/
namespace GridBayes

/-! ## Real numbers -/

structure RealFormat where
  scientific : Bool
  before : Nat
  after : Nat
  exponent : Nat
deriving Repr, DecidableEq

namespace RealFormat

def places : Nat := 8

def positional (b : Decimal.Binary) : List Char × List Char :=
  let short := Decimal.shortest b
  let d : Decimal.Number :=
    if -(places : Int) ≤ short.exponent then short
    else ⟨(b.magnitude.shift10 (-(places : Int))).round, -(places : Int)⟩
  let (whole, fraction) := d.layout.split
  (if b.negative then '-' :: whole else whole, Decimal.trimZeros fraction)

def exponential (b : Decimal.Binary) : List Char × List Char × List Char :=
  let short := Decimal.shortest b
  let d := if Decimal.digitCount short.digits ≤ places + 1 then short
    else Decimal.significant (places + 1) b
  let l := d.layout
  let exponent := if b.mantissa = 0 then 0 else l.point - 1
  let whole := l.digits.take 1
  (if b.negative then '-' :: whole else whole, Decimal.trimZeros (l.digits.drop 1), Decimal.exponentDigits exponent)

def longest (xs : List (List Char)) : Nat :=
  xs.foldl (fun n x => max n x.length) 0

def needsExponent (magnitudes : List Float) : Bool :=
  match magnitudes with
  | [] => false
  | x :: rest =>
    let most := rest.foldl (fun a b => if a < b then b else a) x
    let least := rest.foldl (fun a b => if b < a then b else a) x
    decide (most ≥ 1e8) || decide (least < 0.0001) || decide (most / least > 1000.0)

/-- The format for some numbers. What is not finite takes the room of the digits, and more if needed. -/
def ofNumbers (xs : List Float) : RealFormat :=
  let finite := xs.filterMap Decimal.Binary.ofFloat?
  let scientific := needsExponent ((xs.filter fun x => x.isFinite && x != 0.0).map Float.abs)
  let fitted : RealFormat :=
    if scientific then
      let written := finite.map exponential
      let after := longest (written.map fun w => w.2.1)
      ⟨true, longest (written.map fun w => w.1), after, longest (written.map fun w => w.2.2) - 1⟩
    else
      let written := finite.map positional
      ⟨false, longest (written.map fun w => w.1), longest (written.map fun w => w.2), 0⟩
  if finite.length = xs.length then fitted
  else
    let tail := if scientific then fitted.exponent + 2 + fitted.after else fitted.after
    let room := if xs.any fun x => x.isInf && x < 0.0 then 4 else 3
    { fitted with before := max fitted.before (room - (tail + 1)) }

def tail (f : RealFormat) : Nat :=
  if f.scientific then f.exponent + 2 + f.after else f.after

def write (f : RealFormat) (x : Float) : String :=
  match Decimal.Binary.ofFloat? x with
  | none => Text.padLeft (f.before + f.tail + 1) (Decimal.shortText x)
  | some b =>
    if f.scientific then
      let (whole, fraction, exponent) := exponential b
      let zeros (n : Nat) (cs : List Char) := List.replicate (n - cs.length) '0'
      let digits := exponent.drop 1
      Text.padLeft f.before (String.ofList whole)
        ++ String.ofList ('.' :: fraction ++ zeros f.after fraction
          ++ 'e' :: exponent.take 1 ++ zeros f.exponent digits ++ digits)
    else
      let (whole, fraction) := positional b
      Text.padLeft f.before (String.ofList whole) ++ "." ++ Text.padRight f.after (String.ofList fraction)

end RealFormat

/-! ## Cells -/

inductive CellFormat where
  | right (width : Nat)
  | real (format : RealFormat)
  | quoted

namespace CellFormat

def ofCells (kind : CellKind) (shown : List Cell) : CellFormat :=
  match kind with
  | .flag => .right 5
  | .whole => .right (shown.foldl (fun n c => max n c.toText.length) 0)
  | .real => .real (RealFormat.ofNumbers (shown.filterMap Cell.number?))
  | .text => .quoted

def write (f : CellFormat) (c : Cell) : String :=
  match f with
  | .right width => Text.padLeft width c.toText
  | .real format => format.write (c.number?.getD (0.0 / 0.0))
  | .quoted => Text.quoted c.toText

end CellFormat

/-! ## Rows -/

namespace StoredArray

def lineWidth : Nat := 75

def fullSize : Nat := 1000

def edge : Nat := 3

def blanks (n : Nat) : String :=
  String.ofList (List.replicate n ' ')

def trimLine (line : String) : String :=
  String.ofList ((line.toList.reverse.dropWhile (· == ' ')).reverse)

/-- Words with blanks between them. A word past the limit starts a new line after `indent` blanks. -/
def fill (limit indent : Nat) : List String → String
  | [] => ""
  | first :: rest =>
    let (done, line) := rest.foldl (fun (done, line) word =>
      if limit < line.length + 1 + word.length then
        (done ++ trimLine line ++ "\n", blanks indent ++ word)
      else (done, line ++ " " ++ word)) ("", blanks indent ++ first)
    Text.dropFirst indent (done ++ line)

def shownParts {α : Type} (brief : Bool) (parts : List α) : List (Option α) :=
  if brief && 2 * edge < parts.length then
    (parts.take edge).map some ++ none :: (parts.drop (parts.length - edge)).map some
  else parts.map some

def edgeCells : List Nat → List Cell → List Cell
  | [], cells => cells
  | n :: shape, cells =>
    (shownParts true (Tensor.chunks (Tensor.volume shape) n cells)).flatMap fun part =>
      (part.map (edgeCells shape)).getD []

def layout (format : CellFormat) (brief : Bool) : (shape : List Nat) → (depth : Nat) →
    List Cell → String
  | [], _, cells => (cells.head?.map format.write).getD ""
  | n :: shape, depth, cells =>
    let parts := shownParts brief (Tensor.chunks (Tensor.volume shape) n cells)
    let words := parts.map fun part =>
      (part.map (layout format brief shape (depth + 1))).getD "..."
    let gap := String.ofList (List.replicate shape.length '\n') ++ blanks (depth + 1)
    "[" ++ (if shape.isEmpty then fill (lineWidth - depth - 1) (depth + 1) words
      else Text.join gap words) ++ "]"

def text (a : StoredArray) : String :=
  let cells := a.cells.data.toList
  let size := Tensor.volume a.shape
  if a.shape.isEmpty then (cells.head?.map Cell.toText).getD ""
  else if size = 0 then "[]"
  else
    let brief := decide (fullSize < size)
    let format := CellFormat.ofCells a.kind (if brief then edgeCells a.shape cells else cells)
    layout format brief a.shape 0 cells

def texts (a : StoredArray) : Except Fault (List String) :=
  a.parts.map fun parts => parts.map text

end StoredArray

end GridBayes
