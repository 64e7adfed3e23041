import GridBayes.Numeric.Tensor

/-! Arrays as they are stored in files. All cells of an array are of one kind: where cells of several
kinds meet, the widest kind takes them all. -/
namespace GridBayes

/-! ## Cells -/

inductive CellKind where
  | flag
  | whole
  | real
  | text
deriving Repr, DecidableEq

inductive Cell where
  | flag (b : Bool)
  | whole (n : Int)
  | real (x : Float)
  | text (s : String)

def CellKind.rank : CellKind → Nat
  | flag => 0
  | whole => 1
  | real => 2
  | text => 3

def CellKind.wider (a b : CellKind) : CellKind :=
  if a.rank < b.rank then b else a

namespace Cell

def kind : Cell → CellKind
  | flag _ => .flag
  | whole _ => .whole
  | real _ => .real
  | text _ => .text

def ofText (s : String) : Cell :=
  text (String.ofList ((s.toList.reverse.dropWhile (· == '\x00')).reverse))

def toValue : Cell → Value
  | flag b => .bool b
  | whole n => .int n
  | real x => .float x
  | text s => .str s

def toText (c : Cell) : String :=
  c.toValue.text

def number? : Cell → Option Float
  | text _ => none
  | c => c.toValue.number?

def widen : CellKind → Cell → Cell
  | .text, c => text c.toText
  | .real, c => (c.number?.map real).getD c
  | .whole, flag b => whole (if b then 1 else 0)
  | _, c => c

def ofValue? : Value → Option Cell
  | .bool b => some (flag b)
  | .int n => if -Int.pow 2 63 ≤ n && n < Int.pow 2 64 then some (whole n) else none
  | .str s => some (((Value.str s).number?.map real).getD (ofText s))
  | .float x => some (real x)
  | _ => none

def generalText (digits : Nat) : Cell → Except Fault String
  | text _ => .error .badNumberFormat
  | c => .ok (Decimal.generalText digits (c.number?.getD (0.0 / 0.0)))

end Cell

/-- The kind that takes all cells. Signed and full 64-bit numbers have only reals in common; no cells count as
reals. -/
def CellKind.ofCells (cells : List Cell) : CellKind :=
  let isLarge : Cell → Bool
    | .whole n => decide (Int.pow 2 63 ≤ n)
    | _ => false
  let isUsual : Cell → Bool
    | .whole n => decide (n < Int.pow 2 63)
    | _ => false
  let widest := cells.foldl (fun k c => k.wider c.kind) .flag
  if cells.isEmpty || (widest == .whole && cells.any isLarge && cells.any isUsual) then .real
  else widest

/-! ## Arrays -/

structure StoredArray where
  kind : CellKind
  cells : Tensor Cell

namespace StoredArray

def ofCells (shape : List Nat) (cells : List Cell) : StoredArray :=
  let kind := CellKind.ofCells cells
  ⟨kind, shape, (cells.map (Cell.widen kind)).toArray⟩

def ofText (s : String) : StoredArray :=
  ⟨.text, [], #[Cell.ofText s]⟩

def ofTexts (xs : List String) : StoredArray :=
  ofCells [xs.length] (xs.map Cell.ofText)

def ofReals (t : Tensor Float) : StoredArray :=
  ⟨.real, t.map Cell.real⟩

def ofCounts (xs : List Nat) : StoredArray :=
  ⟨.whole, [xs.length], (xs.map fun (n : Nat) => Cell.whole n).toArray⟩

def empty : StoredArray :=
  ofCells [0] []

def shape (a : StoredArray) : List Nat :=
  a.cells.shape

def numbers? (a : StoredArray) : Option (Tensor Float) :=
  (a.cells.data.mapM Cell.number?).map fun data => ⟨a.shape, data⟩

def parts (a : StoredArray) : Except Fault (List StoredArray) :=
  match a.shape with
  | [] => .error .badArgument
  | n :: shape =>
    .ok ((Tensor.chunks (Tensor.volume shape) n a.cells.data.toList).map fun cells =>
      ⟨a.kind, shape, cells.toArray⟩)

def asVector (a : StoredArray) : StoredArray :=
  if a.shape.isEmpty then ⟨a.kind, [1], a.cells.data⟩ else a

/-- Two arrays side by side: vectors end to end, others along the second dimension. -/
def beside (a b : StoredArray) : Except Fault StoredArray :=
  let kind := match a.kind.wider b.kind with
    | .whole => CellKind.ofCells (a.cells.data.toList ++ b.cells.data.toList)
    | kind => kind
  let widened (c : StoredArray) := c.asVector.cells.data.toList.map (Cell.widen kind)
  match a.asVector.shape, b.asVector.shape with
  | [n], [m] => .ok ⟨kind, [n + m], (widened a ++ widened b).toArray⟩
  | n :: w :: rest, m :: v :: others =>
    if n = m && rest = others then
      let rows (width : Nat) (cells : List Cell) := Tensor.chunks (width * Tensor.volume rest) n cells
      .ok ⟨kind, n :: (w + v) :: rest,
        (List.zipWith (· ++ ·) (rows w (widened a)) (rows v (widened b))).flatten.toArray⟩
    else .error .wrongRank
  | _, _ => .error .wrongRank

def asColumn (a : StoredArray) : Except Fault StoredArray :=
  match a.shape with
  | [] => .error .partOutOfRange
  | n :: rest => .ok ⟨a.kind, n :: 1 :: rest, a.cells.data⟩

def firstColumns (a : StoredArray) (count : Nat) : Except Fault StoredArray :=
  match a.shape with
  | n :: w :: rest =>
    let size := Tensor.volume rest
    let rows := Tensor.chunks (w * size) n a.cells.data.toList
    .ok ⟨a.kind, n :: min count w :: rest, (rows.flatMap (·.take (count * size))).toArray⟩
  | _ => .error .partOutOfRange

def turned (a : StoredArray) : StoredArray :=
  ⟨a.kind, a.cells.turned⟩

end StoredArray

inductive Item where
  | array (a : StoredArray)
  | unreadable

namespace Item

def text (s : String) : Item :=
  .array (.ofText s)

def texts (xs : List String) : Item :=
  .array (.ofTexts xs)

def reals (t : Tensor Float) : Item :=
  .array (.ofReals t)

def ofValue (v : Value) : Except Fault Item :=
  match v, Tensor.shapeOf? v with
  | .str s, _ => .ok (.text s)
  | _, none => .error .unevenLists
  | v, some shape =>
    .ok ((((Tensor.leaves v).mapM Cell.ofValue?).map fun cells =>
      Item.array (.ofCells shape cells)).getD .unreadable)

end Item

end GridBayes
