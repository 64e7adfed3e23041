import GridBayes.Storage.Store
import GridBayes.Value.Json

/-! Archives as JSON texts: how they stand on a disk. An entry is a table with the shape, the kind and
the cells of an array. -/
namespace GridBayes

def CellKind.name : CellKind → String
  | flag => "flag"
  | whole => "whole"
  | real => "real"
  | text => "text"

def Cell.ofKind? : CellKind → Value → Option Cell
  | .flag, .bool b => some (.flag b)
  | .whole, .int n => some (.whole n)
  | .real, v => v.number?.map .real
  | .text, .str s => some (.text s)
  | _, _ => none

def Item.toValue : Item → Value
  | .unreadable => .null
  | .array a => .table [
    ("kind", .str a.kind.name),
    ("shape", .list (a.shape.map fun (k : Nat) => .int k)),
    ("cells", .list (a.cells.data.toList.map Cell.toValue))]

def Item.ofStored? : Value → Option Item
  | .null => some .unreadable
  | v => do
    let name ← (← v.get? "kind").str?
    let kind ← [CellKind.flag, .whole, .real, .text].find? (·.name == name)
    let shape ← (← v.get? "shape").items.mapM fun
      | .int n => some n.toNat
      | _ => none
    let cells ← (← v.get? "cells").items.mapM (Cell.ofKind? kind)
    return .array ⟨kind, shape, cells.toArray⟩

namespace Archive

def toJson (a : Archive) : String :=
  (Value.table (a.map fun (k, i) => (k, i.toValue))).toJson

def ofJson? (s : String) : Option Archive := do
  match ← Value.ofJson? s with
  | .table es => es.mapM fun (k, v) => do return (k, ← Item.ofStored? v)
  | _ => none

end Archive

namespace Content

def toText : Content → String
  | .text s => s
  | .archive a => a.toJson

def ofText (name text : String) : Content :=
  if Path.extension name == ".npz" then ((Archive.ofJson? text).map archive).getD (.text text)
  else .text text

end Content

end GridBayes
