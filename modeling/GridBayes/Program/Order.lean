import GridBayes.Program.Component
import GridBayes.Program.Prior

/-! Ordering by dependency. A part may come once everything it requires of the tracked kind has
been provided by parts before it. The first part that may come is taken each time. -/
namespace GridBayes.Order

class Part (α : Type) where
  requires : α → SymbolSet
  provides : α → SymbolSet

instance : Part Component := ⟨Component.requires, Component.provides⟩
instance : Part Prior := ⟨Prior.requires, Prior.provides⟩

variable {α : Type} [Part α]

def symbols (parts : List α) : SymbolSet :=
  parts.foldr (fun c set =>
    SymbolSet.union (SymbolSet.union (Part.requires c) (Part.provides c)) set) []

def ready (kind : VarKind) (provided : SymbolSet) (c : α) : Bool :=
  (Part.requires c).all fun s => !s.isKind kind || provided.contains s

def takeFirst? (p : α → Bool) : List α → Option (α × List α)
  | [] => none
  | c :: rest =>
    if p c then some (c, rest)
    else (takeFirst? p rest).map fun (d, others) => (d, c :: others)

def settle (kind : VarKind) : (fuel : Nat) → (provided : SymbolSet) → List α → Option (List α)
  | _, _, [] => some []
  | 0, _, _ :: _ => none
  | fuel + 1, provided, parts =>
    match takeFirst? (ready kind provided) parts with
    | some (c, rest) =>
      (settle kind fuel (SymbolSet.union (Part.provides c) provided) rest).map (c :: ·)
    | none => none

def badSymbol? (parts : List α) : Option Symbol :=
  parts.findSome? fun c =>
    (SymbolSet.union (Part.requires c) (Part.provides c)).find? Symbol.isLiteral

def unprovided? (parts : List α) : Option Symbol :=
  (symbols parts).find? fun s =>
    s.isKind .localVar && !parts.any fun c => (Part.provides c).contains s

/-- The parts in an order in which they can run. Tracked local variables must be provided. -/
def sort (kind : VarKind) (parts : List α) : Except Fault (List α) :=
  match badSymbol? parts with
  | some s => .error (.notAVariable s.text)
  | none =>
    match (if kind = .localVar then unprovided? parts else none) with
    | some s => .error (.uninitialized s.text)
    | none =>
      match settle kind parts.length [] parts with
      | some result => .ok result
      | none => .error .circularComponents

end GridBayes.Order
