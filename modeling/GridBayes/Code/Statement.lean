import GridBayes.Code.Expr

/-! Statements in the code of a model, read from its lines: assignments, additions to a sum, and
those that are guarded by conditions. -/
namespace GridBayes.Code

inductive Statement where
  | assign (targets values : List Expr)
  | increase (target value : Expr)
  | guarded (conditions : List Expr) (body : List Statement)
deriving Repr

structure Line where
  indent : Nat
  text : List Char
deriving Repr

def linesOf (text : String) : List Line :=
  (Text.splitAt '\n' text).filterMap fun l =>
    let body := l.toList.dropWhile (· == ' ')
    if (Text.strip (String.ofList body)).isEmpty then none
    else some ⟨l.length - body.length, body⟩

def splitEquals (cs : List Char) : Option (List Char × List Char) :=
  match cs.dropWhile (· != '=') with
  | '=' :: right => some (cs.takeWhile (· != '='), right)
  | _ => none

def simple? (cs : List Char) : Option Statement := do
  let (left, right) ← splitEquals cs
  match left.reverse with
  | '+' :: left =>
    match ← exprs? left.reverse, ← exprs? right with
    | [target], [value] => some (.increase target value)
    | _, _ => none
  | _ =>
    let targets ← exprs? left
    let values ← exprs? right
    if targets.length == values.length then some (.assign targets values) else none

def guard? (cs : List Char) : Option (List Expr) := do
  let rest ← Text.afterStart? "if ".toList cs
  match rest.reverse with
  | ':' :: conditions =>
    let parts := Text.splitWord " and " (String.ofList conditions.reverse)
    parts.mapM fun p => do
      match ← exprs? p.toList with
      | [e] => some e
      | _ => none
  | _ => none

def statements? : (fuel : Nat) → List Line → Option (List Statement)
  | 0, lines => if lines.isEmpty then some [] else none
  | _, [] => some []
  | fuel + 1, line :: rest =>
    match guard? line.text with
    | some conditions =>
      let body := rest.takeWhile fun l => line.indent < l.indent
      if body.isEmpty then none
      else do
        let inner ← statements? fuel body
        let after ← statements? fuel (rest.drop body.length)
        return .guarded conditions inner :: after
    | none =>
      if rest.head?.all fun l => l.indent == line.indent then do
        let s ← simple? line.text
        return s :: (← statements? fuel rest)
      else none

/-! ## Methods -/

structure Method where
  heading : String
  body : List Line
deriving Repr

def isHeading (l : Line) : Bool :=
  l.indent == 4 && l.text.getLast? == some ':'
    && (Text.startsWith "cpdef " (String.ofList l.text) || Text.startsWith "cdef " (String.ofList l.text))

def methods : List Line → List Method
  | [] => []
  | l :: rest =>
    match methods rest, isHeading l with
    | ms, true => ⟨String.ofList l.text, rest.takeWhile fun l => !isHeading l⟩ :: ms
    | ms, false => ms

def method? (name : String) (ms : List Method) : Option Method :=
  ms.find? fun m => 1 < (Text.splitWord (" " ++ name ++ "(") m.heading).length

def isFrame (l : Line) : Bool :=
  let text := String.ofList l.text
  Text.startsWith "return" text || Text.startsWith "cdef double log" text

def Method.statements? (m : Method) : Option (List Statement) :=
  let body := m.body.filter (!isFrame ·)
  if body.all fun l => 8 ≤ l.indent then Code.statements? (body.length + 1) body else none

end GridBayes.Code
