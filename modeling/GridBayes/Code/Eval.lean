import GridBayes.Code.Statement
import GridBayes.Distribution.Function
import GridBayes.Interpolator

/-! Running the code of a model. Whole numbers stay whole as long as only whole numbers meet.
Dividing by zero is refused, but the functions of the library compute on. -/
namespace GridBayes.Code
open Scalar

variable {α : Type} [Scalar α]

inductive Operand (α : Type) where
  | whole (n : Int)
  | real (x : α)

def ofInt (n : Int) : α :=
  if n < 0 then -ofNat n.natAbs else ofNat n.natAbs

def Operand.toReal : Operand α → α
  | whole n => ofInt n
  | real x => x

/-- What expressions are run with: the parameters, the places with numbers, and the interpolators by their methods.
-/
structure Env (α : Type) where
  params : Array α
  places : List (String × α)
  methods : List (String × Nat × Interpolator α) := []

/-! ## Operators -/

def both (f : Int → Int → Int) (g : α → α → α) (a b : Operand α) : Operand α :=
  match a, b with
  | .whole m, .whole n => .whole (f m n)
  | a, b => .real (g a.toReal b.toReal)

def quotient (a b : Operand α) : Except Fault (Operand α) :=
  if eq b.toReal (0.0 : α) then .error .dividedByZero else .ok (.real (a.toReal / b.toReal))

def floor (x : α) : α :=
  let t : α := ofInt (truncate x)
  if lt x t then t - 1.0 else t

def floorQuotient (a b : Operand α) : Except Fault (Operand α) :=
  match a, b with
  | .whole m, .whole n => if n == 0 then .error .dividedByZero else .ok (.whole (Int.fdiv m n))
  | a, b =>
    if eq b.toReal (0.0 : α) then .error .dividedByZero
    else .ok (.real (floor (a.toReal / b.toReal)))

def powerOf (a b : Operand α) : Except Fault (Operand α) :=
  match a, b with
  | .whole m, .whole n =>
    if 0 ≤ n then .ok (.whole (m.pow n.toNat)) else .ok (.real (pow (ofInt m) (ofInt n)))
  | a, b =>
    let (x, y) := (a.toReal, b.toReal)
    if lt x (0.0 : α) && isFinite y && !eq (floor y) y then .error .complexPower
    else .ok (.real (pow x y))

/-! ## Functions -/

def unary (name : String) (x : α) : Option α :=
  match name with
  | "math.exp" => some (exp x)
  | "math.log" => some (log x)
  | "math.log10" => some (log10 x)
  | "math.sqrt" => some (sqrt x)
  | "math.sin" => some (sin x)
  | "math.cos" => some (cos x)
  | "math.fabs" => some (fabs x)
  | "math.isfinite" => some (if isFinite x then 1.0 else 0.0)
  | _ => none

def binary (name : String) (x y : α) : Option α :=
  match name with
  | "math.fmin" => some (fmin x y)
  | "math.fmax" => some (fmax x y)
  | "math.copysign" => some (copysign x y)
  | "math.pow" => some (pow x y)
  | _ => none

def elementary (name : String) (args : List α) : Option α :=
  match args with
  | [x] => (unary name x).orElse fun _ => Distribution.call name args
  | [x, y] => (binary name x y).orElse fun _ => Distribution.call name args
  | _ => Distribution.call name args

def methodsOf (place : String) (g : Interpolator α) : List (String × Nat × Interpolator α) :=
  [1, 2, 3, 4, 5].map fun n => (place ++ "._interp" ++ toString n ++ "d", n, g)

def Env.interpolate (env : Env α) (name : String) (args : List α) : Option α :=
  match env.methods.lookup name with
  | some (n, g) => if args.length = n then some (g.evaluate args) else none
  | none => none

/-! ## Expressions -/

mutual

def Expr.eval (env : Env α) : Expr → Except Fault (Operand α)
  | .whole n => .ok (.whole n)
  | .decimal m e => .ok (.real (if 0 ≤ e then OfScientific.ofScientific m false e.toNat
      else OfScientific.ofScientific m true e.natAbs))
  | .place "math.INFINITY" => .ok (.real infinity)
  | .place name =>
    match env.places.lookup name with
    | some x => .ok (.real x)
    | none => .error .missingPart
  | .entry _ i =>
    match env.params[i]? with
    | some x => .ok (.real x)
    | none => .error .partOutOfRange
  | .call name args => do
    let values ← Expr.evalAll env args
    match (elementary name values).orElse fun _ => env.interpolate name values with
    | some x => return .real x
    | none => throw .missingPart
  | .negate a => do
    match ← a.eval env with
    | .whole n => return .whole (-n)
    | .real x => return .real (-x)
  | .add a b => do return both (· + ·) (· + ·) (← a.eval env) (← b.eval env)
  | .sub a b => do return both (· - ·) (· - ·) (← a.eval env) (← b.eval env)
  | .mul a b => do return both (· * ·) (· * ·) (← a.eval env) (← b.eval env)
  | .div a b => do quotient (← a.eval env) (← b.eval env)
  | .floorDiv a b => do floorQuotient (← a.eval env) (← b.eval env)
  | .power a b => do powerOf (← a.eval env) (← b.eval env)

def Expr.evalAll (env : Env α) : List Expr → Except Fault (List α)
  | [] => .ok []
  | e :: rest => do
    let x ← e.eval env
    return x.toReal :: (← Expr.evalAll env rest)

end

/-! ## Statements -/

def Env.put (env : Env α) (target : Expr) (x : α) : Except Fault (Env α) :=
  match target with
  | .place name => .ok { env with places := setEntry env.places name x }
  | .entry _ i =>
    if i < env.params.size then .ok { env with params := env.params.setIfInBounds i x }
    else .error .partOutOfRange
  | _ => .error .missingPart

def Env.putAll (env : Env α) : List (Expr × α) → Except Fault (Env α)
  | [] => .ok env
  | (target, x) :: rest => do (← env.put target x).putAll rest

mutual

def Statement.run : Statement → Env α → Except Fault (Env α)
  | .assign targets values, env => do
    let xs ← Expr.evalAll env values
    env.putAll (targets.zip xs)
  | .increase target value, env => do
    let old ← target.eval env
    let more ← value.eval env
    env.put target (old.toReal + more.toReal)
  | .guarded conditions body, env => do
    let tests ← Expr.evalAll env conditions
    if tests.all fun x => !eq x 0.0 then Statement.runAll body env else return env

def Statement.runAll : List Statement → Env α → Except Fault (Env α)
  | [], env => .ok env
  | s :: rest, env => do Statement.runAll rest (← s.run env)

end

end GridBayes.Code
