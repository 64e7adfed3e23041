/-! Values of polynomials over doubles, in the order of operations that fixes their rounding. -/
namespace GridBayes.Numeric

def horner (x : Float) : List Float → Float
  | [] => 0.0
  | c :: rest => rest.foldl (fun sum c => sum * x + c) c

def pairSum (x square : Float) : (power sum : Float) → List Float → Float
  | _, sum, [] => sum
  | power, sum, [c] => sum + power * c
  | power, sum, c :: d :: rest =>
    pairSum x square (power * square) (sum + power * (c + x * d)) rest

def pairwise (x : Float) : List Float → Float
  | c :: d :: rest => pairSum x (x * x) (x * x) (c + x * d) rest
  | [c] => c
  | [] => 0.0

def log1p (x : Float) : Float :=
  let u := 1.0 + x
  if u == 1.0 then x else if u.isInf then u else Float.log u * x / (u - 1.0)

def expm1 (x : Float) : Float :=
  let u := Float.exp x
  if u == 1.0 then x
  else if u.isInf || u - 1.0 == -1.0 then u - 1.0
  else (u - 1.0) * x / Float.log u

end GridBayes.Numeric
