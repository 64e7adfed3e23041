import GridBayes.Text.CharClass

/-! Letter case: lower case by Unicode 14, title case for ASCII words. The lower case of a capital
sigma depends on the letters around it. -/
namespace GridBayes.Text

/-- Runs of capitals: characters before, capitals after the first, and how far on the small letters are. -/
def shiftsFrom (start : Nat) : List (Nat × Nat × Int) → List (Nat × Nat × Nat × Int)
  | (gap, more, shift) :: rest => (start + gap, start + gap + more, 1, shift) :: shiftsFrom (start + gap + more + 1) rest
  | [] => []

/-- Capitals above ASCII as `(first, last, step, shift)`. In the second table each is followed by its small letter. -/
def capitalRuns : List (Nat × Nat × Nat × Int) :=
  shiftsFrom 0
    [(192,22,32),(1,6,32),(153,0,-121),(8,0,210),(4,0,206),(0,0,1),(1,1,205),(0,0,1),(2,0,79),(0,0,202),(0,0,203),
     (0,0,1),(1,0,205),(0,0,207),(1,0,211),(0,0,209),(0,0,1),(3,0,211),(0,0,213),(1,0,214),(6,0,218),(0,0,1),(1,0,218),
     (2,0,1),(1,0,218),(0,0,1),(1,1,217),(4,0,219),(0,0,1),(3,0,1),(7,0,2),(0,0,1),(1,0,2),(0,0,1),(1,0,2),(38,0,2),
     (4,0,-97),(0,0,-56),(40,0,-130),(25,0,10795),(0,0,1),(1,0,-163),(0,0,10792),(2,0,1),(1,0,-195),(0,0,69),(0,0,71),
     (304,0,1),(8,0,116),(6,0,38),(1,2,37),(1,0,64),(1,1,63),(1,16,32),(1,8,32),(35,0,8),(36,0,-60),(2,0,1),(1,0,-7),
     (0,0,1),(2,2,-130),(0,15,80),(0,31,32),(144,0,15),(112,37,48),(2889,37,7264),(1,0,7264),(5,0,7264),(722,79,38864),
     (0,5,8),(2202,42,-3008),(2,2,-3008),(478,0,-7615),(105,7,-8),(8,5,-8),(10,7,-8),(8,7,-8),(8,5,-8),(11,0,-8),
     (1,0,-8),(1,0,-8),(1,0,-8),(8,7,-8),(24,7,-8),(8,7,-8),(8,7,-8),(8,1,-8),(0,1,-74),(0,0,-9),(11,3,-86),(0,0,-9),
     (11,1,-8),(0,1,-100),(12,1,-8),(0,1,-112),(0,0,-7),(11,1,-128),(0,1,-126),(0,0,-9),(297,0,-7517),(3,0,-8383),
     (0,0,-8262),(6,0,28),(45,15,16),(19,0,1),(818,25,26),(1840,47,48),(48,0,1),(1,0,-10743),(0,0,-3814),(0,0,-10727),
     (8,0,-10780),(0,0,-10749),(0,0,-10783),(0,0,-10782),(1,0,1),(2,0,1),(8,1,-10815),(114,0,1),(31370,0,-35332),
     (13,0,1),(1,0,-42280),(28,0,-42308),(0,0,-42319),(0,0,-42315),(0,0,-42305),(0,0,-42308),(1,0,-42258),(0,0,-42282),
     (0,0,-42261),(0,0,928),(16,0,-48),(0,0,-42307),(0,0,-35384),(9,0,1),(36,0,1),(22315,25,32),(1221,39,40),
     (136,35,40),(156,10,39),(1,14,39),(1,6,39),(1,1,39),(1770,50,64),(3053,31,32),(21888,31,32),(31392,33,34)]
  ++ (rangesFrom 0
    [256,46,3,4,2,14,2,44,2,4,4,2,27,4,14,2,21,16,2,16,3,2,3,38,3,16,19,8,289,2,101,22,113,32,9,52,2,12,2,94,6353,148,
     11,94,3432,4,20,98,8,2,31058,44,19,26,135,12,3,60,10,2,2,8,9,2,3,18,11,14,4,2,12,2]).map fun r => (r.1, r.2, 2, 1)

def lowerChar (c : Char) : List Char :=
  let n := c.toNat
  if n < 128 then [c.toLower]
  else if n == 304 then ['i', Char.ofNat 775]
  else
    match capitalRuns.find? fun r => r.1 ≤ n && n ≤ r.2.1 && (n - r.1) % r.2.2.1 == 0 with
    | some r => [Char.ofNat (n + r.2.2.2).toNat]
    | none => [c]

/-! ## Sigma -/

def casedRanges : List (Nat × Nat) :=
  rangesFrom 0
    [170,0,10,0,4,0,5,22,1,30,1,194,1,3,4,207,1,26,192,3,2,1,3,2,1,0,6,0,1,2,1,0,1,19,1,82,1,138,8,165,1,37,9,40,2839,
     37,1,0,5,0,2,42,2,2,672,85,2,5,2178,8,7,42,2,2,64,43,63,12,1,33,101,277,2,5,2,37,2,5,2,7,1,0,1,0,1,0,1,30,2,52,1,6,
     1,0,3,2,1,6,3,3,2,5,4,12,5,2,1,6,261,0,4,0,2,9,1,0,3,4,6,0,1,0,1,0,1,3,1,5,4,0,2,3,5,4,4,0,17,31,3,1,817,51,1814,
     123,2,102,6,3,3,1,12,37,1,0,5,0,30994,45,18,27,134,77,1,22,3,3,1,58,5,1,1,0,1,4,27,1,3,0,821,42,5,8,7,79,20288,6,
     12,4,1033,25,6,25,1189,79,96,35,4,35,116,10,1,14,1,6,1,1,1,10,1,14,1,6,1,1,1731,50,13,50,2989,63,21856,63,25984,84,
     1,70,1,1,2,0,2,1,2,3,1,11,1,0,1,6,1,64,1,3,2,7,1,6,1,27,1,3,1,4,1,0,3,6,1,339,2,24,1,24,1,30,1,24,1,30,1,24,1,30,1,
     24,1,30,1,24,1,7,1844,9,1,19,2529,67,2028,25,6,25,6,25]

def caseIgnorableRanges : List (Nat × Nat) :=
  rangesFrom 0
    [168,0,4,0,1,0,4,0,2,1,503,191,4,1,4,0,9,1,1,0,251,6,207,0,5,0,49,44,1,0,1,1,1,1,1,0,44,0,11,5,10,10,1,0,35,0,10,20,
     16,0,101,7,1,9,1,3,33,0,1,0,30,26,91,10,58,10,4,0,2,0,24,23,43,2,44,0,7,1,6,7,41,57,55,0,1,0,4,7,4,0,3,6,10,1,13,0,
     15,0,58,0,4,3,8,0,20,1,26,0,2,1,57,0,4,1,4,1,2,2,3,0,30,1,3,0,11,1,57,0,4,4,1,1,4,0,20,1,22,5,1,0,58,0,2,0,1,3,8,0,
     7,1,11,1,30,0,61,0,12,0,50,0,3,0,55,0,1,2,5,2,1,3,7,1,11,1,29,0,58,0,2,0,6,0,5,1,20,1,28,1,57,1,4,3,8,0,20,1,29,0,
     72,0,7,2,1,0,90,0,2,6,11,8,98,0,2,8,9,0,1,5,74,1,27,0,1,0,1,0,55,13,1,4,1,1,5,10,1,35,9,0,102,3,1,5,1,1,2,1,25,1,4,
     2,16,3,13,0,2,1,6,0,15,0,94,0,608,2,946,2,29,1,30,1,30,1,64,1,1,6,8,0,2,10,3,0,5,0,45,4,51,0,65,1,34,0,118,2,4,1,9,
     0,6,2,219,1,2,0,58,0,1,6,1,0,1,0,2,7,6,9,2,0,39,0,8,30,49,3,48,0,1,4,1,0,5,0,40,8,12,1,32,3,2,1,1,2,56,0,1,1,3,0,1,
     2,58,7,2,1,64,5,82,2,1,12,1,6,4,0,6,0,3,1,50,62,13,0,34,100,445,0,1,2,11,2,13,2,13,2,13,1,12,4,8,1,10,0,2,0,2,4,49,
     4,1,9,1,0,13,0,16,12,51,32,2955,1,113,2,125,0,15,0,96,31,47,0,469,0,36,3,3,4,5,0,93,5,93,2,28438,0,1250,5,270,0,98,
     3,1,9,1,0,28,3,80,1,14,33,78,0,23,2,103,2,3,1,8,0,3,0,4,0,25,1,5,0,151,1,26,17,13,0,38,7,25,10,46,2,48,0,2,3,2,1,
     17,0,21,1,66,5,2,1,2,1,12,0,8,0,35,0,11,0,51,0,1,2,2,1,5,1,1,0,27,0,14,1,5,1,1,0,100,4,9,2,121,0,2,0,4,0,20272,0,
     147,16,573,15,3,0,12,15,34,0,2,0,169,0,7,0,6,0,11,0,35,0,1,0,47,0,45,1,67,0,21,2,513,0,226,0,149,4,1029,5,1,41,1,8,
     582,2,1,1,5,3,40,2,4,0,165,1,573,3,387,1,153,10,49,3,123,0,54,14,41,0,2,1,10,2,49,3,2,1,2,0,4,0,10,0,50,2,36,4,1,7,
     62,0,12,1,52,8,10,3,2,0,95,2,2,0,1,1,6,0,160,0,3,7,21,1,57,1,3,0,37,6,3,4,195,7,2,2,1,0,23,0,84,5,1,0,4,1,1,1,238,
     3,6,1,1,1,27,1,85,7,2,0,1,1,106,0,1,0,2,5,1,0,101,2,2,3,1,4,259,8,1,1,256,1,1,0,4,0,144,3,2,1,4,0,32,9,40,5,2,3,8,
     0,9,5,2,2,46,12,1,1,406,6,1,5,1,0,82,21,2,6,1,1,1,1,122,5,3,0,1,1,1,6,1,0,72,1,3,0,1,0,347,1,5435,8,14007,4,59,6,9,
     3,1035,0,63,16,64,1,1,1,16395,3,1,6,1,1,3230,1,1,3,4700,45,2,22,544,2,9,15,2,6,30,3,148,2,1979,54,4,49,8,0,14,0,22,
     4,1,14,1360,6,1,16,2,6,1,1,1,4,261,13,368,0,61,3,1504,6,109,7,2735,4,789505,0,30,95,128,239]

def isCased (c : Char) : Bool :=
  if c.toNat < 128 then c.isAlpha else inRanges casedRanges c.toNat

def isCaseIgnorable (c : Char) : Bool :=
  if c.toNat < 128 then ['\'', '.', ':', '^', '\x60'].contains c
  else inRanges caseIgnorableRanges c.toNat

def nextIsCased (cs : List Char) : Bool :=
  match cs.dropWhile isCaseIgnorable with
  | c :: _ => isCased c
  | [] => false

/-- Characters in lower case; `before` are those before, reversed. A final sigma has its own form. -/
def lowerChars (before : List Char) : List Char → List Char
  | [] => []
  | c :: rest =>
    (if c.toNat == 0x3A3 then
      [Char.ofNat (if nextIsCased before && !nextIsCased rest then 0x3C2 else 0x3C3)]
    else lowerChar c) ++ lowerChars (c :: before) rest

def lower (s : String) : String :=
  String.ofList (lowerChars [] s.toList)

def titleChars (afterLetter : Bool) : List Char → List Char
  | [] => []
  | c :: rest =>
    (if afterLetter then c.toLower else c.toUpper) :: titleChars c.isAlpha rest

def title (s : String) : String :=
  String.ofList (titleChars false s.toList)

end GridBayes.Text
