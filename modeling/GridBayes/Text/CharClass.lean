/-! Character classes of Unicode 14: word characters, blanks, printable characters and decimal
digits. ASCII is decided by arithmetic; everything above it by a table of closed ranges. -/
namespace GridBayes.Text

/-- Ranges by the characters left out before each and the number after its first. -/
def rangesFrom (start : Nat) : List Nat → List (Nat × Nat)
  | gap :: more :: rest => (start + gap, start + gap + more) :: rangesFrom (start + gap + more + 1) rest
  | _ => []

def inRanges (ranges : List (Nat × Nat)) (n : Nat) : Bool :=
  ranges.any fun r => r.1 ≤ n && n ≤ r.2

/-! ## Word characters -/

def wordRanges : List (Nat × Nat) :=
  rangesFrom 0
    [170,0,7,1,1,0,3,1,1,2,1,22,1,30,1,457,4,11,14,4,7,0,1,0,129,4,1,1,2,3,1,0,6,0,1,2,1,0,1,19,1,82,1,138,8,165,1,37,2,
     0,6,40,71,26,4,3,45,42,21,9,4,1,1,98,1,0,15,1,7,14,2,0,16,0,1,29,29,88,11,0,14,42,9,1,4,0,5,21,4,0,9,0,3,0,23,24,7,
     10,5,23,1,5,17,41,58,53,3,0,18,0,7,9,4,9,1,15,4,7,2,1,2,21,1,6,1,0,3,3,3,0,16,0,13,1,1,2,4,11,2,5,2,0,8,5,4,1,2,21,
     1,6,1,1,1,1,1,1,31,3,1,0,7,9,2,2,16,8,1,2,1,21,1,6,1,1,1,4,3,0,18,0,15,1,4,9,9,0,11,7,2,1,2,21,1,6,1,1,1,4,3,0,30,
     1,1,2,4,9,1,6,11,0,1,5,3,2,1,3,3,1,1,0,1,1,3,1,3,2,3,11,22,0,21,12,18,7,1,2,1,22,1,15,3,0,26,2,2,0,2,1,4,9,8,6,1,0,
     4,7,1,2,1,22,1,9,1,4,3,0,31,1,1,1,4,9,1,1,17,8,1,2,1,40,2,0,16,0,5,2,1,9,4,18,1,5,5,17,3,23,1,8,1,0,2,6,31,9,17,47,
     1,1,12,6,9,9,39,1,1,0,1,4,1,23,1,0,1,9,1,1,9,0,2,4,1,0,9,9,2,3,32,0,31,19,12,7,1,35,27,4,115,42,20,10,6,5,4,3,3,0,
     3,1,7,2,4,12,12,0,1,9,6,37,1,0,5,0,2,42,1,332,1,3,2,6,1,0,1,3,2,40,1,3,2,32,1,3,2,6,1,0,1,3,2,14,1,56,1,3,2,66,14,
     19,3,15,16,85,2,5,3,619,2,16,1,25,5,74,3,10,7,17,13,18,14,17,14,12,1,2,15,51,35,0,4,0,3,9,6,9,22,9,6,88,7,4,2,33,1,
     0,5,69,10,30,39,39,2,4,11,43,4,25,6,10,37,22,9,52,43,9,6,9,13,0,93,46,17,7,3,9,41,29,13,55,26,35,28,9,3,48,2,8,7,
     42,2,2,41,3,1,5,1,1,3,0,5,191,64,277,2,5,2,37,2,5,2,7,1,0,1,0,1,0,1,30,2,52,1,6,1,0,3,2,1,6,3,3,2,5,4,12,5,2,1,6,
     115,1,2,5,5,10,6,12,101,0,4,0,2,9,1,0,3,4,6,0,1,0,1,0,1,3,1,10,2,3,5,4,4,0,1,57,726,59,78,21,630,29,1132,228,6,3,3,
     1,9,0,2,37,1,0,5,0,2,55,7,0,16,22,9,6,1,6,1,6,1,6,1,6,1,6,1,6,1,6,80,0,469,2,25,8,7,4,2,4,4,85,6,2,1,89,1,3,5,42,1,
     93,3,3,10,31,48,15,32,9,30,7,1,14,32,9,39,14,320,6591,64,22156,67,45,2,268,3,27,20,46,16,30,2,79,39,8,2,102,2,63,5,
     1,1,0,1,4,24,15,1,2,1,3,1,22,13,5,10,51,14,49,28,9,24,5,3,0,1,1,1,37,10,22,25,28,7,46,28,10,6,4,1,24,1,40,23,2,1,7,
     4,9,6,22,3,0,3,49,1,0,3,1,2,4,2,0,1,0,24,2,2,10,7,2,12,5,2,5,2,5,9,6,1,6,1,42,1,13,6,114,13,9,6,11171,12,22,4,48,
     8452,365,2,105,38,6,12,4,5,0,1,9,1,12,1,4,1,0,1,1,1,1,1,107,33,362,18,63,2,53,40,11,116,4,1,134,19,9,7,25,6,25,11,
     88,3,5,2,5,2,5,2,2,35,11,1,25,1,18,1,1,1,14,2,13,34,122,12,44,12,56,17,1,244,28,3,48,16,26,4,35,9,29,5,37,10,29,2,
     35,4,7,1,4,42,157,2,9,6,35,4,35,4,39,8,51,12,10,1,14,1,6,1,1,1,10,1,14,1,6,1,1,67,310,9,21,10,7,24,5,1,41,1,8,69,5,
     2,0,1,43,1,1,3,0,2,22,2,30,2,37,8,8,48,18,1,1,5,32,4,25,70,55,4,19,2,46,15,3,1,2,1,28,10,8,23,30,1,31,32,7,1,27,6,
     4,16,53,10,21,2,26,5,25,23,6,80,72,55,50,13,50,7,41,12,9,294,30,1,41,6,1,78,39,8,21,11,3,27,17,46,27,20,22,12,52,
     26,29,1,1,2,0,13,44,32,24,7,9,9,35,15,9,4,0,2,0,8,34,3,0,12,47,14,3,11,10,1,0,4,19,11,17,1,24,84,6,1,0,1,3,1,14,1,
     9,7,46,17,9,11,7,2,1,2,21,1,6,1,1,1,4,3,0,18,0,12,4,158,52,18,3,5,9,5,2,30,47,20,1,1,0,8,9,166,46,41,3,36,47,20,0,
     11,9,38,42,13,0,7,9,54,26,21,11,4,6,185,43,116,82,12,7,2,0,2,7,1,1,1,23,15,0,1,0,14,9,70,7,2,38,16,0,1,0,28,0,10,
     39,7,0,21,0,11,45,19,0,18,72,263,8,1,36,17,0,15,28,5,29,112,6,1,1,1,37,21,0,9,9,6,5,1,1,1,31,14,0,7,9,310,18,189,0,
     15,20,43,921,102,110,17,195,2636,96,15,1070,4049,582,8633,568,7,30,1,9,6,78,1,9,6,29,18,47,16,3,12,9,1,6,1,20,5,18,
     688,86,105,74,5,0,66,12,64,1,1,0,28,6135,8,1237,42,8,8935,3,1,6,1,1,1,290,45,2,17,3,8,395,2308,106,5,12,3,8,7,9,
     5702,19,108,24,135,84,1,70,1,1,2,0,2,1,2,3,1,11,1,0,1,6,1,64,1,3,2,7,1,6,1,27,1,3,1,4,1,0,3,6,1,339,2,24,1,24,1,30,
     1,24,1,30,1,24,1,30,1,24,1,30,1,24,1,7,2,49,1792,30,481,44,10,6,2,9,4,0,321,29,18,43,4,9,1254,6,1,3,1,1,1,14,1,196,
     2,8,48,67,7,0,4,9,791,58,1,2,1,3,76,44,1,14,194,3,1,26,1,1,1,0,2,0,1,9,1,3,1,0,1,0,6,0,4,0,1,0,1,0,1,2,1,1,1,0,2,0,
     1,0,1,0,1,0,1,0,1,1,1,0,2,3,1,6,1,3,1,3,1,0,1,9,1,16,5,2,1,4,1,16,580,12,2787,9,1030,42719,32,4152,7,221,2,5761,14,
     7472,3103,541,1506,4938]

def isWord (c : Char) : Bool :=
  if c.toNat < 128 then c.isAlphanum || c == '_' else inRanges wordRanges c.toNat

def isNameStart (c : Char) : Bool :=
  c.isAlpha || c == '_'

/-! ## Blanks -/

def blankRanges : List (Nat × Nat) :=
  [(133, 133), (160, 160), (5760, 5760), (8192, 8202), (8232, 8233), (8239, 8239), (8287, 8287), (12288, 12288)]

def isBlank (c : Char) : Bool :=
  let n := c.toNat
  if n < 128 then n == 32 || (9 ≤ n && n ≤ 13) || (28 ≤ n && n ≤ 31) else inRanges blankRanges n

/-! ## Printable characters -/

def hiddenRanges : List (Nat × Nat) :=
  rangesFrom 0
    [128,32,12,0,714,1,6,3,7,0,1,0,20,0,397,0,38,1,50,1,3,0,55,7,27,3,6,16,22,0,192,0,48,1,59,1,101,13,59,1,49,1,15,0,
     28,1,1,0,11,4,31,8,74,0,161,0,8,1,2,1,22,0,7,0,1,2,4,1,9,1,2,1,4,7,1,3,2,0,5,1,25,1,3,0,6,3,2,1,22,0,7,0,2,0,2,0,2,
     1,1,0,5,3,2,1,3,2,1,6,4,0,1,6,17,9,3,0,9,0,3,0,22,0,7,0,2,0,5,1,10,0,3,0,3,1,1,14,4,1,12,6,7,0,3,0,8,1,2,1,22,0,7,
     0,2,0,5,1,9,1,2,1,3,6,3,3,2,0,5,1,18,9,2,0,6,2,3,0,4,2,2,0,1,0,2,2,2,2,3,2,12,3,5,2,3,0,4,1,1,5,1,13,21,4,13,0,3,0,
     23,0,16,1,9,0,3,0,4,6,2,0,3,1,1,1,4,1,10,6,22,0,3,0,23,0,10,0,5,1,9,0,3,0,4,6,2,5,2,0,4,1,10,0,2,12,13,0,3,0,51,0,
     3,0,6,3,16,1,26,0,3,0,18,2,24,0,9,0,1,1,7,2,1,3,6,0,1,0,8,5,10,1,3,11,58,3,29,36,2,0,1,0,5,0,24,0,1,0,23,1,5,0,1,0,
     6,1,10,1,4,31,72,0,36,3,39,0,36,0,15,0,13,36,198,0,1,4,1,1,377,0,4,1,7,0,1,0,4,1,41,0,4,1,33,0,4,1,7,0,1,0,4,1,15,
     0,57,0,4,1,67,1,32,2,26,5,86,1,6,1,640,0,28,2,89,6,22,8,24,8,20,11,13,0,3,0,2,11,94,1,10,5,10,5,14,0,11,5,89,6,43,
     4,70,9,31,0,12,3,12,3,1,2,42,1,5,10,44,3,26,5,11,2,62,1,65,0,29,1,11,5,10,5,14,1,31,48,77,2,47,0,116,7,60,2,15,2,
     60,6,43,1,11,7,43,4,534,1,6,1,38,1,6,1,8,0,1,0,1,0,1,0,31,1,53,0,15,0,14,1,6,0,19,1,3,0,9,16,24,7,47,16,2,1,27,0,
     13,2,33,14,33,14,140,3,663,24,11,20,1812,1,32,0,349,4,45,0,1,4,1,1,56,6,2,13,24,8,7,0,7,0,7,0,7,0,7,0,7,0,7,0,7,0,
     126,33,26,0,89,11,214,25,12,4,63,0,86,1,103,4,43,0,94,0,84,11,47,0,29293,2,55,8,348,19,184,7,203,4,2,0,1,0,5,23,59,
     2,10,5,56,7,70,7,12,5,116,10,30,2,78,0,11,3,33,0,55,8,14,1,10,1,103,23,28,9,6,1,6,1,6,8,7,0,7,0,60,3,126,1,10,5,
     11172,11,23,3,49,3,2048,6399,366,1,106,37,7,11,5,4,26,0,5,0,1,0,2,0,2,0,125,15,445,1,54,6,1,31,42,5,51,0,19,0,4,3,
     5,0,135,3,190,2,6,1,6,1,6,1,3,2,7,0,7,12,2,1,12,0,26,0,19,0,2,0,15,1,14,33,123,4,3,3,45,2,88,0,13,2,1,46,46,129,29,
     2,49,14,28,3,36,8,30,4,43,4,30,0,37,3,14,41,158,1,10,5,36,3,36,3,40,7,52,10,12,0,15,0,7,0,2,0,11,0,15,0,7,0,2,66,
     311,8,22,9,8,23,6,0,42,0,9,68,6,1,1,0,44,0,2,2,1,1,23,0,72,7,9,47,19,0,2,4,33,2,27,4,1,63,56,3,20,1,50,0,2,4,8,0,3,
     0,29,1,3,3,10,6,9,6,64,31,39,3,12,8,54,2,29,1,27,4,26,6,4,11,7,79,73,54,51,12,51,6,46,7,10,293,31,0,42,0,3,1,2,77,
     40,7,42,21,26,37,28,19,23,8,78,3,36,8,62,0,5,12,25,6,10,5,53,0,18,7,39,8,96,0,20,10,18,0,44,64,7,0,1,0,4,0,15,0,11,
     5,59,4,10,5,4,0,8,1,2,1,22,0,7,0,2,0,5,0,10,1,2,1,3,1,1,5,1,4,7,1,7,2,5,138,92,0,5,29,72,7,10,165,54,1,38,33,69,10,
     10,5,13,18,58,5,10,53,27,1,15,3,23,184,60,99,83,11,8,1,1,1,8,0,2,0,30,0,2,1,12,8,10,69,8,1,46,1,11,26,72,7,83,12,
     73,262,9,0,45,0,14,9,29,2,32,1,22,0,14,72,7,0,2,0,44,2,1,0,2,0,9,7,10,5,6,0,2,0,37,0,2,0,6,6,10,309,25,182,1,14,50,
     12,923,101,111,0,5,10,196,2635,99,12,1071,4048,583,8632,569,6,31,0,10,3,81,0,10,5,30,1,6,9,70,9,10,0,7,0,21,4,19,
     687,91,100,75,3,57,6,17,63,5,10,2,13,6136,7,1238,41,9,8934,4,0,7,0,2,0,291,44,3,16,4,7,396,2307,107,4,13,2,9,6,10,
     1,4,4703,46,1,23,8,116,59,246,9,39,1,74,7,112,20,70,153,20,11,87,8,25,134,85,0,71,0,2,1,1,1,2,1,4,0,12,0,1,0,7,0,
     65,0,4,1,8,0,7,0,28,0,4,0,5,0,1,2,7,0,340,1,292,1,702,14,5,0,15,1103,31,224,7,0,17,1,7,0,2,0,5,212,45,2,14,1,10,3,
     2,319,31,16,58,4,1,1247,7,0,4,0,2,0,15,0,197,1,16,40,76,3,10,3,2,784,68,75,61,193,4,0,27,0,2,0,1,1,1,0,10,0,4,0,1,
     0,1,5,1,3,1,0,1,0,1,0,3,0,2,0,1,1,1,0,1,0,1,0,1,0,1,0,2,0,1,1,4,0,7,0,4,0,4,0,1,0,10,0,17,4,3,0,5,0,17,51,2,269,44,
     3,100,11,15,1,15,0,15,0,37,9,174,55,29,12,44,3,9,6,2,13,6,153,984,4,16,2,13,2,116,11,89,6,12,3,1,14,12,3,56,7,10,5,
     40,7,30,1,2,77,340,11,14,1,5,2,5,2,7,8,29,2,11,4,6,9,10,5,8,7,7,8,147,0,55,36,10,1029,42720,31,4153,6,222,1,5762,
     13,7473,3102,542,1505,4939,716212,240,196111]

def isPrintable (c : Char) : Bool :=
  let n := c.toNat
  if n < 128 then 32 ≤ n && n < 127 else !inRanges hiddenRanges n

/-! ## Decimal digits -/

def digitZeros : List Nat :=
  [1632, 1776, 1984, 2406, 2534, 2662, 2790, 2918, 3046, 3174, 3302, 3430, 3558, 3664, 3792,
   3872, 4160, 4240, 6112, 6160, 6470, 6608, 6784, 6800, 6992, 7088, 7232, 7248, 42528, 43216,
   43264, 43472, 43504, 43600, 44016, 65296, 66720, 68912, 69734, 69872, 69942, 70096, 70384,
   70736, 70864, 71248, 71360, 71472, 71904, 72016, 72784, 73040, 73120, 92768, 92864, 93008,
   120782, 120792, 120802, 120812, 120822, 123200, 123632, 125264, 130032]

def digitValue? (c : Char) : Option Nat :=
  let n := c.toNat
  if n < 128 then
    if 48 ≤ n && n ≤ 57 then some (n - 48) else none
  else
    (digitZeros.find? fun z => z ≤ n && n ≤ z + 9).map (n - ·)

end GridBayes.Text
