import GridBayes.Hash.Keccak

/-! SHAKE-128: a sponge that takes 168 bytes at a time and gives as many bytes as are asked for; and
the text of bytes in the alphabet of 32 letters and digits. -/
namespace GridBayes.Hash

def rate : Nat :=
  168

def word (bytes : List UInt8) : UInt64 :=
  bytes.foldr (fun b w => (w <<< 8) ||| b.toUInt64) 0

def wordBytes (w : UInt64) : List UInt8 :=
  (List.range 8).map fun i => (w >>> UInt64.ofNat (8 * i)).toUInt8

def padded (bytes : List UInt8) : List UInt8 :=
  let zeros := rate - 1 - bytes.length % rate
  if zeros = 0 then bytes ++ [0x9F] else bytes ++ 0x1F :: List.replicate (zeros - 1) 0 ++ [0x80]

def absorbBlock (s : State) (block : List UInt8) : State :=
  State.permute <| ((List.range 25).map fun i =>
    s.getD i 0 ^^^ word ((block.drop (8 * i)).take 8)).toArray

def absorb : (count : Nat) → List UInt8 → State → State
  | 0, _, s => s
  | count + 1, bytes, s => absorb count (bytes.drop rate) (absorbBlock s (bytes.take rate))

def shake128 (bytes : List UInt8) (count : Nat) : List UInt8 :=
  let message := padded bytes
  let s := absorb (message.length / rate) message (Array.replicate 25 0)
  (s.toList.flatMap wordBytes).take (min count rate)

/-! ## Text of bytes -/

def alphabet : List Char :=
  "ABCDEFGHIJKLMNOPQRSTUVWXYZ234567".toList

def natOfBytes (bytes : List UInt8) : Nat :=
  bytes.foldl (fun n b => n * 256 + b.toNat) 0

def digits32 : (count n : Nat) → List Nat
  | 0, _ => []
  | count + 1, n => digits32 count (n / 32) ++ [n % 32]

def base32 (bytes : List UInt8) : String :=
  String.ofList ((digits32 (bytes.length * 8 / 5) (natOfBytes bytes)).map fun d =>
    alphabet.getD d 'A')

def ofText (s : String) : String :=
  base32 (shake128 s.toUTF8.toList 25)

end GridBayes.Hash
