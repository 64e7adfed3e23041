import GridBayes.Text.CharClass

/-! Quoted text. Single quotes unless the text holds a single quote and no double one; backslash,
quote, line feed, carriage return and tab are escaped by name, other hidden characters by number. -/
namespace GridBayes.Text

def hexDigits (width n : Nat) : List Char :=
  let digits := Nat.toDigits 16 n
  List.replicate (width - digits.length) '0' ++ digits

def quoteChar (q c : Char) : List Char :=
  if c == q || c == '\\' then ['\\', c]
  else if c == '\n' then ['\\', 'n']
  else if c == '\r' then ['\\', 'r']
  else if c == '\t' then ['\\', 't']
  else if isPrintable c then [c]
  else if c.toNat < 256 then '\\' :: 'x' :: hexDigits 2 c.toNat
  else if c.toNat < 65536 then '\\' :: 'u' :: hexDigits 4 c.toNat
  else '\\' :: 'U' :: hexDigits 8 c.toNat

def quoteMark (cs : List Char) : Char :=
  if cs.contains '\'' && !cs.contains '"' then '"' else '\''

def quoted (s : String) : String :=
  let q := quoteMark s.toList
  String.ofList (q :: s.toList.flatMap (quoteChar q) ++ [q])

end GridBayes.Text
