import GridBayes.Text.Basic

/-! Days, times of day and moments as they stand in configuration files: how they are read, and the two
ways to show them. -/
namespace GridBayes

structure Day where
  year : Nat
  month : Nat
  day : Nat
deriving Repr, DecidableEq

structure Clock where
  hour : Nat
  minute : Nat
  second : Nat
  micro : Nat
deriving Repr, DecidableEq

inductive Moment where
  | day (d : Day)
  | clock (t : Clock)
  | both (d : Day) (t : Clock) (ahead : Option Int)
deriving Repr, DecidableEq

/-! ## Calendar -/

namespace Day

def isLeap (year : Nat) : Bool :=
  year % 4 == 0 && (year % 100 != 0 || year % 400 == 0)

def monthLength (year month : Nat) : Nat :=
  if month == 2 then if isLeap year then 29 else 28
  else if [4, 6, 9, 11].contains month then 30
  else 31

def exists_ (d : Day) : Bool :=
  1 ≤ d.year && 1 ≤ d.month && d.month ≤ 12 && 1 ≤ d.day && d.day ≤ monthLength d.year d.month

end Day

namespace Moment

/-! ## Texts -/

def padded (width n : Nat) : String :=
  let digits := toString n
  String.ofList (List.replicate (width - digits.length) '0') ++ digits

def dayText (d : Day) : String :=
  padded 4 d.year ++ "-" ++ padded 2 d.month ++ "-" ++ padded 2 d.day

def clockText (t : Clock) : String :=
  padded 2 t.hour ++ ":" ++ padded 2 t.minute ++ ":" ++ padded 2 t.second
    ++ (if t.micro == 0 then "" else "." ++ padded 6 t.micro)

def aheadText (minutes : Int) : String :=
  (if minutes < 0 then "-" else "+") ++ padded 2 (minutes.natAbs / 60) ++ ":" ++ padded 2 (minutes.natAbs % 60)

def text : Moment → String
  | day d => dayText d
  | clock t => clockText t
  | both d t ahead => dayText d ++ " " ++ clockText t ++ ((ahead.map aheadText).getD "")

def clockParts (t : Clock) : List Nat :=
  [t.hour, t.minute] ++ (if t.micro != 0 then [t.second, t.micro] else if t.second != 0 then [t.second] else [])

def zoneDisplay (minutes : Int) : String :=
  if minutes == 0 then "datetime.timezone.utc"
  else
    let seconds := minutes * 60
    "datetime.timezone(datetime.timedelta("
      ++ (if seconds < 0 then "days=-1, seconds=" ++ toString (seconds + 86400)
        else "seconds=" ++ toString seconds) ++ "))"

def display : Moment → String
  | day d => "datetime.date(" ++ Text.join ", " ([d.year, d.month, d.day].map toString) ++ ")"
  | clock t => "datetime.time(" ++ Text.join ", " ((clockParts t).map toString) ++ ")"
  | both d t ahead =>
    "datetime.datetime("
      ++ Text.join ", " (([d.year, d.month, d.day] ++ clockParts t).map toString)
      ++ ((ahead.map fun m => ", tzinfo=" ++ zoneDisplay m).getD "") ++ ")"

def typeName : Moment → String
  | day _ => "datetime.date"
  | clock _ => "datetime.time"
  | both .. => "datetime.datetime"

/-! ## Reading -/

def digits? (count least most : Nat) (cs : List Char) : Option (Nat × List Char) :=
  let digits := cs.take count
  if digits.length == count && digits.all Char.isDigit then
    let n := digits.foldl (fun n c => 10 * n + (c.toNat - 48)) 0
    if least ≤ n && n ≤ most then some (n, cs.drop count) else none
  else none

def after? (mark : Char) : List Char → Option (List Char)
  | c :: rest => if c == mark then some rest else none
  | [] => none

def micro (cs : List Char) : Nat × List Char :=
  match cs with
  | '.' :: rest =>
    let digits := rest.takeWhile Char.isDigit
    if digits.isEmpty then (0, cs)
    else
      let six := (digits ++ List.replicate 6 '0').take 6
      (six.foldl (fun n c => 10 * n + (c.toNat - 48)) 0, rest.dropWhile Char.isDigit)
  | _ => (0, cs)

def clock? (cs : List Char) : Option (Clock × List Char) := do
  let (hour, cs) ← digits? 2 0 23 cs
  let (minute, cs) ← digits? 2 0 59 (← after? ':' cs)
  let (second, cs) ← digits? 2 0 59 (← after? ':' cs)
  let (micro, cs) := micro cs
  return (⟨hour, minute, second, micro⟩, cs)

def ahead (cs : List Char) : Option Int × List Char :=
  match cs with
  | [] => (none, cs)
  | mark :: rest =>
    if mark == 'Z' || mark == 'z' then (some 0, rest)
    else if mark == '+' || mark == '-' then
      let found := do
        let (hour, rest) ← digits? 2 0 23 rest
        let (minute, rest) ← digits? 2 0 59 (← after? ':' rest)
        let minutes : Int := hour * 60 + minute
        return (if mark == '-' then -minutes else minutes, rest)
      match found with
      | some (minutes, rest) => (some minutes, rest)
      | none => (none, cs)
    else (none, cs)

def day? (cs : List Char) : Option (Day × List Char) := do
  let (year, cs) ← digits? 4 0 9999 cs
  let (month, cs) ← digits? 2 1 12 (← after? '-' cs)
  let (number, cs) ← digits? 2 1 31 (← after? '-' cs)
  return (⟨year, month, number⟩, cs)

def withClock (d : Day) (cs : List Char) : Moment × List Char :=
  match cs with
  | mark :: rest =>
    if mark == 'T' || mark == 't' || mark == ' ' then
      match clock? rest with
      | some (t, rest) =>
        let (a, rest) := ahead rest
        (both d t a, rest)
      | none => (day d, cs)
    else (day d, cs)
  | [] => (day d, cs)

end Moment

end GridBayes
