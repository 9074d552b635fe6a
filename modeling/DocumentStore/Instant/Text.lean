import DocumentStore.Instant

/-!
The texts of instants: written in UTC with three digits of fraction, read in any offset with any
number of digits.
-/

namespace DocumentStore.Instant

def padded : Nat → Nat → List Char
  | 0, _ => []
  | width + 1, n => padded width (n / 10) ++ [Char.ofNat (48 + n % 10)]

def yearText (year : Int) : List Char :=
  if 0 ≤ year ∧ year ≤ 9999 then padded 4 year.toNat
  else (if year < 0 then '-' else '+') ::
    if year.natAbs ≤ 9999 then padded 4 year.natAbs else Nat.toDigits 10 year.natAbs

/-- The time in UTC, with milliseconds cut off after three digits; a leap second is second 60. -/
def formatChars (t : Instant) : List Char :=
  let date := Date.ofDays (t.seconds / 86400)
  let second := (t.seconds % 86400).toNat
  let leap := t.nanos / 1000000000
  yearText date.year ++ '-' :: padded 2 date.month ++ '-' :: padded 2 date.day ++
    'T' :: padded 2 (second / 3600) ++ ':' :: padded 2 (second / 60 % 60) ++
      ':' :: padded 2 (second % 60 + leap) ++
    '.' :: padded 3 (t.nanos % 1000000000 / 1000000) ++ ['Z']

def format (t : Instant) : String := .ofList (formatChars t)

def takeNumber : Nat → Nat → List Char → Option (Nat × List Char)
  | 0, n, cs => some (n, cs)
  | count + 1, n, c :: cs =>
    if c.isDigit then takeNumber count (n * 10 + (c.toNat - 48)) cs else none
  | _ + 1, _, [] => none

def number (count : Nat) (cs : List Char) : Option (Nat × List Char) := takeNumber count 0 cs

def mark (marks : List Char) : List Char → Option (List Char)
  | c :: cs => if marks.contains c then some cs else none
  | [] => none

def fractionNanos (digits : List Char) : Nat :=
  let kept := digits.take 9
  kept.foldl (fun n c => n * 10 + (c.toNat - 48)) 0 * Nat.pow 10 (9 - kept.length)

def fraction : List Char → Option (Nat × List Char)
  | '.' :: cs =>
    if cs.takeWhile Char.isDigit = [] then none
    else some (fractionNanos (cs.takeWhile Char.isDigit), cs.dropWhile Char.isDigit)
  | cs => some (0, cs)

def offset : List Char → Option Int
  | [] => none
  | c :: cs =>
    if c = 'Z' ∨ c = 'z' then (if cs = [] then some 0 else none)
    else if c = '+' ∨ c = '-' ∨ c = '\u2212' then do
      let (hours, cs) ← number 2 cs
      let cs ← mark [':'] cs
      let (minutes, cs) ← number 2 cs
      if cs = [] ∧ hours ≤ 23 ∧ minutes ≤ 59 then
        some (if c = '+' then hours * 60 + minutes else -(hours * 60 + minutes : Int))
      else none
    else none

/-- Reads a date, one of `T`, `t` and a space, a time and an offset, with nothing before or
after. -/
def parseChars (cs : List Char) : Option Instant := do
  let (year, cs) ← number 4 cs
  let cs ← mark ['-'] cs
  let (month, cs) ← number 2 cs
  let cs ← mark ['-'] cs
  let (day, cs) ← number 2 cs
  let cs ← mark ['T', 't', ' '] cs
  let (hour, cs) ← number 2 cs
  let cs ← mark [':'] cs
  let (minute, cs) ← number 2 cs
  let cs ← mark [':'] cs
  let (second, cs) ← number 2 cs
  let (nanos, cs) ← fraction cs
  let minutesAhead ← offset cs
  let date : Date := ⟨year, month, day⟩
  if date.Valid ∧ hour ≤ 23 ∧ minute ≤ 59 ∧ second ≤ 60 then
    let leap := second / 60
    let whole := date.toDays * 86400 + (hour * 3600 + minute * 60 + (second - leap) : Nat)
    some ⟨whole - minutesAhead * 60, nanos + leap * 1000000000⟩
  else none

def parse? (text : String) : Option Instant := parseChars text.toList

end DocumentStore.Instant
