import Preview.Time.Calendar
import Preview.Text.Blank
import Preview.Text.Digits

/-
  Points in time, to the nanosecond, and their text.

  A nanosecond count of 10^9 and more stands for a leap
  second, which can only follow the last second of a minute.
  Times are written in UTC with as many of 0, 3, 6 or 9
  fraction digits as they need.  Reading is more liberal: it
  admits blanks between the parts, single digits, a blank or
  a lower-case letter between date and time, an offset or the
  letters UTC, and fraction digits beyond the ninth.

  Key definitions include:
    * `Instant`
    * `Instant.le`
    * `Instant.addDays?`
    * `Instant.print`
    * `Instant.text`
    * `Instant.parse?`
    * `Instant.ofText?`
-/

namespace Preview

------------------------------------------------------------
-- Instants
------------------------------------------------------------

/- The days of the years from -262143 to 262142. -/
def Instant.firstDay : Int :=
  Date.toDay ⟨-262143, 1, 1⟩

/- The last day that instants can have. -/
def Instant.lastDay : Int :=
  Date.toDay ⟨262142, 12, 31⟩

/- The nanoseconds of a second. -/
def Instant.secondNanos : Nat := 1000000000

/- The parts of an instant are in range; a leap second is a
   second too many in the last second of a minute. -/
def Instant.Valid
    (day : Int)
    (second nano : Nat) : Prop :=
  firstDay ≤ day ∧ day ≤ lastDay ∧ second < 86400 ∧
    (nano < secondNanos ∨
      (nano < 2 * secondNanos ∧ second % 60 = 59))

instance
    (day : Int)
    (second nano : Nat) :
    Decidable (Instant.Valid day second nano) := by
  unfold Instant.Valid
  infer_instance

/- A day, a second of it and a nanosecond of that. -/
structure Instant where
  day : Int
  second : Nat
  nano : Nat
  valid : Instant.Valid day second nano
deriving DecidableEq

namespace Instant

instance : Inhabited Instant := ⟨⟨0, 0, 0, by decide⟩⟩

/- The instant with these parts, if they are in range. -/
def ofParts?
    (day : Int)
    (second nano : Nat) :
    Option Instant :=
  if h : Valid day second nano then
    some ⟨day, second, nano, h⟩
  else none

/- Not later than. -/
def le (a b : Instant) : Bool :=
  a.day < b.day ||
    (a.day == b.day &&
      (a.second < b.second ||
        (a.second == b.second && a.nano ≤ b.nano)))

/- Some days later; none beyond the last day. -/
def addDays? (t : Instant) (days : Nat) : Option Instant :=
  ofParts? (t.day + days) t.second t.nano

------------------------------------------------------------
-- Writing
------------------------------------------------------------

/- Years of other than four digits have a sign. -/
def printYear (year : Int) : List Char :=
  if 0 ≤ year ∧ year ≤ 9999 then
    Digits.fixed 4 year.toNat
  else
    (if year < 0 then '-' else '+') ::
      Digits.padded 4 year.natAbs

/- The fraction of a second in 0, 3, 6 or 9 digits. -/
def printFraction (nano : Nat) : List Char :=
  if nano = 0 then []
  else if nano % 1000000 = 0 then
    '.' :: Digits.fixed 3 (nano / 1000000)
  else if nano % 1000 = 0 then
    '.' :: Digits.fixed 6 (nano / 1000)
  else '.' :: Digits.fixed 9 nano

/- An instant in its own format: a date, a time of day at no
   offset, and the fraction of its second if there is one. -/
def print (t : Instant) : List Char :=
  let d := Date.ofDay t.day
  let leap := t.nano / secondNanos
  printYear d.year ++
    '-' :: Digits.fixed 2 d.month ++
    '-' :: Digits.fixed 2 d.day ++
    'T' :: Digits.fixed 2 (t.second / 3600) ++
    ':' :: Digits.fixed 2 (t.second / 60 % 60) ++
    ':' :: Digits.fixed 2 (t.second % 60 + leap) ++
    printFraction (t.nano % secondNanos) ++ ['Z']

/- The text of an instant. -/
def text (t : Instant) : String :=
  String.ofList t.print

------------------------------------------------------------
-- Reading
------------------------------------------------------------

/- A number of up to `width` digits after blanks. -/
def number? (width : Nat) (cs : List Char) :
    Option (Nat × List Char) :=
  let cs := Blank.skip cs
  let ds := (cs.take width).takeWhile Digits.isDigit
  if ds.isEmpty then none
  else some (Digits.toNat ds, cs.drop ds.length)

/- A mark after blanks. -/
def mark? (c : Char) (cs : List Char) :
    Option (List Char) :=
  match Blank.skip cs with
  | d :: r => if d = c then some r else none
  | [] => none

/- A year; with a sign it may have any number of digits. -/
def year? (cs : List Char) : Option (Int × List Char) :=
  match Blank.skip cs with
  | '-' :: r => do
      let ds := r.takeWhile Digits.isDigit
      if ds.isEmpty then none
      else some (-(Digits.toNat ds : Int), r.drop ds.length)
  | '+' :: r => do
      let ds := r.takeWhile Digits.isDigit
      if ds.isEmpty then none
      else some ((Digits.toNat ds : Int), r.drop ds.length)
  | r => do
      let (n, r) ← number? 4 r
      some ((n : Int), r)

/- Nanoseconds after a point, if there is one. -/
def fraction? (cs : List Char) : Option (Nat × List Char) :=
  match cs with
  | '.' :: r =>
      let ds := r.takeWhile Digits.isDigit
      if ds.isEmpty then none
      else
        let ns := ds.take 9
        some
          (Digits.toNat ns * Nat.pow 10 (9 - ns.length),
            r.drop ds.length)
  | r => some (0, r)

/- A zone offset in seconds: a letter Z, UTC, or hours and
   minutes with a sign. -/
def offset? (cs : List Char) : Option (Int × List Char) :=
  match cs with
  | 'Z' :: r => some (0, r)
  | 'z' :: r => some (0, r)
  | _ =>
      if (cs.take 3).map Char.toUpper = ['U', 'T', 'C'] then
        some (0, cs.drop 3)
      else do
        let (negative, r) ←
          match cs with
          | '+' :: r => some (false, r)
          | '-' :: r => some (true, r)
          | '−' :: r => some (true, r)
          | _ => none
        let (hours, r) ←
          match r with
          | a :: b :: r =>
              if Digits.isDigit a && Digits.isDigit b then
                some (Digits.toNat [a, b], r)
              else none
          | _ => none
        let r := r.dropWhile
          (fun c => c = ':' || Blank.isBlank c)
        let (minutes, r) ←
          match r with
          | a :: b :: r =>
              if Digits.isDigit a && Digits.isDigit b &&
                  a ≤ '5' then
                some (Digits.toNat [a, b], r)
              else none
          | _ => none
        let n : Int := hours * 3600 + minutes * 60
        some (if negative then -n else n, r)

/- The instant of a local date and time. -/
def ofLocal?
    (date : Date)
    (hour minute second nano : Nat)
    (offset : Int) :
    Option Instant :=
  if date.Valid ∧ hour < 24 ∧ minute < 60 ∧ second ≤ 60 ∧
      -86400 < offset ∧ offset < 86400 ∧
      firstDay ≤ date.toDay ∧ date.toDay ≤ lastDay then
    let leap := second / 60
    let local_ : Int :=
      hour * 3600 + minute * 60 + (second - leap : Nat)
    let utc := local_ - offset
    ofParts? (date.toDay + utc / 86400)
      (utc % 86400).toNat (nano + leap * secondNanos)
  else none

/- Read an instant; all the characters have to be of it. -/
def parse? (cs : List Char) : Option Instant := do
  let (year, cs) ← year? cs
  let cs ← mark? '-' cs
  let (month, cs) ← number? 2 cs
  let cs ← mark? '-' cs
  let (day, cs) ← number? 2 cs
  let cs ←
    match cs with
    | c :: r =>
        if c = 'T' || c = 't' || c = ' ' then some r
        else none
    | [] => none
  let (hour, cs) ← number? 2 cs
  let cs ← mark? ':' cs
  let (minute, cs) ← number? 2 cs
  let cs ← mark? ':' cs
  let (second, cs) ← number? 2 cs
  let (nano, cs) ← fraction? cs
  let (offset, cs) ← offset? (Blank.skip cs)
  if (Blank.skip cs).isEmpty then
    ofLocal? ⟨year, month, day⟩ hour minute second nano offset
  else none

/- Read the whole text as an instant. -/
def ofText? (s : String) : Option Instant :=
  parse? s.toList

end Instant

end Preview
