/-
  The proleptic Gregorian calendar.

  Days are counted from 1970-01-01; years before the first
  are zero and negative.

  Key definitions include:
    * `Date`
    * `Date.isLeap`
    * `Date.beforeYear`
    * `Date.Valid`
    * `Date.toDay`
    * `Date.ofDay`
-/

namespace Preview

/- A day of a year, counted as in civil use; no date is ruled
   out by itself. -/
structure Date where
  year : Int
  month : Nat
  day : Nat
deriving DecidableEq, Repr, Inhabited

namespace Date

------------------------------------------------------------
-- Years
------------------------------------------------------------

/- Every fourth year, but of the full centuries only every
   fourth. -/
def isLeap (year : Int) : Bool :=
  year % 4 == 0 && (year % 100 != 0 || year % 400 == 0)

/- The days from the start of year zero to that of a year. -/
def beforeYear (year : Int) : Int :=
  365 * year + (year + 3) / 4 - (year + 99) / 100 +
    (year + 399) / 400

/- The days from the start of year zero to 1970-01-01. -/
def epoch : Int := 719528

/-
  The year that a day from the start of year zero lies in:
  the estimate by the mean year is off by one at most.
-/
def yearOf (day : Int) : Int :=
  let guess := day * 400 / 146097
  if day < beforeYear guess then guess - 1
  else if beforeYear (guess + 1) ≤ day then guess + 1
  else guess

------------------------------------------------------------
-- Months
------------------------------------------------------------

/- The lengths of the months of a year. -/
def months (leap : Bool) : List Nat :=
  [31, if leap then 29 else 28, 31, 30, 31, 30,
    31, 31, 30, 31, 30, 31]

/- The days of a year before a month. -/
def beforeMonth (leap : Bool) (month : Nat) : Nat :=
  ((months leap).take (month - 1)).foldl (· + ·) 0

/- The month and its day, by walking along the months. -/
def walk : List Nat → Nat → Nat → Nat × Nat
  | [], month, day => (month, day + 1)
  | n :: ns, month, day =>
      if day < n then (month, day + 1)
      else walk ns (month + 1) (day - n)

------------------------------------------------------------
-- Dates
------------------------------------------------------------

/- A date of the calendar. -/
def Valid (d : Date) : Prop :=
  1 ≤ d.month ∧ d.month ≤ 12 ∧ 1 ≤ d.day ∧
    d.day ≤ ((months (isLeap d.year))[d.month - 1]?).getD 0

instance (d : Date) : Decidable d.Valid := by
  unfold Valid
  infer_instance

/- The day that a date names. -/
def toDay (d : Date) : Int :=
  beforeYear d.year - epoch +
    beforeMonth (isLeap d.year) d.month + (d.day - 1 : Nat)

/- The date of a day. -/
def ofDay (day : Int) : Date :=
  let n := day + epoch
  let year := yearOf n
  let (month, d) :=
    walk (months (isLeap year)) 1
      (n - beforeYear year).toNat
  ⟨year, month, d⟩

end Date

end Preview
