import Preview.Time.Calendar
import Mathlib.Data.List.Basic

/-
  Days and dates name each other.

  `Date.yearOf` finds the year whose days include a day, and
  `Date.walk` finds the month whose days include a day of the
  year; both are described by what comes before them.

  Main declarations:
    * `Date.beforeYear_yearOf`
    * `Date.ofDay_valid`
    * `Date.toDay_ofDay`
-/

namespace Preview

namespace Date

------------------------------------------------------------
-- Years
------------------------------------------------------------

/- Each year adds its days to those before it. -/
theorem beforeYear_succ (year : Int) :
    beforeYear (year + 1) =
      beforeYear year + if isLeap year then 366 else 365 := by
  unfold beforeYear isLeap
  simp only [Bool.and_eq_true, Bool.or_eq_true, beq_iff_eq,
    bne_iff_ne, ne_eq]
  split <;> omega

/- The year of a day starts no later and ends after it. -/
theorem beforeYear_yearOf (day : Int) :
    beforeYear (yearOf day) ≤ day ∧
      day < beforeYear (yearOf day + 1) := by
  unfold yearOf
  generalize hGuess : day * 400 / 146097 = guess
  have hLow : 146097 * guess ≤ day * 400 := by omega
  have hHigh : day * 400 < 146097 * (guess + 1) := by omega
  simp only
  split
  · rename_i hEarly
    refine ⟨?_, ?_⟩
    · unfold beforeYear
      omega
    · rw [Int.sub_add_cancel]
      exact hEarly
  · rename_i hNotEarly
    split
    · rename_i hLate
      refine ⟨hLate, ?_⟩
      unfold beforeYear
      omega
    · rename_i hNotLate
      exact ⟨Int.not_lt.1 hNotEarly, Int.not_le.1 hNotLate⟩

------------------------------------------------------------
-- Months
------------------------------------------------------------

/- The days of the first months of a list. -/
theorem foldl_add
    (ns : List Nat)
    (start : Nat) :
    ns.foldl (· + ·) start = start + ns.foldl (· + ·) 0 := by
  induction ns generalizing start with
  | nil => rfl
  | cons n ns ih =>
      simp only [List.foldl_cons, Nat.zero_add]
      rw [ih (start + n), ih n, Nat.add_assoc]

/-
  A walk along months stops in the month that the day lies
  in: the months before it and the days of it up to the day
  make up the days that were walked.
-/
theorem walk_spec
    (ns : List Nat)
    (month day : Nat)
    (h : day < ns.foldl (· + ·) 0) :
    ∃ passed,
      (walk ns month day).1 = month + passed ∧
        1 ≤ (walk ns month day).2 ∧
        (walk ns month day).2 ≤ (ns[passed]?).getD 0 ∧
        passed < ns.length ∧
        day =
          (ns.take passed).foldl (· + ·) 0 +
            ((walk ns month day).2 - 1) := by
  induction ns generalizing month day with
  | nil => exact absurd h (Nat.not_lt_zero day)
  | cons n ns ih =>
      rw [walk]
      split
      · rename_i hHere
        exact ⟨0, rfl, by simp, by simp; omega, by simp,
          by simp⟩
      · rename_i hBeyond
        have hRest : day - n < ns.foldl (· + ·) 0 := by
          rw [List.foldl_cons, foldl_add] at h
          omega
        rcases ih (month + 1) (day - n) hRest with
          ⟨passed, hMonth, hFirst, hLast, hLength, hDay⟩
        refine ⟨passed + 1, ?_, hFirst, ?_, ?_, ?_⟩
        · omega
        · simpa using hLast
        · simpa using hLength
        · rw [List.take_succ_cons, List.foldl_cons, foldl_add]
          omega

/- The months of a year have its days together. -/
theorem foldl_months (leap : Bool) :
    (months leap).foldl (· + ·) 0 =
      if leap then 366 else 365 := by
  cases leap <;> rfl

------------------------------------------------------------
-- Dates
------------------------------------------------------------

/- The day of the year that a day is, counted from zero. -/
theorem dayOfYear_lt (day : Int) :
    (day - beforeYear (yearOf day)).toNat <
      (months (isLeap (yearOf day))).foldl (· + ·) 0 := by
  rcases beforeYear_yearOf day with ⟨hLow, hHigh⟩
  rw [beforeYear_succ] at hHigh
  rw [foldl_months]
  split <;> simp_all <;> omega

/-
  What a date is made of: the year of its day, and a month
  and a day of it that lie as far into the year.
-/
theorem ofDay_spec (day : Int) :
    ∃ passed,
      (ofDay day).year = yearOf (day + epoch) ∧
        (ofDay day).month = 1 + passed ∧
        passed < 12 ∧
        1 ≤ (ofDay day).day ∧
        (ofDay day).day ≤
          ((months (isLeap (ofDay day).year))[passed]?).getD
            0 ∧
        (day + epoch - beforeYear (ofDay day).year).toNat =
          ((months (isLeap (ofDay day).year)).take
              passed).foldl (· + ·) 0 +
            ((ofDay day).day - 1) := by
  rcases walk_spec _ 1 _ (dayOfYear_lt (day + epoch)) with
    ⟨passed, hMonth, hFirst, hLast, hLength, hDay⟩
  exact
    ⟨passed, rfl, hMonth, hLength, hFirst, hLast, hDay⟩

theorem ofDay_valid (day : Int) : (ofDay day).Valid := by
  rcases ofDay_spec day with
    ⟨passed, _, hMonth, hPassed, hFirst, hLast, _⟩
  unfold Valid
  rw [hMonth, Nat.add_sub_cancel_left]
  exact ⟨by omega, by omega, hFirst, hLast⟩

/- The day of the date of a day is that day. -/
theorem toDay_ofDay (day : Int) : (ofDay day).toDay = day := by
  rcases ofDay_spec day with
    ⟨passed, hYear, hMonth, _, _, _, hDay⟩
  have hLow := (beforeYear_yearOf (day + epoch)).1
  rw [← hYear] at hLow
  unfold toDay beforeMonth
  rw [hMonth, Nat.add_sub_cancel_left]
  omega

end Date

end Preview
