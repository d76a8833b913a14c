import Preview.Time.Instant
import Preview.Proofs.Calendar
import Preview.Proofs.Digits

/-
  Reading back the text of a time.

  Each part of the text is read by the reader of that part,
  whatever follows it; the parts together name the day, the
  second and the nanosecond that were written.

  Main declarations:
    * `Instant.year?_printYear`
    * `Instant.fraction?_printFraction`
    * `Instant.ofText?_text`
-/

namespace Preview

namespace Instant

open Digits

------------------------------------------------------------
-- Blanks
------------------------------------------------------------

theorem skip_cons
    {c : Char}
    (rest : List Char)
    (h : Blank.isBlank c = false) :
    Blank.skip (c :: rest) = c :: rest := by
  simp [Blank.skip, h]

/- Nothing is skipped before digits. -/
theorem skip_digits
    {ds : List Char}
    (rest : List Char)
    (hDigits : AllDigits ds)
    (hSome : ds ≠ []) :
    Blank.skip (ds ++ rest) = ds ++ rest := by
  cases ds with
  | nil => exact absurd rfl hSome
  | cons d ds =>
      exact skip_cons _
        (not_isBlank_of_isDigit (hDigits d (by simp)))

------------------------------------------------------------
-- Parts of a Time
------------------------------------------------------------

theorem mark?_cons
    {c : Char}
    (rest : List Char)
    (h : Blank.isBlank c = false) :
    mark? c (c :: rest) = some rest := by
  unfold mark?
  rw [skip_cons rest h]
  simp

/- A number in a fixed width is read back in that width. -/
theorem number?_fixed
    {w n : Nat}
    (rest : List Char)
    (hWidth : 0 < w)
    (hFits : n < 10 ^ w) :
    number? w (fixed w n ++ rest) = some (n, rest) := by
  have hSome : fixed w n ≠ [] := by
    intro h
    have hLength := length_fixed w n
    rw [h] at hLength
    simp at hLength
    omega
  have hTake : (fixed w n ++ rest).take w = fixed w n := by
    rw [List.take_append_of_le_length (by rw [length_fixed]),
      List.take_of_length_le (by rw [length_fixed])]
  have hWhile :
      (fixed w n).takeWhile isDigit = fixed w n := by
    have hEnd : (fixed w n ++ []).takeWhile isDigit =
        fixed w n :=
      takeWhile_isDigit (allDigits_fixed w n) (by simp)
    simpa using hEnd
  unfold number?
  rw [skip_digits rest (allDigits_fixed w n) hSome]
  simp only [hTake, hWhile]
  rw [if_neg (by simpa using hSome), toNat_fixed_of_lt hFits,
    List.drop_left]

/- The digits of a year end at the mark after it. -/
theorem takeWhile_year
    {ds : List Char}
    (rest : List Char)
    (hDigits : AllDigits ds) :
    (ds ++ '-' :: rest).takeWhile isDigit = ds :=
  takeWhile_isDigit hDigits (by simp; rfl)

/- Years are read back with and without a sign. -/
theorem year?_printYear
    (year : Int)
    (rest : List Char) :
    year? (printYear year ++ '-' :: rest) =
      some (year, '-' :: rest) := by
  unfold printYear
  split
  · rename_i hPlain
    have hFits : year.toNat < 10 ^ 4 := by omega
    have hDigits := allDigits_fixed 4 year.toNat
    have hRead :=
      number?_fixed ('-' :: rest) (by decide) hFits
    have hSkip :
        Blank.skip (fixed 4 year.toNat ++ '-' :: rest) =
          fixed 4 year.toNat ++ '-' :: rest :=
      skip_digits _ hDigits (by simp [fixed])
    unfold year?
    rw [hSkip]
    -- The first digit is no sign, so the plain reader reads.
    have hHead :
        ∃ d ds, fixed 4 year.toNat = d :: ds ∧
          isDigit d = true := by
      cases hCase : fixed 4 year.toNat with
      | nil => simp [fixed] at hCase
      | cons d ds =>
          rw [hCase] at hDigits
          exact ⟨d, ds, rfl, hDigits d (by simp)⟩
    rcases hHead with ⟨d, ds, hCons, hDigit⟩
    rw [hCons] at hRead ⊢
    simp only [List.cons_append] at hRead ⊢
    split
    · rename_i hMinus
      cases hMinus
      exact absurd hDigit (by decide)
    · rename_i hPlus
      cases hPlus
      exact absurd hDigit (by decide)
    · rw [hRead]
      simp only [Option.bind_eq_bind, Option.bind_some,
        Option.some.injEq, Prod.mk.injEq, and_true]
      omega
  · rename_i hSigned
    have hDigits := allDigits_padded 4 year.natAbs
    have hSome : (padded 4 year.natAbs).isEmpty = false := by
      simpa using padded_ne_nil 4 year.natAbs
    by_cases hNegative : year < 0
    · rw [if_pos hNegative, List.cons_append]
      unfold year?
      rw [skip_cons _ (by decide)]
      simp only [takeWhile_year rest hDigits, hSome,
        toNat_padded, List.drop_left, Bool.false_eq_true,
        if_false, Option.some.injEq, Prod.mk.injEq, and_true]
      omega
    · rw [if_neg hNegative, List.cons_append]
      unfold year?
      rw [skip_cons _ (by decide)]
      simp only [takeWhile_year rest hDigits, hSome,
        toNat_padded, List.drop_left, Bool.false_eq_true,
        if_false, Option.some.injEq, Prod.mk.injEq, and_true]
      omega

/- A fraction of some digits counts in units of the last. -/
theorem fraction?_fixed
    {w n : Nat}
    (rest : List Char)
    (hWidth : 0 < w)
    (hNine : w ≤ 9)
    (hFits : n < 10 ^ w) :
    fraction? ('.' :: fixed w n ++ 'Z' :: rest) =
      some (n * 10 ^ (9 - w), 'Z' :: rest) := by
  have hDigits :
      (fixed w n ++ 'Z' :: rest).takeWhile isDigit =
        fixed w n :=
    takeWhile_isDigit (allDigits_fixed w n) (by simp; rfl)
  have hTake : (fixed w n).take 9 = fixed w n :=
    List.take_of_length_le (by rw [length_fixed]; exact hNine)
  have hSome : (fixed w n).isEmpty = false := by
    rw [List.isEmpty_eq_false_iff_exists_mem,
      ← List.length_pos_iff_exists_mem, length_fixed]
    exact hWidth
  have hDrop :
      (fixed w n ++ 'Z' :: rest).drop (fixed w n).length =
        'Z' :: rest :=
    List.drop_left
  rw [length_fixed] at hDrop
  rw [List.cons_append]
  unfold fraction?
  simp only [hDigits, hSome, hTake, hDrop, length_fixed,
    toNat_fixed_of_lt hFits, Bool.false_eq_true, if_false,
    Nat.pow_eq]

/- The fraction is read back from as few digits as it has. -/
theorem fraction?_printFraction
    {nano : Nat}
    (rest : List Char)
    (h : nano < secondNanos) :
    fraction? (printFraction nano ++ 'Z' :: rest) =
      some (nano, 'Z' :: rest) := by
  unfold secondNanos at h
  unfold printFraction
  split
  · rename_i hNone
    subst hNone
    rfl
  · split
    · rename_i hMilli
      rw [fraction?_fixed rest (by decide) (by decide)
        (by omega)]
      congr 2
      omega
    · split
      · rename_i hMicro
        rw [fraction?_fixed rest (by decide) (by decide)
          (by omega)]
        congr 2
        omega
      · rw [fraction?_fixed rest (by decide) (by decide)
          (by omega)]
        simp

------------------------------------------------------------
-- Whole Times
------------------------------------------------------------

/- The parts of a time name it. -/
theorem ofLocal?_parts (t : Instant) :
    ofLocal? (Date.ofDay t.day) (t.second / 3600)
        (t.second / 60 % 60)
        (t.second % 60 + t.nano / secondNanos)
        (t.nano % secondNanos) 0 = some t := by
  rcases t with ⟨day, second, nano, hValid⟩
  have hDay := Date.toDay_ofDay day
  have hDate := Date.ofDay_valid day
  rcases hValid with ⟨hFirst, hLast, hSecond, hNano⟩
  have hLeap :
      (second % 60 + nano / secondNanos) / 60 =
        nano / secondNanos := by
    unfold secondNanos at hNano ⊢
    omega
  have hOk :
      (Date.ofDay day).Valid ∧ second / 3600 < 24 ∧
        second / 60 % 60 < 60 ∧
        second % 60 + nano / secondNanos ≤ 60 ∧
        (-86400 : Int) < 0 ∧ (0 : Int) < 86400 ∧
        firstDay ≤ (Date.ofDay day).toDay ∧
        (Date.ofDay day).toDay ≤ lastDay := by
    rw [hDay]
    unfold secondNanos at hNano ⊢
    refine ⟨hDate, ?_, ?_, ?_, by decide, by decide,
      hFirst, hLast⟩ <;> omega
  have hClock :
      (((second / 3600 : Nat) : Int) * 3600 +
        ((second / 60 % 60 : Nat) : Int) * 60 +
        ((second % 60 + nano / secondNanos -
          nano / secondNanos : Nat) : Int) - 0) =
        (second : Int) := by
    omega
  have hNext : (second : Int) / 86400 = 0 := by omega
  have hRest : ((second : Int) % 86400).toNat = second := by
    omega
  have hNanos :
      nano % secondNanos + nano / secondNanos * secondNanos =
        nano := by
    rw [Nat.mul_comm]
    exact Nat.mod_add_div nano secondNanos
  unfold ofLocal?
  rw [if_pos hOk]
  simp only [hLeap, hClock, hNext, hRest, hNanos, hDay,
    Int.add_zero]
  unfold ofParts?
  rw [dif_pos ⟨hFirst, hLast, hSecond, hNano⟩]

/- A reader goes on with what the reader before it has
   read. -/
theorem bind_of_some
    {α β : Type}
    {x : Option α}
    {a : α}
    {f : α → Option β}
    {r : Option β}
    (hRead : x = some a)
    (hRest : f a = r) :
    (x >>= f) = r := by
  rw [hRead]
  exact hRest

/- An instant is read back from its own format. -/
theorem parse?_print (t : Instant) : parse? t.print = some t := by
  -- every number fits the width that it is printed at
  have hDate := Date.ofDay_valid t.day
  have hMonth : (Date.ofDay t.day).month < 10 ^ 2 := by
    have := hDate.2.1
    omega
  have hDayOfMonth : (Date.ofDay t.day).day < 10 ^ 2 := by
    have hLast := hDate.2.2.2
    have hBound :
        ∀ leap, ∀ k < 12,
          ((Date.months leap)[k]?).getD 0 < 10 ^ 2 := by
      decide
    have := hBound (Date.isLeap (Date.ofDay t.day).year)
      ((Date.ofDay t.day).month - 1)
      (by have := hDate.1; have := hDate.2.1; omega)
    omega
  rcases hValid : t.valid with ⟨_, _, hSecond, hNano⟩
  have hNanos : t.nano % secondNanos < secondNanos :=
    Nat.mod_lt _ (by decide)
  have hLeap :
      t.second % 60 + t.nano / secondNanos < 10 ^ 2 := by
    unfold secondNanos at hNano ⊢
    omega
  have hHour : t.second / 3600 < 10 ^ 2 := by omega
  have hMinute : t.second / 60 % 60 < 10 ^ 2 := by omega
  have hDash (rest : List Char) :
      mark? '-' ('-' :: rest) = some rest :=
    mark?_cons rest (by decide)
  have hColon (rest : List Char) :
      mark? ':' (':' :: rest) = some rest :=
    mark?_cons rest (by decide)
  have hTwo {n : Nat} (hFits : n < 10 ^ 2) (rest : List Char) :
      number? 2 (fixed 2 n ++ rest) = some (n, rest) :=
    number?_fixed rest (by decide) hFits
  -- then the text is read from left to right
  unfold parse? print
  simp only [List.append_assoc, List.cons_append]
  refine bind_of_some (year?_printYear _ _) ?_
  apply bind_of_some (hDash _)
  apply bind_of_some (hTwo hMonth _)
  apply bind_of_some (hDash _)
  apply bind_of_some (hTwo hDayOfMonth _)
  apply bind_of_some rfl
  apply bind_of_some (hTwo hHour _)
  apply bind_of_some (hColon _)
  apply bind_of_some (hTwo hMinute _)
  apply bind_of_some (hColon _)
  apply bind_of_some (hTwo hLeap _)
  refine bind_of_some (fraction?_printFraction _ hNanos) ?_
  exact ofLocal?_parts t

/- Every time is read back from its text. -/
theorem ofText?_text (t : Instant) : ofText? t.text = some t := by
  unfold ofText? text
  rw [String.toList_ofList]
  exact parse?_print t

end Instant

end Preview
