import Mathlib.Algebra.Group.Nat.Defs
import Mathlib.Data.Nat.Basic
import Preview.Text.Blank
import Preview.Text.Digits

/-
  Reading back the digits that a number is written in.

  Main declarations:
    * `Digits.toNat_ofNat`
    * `Digits.toNat_fixed`
    * `Digits.toNat_padded`
-/

namespace Preview

namespace Digits

------------------------------------------------------------
-- Single Digits
------------------------------------------------------------

@[simp]
theorem isDigit_digit (n : Nat) : isDigit (digit n) = true := by
  unfold digit
  split <;> rfl

/- The value of a digit is what it stands for. -/
theorem value_digit
    {n : Nat}
    (h : n < 10) :
    value (digit n) = n := by
  have hAll : ∀ k, k < 10 → value (digit k) = k := by decide
  exact hAll n h

/- A digit is neither blank nor one of the marks of a text. -/
theorem not_isBlank_of_isDigit
    {c : Char}
    (h : isDigit c = true) :
    Blank.isBlank c = false := by
  simp only [isDigit, Bool.and_eq_true, decide_eq_true_eq,
    Char.le_def, UInt32.le_iff_toNat_le] at h
  have hLow : 48 ≤ c.toNat := h.1
  have hHigh : c.toNat ≤ 57 := h.2
  simp only [Blank.isBlank, Bool.or_eq_false_iff,
    Bool.and_eq_false_iff, decide_eq_false_iff_not]
  omega

------------------------------------------------------------
-- Lists of Digits
------------------------------------------------------------

/- Every character is a digit. -/
def AllDigits (cs : List Char) : Prop :=
  ∀ c ∈ cs, isDigit c = true

theorem AllDigits.append
    {cs ds : List Char}
    (hc : AllDigits cs)
    (hd : AllDigits ds) :
    AllDigits (cs ++ ds) := by
  intro c hMem
  rcases List.mem_append.1 hMem with h | h
  · exact hc c h
  · exact hd c h

theorem allDigits_digit (n : Nat) : AllDigits [digit n] := by
  intro c hMem
  rw [List.mem_singleton.1 hMem]
  exact isDigit_digit n

/- The last digit counts once, the ones before it ten times. -/
theorem toNat_concat
    (cs : List Char)
    (c : Char) :
    toNat (cs ++ [c]) = 10 * toNat cs + value c := by
  simp [toNat, List.foldl_append]

/- A digit run ends where the first other character stands. -/
theorem takeWhile_isDigit
    {cs rest : List Char}
    (hDigits : AllDigits cs)
    (hRest : ∀ c ∈ rest.head?, isDigit c = false) :
    (cs ++ rest).takeWhile isDigit = cs := by
  rw [List.takeWhile_append_of_pos hDigits]
  cases rest with
  | nil => simp
  | cons c rest => simp [hRest c rfl]

------------------------------------------------------------
-- Fixed Width
------------------------------------------------------------

/- A number at fixed width has that width, whatever it is. -/
theorem length_fixed
    (w n : Nat) :
    (fixed w n).length = w := by
  induction w generalizing n with
  | zero => rfl
  | succ w ih => simp [fixed, ih]

theorem allDigits_fixed
    (w n : Nat) :
    AllDigits (fixed w n) := by
  induction w generalizing n with
  | zero =>
      intro c hMem
      cases hMem
  | succ w ih =>
      exact (ih (n / 10)).append (allDigits_digit (n % 10))

/- Digits in a fixed width keep what fits into it. -/
theorem toNat_fixed
    (w n : Nat) :
    toNat (fixed w n) = n % 10 ^ w := by
  induction w generalizing n with
  | zero => simp [fixed, toNat, Nat.mod_one]
  | succ w ih =>
      have hDigit := value_digit (Nat.mod_lt n (by decide : 0 < 10))
      rw [fixed, toNat_concat, ih, hDigit, Nat.pow_succ,
        Nat.mul_comm (10 ^ w) 10, Nat.mod_mul]
      omega

/- A number that fits its width is read back from it. -/
theorem toNat_fixed_of_lt
    {w n : Nat}
    (h : n < 10 ^ w) :
    toNat (fixed w n) = n := by
  rw [toNat_fixed, Nat.mod_eq_of_lt h]

------------------------------------------------------------
-- Any Width
------------------------------------------------------------

theorem allDigits_ofNat (n : Nat) : AllDigits (ofNat n) := by
  induction n using Nat.strong_induction_on with
  | _ n ih =>
      rw [ofNat]
      split
      · exact allDigits_digit n
      · rename_i hLarge
        exact (ih (n / 10) (by omega)).append
          (allDigits_digit (n % 10))

/- A number is read back from its digits. -/
theorem toNat_ofNat (n : Nat) : toNat (ofNat n) = n := by
  induction n using Nat.strong_induction_on with
  | _ n ih =>
      rw [ofNat]
      split
      · rename_i hSmall
        simp [toNat, value_digit hSmall]
      · rename_i hLarge
        rw [toNat_concat, ih (n / 10) (by omega),
          value_digit (Nat.mod_lt n (by decide))]
        omega

/- No number is written without digits. -/
theorem ofNat_ne_nil (n : Nat) : ofNat n ≠ [] := by
  rw [ofNat]
  split <;> simp

/- Zeros in front of a number do not change it. -/
theorem toNat_zeros
    (k : Nat)
    (cs : List Char) :
    toNat (List.replicate k '0' ++ cs) = toNat cs := by
  induction k with
  | zero => rfl
  | succ k ih =>
      rw [List.replicate_succ, List.cons_append]
      exact ih

theorem allDigits_padded
    (w n : Nat) :
    AllDigits (padded w n) := by
  refine AllDigits.append ?_ (allDigits_ofNat n)
  intro c hMem
  rw [(List.mem_replicate.1 hMem).2]
  rfl

/- Zeros in front do not change the number. -/
theorem toNat_padded
    (w n : Nat) :
    toNat (padded w n) = n := by
  rw [padded, toNat_zeros, toNat_ofNat]

theorem padded_ne_nil
    (w n : Nat) :
    padded w n ≠ [] := by
  intro h
  exact ofNat_ne_nil n (List.append_eq_nil_iff.1 h).2

end Digits

end Preview
