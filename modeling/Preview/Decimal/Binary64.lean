/-
  Finite double-precision numbers as exact binary fractions.

  A number is a sign, a significand and a binary exponent in
  the one form that the format admits, so equal forms are
  equal numbers up to the sign of zero.  All arithmetic is
  exact integer arithmetic followed by one rounding.

  Key definitions include:
    * `Binary64`
    * `Binary64.ofRatio`
    * `Binary64.ofDecimal`
    * `Binary64.same`
-/

namespace Preview

------------------------------------------------------------
-- Representation
------------------------------------------------------------

/-
  The normal form of a magnitude `significand · 2^exponent`:
  the significand has 53 bits unless the exponent is least.
-/
def Binary64.Canonical
    (significand : Nat)
    (exponent : Int) : Prop :=
  significand < Nat.pow 2 53 ∧
    -1074 ≤ exponent ∧
    exponent ≤ 971 ∧
    (Nat.pow 2 52 ≤ significand ∨ exponent = -1074)

instance
    (significand : Nat)
    (exponent : Int) :
    Decidable (Binary64.Canonical significand exponent) := by
  unfold Binary64.Canonical
  infer_instance

/- A finite double-precision number. -/
structure Binary64 where
  negative : Bool
  significand : Nat
  exponent : Int
  canonical : Binary64.Canonical significand exponent
deriving DecidableEq

namespace Binary64

/- The two zeros. -/
def zero (negative : Bool) : Binary64 :=
  ⟨negative, 0, -1074, by decide⟩

instance : Inhabited Binary64 := ⟨zero false⟩

/- Whether a number is one of the zeros. -/
def isZero (x : Binary64) : Bool :=
  x.significand == 0

/- Numerical equality: the two zeros are equal. -/
def same (x y : Binary64) : Bool :=
  x.significand == y.significand &&
    x.exponent == y.exponent &&
    (x.negative == y.negative || x.isZero)

/- The number of the same size with this sign. -/
def withSign (negative : Bool) (x : Binary64) : Binary64 :=
  { x with negative := negative }

/-
  The magnitude as a quotient of natural numbers.
-/
def ratio (x : Binary64) : Nat × Nat :=
  if 0 ≤ x.exponent then
    (x.significand * Nat.pow 2 x.exponent.toNat, 1)
  else
    (x.significand, Nat.pow 2 (-x.exponent).toNat)

------------------------------------------------------------
-- Rounding
------------------------------------------------------------

/- A quotient rounded to the nearest integer, ties to even. -/
def roundDiv (num den : Nat) : Nat :=
  let q := num / den
  let r := num % den
  if 2 * r > den || (2 * r == den && q % 2 == 1) then q + 1
  else q

/- `num / den` in units of `2^exponent`, rounded. -/
def scaled (num den : Nat) (exponent : Int) : Nat :=
  if 0 ≤ exponent then
    roundDiv num (den * Nat.pow 2 exponent.toNat)
  else
    roundDiv (num * Nat.pow 2 (-exponent).toNat) den

/- Whether `num / den` is at least `2^exponent`. -/
def reaches (num den : Nat) (exponent : Int) : Bool :=
  if 0 ≤ exponent then
    den * Nat.pow 2 exponent.toNat ≤ num
  else
    den ≤ num * Nat.pow 2 (-exponent).toNat

/-
  The nearest number to `num / den`, ties to even; none when
  that is beyond the largest finite one.
-/
def ofRatio
    (negative : Bool)
    (num den : Nat) :
    Option Binary64 :=
  if num = 0 then some (zero negative)
  else
    let top : Int := (num.log2 : Int) - den.log2
    let top := if reaches num den top then top else top - 1
    let exponent := max (top - 52) (-1074)
    let significand := scaled num den exponent
    let (significand, exponent) :=
      if significand = Nat.pow 2 53 then
        (Nat.pow 2 52, exponent + 1)
      else (significand, exponent)
    if h : Canonical significand exponent then
      some ⟨negative, significand, exponent, h⟩
    else none

/-
  The nearest number to `digits · 10^exponent`.  Exponents
  far outside the range are decided without computing them.
-/
def ofDecimal
    (negative : Bool)
    (digits : Nat)
    (exponent : Int) :
    Option Binary64 :=
  if digits = 0 then some (zero negative)
  else if exponent > 400 then none
  else if exponent + (digits.log2 : Int) < -1200 then
    some (zero negative)
  else if 0 ≤ exponent then
    ofRatio negative (digits * Nat.pow 10 exponent.toNat) 1
  else
    ofRatio negative digits (Nat.pow 10 (-exponent).toNat)

------------------------------------------------------------
-- Arithmetic
------------------------------------------------------------

/- The product, rounded once. -/
def mul (x y : Binary64) : Option Binary64 :=
  let (a, b) := x.ratio
  let (c, d) := y.ratio
  ofRatio (x.negative != y.negative) (a * c) (b * d)

/- The quotient by a number other than zero, rounded once. -/
def div (x y : Binary64) : Option Binary64 :=
  let (a, b) := x.ratio
  let (c, d) := y.ratio
  ofRatio (x.negative != y.negative) (a * d) (b * c)

end Binary64

end Preview
