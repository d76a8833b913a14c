/-
  Decimal digits as text.

  Key definitions include:
    * `Digits.digit`
    * `Digits.value`
    * `Digits.ofNat`
    * `Digits.fixed`
-/

namespace Preview

namespace Digits

------------------------------------------------------------
-- Single Digits
------------------------------------------------------------

/- The ten digits. -/
def isDigit (c : Char) : Bool :=
  '0' ≤ c && c ≤ '9'

/- The digit of a number below ten. -/
def digit (n : Nat) : Char :=
  match n with
  | 0 => '0'
  | 1 => '1'
  | 2 => '2'
  | 3 => '3'
  | 4 => '4'
  | 5 => '5'
  | 6 => '6'
  | 7 => '7'
  | 8 => '8'
  | _ => '9'

/- The number that a decimal digit stands for. -/
def value (c : Char) : Nat :=
  c.toNat - '0'.toNat

/- The number that a digit stands for in a base up to 16. -/
def valueIn? (base : Nat) (c : Char) : Option Nat :=
  let n :=
    if isDigit c then some (value c)
    else if 'a' ≤ c && c ≤ 'f' then
      some (c.toNat - 'a'.toNat + 10)
    else if 'A' ≤ c && c ≤ 'F' then
      some (c.toNat - 'A'.toNat + 10)
    else none
  n.filter (· < base)

------------------------------------------------------------
-- Numerals
------------------------------------------------------------

/- The number written by decimal digits. -/
def toNat (cs : List Char) : Nat :=
  cs.foldl (fun n c => 10 * n + value c) 0

/- The number written in a base, if there is a digit at all. -/
def toNatIn? (base : Nat) (cs : List Char) : Option Nat :=
  if cs.isEmpty then none
  else
    cs.foldlM
      (fun n c => (valueIn? base c).map (base * n + ·)) 0

/- A number without leading zeros. -/
def ofNat (n : Nat) : List Char :=
  if n < 10 then [digit n]
  else ofNat (n / 10) ++ [digit (n % 10)]
termination_by n

/- A number in a given width, its high digits cut. -/
def fixed : Nat → Nat → List Char
  | 0, _ => []
  | w + 1, n => fixed w (n / 10) ++ [digit (n % 10)]

/- A number in at least the given width. -/
def padded (width n : Nat) : List Char :=
  let ds := ofNat n
  List.replicate (width - ds.length) '0' ++ ds

/- A number as a text. -/
def text (n : Nat) : String :=
  String.ofList (ofNat n)

end Digits

end Preview
