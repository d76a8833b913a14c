import Preview.Text.Digits
import Preview.Decimal.Binary64

/-
  The shortest decimal text that reads back as a number.

  Among the decimals with the fewest digits that round to the
  number, the nearest one is chosen.  `Shortest.text` writes
  it with a point or an exponent, so that it is never taken
  for an integer.

  Key definitions include:
    * `Shortest.digits`
    * `Shortest.text`
-/

namespace Preview

namespace Shortest

------------------------------------------------------------
-- Digits
------------------------------------------------------------

/-
  A decimal grid `unit = 10^exponent` and the range of
  decimals that round to a number, all over one denominator.
-/
structure Grid where
  exponent : Int
  unit : Nat
  value : Nat
  low : Nat
  high : Nat
  ends : Bool

/- The grid with the given exponent around a number. -/
def grid (x : Binary64) (exponent : Int) : Grid :=
  let m := x.significand
  let below :=
    if m = Nat.pow 2 52 ∧ x.exponent ≠ -1074 then 1 else 2
  let twos : Int := x.exponent - 2
  let ones : Nat := Nat.pow 2 twos.toNat
  let parts : Nat := Nat.pow 2 (-twos).toNat
  let tens : Nat := Nat.pow 10 exponent.toNat
  let tenths : Nat := Nat.pow 10 (-exponent).toNat
  { exponent
    unit := tens * parts
    value := 4 * m * ones * tenths
    low := (4 * m - below) * ones * tenths
    high := (4 * m + 2) * ones * tenths
    ends := m % 2 == 0 }

/- Whether a grid point rounds to the number. -/
def Grid.hit (g : Grid) (n : Nat) : Bool :=
  let p := n * g.unit
  if g.ends then g.low ≤ p && p ≤ g.high
  else g.low < p && p < g.high

/- The nearest grid point that rounds to the number. -/
def Grid.nearest? (g : Grid) : Option Nat :=
  let n := g.value / g.unit
  let below := g.value - n * g.unit
  let above := (n + 1) * g.unit - g.value
  let lower := g.hit n && n != 0
  let upper := g.hit (n + 1)
  if lower && upper then
    if below < above || (below == above && n % 2 == 0) then
      some n
    else some (n + 1)
  else if lower then some n
  else if upper then some (n + 1)
  else none

/-
  The first grid with a hit, from coarse to fine.  Seventeen
  digits always suffice.
-/
def search (x : Binary64) (top : Int) :
    Nat → Nat → Nat × Int
  | 0, _ => (x.significand, x.exponent)
  | fuel + 1, n =>
      let g := grid x (top - n)
      match g.nearest? with
      | some d => (d, g.exponent)
      | none => search x top fuel (n + 1)

/- Drop the zeros at the end of a decimal. -/
def dropZeros : Nat → Nat → Int → Nat × Int
  | 0, d, e => (d, e)
  | fuel + 1, d, e =>
      if d % 10 = 0 ∧ d ≠ 0 then
        dropZeros fuel (d / 10) (e + 1)
      else (d, e)

/- An exponent not below the number's decimal magnitude. -/
def magnitude (x : Binary64) : Int :=
  let (num, den) := x.ratio
  if den ≤ num then (Digits.ofNat (num / den)).length
  else 1 - (Digits.ofNat (den / num)).length + 1

/-
  The digits and the decimal exponent of the shortest decimal
  for a number other than zero.
-/
def digits (x : Binary64) : Nat × Int :=
  let (d, e) := search x (magnitude x) 20 0
  dropZeros 20 d e

------------------------------------------------------------
-- Text
------------------------------------------------------------

/-
  Magnitudes from `10^-5` up to below `10^16` are written
  without an exponent.
-/
def text (x : Binary64) : String :=
  let sign := if x.negative then "-" else ""
  if x.isZero then sign ++ "0.0"
  else
    let (d, k) := digits x
    let ds := Digits.ofNat d
    let len : Int := ds.length
    let point := len + k
    let body : List Char :=
      if 0 ≤ k ∧ point ≤ 16 then
        ds ++ List.replicate k.toNat '0' ++ ['.', '0']
      else if 0 < point ∧ point ≤ 16 then
        ds.take point.toNat ++ ['.'] ++ ds.drop point.toNat
      else if -5 < point ∧ point ≤ 0 then
        ['0', '.'] ++ List.replicate (-point).toNat '0' ++ ds
      else
        let e := point - 1
        let es :=
          (if e < 0 then ['-'] else []) ++
            Digits.ofNat e.natAbs
        match ds with
        | [c] => c :: 'e' :: es
        | c :: cs => c :: '.' :: cs ++ 'e' :: es
        | [] => []
    sign ++ String.ofList body

end Shortest

end Preview
