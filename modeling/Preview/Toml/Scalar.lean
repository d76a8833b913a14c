import Preview.Config.Setting
import Preview.Decimal.Binary64
import Preview.Text.Digits
import Preview.Time.Calendar

/-
  Flags, numbers and dates of TOML.

  Digits may be grouped by single underscores between them.
  Integers have 64 bits with a sign.  A date, a time or both
  is no setting that has a use, so it counts as a group
  without fields.

  Key definitions include:
    * `Toml.integer?`
    * `Toml.isFraction`
    * `Toml.isMoment`
    * `Toml.scalar?`
-/

namespace Preview

namespace Toml

------------------------------------------------------------
-- Integers
------------------------------------------------------------

/- The digits of a group of digits without its underscores;
   none if an underscore is not between two digits. -/
def ungrouped? (isDigit : Char → Bool) :
    List Char → Option (List Char)
  | [] => none
  | [c] => if isDigit c then some [c] else none
  | c :: '_' :: rest =>
      if isDigit c then (ungrouped? isDigit rest).map (c :: ·)
      else none
  | c :: rest =>
      if isDigit c then (ungrouped? isDigit rest).map (c :: ·)
      else none

/- An integer of 64 bits with a sign. -/
def bounded? (i : Int) : Option Int :=
  let bound : Int := Nat.pow 2 63
  if -bound ≤ i ∧ i < bound then some i else none

/- The text behind an optional sign, and whether the sign is a
   minus. -/
def signed : List Char → Bool × List Char
  | '+' :: cs => (false, cs)
  | '-' :: cs => (true, cs)
  | cs => (false, cs)

/- The digits of a whole number without leading zeros. -/
def whole? (cs : List Char) : Option (List Char) :=
  match cs with
  | '0' :: _ :: _ => none
  | cs => ungrouped? Digits.isDigit cs

/- An integer in a base that its text names. -/
def based? (base : Nat) (cs : List Char) : Option Int := do
  let ds ←
    ungrouped? (fun c => (Digits.valueIn? base c).isSome) cs
  bounded? (← Digits.toNatIn? base ds)

/- Read an integer of 64 bits, in one of four bases. -/
def integer? (cs : List Char) : Option Int :=
  match cs with
  | '0' :: 'x' :: ds => based? 16 ds
  | '0' :: 'o' :: ds => based? 8 ds
  | '0' :: 'b' :: ds => based? 2 ds
  | cs => do
      let (negative, ds) := signed cs
      let n : Int := Digits.toNat (← whole? ds)
      bounded? (if negative then -n else n)

------------------------------------------------------------
-- Fractions
------------------------------------------------------------

/-
  The parts of a number: its whole digits, the digits behind a
  point, and its exponent.  One of the last two must be there.
-/
def fractionParts? (cs : List Char) :
    Option (List Char × List Char × Int) := do
  let isPart := fun c => Digits.isDigit c || c = '_'
  let whole ← whole? (cs.takeWhile isPart)
  let rest := cs.dropWhile isPart
  let (fraction, rest) ←
    match rest with
    | '.' :: rest => do
        let ds ← ungrouped? Digits.isDigit
          (rest.takeWhile isPart)
        some (ds, rest.dropWhile isPart)
    | rest => some ([], rest)
  match rest with
  | [] =>
      if fraction.isEmpty then none
      else some (whole, fraction, 0)
  | c :: rest =>
      if c = 'e' || c = 'E' then
        let (negative, ds) := signed rest
        let n : Int :=
          Digits.toNat (← ungrouped? Digits.isDigit ds)
        some (whole, fraction, if negative then -n else n)
      else none

/-
  Whether a text is a number with a fraction or an exponent,
  or none at all.  A number above the range of a double is
  refused.
-/
def isFraction (cs : List Char) : Bool :=
  let (negative, cs) := signed cs
  if cs = "inf".toList || cs = "nan".toList then true
  else
    match fractionParts? cs with
    | none => false
    | some (whole, fraction, exponent) =>
        negative ||
          (Binary64.ofDecimal false
            (Digits.toNat (whole ++ fraction))
            (exponent - fraction.length)).isSome

------------------------------------------------------------
-- Dates and Times
------------------------------------------------------------

/- Two digits of a number that is not too large. -/
def upTo (high : Nat) (a b : Char) : Bool :=
  Digits.isDigit a && Digits.isDigit b &&
    Digits.toNat [a, b] ≤ high

/- Four, two and two digits that name a day. -/
def isDate (cs : List Char) : Bool :=
  match cs with
  | [a, b, c, d, '-', e, f, '-', g, h] =>
      [a, b, c, d, e, f, g, h].all Digits.isDigit &&
        decide (Date.Valid
          ⟨Digits.toNat [a, b, c, d], Digits.toNat [e, f],
            Digits.toNat [g, h]⟩)
  | _ => false

/- What follows hours, minutes and seconds: the digits of a
   part of a second. -/
def secondPart? : List Char → Option (List Char)
  | '.' :: rest =>
      if (rest.takeWhile Digits.isDigit).isEmpty then none
      else some (rest.dropWhile Digits.isDigit)
  | rest => some rest

/- What follows a time of a day. -/
def time? (cs : List Char) : Option (List Char) :=
  match cs with
  | a :: b :: ':' :: c :: d :: ':' :: e :: f :: rest =>
      if upTo 23 a b && upTo 59 c d && upTo 60 e f then
        secondPart? rest
      else none
  | _ => none

/- No offset, the letter of none, or hours and minutes. -/
def isOffset (cs : List Char) : Bool :=
  match cs with
  | [] => true
  | [c] => c = 'Z' || c = 'z'
  | [s, a, b, ':', c, d] =>
      (s = '+' || s = '-') && upTo 23 a b && upTo 59 c d
  | _ => false

/- A date, a time, or a date and a time with an offset or
   without one. -/
def isMoment (cs : List Char) : Bool :=
  isDate cs || time? cs = some [] ||
    match cs.drop 10 with
    | c :: rest =>
        isDate (cs.take 10) &&
          (c = 'T' || c = 't' || c = ' ') &&
          match time? rest with
          | some offset => isOffset offset
          | none => false
    | [] => false

------------------------------------------------------------
-- Scalars
------------------------------------------------------------

/- The setting that is written without quotes. -/
def scalar? (cs : List Char) : Option Setting :=
  if cs = "true".toList then some (.flag true)
  else if cs = "false".toList then some (.flag false)
  else if isMoment cs then some .none
  else
    match integer? cs with
    | some i => some (.whole i)
    | none => if isFraction cs then some .fraction else none

end Toml

end Preview
