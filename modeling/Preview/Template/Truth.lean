import Preview.Json.Printer
import Preview.Template.Term

/-
  Values as templates see them: their text, their truth and
  their order.

  Key definitions include:
    * `Template.shown`
    * `Template.isTrue`
    * `Template.compare?`
-/

namespace Preview

namespace Template

------------------------------------------------------------
-- Text
------------------------------------------------------------

mutual

/- The text that a value prints as. -/
def shown : Json → List Char
  | .null => []
  | .bool b => if b then "true".toList else "false".toList
  | .number n => n.print
  | .string s => s.toList
  | .array [] => ['[', ']']
  | .array (x :: xs) => '[' :: shown x ++ shownItems xs
  | .object _ => "[object]".toList

/- The items after the first one, and the closing bracket. -/
def shownItems : List Json → List Char
  | [] => [']']
  | x :: xs => ',' :: ' ' :: shown x ++ shownItems xs

end

------------------------------------------------------------
-- Truth
------------------------------------------------------------

/- Whether a number is neither zero nor below the normal
   range. -/
def isNormal (n : Json.Number) : Bool :=
  match n with
  | .int i => i ≠ 0
  | .float x => Nat.pow 2 52 ≤ x.significand

/- Empty values and zero are not true. -/
def isTrue (zeroIsTrue : Bool) : Json → Bool
  | .null => false
  | .bool b => b
  | .number n => zeroIsTrue || isNormal n
  | .string s => !s.isEmpty
  | .array items => !items.isEmpty
  | .object fields => !fields.isEmpty

------------------------------------------------------------
-- Order
------------------------------------------------------------

/- A number beyond the finite ones counts as an infinity. -/
inductive Bound where
  | finite (num : Int) (den : Nat)
  | infinite (negative : Bool)

namespace Bound

/- A binary number as a fraction. -/
def ofBinary (x : Binary64) : Bound :=
  let (num, den) := x.ratio
  finite (if x.negative then -(num : Int) else num) den

/- A number of the data as a bound. -/
def ofNumber : Json.Number → Bound
  | .int i => finite i 1
  | .float x => ofBinary x

/- The nearest double-precision number. -/
def round : Bound → Bound
  | finite num den =>
      match Binary64.ofRatio (num < 0) num.natAbs den with
      | some x => ofBinary x
      | none => infinite (num < 0)
  | b => b

/- How two bounds compare as numbers. -/
def compare : Bound → Bound → Ordering
  | finite a b, finite c d =>
      Ord.compare (a * (d : Int)) (c * (b : Int))
  | infinite a, infinite b =>
      if a = b then .eq else if a then .lt else .gt
  | infinite a, finite _ _ => if a then .lt else .gt
  | finite _ _, infinite b => if b then .gt else .lt

/- The digits of a decimal, and what follows them. -/
def decimal? (negative : Bool) (cs : List Char) :
    Option Bound :=
  let (whole, rest) := cs.span Digits.isDigit
  let (fraction, rest) :=
    match rest with
    | '.' :: rest => rest.span Digits.isDigit
    | _ => ([], rest)
  if whole.isEmpty && fraction.isEmpty then none
  else
    let exponent : Option Int :=
      match rest with
      | [] => some 0
      | c :: rest =>
          if c ≠ 'e' && c ≠ 'E' then none
          else (Json.Numeral.exponent? rest).map
            fun (negative, digits) =>
              let e : Int := Digits.toNat digits
              if negative then -e else e
    exponent.map fun e =>
      match Binary64.ofDecimal negative
        (Digits.toNat (whole ++ fraction))
        (e - fraction.length) with
      | some x => ofBinary x
      | none => infinite negative

/- The number that a text is, if it is one. -/
def ofText? (s : String) : Option Bound :=
  let (negative, cs) :=
    match s.toList with
    | '-' :: cs => (true, cs)
    | '+' :: cs => (false, cs)
    | cs => (false, cs)
  let word := String.ofList (cs.map Char.toLower)
  if word = "inf" || word = "infinity" then
    some (infinite negative)
  else decimal? negative cs

end Bound

/- Compare a number with a text that is one. -/
def compareText? (n : Json.Number) (s : String) :
    Option Ordering :=
  (Bound.ofText? s).map (Bound.compare (.round (.ofNumber n)))

/- The order of two values that can be compared. -/
def compare? : Json → Json → Option Ordering
  | .number a, .number b =>
      some (Bound.compare (.ofNumber a) (.ofNumber b))
  | .string a, .string b => some (Ord.compare a b)
  | .bool a, .bool b => some (Ord.compare a b)
  | .number a, .string b => compareText? a b
  | .string a, .number b =>
      (compareText? b a).map Ordering.swap
  | _, _ => none

end Template

end Preview
