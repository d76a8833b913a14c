import Preview.Json.Basic
import Preview.Json.Token

/-
  JSON text as a tree, before its numbers and strings are
  taken for values.

  A tree keeps repeated keys and the order of fields, and it
  admits numbers out of range and strings without a text, so
  that a reader which skips a part of a document does not
  fail on what it skips.

  Key definitions include:
    * `Json.Raw`
    * `Json.Raw.ofTokens?`
    * `Json.Raw.ofText?`
    * `Json.Raw.value?`
    * `Json.Number.ofNumeral?`
    * `Json.ofText?`
-/

namespace Preview

namespace Json

------------------------------------------------------------
-- Trees
------------------------------------------------------------

/- A value as it is written: numbers keep their digits, and
   texts are missing where an escape stands for no character. -/
inductive Raw where
  | null
  | bool (value : Bool)
  | number (value : Numeral)
  | string (value : Option String)
  | array (items : List Raw)
  | object (fields : List (Option String × Raw))
deriving Inhabited

namespace Raw

/- An open array or object; its parts are held reversed. -/
inductive Frame where
  | array (done : List Raw)
  | object
      (done : List (Option String × Raw))
      (key : Option String)

/- What may come next. -/
inductive State where
  | value (stack : List Frame)
  | firstItem (stack : List Frame)
  | firstKey
      (done : List (Option String × Raw))
      (stack : List Frame)
  | key
      (done : List (Option String × Raw))
      (stack : List Frame)
  | colon
      (done : List (Option String × Raw))
      (key : Option String)
      (stack : List Frame)
  | more (top : Frame) (stack : List Frame)
  | complete (tree : Raw)

/- Put a finished tree where it belongs. -/
def put (tree : Raw) : List Frame → State
  | [] => .complete tree
  | .array done :: stack =>
      .more (.array (tree :: done)) stack
  | .object done key :: stack =>
      .more (.object ((key, tree) :: done) none) stack

/- Begin a value. -/
def begin? (stack : List Frame) : Token → Option State
  | .openObject => some (.firstKey [] stack)
  | .openArray => some (.firstItem stack)
  | .null => some (put .null stack)
  | .bool b => some (put (.bool b) stack)
  | .number n => some (put (.number n) stack)
  | .string s => some (put (.string s) stack)
  | _ => none

/- Read one token. -/
def State.step? : State → Token → Option State
  | .value stack, t => begin? stack t
  | .firstItem stack, .closeArray =>
      some (put (.array []) stack)
  | .firstItem stack, t => begin? (.array [] :: stack) t
  | .firstKey done stack, .closeObject =>
      some (put (.object done.reverse) stack)
  | .firstKey done stack, .string k =>
      some (.colon done k stack)
  | .key done stack, .string k => some (.colon done k stack)
  | .colon done k stack, .colon =>
      some (.value (.object done k :: stack))
  | .more (.array done) stack, .comma =>
      some (.value (.array done :: stack))
  | .more (.array done) stack, .closeArray =>
      some (put (.array done.reverse) stack)
  | .more (.object done _) stack, .comma =>
      some (.key done stack)
  | .more (.object done _) stack, .closeObject =>
      some (put (.object done.reverse) stack)
  | _, _ => none

/- The single tree that tokens describe. -/
def ofTokens? (ts : List Token) : Option Raw := do
  match ← ts.foldlM State.step? (State.value []) with
  | State.complete tree => some tree
  | _ => none

/- The one value that a text consists of. -/
def ofText? (s : String) : Option Raw := do
  ofTokens? (← Token.scan? s.toList)

end Raw

------------------------------------------------------------
-- Numbers
------------------------------------------------------------

/- The largest value of a 64-bit word. -/
def maxWord : Nat := Nat.pow 2 64 - 1

/-
  Digits gathered into a 64-bit significand.  The first digit
  that does not fit ends it; the result tells how many digits
  were taken and whether all were.
-/
def gather (start : Nat) : List Char → Nat × Nat × Bool
  | [] => (start, 0, true)
  | c :: cs =>
      let next := 10 * start + Digits.value c
      if next > maxWord then (start, 0, false)
      else
        let (s, n, all) := gather next cs
        (s, n + 1, all)

/- The powers of ten that one multiplication can apply. -/
def powerOfTen (n : Nat) : Binary64 :=
  (Binary64.ofDecimal false 1 n).getD (Binary64.zero false)

/-
  A significand of 64 bits times a power of ten: both are
  rounded, and so is their product or quotient.  Exponents
  below -308 are applied in two steps, and below -616 nothing
  is left.
-/
def scaleByTen?
    (x : Binary64)
    (exponent : Int) :
    Option Binary64 :=
  if 308 < exponent then
    if x.isZero then some x else none
  else if 0 ≤ exponent then
    x.mul (powerOfTen exponent.toNat)
  else if -308 ≤ exponent then
    x.div (powerOfTen (-exponent).toNat)
  else if exponent < -616 then some (Binary64.zero false)
  else do
    let y ← x.div (powerOfTen 308)
    y.div (powerOfTen (-(exponent + 308)).toNat)

/-
  The value of a numeral.  Integers of 64 bits, signed or
  unsigned, are exact; minus zero and everything else is a
  floating-point number, if one is in range.
-/
def Number.ofNumeral? (n : Numeral) : Option Number :=
  let (s, taken, all) := gather 0 n.whole
  let exact : Option Int :=
    if n.float || !all then none
    else if !n.negative then some s
    else if s = 0 || Nat.pow 2 63 < s then none
    else some (-(s : Int))
  match exact with
  | some i => some (.int i)
  | none =>
      let shift : Int := (n.whole.length : Int) - taken
      let (s, taken, _) := gather s n.fraction
      let shift := shift - taken
      let written : Int :=
        match n.exponent with
        | none => 0
        | some (negative, ds) =>
            let e : Int := Digits.toNat ds
            if negative then -e else e
      let exponent := shift + written
      (Binary64.ofDecimal false s 0).bind fun x =>
        (scaleByTen? x exponent).map fun y =>
          .float (y.withSign n.negative)

------------------------------------------------------------
-- Values
------------------------------------------------------------

namespace Raw

mutual

/-
  The value of a tree whose arrays and objects are nested
  less than `depth` deep.
-/
def valueWithin? (depth : Nat) : Raw → Option Json
  | .null => some .null
  | .bool b => some (.bool b)
  | .number n => (Number.ofNumeral? n).map .number
  | .string s => s.map .string
  | .array items =>
      if depth ≤ 1 then none
      else (itemsWithin? (depth - 1) items).map .array
  | .object fields =>
      if depth ≤ 1 then none
      else (fieldsWithin? (depth - 1) fields).map ofFields

/- The items of an array, at a depth that is left. -/
def itemsWithin? (depth : Nat) :
    List Raw → Option (List Json)
  | [] => some []
  | r :: rs => do
      let j ← valueWithin? depth r
      let js ← itemsWithin? depth rs
      return j :: js

/- The fields of an object, whose names must all be texts. -/
def fieldsWithin? (depth : Nat) :
    List (Option String × Raw) →
      Option (List (String × Json))
  | [] => some []
  | (k, r) :: rs => do
      let k ← k
      let j ← valueWithin? depth r
      let js ← fieldsWithin? depth rs
      return (k, j) :: js

end

/- Values may be nested 127 deep. -/
def value? (r : Raw) : Option Json :=
  valueWithin? 128 r

end Raw

/- The value that a text describes. -/
def ofText? (s : String) : Option Json := do
  (← Raw.ofText? s).value?

end Json

end Preview
