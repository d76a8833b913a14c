import Preview.Decimal.Shortest
import Preview.Table

/-
  JSON values.

  Integers and floating-point numbers are different values
  even when they are numerically equal.  The fields of an
  object are kept in key order.

  Key definitions include:
    * `Json.Number`
    * `Json`
    * `Json.same`
    * `Json.ofFields`
    * `Json.field?`
    * `Json.set`
-/

namespace Preview

------------------------------------------------------------
-- Values
------------------------------------------------------------

/- An integer or a finite double-precision number. -/
inductive Json.Number where
  | int (value : Int)
  | float (value : Binary64)
deriving DecidableEq, Inhabited

/- Equality of numbers of one kind. -/
def Json.Number.same : Json.Number → Json.Number → Bool
  | .int a, .int b => a == b
  | .float a, .float b => a.same b
  | _, _ => false

/- A value of JSON; the fields of an object are in the order of
   their names. -/
inductive Json where
  | null
  | bool (value : Bool)
  | number (value : Json.Number)
  | string (value : String)
  | array (items : List Json)
  | object (fields : List (String × Json))
deriving Inhabited

namespace Json

------------------------------------------------------------
-- Equality
------------------------------------------------------------

mutual

/- Equal values; the two floating-point zeros are equal. -/
def same : Json → Json → Bool
  | null, null => true
  | bool a, bool b => a == b
  | number a, number b => a.same b
  | string a, string b => a == b
  | array as, array bs => sameItems as bs
  | object as, object bs => sameFields as bs
  | _, _ => false

/- The items are the same, one for one. -/
def sameItems : List Json → List Json → Bool
  | [], [] => true
  | a :: as, b :: bs => same a b && sameItems as bs
  | _, _ => false

/- The fields have the same names and values, one for one. -/
def sameFields :
    List (String × Json) → List (String × Json) → Bool
  | [], [] => true
  | (k, a) :: as, (l, b) :: bs =>
      k == l && same a b && sameFields as bs
  | _, _ => false

end

------------------------------------------------------------
-- Objects
------------------------------------------------------------

/- An object from fields in any order; the last one wins. -/
def ofFields (fields : List (String × Json)) : Json :=
  object
    (fields.foldl (fun fs f => Entries.insert f.1 f.2 fs) [])

/- A table of texts as an object. -/
def ofTexts (t : Table String) : Json :=
  object (t.entries.map (fun e => (e.1, string e.2)))

/- A natural number as a value. -/
def nat (n : Nat) : Json :=
  number (.int n)

/- The value of a field; none for other values. -/
def field? (key : String) : Json → Option Json
  | object fields => fields.lookup key
  | _ => none

/- The text of a value that is one. -/
def text? : Json → Option String
  | string s => some s
  | _ => none

/-
  Set a field, keeping the others; a value that is not an
  object is replaced by one.
-/
def set (j : Json) (key : String) (value : Json) : Json :=
  match j with
  | object fields => object (Entries.insert key value fields)
  | _ => object [(key, value)]

end Json

end Preview
