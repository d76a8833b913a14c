import Preview.Reader
import Preview.Yaml.Node

/-
  The values of YAML scalars, and how records are read from
  YAML nodes.

  A plain scalar is null, a truth value, an integer in one of
  four bases, a floating-point number or else a text; a tag
  may insist on one of these.

  Key definitions include:
    * `Yaml.Atom`
    * `Yaml.Atom.ofPlain`
    * `Yaml.Atom.ofScalar?`
    * `Yaml.Node.reader`
-/

namespace Preview

namespace Yaml

------------------------------------------------------------
-- Atoms
------------------------------------------------------------

/-
  The value of a scalar.  A floating-point number may be
  infinite or none at all; a wide integer has more than 64
  bits.
-/
inductive Atom where
  | null
  | bool (value : Bool)
  | int (value : Int)
  | wide
  | float (value : Option Binary64)
  | text (value : String)

namespace Atom

/- The spellings of no value. -/
def isNullWord (s : String) : Bool :=
  s == "null" || s == "Null" || s == "NULL" || s == "~"

/- The spellings of the two truth values. -/
def bool? (s : String) : Option Bool :=
  if s == "true" || s == "True" || s == "TRUE" then some true
  else if s == "false" || s == "False" || s == "FALSE" then
    some false
  else none

/- Digits of a base given by a two-letter mark. -/
def based? : List Char → Option Nat
  | '0' :: 'x' :: ds => Digits.toNatIn? 16 ds
  | '0' :: 'o' :: ds => Digits.toNatIn? 8 ds
  | '0' :: 'b' :: ds => Digits.toNatIn? 2 ds
  | _ => none

/- Several digits of which the first is zero are a text. -/
def hasLeadingZero (cs : List Char) : Bool :=
  let ds :=
    match cs with
    | '-' :: r => r
    | '+' :: r => r
    | r => r
  match ds with
  | '0' :: r => !r.isEmpty && r.all Digits.isDigit
  | _ => false

/- A number in digits that does not start with a needless
   zero. -/
def decimal? (cs : List Char) : Option Nat :=
  if hasLeadingZero cs then none else Digits.toNatIn? 10 cs

/- The integer that a plain scalar writes. -/
def integer? (cs : List Char) : Option Int :=
  match cs with
  | '-' :: r =>
      (((based? r).or (decimal? r)).filter
        (· ≤ Nat.pow 2 127)).map (fun n => -(n : Int))
  | '+' :: r =>
      (((based? r).or (decimal? r)).filter
        (· < Nat.pow 2 128)).map (fun n => (n : Int))
  | r =>
      (((based? r).or (decimal? r)).filter
        (· < Nat.pow 2 128)).map (fun n => (n : Int))

/- The digits after an exponent mark. -/
def exponent? : List Char → Option Int
  | '+' :: r => (Digits.toNatIn? 10 r).map (fun n => (n : Int))
  | '-' :: r => (Digits.toNatIn? 10 r).map (fun n => -(n : Int))
  | r => (Digits.toNatIn? 10 r).map (fun n => (n : Int))

/- A decimal with an optional point and exponent. -/
def decimalFloat?
    (negative : Bool)
    (cs : List Char) :
    Option Binary64 := do
  let whole := cs.takeWhile Digits.isDigit
  let cs := cs.dropWhile Digits.isDigit
  let (fraction, cs) :=
    match cs with
    | '.' :: r =>
        (r.takeWhile Digits.isDigit, r.dropWhile Digits.isDigit)
    | r => ([], r)
  if whole.isEmpty && fraction.isEmpty then none
  let exponent ←
    match cs with
    | [] => some 0
    | 'e' :: r => exponent? r
    | 'E' :: r => exponent? r
    | _ => none
  Binary64.ofDecimal negative
    (Digits.toNat (whole ++ fraction))
    (exponent - fraction.length)

/- The floating-point number that a plain scalar writes;
   infinities and the undefined one have no finite value. -/
def float? (s : String) : Option (Option Binary64) :=
  let special :=
    [".inf", ".Inf", ".INF", "+.inf", "+.Inf", "+.INF",
      "-.inf", "-.Inf", "-.INF", ".nan", ".NaN", ".NAN"]
  if special.contains s then some none
  else
    match s.toList with
    | '-' :: r => (decimalFloat? true r).map some
    | '+' :: r => (decimalFloat? false r).map some
    | r => (decimalFloat? false r).map some

/- An integer that fits 64 bits with or without a sign, or one
   that is too wide. -/
def ofInteger (i : Int) : Atom :=
  let low : Int := Nat.pow 2 63
  let high : Int := Nat.pow 2 64
  if -low ≤ i ∧ i < high then int i else wide

/- The value of a plain scalar without a tag. -/
def ofPlain (s : String) : Atom :=
  if s.isEmpty || isNullWord s then null
  else
    match bool? s with
    | some b => bool b
    | none =>
        match integer? s.toList with
        | some i => ofInteger i
        | none =>
            if hasLeadingZero s.toList then text s
            else
              match float? s with
              | some x => float x
              | none => text s

/- The tag of a type of the core schema. -/
def tagOf (name : String) : String :=
  "tag:yaml.org,2002:" ++ name

/- Whether a tag is private to the document. -/
def isLocal (tag : String) : Bool :=
  tag.toList.head? = some '!'

/- The value of a scalar; none if its tag does not admit it. -/
def ofScalar?
    (tag : Option String)
    (s : String)
    (plain : Bool) :
    Option Atom :=
  match tag with
  | none => some (if plain then ofPlain s else text s)
  | some t =>
      if isLocal t then none
      else if t = tagOf "bool" then (bool? s).map bool
      else if t = tagOf "int" then
        (integer? s.toList).map ofInteger
      else if t = tagOf "float" then (float? s).map float
      else if t = tagOf "null" then
        if isNullWord s then some null else none
      else some (text s)

/- An atom as a JSON value; wide integers have none. -/
def json? : Atom → Option Json
  | null => some .null
  | bool b => some (.bool b)
  | int i => some (.number (.int i))
  | wide => none
  | float none => some .null
  | float (some x) => some (.number (.float x))
  | text s => some (.string s)

end Atom

------------------------------------------------------------
-- Free-Form Values
------------------------------------------------------------

namespace Node

/- Whether a node has a tag of the application's own. -/
def hasLocalTag (tag : Option String) : Bool :=
  tag.any Atom.isLocal

/- The text of a scalar, whatever its value. -/
def text? : Node → Option String
  | scalar _ text _ => some text
  | _ => none

/- The text of a scalar whose value is a text. -/
def textValue? : Node → Option String
  | scalar tag text plain =>
      match Atom.ofScalar? tag text plain with
      | some (.text s) => some s
      | _ => none
  | _ => none

mutual

/- A node as a free-form value; `key?` takes keys. -/
def value? (key? : Node → Option String) :
    Node → Option Json
  | scalar tag text plain => do
      (← Atom.ofScalar? tag text plain).json?
  | sequence tag items =>
      if hasLocalTag tag then none
      else (itemValues? key? items).map .array
  | mapping tag entries =>
      if hasLocalTag tag then none
      else (entryValues? key? entries).map Json.ofFields
  | aliased _ => none

/- The values of the items of a sequence. -/
def itemValues? (key? : Node → Option String) :
    List Node → Option (List Json)
  | [] => some []
  | n :: ns => do
      let j ← value? key? n
      let js ← itemValues? key? ns
      some (j :: js)

/- The values of the entries of a mapping, under their keys. -/
def entryValues? (key? : Node → Option String) :
    List (Node × Node) → Option (List (String × Json))
  | [] => some []
  | (k, v) :: es => do
      let k ← key? k
      let j ← value? key? v
      let js ← entryValues? key? es
      some ((k, j) :: js)

end

------------------------------------------------------------
-- Records
------------------------------------------------------------

/- An empty plain scalar also stands for an empty collection. -/
def isEmptyPlain : Node → Bool
  | scalar _ text plain => plain && text.isEmpty
  | _ => false

/- Whether a value is there; none for a null tag on another
   value. -/
def optional? : Node → Option (Option Node)
  | scalar tag text plain =>
      let node := scalar tag text plain
      if !plain then some (some node)
      else
        match tag with
        | some t =>
            if t = Atom.tagOf "null" then
              if Atom.isNullWord text then some none else none
            else some (some node)
        | none =>
            if text.isEmpty || Atom.isNullWord text then
              some none
            else some (some node)
  | aliased _ => none
  | node => some (some node)

/- The items of a sequence; a node left empty has none. -/
def items? (n : Node) : Option (List Node) :=
  match n with
  | sequence _ items => some items
  | _ => if n.isEmptyPlain then some [] else none

/- The entries of a mapping by the texts of their keys; a node
   left empty has none. -/
def fields? (n : Node) : Option (List (String × Node)) :=
  match n with
  | mapping _ entries =>
      entries.mapM (fun e => (text? e.1).map (·, e.2))
  | _ => if n.isEmptyPlain then some [] else none

/-
  How records are read from YAML nodes.  A key of a free-form
  value must be a text, except in the values that may be
  absent, where any scalar is one.
-/
def reader : Reader Node where
  text? := text?
  flag? n :=
    match n with
    | scalar tag text plain =>
        match Atom.ofScalar? tag text plain with
        | some (.bool b) => some b
        | _ => none
    | _ => none
  choice? := text?
  optional? := optional?
  items? := items?
  fields? := fields?
  shape? n :=
    match n with
    | sequence _ items => some (.listed items)
    | _ => n.fields?.map .named
  payload? := value? textValue?
  report? n := do
    match ← optional? n with
    | none => some none
    | some n => (value? text? n).map some

end Node

end Yaml

end Preview
