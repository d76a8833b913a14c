import Preview.Template.Truth

/-
  The helpers that a template can call.

  A helper that computes a value is an operation; the others
  choose whether and how often the body of a block is
  rendered, and print nothing on their own.

  Key definitions include:
    * `Template.Operation`
    * `Template.Operation.apply`
    * `Template.Helper`
    * `Template.Found`
-/

namespace Preview

namespace Template

------------------------------------------------------------
-- Helpers
------------------------------------------------------------

/- The helpers that compute a value from their arguments. -/
inductive Operation where
  | equal
  | unequal
  | greater
  | greaterOrEqual
  | less
  | lessOrEqual
  | both
  | either
  | negation
  | size
  | field
deriving DecidableEq, Repr

/- The helpers: those that compute, those that choose among
   blocks or go through them, and those that show or log. -/
inductive Helper where
  | operation (op : Operation)
  | choose (positive : Bool)
  | each
  | within
  | body
  | log
deriving DecidableEq, Repr

/- The helpers by the names that templates use. -/
def Helper.named : List (String × Helper) :=
  [("eq", .operation .equal),
    ("ne", .operation .unequal),
    ("gt", .operation .greater),
    ("gte", .operation .greaterOrEqual),
    ("lt", .operation .less),
    ("lte", .operation .lessOrEqual),
    ("and", .operation .both),
    ("or", .operation .either),
    ("not", .operation .negation),
    ("len", .operation .size),
    ("lookup", .operation .field),
    ("if", .choose true),
    ("unless", .choose false),
    ("each", .each),
    ("with", .within),
    ("raw", .body),
    ("log", .log)]

/- The helper of a name, if there is one. -/
def Helper.ofName? (name : String) : Option Helper :=
  named.lookup name

------------------------------------------------------------
-- Found Values
------------------------------------------------------------

/-
  What a term stands for: a value, unless there is none, and
  where it is below the root, unless it was computed.
-/
structure Found where
  value? : Option Json
  place? : Option (List String)
deriving Inhabited

namespace Found

/- A value that has no place in the data. -/
def computed (value : Json) : Found :=
  ⟨some value, none⟩

/- A missing value counts as null. -/
def value (f : Found) : Json :=
  f.value?.getD .null

end Found

/- The evaluated arguments of a call. -/
structure Given where
  positional : List Found
  named : List (String × Found)

namespace Given

/- An argument, which may stand for nothing. -/
def found (g : Given) (helper : String) (index : Nat) :
    Except Error Found :=
  match g.positional[index]? with
  | some f => .ok f
  | none => .error (.noArgument helper index)

/- An argument that stands for a value. -/
def value (g : Given) (helper : String) (index : Nat) :
    Except Error Json := do
  match (← g.found helper index).value? with
  | some v => .ok v
  | none => .error (.noArgument helper index)

/- A named argument; the last of one name counts. -/
def option? (g : Given) (name : String) : Option Json :=
  (g.named.reverse.lookup name).map Found.value

end Given

------------------------------------------------------------
-- Operations
------------------------------------------------------------

namespace Operation

/- An operation by its name, as errors show it. -/
def name : Operation → String
  | equal => "eq"
  | unequal => "ne"
  | greater => "gt"
  | greaterOrEqual => "gte"
  | less => "lt"
  | lessOrEqual => "lte"
  | both => "and"
  | either => "or"
  | negation => "not"
  | size => "len"
  | field => "lookup"

/- The number of items, of fields, or of bytes of a text. -/
def sizeOf : Json → Nat
  | .array items => items.length
  | .object fields => fields.length
  | .string s => s.utf8ByteSize
  | _ => 0

/- A field of a value that has it; it must not be null. -/
def fieldOf? (value key : Json) : Option Json :=
  let found :=
    match value, key with
    | .array items, .number (.int i) =>
        if 0 ≤ i then items[i.toNat]? else none
    | .object fields, .string k => fields.lookup k
    | _, _ => none
  match found with
  | some .null => none
  | found => found

/- The value of an operation on two values. -/
def ofPair (op : Operation) (a b : Json) : Bool :=
  let order := compare? a b
  match op with
  | equal => a.same b
  | unequal => !a.same b
  | greater => order == some .gt
  | greaterOrEqual => order == some .gt || order == some .eq
  | less => order == some .lt
  | lessOrEqual => order == some .lt || order == some .eq
  | both => isTrue false a && isTrue false b
  | either => isTrue false a || isTrue false b
  | _ => false

/- What an operation computes; only a field that is absent and
   an argument that is not given are errors. -/
def apply (op : Operation) (g : Given) : Except Error Json :=
  match op with
  | field => do
      let value ← g.found op.name 0
      let key ← g.found op.name 1
      match fieldOf? value.value key.value with
      | some found => .ok found
      | none => .error (.missing "")
  | negation => do
      .ok (.bool (!isTrue false (← g.value op.name 0)))
  | size => do .ok (.nat (sizeOf (← g.value op.name 0)))
  | op => do
      let a ← g.value op.name 0
      let b ← g.value op.name 1
      .ok (.bool (op.ofPair a b))

end Operation

end Template

end Preview
