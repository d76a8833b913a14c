import Preview.Json.Raw
import Preview.Reader

/-
  How records are read from JSON, as a value and as a tree.

  Key definitions include:
    * `Json.reader`
    * `Json.Raw.reader`
-/

namespace Preview

namespace Json

------------------------------------------------------------
-- Values
------------------------------------------------------------

/- Whether a value is the absent one. -/
def isNull : Json → Bool
  | null => true
  | _ => false

/- How records are read from a JSON value. -/
def reader : Reader Json where
  text? := text?
  flag?
    | bool b => some b
    | _ => none
  choice?
    | string s => some s
    | object [(k, null)] => some k
    | _ => none
  optional? j := some (if j.isNull then none else some j)
  items?
    | array items => some items
    | _ => none
  fields?
    | object fields => some fields
    | _ => none
  shape?
    | object fields => some (.named fields)
    | array items => some (.listed items)
    | _ => none
  payload? j := some j
  report? j := some (if j.isNull then none else some j)

------------------------------------------------------------
-- Trees
------------------------------------------------------------

namespace Raw

/- Whether a written value is the absent one. -/
def isNull : Raw → Bool
  | null => true
  | _ => false

/- Fields whose keys all have a text. -/
def keyed? (fields : List (Option String × Raw)) :
    Option (List (String × Raw)) :=
  fields.mapM (fun f => f.1.map (·, f.2))

/- How records are read from the tree of a JSON text. -/
def reader : Reader Raw where
  text?
    | string s => s
    | _ => none
  flag?
    | bool b => some b
    | _ => none
  choice?
    | string s => s
    | object [(k, null)] => k
    | _ => none
  optional? r := some (if r.isNull then none else some r)
  items?
    | array items => some items
    | _ => none
  fields?
    | object fields => keyed? fields
    | _ => none
  shape?
    | object fields => (keyed? fields).map .named
    | array items => some (.listed items)
    | _ => none
  payload? r := r.value?
  report? r :=
    if r.isNull then some none else r.value?.map some

end Raw

end Json

end Preview
