import Preview.Json.Basic

/-
  Reading records from the nodes of a document format.

  A format says how its nodes are taken for texts, flags,
  lists and fields; records are then read from any format in
  the same way.  A known field may occur once, and fields may
  also be listed in order without their names.

  Key definitions include:
    * `Reader`
    * `Reader.record?`
    * `Reader.required?`
    * `Reader.defaulted?`
    * `Reader.texts?`
-/

namespace Preview

/- A record by the names of its fields, or by their order. -/
inductive Shape (ν : Type) where
  | named (fields : List (String × ν))
  | listed (items : List ν)

/-
  The views of a node; none where a node has not the form.
    * `optional?` tells an absent value from a present one
    * `payload?` takes a node for a free-form value
    * `report?` takes a node for a free-form value that may be
      absent
-/
structure Reader (ν : Type) where
  text? : ν → Option String
  flag? : ν → Option Bool
  choice? : ν → Option String
  optional? : ν → Option (Option ν)
  items? : ν → Option (List ν)
  fields? : ν → Option (List (String × ν))
  shape? : ν → Option (Shape ν)
  payload? : ν → Option Json
  report? : ν → Option (Option Json)

namespace Reader

variable {ν α : Type}

------------------------------------------------------------
-- Fields
------------------------------------------------------------

/- The fields with the given names, if none occurs twice. -/
def known?
    (names : List String)
    (fields : List (String × ν)) :
    Option (List (String × ν)) :=
  let fs := fields.filter (fun f => names.contains f.1)
  if (fs.map (·.1)).Nodup then some fs else none

/- The known fields of a record. -/
def record?
    (r : Reader ν)
    (names : List String)
    (node : ν) :
    Option (List (String × ν)) := do
  match ← r.shape? node with
  | .named fields => known? names fields
  | .listed items =>
      if items.length ≤ names.length then
        some (names.zip items)
      else none

/- A field that must be there. -/
def required?
    (fields : List (String × ν))
    (name : String)
    (read : ν → Option α) :
    Option α := do
  read (← fields.lookup name)

/- A field with a value for its absence. -/
def defaulted?
    (fields : List (String × ν))
    (name : String)
    (default : α)
    (read : ν → Option α) :
    Option α :=
  match fields.lookup name with
  | none => some default
  | some node => read node

------------------------------------------------------------
-- Values
------------------------------------------------------------

/- A text that may be absent. -/
def optionalText?
    (r : Reader ν)
    (node : ν) :
    Option (Option String) := do
  match ← r.optional? node with
  | none => some none
  | some node => (r.text? node).map some

/- A list of texts. -/
def textList?
    (r : Reader ν)
    (node : ν) :
    Option (List String) := do
  (← r.items? node).mapM r.text?

/- A table of texts; the last of equal keys wins. -/
def texts?
    (r : Reader ν)
    (node : ν) :
    Option (Table String) := do
  let fields ← r.fields? node
  let entries ← fields.mapM
    (fun f => (r.text? f.2).map (f.1, ·))
  return Table.ofList entries

/- A table of free-form values. -/
def payloads?
    (r : Reader ν)
    (fields : List (String × ν)) :
    Option (Table Json) := do
  let entries ← fields.mapM
    (fun f => (r.payload? f.2).map (f.1, ·))
  return Table.ofList entries

end Reader

end Preview
