import Preview.Config.Setting

/-
  The tables of a TOML document while it is read.

  A table is defined once: by a header, by the dotted keys of
  the table around it, or as an inline value.  A header also
  implies the tables on its path, and an implied table may
  still get a header of its own.  An array of tables can only
  grow at its end.

  Key definitions include:
    * `Toml.Making`
    * `Toml.Tree`
    * `Toml.define?`
    * `Toml.openTable?`
    * `Toml.openItem?`
    * `Toml.within?`
    * `Toml.group`
-/

namespace Preview

namespace Toml

------------------------------------------------------------
-- Trees
------------------------------------------------------------

/- How a table came to be. -/
inductive Making where
  | header
  | implied
  | dotted
deriving DecidableEq

/- A finished value, a table, or an array of tables of which
   the last one is still open. -/
inductive Tree where
  | value (s : Setting)
  | table (how : Making) (fields : List (String × Tree))
  | tables
      (closed : List Setting)
      (last : List (String × Tree))

/- The fields of a table in the order of their definition. -/
abbrev Fields :=
  List (String × Tree)

mutual

/- The setting that a tree has come to. -/
def Tree.setting : Tree → Setting
  | .value s => s
  | .table _ fs => .group (fieldSettings fs)
  | .tables closed last =>
      .list (closed ++ [.group (fieldSettings last)])

/- The fields of a tree in key order. -/
def fieldSettings :
    List (String × Tree) → List (String × Setting)
  | [] => []
  | (k, t) :: fs =>
      Entries.insert k t.setting (fieldSettings fs)

end

/- The settings of a table. -/
def group (fs : Fields) : Setting :=
  .group (fieldSettings fs)

------------------------------------------------------------
-- Changes
------------------------------------------------------------

/- Put a tree in place of the one with a key, or at the end. -/
def put (k : String) (t : Tree) : Fields → Fields
  | [] => [(k, t)]
  | (l, u) :: fs =>
      if k = l then (k, t) :: fs else (l, u) :: put k t fs

/-
  Define a key in a table, or in the tables that the dots of
  its path lead to.  A table with a header cannot be extended
  by dots, and an implied one only on the way to another one.
-/
def define? (key : String) (s : Setting) :
    List String → Fields → Option Fields
  | [], fs =>
      if (fs.lookup key).isSome then none
      else some (put key (.value s) fs)
  | k :: path, fs =>
      match fs.lookup k with
      | none =>
          (define? key s path []).map fun sub =>
            put k (.table .dotted sub) fs
      | some (.table how sub) =>
          if how = .header || (how = .implied && path.isEmpty)
          then none
          else
            (define? key s path sub).map fun sub =>
              put k (.table how sub) fs
      | some (.tables closed last) =>
          if path.isEmpty then none
          else
            (define? key s path last).map fun last =>
              put k (.tables closed last) fs
      | some (.value _) => none

/- Change the table that a path of headers leads to. -/
def within? (f : Fields → Option Fields) :
    List String → Fields → Option Fields
  | [], fs => f fs
  | k :: path, fs =>
      match fs.lookup k with
      | none =>
          (within? f path []).map fun sub =>
            put k (.table .implied sub) fs
      | some (.table how sub) =>
          (within? f path sub).map fun sub =>
            put k (.table how sub) fs
      | some (.tables closed last) =>
          (within? f path last).map fun last =>
            put k (.tables closed last) fs
      | some (.value _) => none

/- Begin the table of a header. -/
def openTable? (k : String) (fs : Fields) : Option Fields :=
  match fs.lookup k with
  | none => some (put k (.table .header []) fs)
  | some (.table .implied sub) =>
      some (put k (.table .header sub) fs)
  | _ => none

/- Begin the next table of an array. -/
def openItem? (k : String) (fs : Fields) : Option Fields :=
  match fs.lookup k with
  | none => some (put k (.tables [] []) fs)
  | some (.tables closed last) =>
      some (put k (.tables (closed ++ [group last]) []) fs)
  | _ => none

end Toml

end Preview
