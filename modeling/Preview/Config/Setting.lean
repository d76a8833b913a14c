import Preview.Table

/-
  Settings: the values that configuration is made of.

  Settings from several sources are laid over each other:
  groups are merged name by name, and of any other two
  settings the one on top counts.

  Key definitions include:
    * `Setting`
    * `Setting.under`
    * `Setting.atop`
-/

namespace Preview

/-
  A setting.
    * `whole` is an integer that was written with a sign or
      could have been, `count` one that could not
    * `fraction` is a number that is no integer; no setting
      takes one, so it has no value
    * `group` holds settings by name
-/
inductive Setting where
  | text (value : String)
  | flag (value : Bool)
  | whole (value : Int)
  | count (value : Nat)
  | fraction
  | list (items : List Setting)
  | group (fields : List (String × Setting))
deriving Inhabited

namespace Setting

/- No settings at all. -/
def none : Setting :=
  group []

/- A setting at the end of a path of names. -/
def under (s : Setting) : List String → Setting
  | [] => s
  | name :: path => group [(name, s.under path)]

mutual

/- Lay one setting over another one. -/
def atop : Setting → Setting → Setting
  | group fs, group base => group (fieldsAtop fs base)
  | top, _ => top

/- Lay every one of some fields over others. -/
def fieldsAtop :
    List (String × Setting) → List (String × Setting) →
      List (String × Setting)
  | [], base => base
  | (name, s) :: fs, base =>
      let merged :=
        match base.lookup name with
        | some b => s.atop b
        | Option.none => s
      fieldsAtop fs (Entries.insert name merged base)

end

end Setting

end Preview
