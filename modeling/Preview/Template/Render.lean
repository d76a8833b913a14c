import Preview.Table
import Preview.Template.Helper
import Preview.Template.Node

/-
  Rendering a template with variables.

  References are strict: one that stands for nothing is an
  error wherever its value is needed.  Printed values are
  neither escaped nor rendered again.  A part sees the value
  that it is included with and nothing of the blocks around
  its inclusion.

  Key definitions include:
    * `Template.Scope`
    * `Template.Scope.find`
    * `Template.Parts`
    * `Template.Inclusion.render`
    * `Template.Node.render`
    * `Template.render`
-/

namespace Preview

namespace Template

------------------------------------------------------------
-- Scopes
------------------------------------------------------------

/- The current value: a place below the root, or a value of
   its own. -/
inductive Base where
  | place (fields : List String)
  | value (value : Json)

/-
  What a block brings into scope: its current value, the
  variables of its loop, and its names.  A name without a
  value stands for the current value.
-/
structure Scope where
  base : Base
  loop : List (String × Json)
  names : List (String × Option Json)

namespace Scope

/- The scope of the whole data, without names. -/
def root : Scope :=
  ⟨.place [], [], []⟩

/- A scope whose current value is a found one. -/
def ofFound (f : Found) : Scope :=
  match f.place? with
  | some place => ⟨.place place, [], []⟩
  | none => ⟨.value f.value, [], []⟩

/- The index that a text is. -/
def index? (key : String) : Option Nat :=
  let digits := (after? ['+'] key.toList).getD key.toList
  if !digits.isEmpty && digits.all Digits.isDigit then
    some (Digits.toNat digits)
  else none

/- The field of a value, if the value has it. -/
def fieldOf (value : Option Json) (key : String) :
    Except Error (Option Json) :=
  match value with
  | some (.array items) =>
      match index? key with
      | some i => .ok items[i]?
      | none => .error (.badIndex key)
  | some (.object fields) => .ok (fields.lookup key)
  | _ => .ok none

/- Walk along fields. -/
def walk (value : Json) (fields : List String) :
    Except Error (Option Json) :=
  fields.foldlM fieldOf (some value)

/- The fields among the steps of a reference. -/
def fieldNames (steps : List Step) : List String :=
  steps.filterMap fun
    | .field name => some name
    | _ => none

/- The fields of a reference, from a current value. -/
def findFrom (data : Json) (base : Base) (fields : List String) :
    Except Error Found :=
  match base with
  | .place place => do
      let full := place ++ fields
      .ok
        (match ← walk data full with
        | some value => ⟨some value, some full⟩
        | none => ⟨none, none⟩)
  | .value value => do
      .ok ⟨← walk value fields, none⟩

/- A name of some enclosing block, nearest first. -/
def named? (scopes : List Scope) (name : String) :
    Option Base :=
  scopes.findSome? fun s =>
    (s.names.lookup name).map fun
      | some value => .value value
      | none => s.base

/- The steps out of blocks that start a reference. -/
def depth : List Step → Nat
  | .up :: steps => depth steps + 1
  | _ => 0

/- The loop variable that a reference names, and how far out
   its block is. -/
def loopVariable? : List Step → Option (Nat × String)
  | .loopVariable :: steps =>
      match steps.drop (depth steps) with
      | .field name :: _ => some (depth steps, name)
      | _ => none
  | _ => none

/- What a reference stands for. -/
def find (data : Json) (scopes : List Scope) (r : Reference) :
    Except Error Found :=
  match loopVariable? r.steps with
  | some (level, name) =>
      .ok ⟨scopes[level]?.bind (·.loop.lookup name), none⟩
  | none =>
      let outward := depth r.steps
      let inner := (scopes.head?.getD root).base
      match r.steps.drop outward with
      | .field name :: _ =>
          match named? scopes name with
          | some base =>
              findFrom data base (fieldNames (r.steps.drop 1))
          | none =>
              let base :=
                if outward = 0 then inner
                else (scopes[outward]?.map (·.base)).getD inner
              findFrom data base (fieldNames r.steps)
      | .root :: _ =>
          let base :=
            if outward = 0 then .place []
            else (scopes[outward]?.map (·.base)).getD inner
          findFrom data base (fieldNames r.steps)
      | _ =>
          let base :=
            if outward = 0 then inner
            else (scopes[outward]?.map (·.base)).getD inner
          findFrom data base (fieldNames r.steps)

end Scope

------------------------------------------------------------
-- Terms
------------------------------------------------------------

/- The levels that a message can be logged at. -/
def logLevels : List String :=
  ["off", "error", "warn", "info", "debug", "trace"]

/- The level of a log call has to be known. -/
def checkLevel (g : Given) : Except Error Unit :=
  match g.option? "level" with
  | some (.string level) =>
      if logLevels.contains level.toLower then .ok ()
      else .error (.badLevel level)
  | _ => .ok ()

/- The value of a call outside a block. -/
def Helper.apply (h : Helper) (g : Given) :
    Except Error Json :=
  match h with
  | .operation op => op.apply g
  | .choose positive => do
      let _ ← g.found (if positive then "if" else "unless") 0
      .ok (.string "")
  | .each => do
      let _ ← g.found "each" 0
      .ok (.string "")
  | .within => do
      let f ← g.found "with" 0
      if isTrue false f.value then .ok (.string "")
      else .error (.missing "")
  | .body => .ok (.string "")
  | .log => do
      checkLevel g
      .ok (.string "")

/- The value of a helper by its name. -/
def applyNamed (name : String) (g : Given) :
    Except Error Json :=
  match Helper.ofName? name with
  | some h => h.apply g
  | none => .error (.unknownHelper name)

section Evaluation

variable (data : Json) (scopes : List Scope)

mutual

/- The value of a term, and its place in the data if it has
   one. -/
def Term.find : Term → Except Error Found
  | .literal value => .ok (.computed value)
  | .reference ref => Scope.find data scopes ref
  | .call helper args named => do
      let positional ← findAll args
      let named ← findNamed named
      .ok (.computed
        (← applyNamed helper ⟨positional, named⟩))

/- The values of terms, in their order. -/
def findAll : List Term → Except Error (List Found)
  | [] => .ok []
  | t :: ts => do
      let f ← t.find
      .ok (f :: (← findAll ts))

/- The values of named terms, under their names. -/
def findNamed :
    List (String × Term) →
      Except Error (List (String × Found))
  | [] => .ok []
  | (name, t) :: ts => do
      let f ← t.find
      .ok ((name, f) :: (← findNamed ts))

end

/- The evaluated arguments of a block. -/
def Arguments.find (args : Arguments) : Except Error Given := do
  let positional ← findAll data scopes args.positional
  let named ← findNamed data scopes args.named
  .ok ⟨positional, named⟩

/- The text that a value without a helper prints as. -/
def Term.print (t : Term) : Except Error (List Char) := do
  match t with
  | .reference ref =>
      match Helper.ofName? ref.text with
      | some h => .ok (shown (← h.apply ⟨[], []⟩))
      | none =>
          match (← Scope.find data scopes ref).value? with
          | some value => .ok (shown value)
          | none => .error (.missing ref.text)
  | t => .ok (shown (← t.find data scopes).value)

/- A computed text that names a helper calls it. -/
def Term.printComputed (t : Term) :
    Except Error (List Char) := do
  let text := shown (← t.find data scopes).value
  match Helper.ofName? (String.ofList text) with
  | some h => .ok (shown (← h.apply ⟨[], []⟩))
  | none => .ok text

end Evaluation

------------------------------------------------------------
-- Loops
------------------------------------------------------------

/- The names that a loop gives to an item and its key. -/
def itemNames
    (names : List String)
    (item : Option Json)
    (key : Json) :
    List (String × Option Json) :=
  match names with
  | [] => []
  | [name] => [(name, item)]
  | name :: second :: _ => [(second, some key), (name, item)]

/- The scope of each round over some items.  An item has a
   key, and a place when what holds it has one. -/
def rounds
    (names : List String)
    (place? : Option (List String))
    (keyed : Bool)
    (items : List (String × Json)) : List Scope :=
  items.zipIdx.map fun ((key, item), i) =>
    let first := ("first", Json.bool (i = 0))
    let last := ("last", Json.bool (i + 1 = items.length))
    let index := ("index", Json.nat i)
    let keyValue := if keyed then .string key else .nat i
    let loop :=
      if keyed then
        [first, last, index, ("key", Json.string key)]
      else [first, last, index]
    match place? with
    | some place =>
        ⟨.place (place ++ [key]), loop,
          itemNames names none keyValue⟩
    | none =>
        ⟨.value item, loop,
          itemNames names (some item) keyValue⟩

/- The rounds of a loop over a value; none for a value that
   is no collection. -/
def loopRounds? (names : List String) (f : Found) :
    Option (List Scope) :=
  match f.value with
  | .array items =>
      some (rounds names f.place? false
        (items.zipIdx.map fun (item, i) => (Digits.text i, item)))
  | .object fields => some (rounds names f.place? true fields)
  | _ => none

/- The scope of a block about one value. -/
def withinScope (names : List String) (f : Found) : Scope :=
  let scope := Scope.ofFound f
  match names with
  | [name] =>
      let value := if f.place?.isSome then none else some f.value
      { scope with names := [(name, value)] }
  | _ => scope

------------------------------------------------------------
-- Parts
------------------------------------------------------------

/-
  The parts of a template that can be included.
    * `defined` are those with names, latest first
    * `bodies` are the blocks of the inclusions around,
      nearest first, of which `used` have been included
-/
structure Parts where
  defined : List (String × List Node)
  bodies : List (List Node)
  used : Nat

namespace Parts

/- No parts are defined or included. -/
def empty : Parts :=
  ⟨[], [], 0⟩

/- The name of the block of the nearest inclusion. -/
def blockName : String :=
  "@partial-block"

/- The nodes of the part with a name. -/
def find? (p : Parts) (name : String) : Option (List Node) :=
  if name = blockName then p.bodies[p.used]?
  else p.defined.lookup name

/- Give a name to a part, in place of an earlier one. -/
def define (p : Parts) (name : String) (nodes : List Node) :
    Parts :=
  { p with defined := (name, nodes) :: p.defined }

/- The parts inside an inclusion that may have a block. -/
def enter (p : Parts) (name : String)
    (body : Option (List Node)) : Parts :=
  { p with
    bodies := body.toList ++ p.bodies
    used := if name = blockName then p.used + 1 else p.used - 1 }

/- The parts after an inclusion, from those in it. -/
def leave (p inside : Parts) : Parts :=
  { p with defined := inside.defined }

end Parts

/- What is rendered may define parts. -/
abbrev Rendering (α : Type) : Type :=
  StateT Parts (Except Error) α

/- Indent the lines after the first that are not empty. -/
def indentLines (indent : List Char) : List Char → List Char
  | [] => []
  | '\n' :: c :: cs =>
      if isNewline c then '\n' :: indentLines indent (c :: cs)
      else '\n' :: indent ++ indentLines indent (c :: cs)
  | c :: cs => c :: indentLines indent cs

section Inclusion

variable (data : Json) (scopes : List Scope)

/- The name that an inclusion means. -/
def PartName.find : PartName → Except Error String
  | .written name => .ok name
  | .computed term => do
      .ok (String.ofList (shown (← term.find data scopes).value))

/- Define a part by a definition. -/
def define (opening : Opening) (body : Option (List Node)) :
    Rendering Unit := do
  let given ← opening.arguments.find data scopes
  if opening.helper ≠ "inline" then
    throw (.unknownDefinition opening.helper)
  match given.positional.head?.map Found.value, body with
  | some (.string name), some nodes =>
      modify (·.define name nodes)
  | some (.string _), none => throw .emptyPart
  | _, _ => throw .unnamedPart

/- Define the parts of all definitions among some nodes. -/
def defineAll : List Node → Rendering Unit
  | [] => pure ()
  | .definition opening body :: nodes => do
      define data scopes opening body
      defineAll nodes
  | _ :: nodes => defineAll nodes

/-
  The current value inside an inclusion: its argument, if it
  has one, with the named arguments as further fields.
-/
def includedValue (given : Given) : Except Error Json := do
  let base ←
    match given.positional.head? with
    | some f => .ok f
    | none =>
        Scope.findFrom data (scopes.head?.getD .root).base []
  let named := given.named.map fun (name, f) => (name, f.value)
  if named.isEmpty then .ok base.value
  else
    let fields :=
      match base.value with
      | .object fields => fields
      | _ => []
    .ok (.ofFields (fields ++ named))

/- The text of an inclusion; `inner` renders its part. -/
def Inclusion.render
    (inner : List Scope → List Node → Rendering (List Char))
    (i : Inclusion)
    (body : Option (List Node)) : Rendering (List Char) := do
  let name ← i.name.find data scopes
  let given ← i.arguments.find data scopes
  defineAll data scopes (body.getD [])
  let parts ← get
  match (parts.find? name).or body with
  | none => throw (.unknownPart name)
  | some nodes =>
      let value ← includedValue data scopes given
      set (parts.enter name body)
      let text ← inner [⟨.value value, [], []⟩] nodes
      modify parts.leave
      pure (indentLines i.indent text)

end Inclusion

------------------------------------------------------------
-- Nodes
------------------------------------------------------------

section Rendering

variable
  (inner : List Scope → List Node → Rendering (List Char))
  (data : Json)

mutual

/- The text of a node; `inner` renders included parts. -/
def Node.render (scopes : List Scope) :
    Node → Rendering (List Char)
  | .text cs => pure cs
  | .value term => term.print data scopes
  | .computed term => term.printComputed data scopes
  | .definition opening body => do
      define data scopes opening body
      pure []
  | .inclusion i body => i.render data scopes inner body
  | .block opening body otherwise => do
      let given ← opening.arguments.find data scopes
      match Helper.ofName? opening.helper with
      | none => throw (.unknownHelper opening.helper)
      | some (.operation op) => return shown (← op.apply given)
      | some (.choose positive) =>
          let f ← given.found opening.helper 0
          let zeroIsTrue :=
            match given.option? "includeZero" with
            | some (.bool b) => b
            | _ => false
          if isTrue zeroIsTrue f.value = positive then
            renderAll scopes body
          else
            match otherwise with
            | some nodes => renderAll scopes nodes
            | none => pure []
      | some .each =>
          let f ← given.found opening.helper 0
          match loopRounds? opening.names f, otherwise with
          | some [], some nodes => renderAll scopes nodes
          | some scopesOfRounds, _ => do
              let texts ← scopesOfRounds.mapM fun scope =>
                renderAll (scope :: scopes) body
              pure texts.flatten
          | none, some nodes => renderAll scopes nodes
          | none, none => throw (.missing "")
      | some .within =>
          let f ← given.found opening.helper 0
          if isTrue false f.value then
            renderAll
              (withinScope opening.names f :: scopes) body
          else
            match otherwise with
            | some nodes => renderAll scopes nodes
            | none => throw (.missing "")
      | some .body => renderAll scopes body
      | some .log => do
          checkLevel given
          pure []

/- Render nodes one after the other; a part that one of them
   defines is there for the next. -/
def renderAll (scopes : List Scope) :
    List Node → Rendering (List Char)
  | [] => pure []
  | n :: ns => do
      let text ← n.render scopes
      return text ++ (← renderAll scopes ns)

end

end Rendering

/- Render nodes whose inclusions nest at most so deep. -/
def renderWithin (data : Json) :
    Nat → List Scope → List Node → Rendering (List Char)
  | 0 => fun _ _ => throw .endlessInclusion
  | depth + 1 => renderAll (renderWithin data depth) data

/- The text of a template with some variables. -/
def render (source : String) (vars : Table String) :
    Except Error String := do
  let nodes ← Node.ofText source
  let text ←
    (renderWithin (.ofTexts vars) (source.length + 1)
      [.root] nodes).run' .empty
  .ok (String.ofList text)

end Template

end Preview
