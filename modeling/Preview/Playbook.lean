import Preview.Reader
import Preview.Path
import Preview.Text.Quoted
import Preview.Yaml.Value

/-
  Playbooks and the catalog that holds them.

  A playbook lists tasks over named manifests.  A task with a
  pod manifest runs that one to completion; any other task
  reconciles its manifests in order.  A catalog admits the
  playbooks whose manifests it knows.

  Key definitions include:
    * `Task`
    * `Task.podManifest?`
    * `Task.references`
    * `Playbook`
    * `Playbook.validate`
    * `Playbook.read?`
    * `Catalog`
    * `Catalog.insert`
-/

namespace Preview

------------------------------------------------------------
-- Tasks
------------------------------------------------------------

/- One stage of a playbook. -/
structure Task where
  name : String
  manifests : List String
  pod : Option String
deriving DecidableEq, Repr, Inhabited

namespace Task

/- The pod manifest; an empty name is none. -/
def podManifest? (t : Task) : Option String :=
  t.pod.filter (fun name => !name.isEmpty)

/- The manifests that the task uses, in order. -/
def references (t : Task) : List String :=
  match t.podManifest? with
  | some pod => [pod]
  | none => t.manifests

/- A pod manifest is one step, whatever else is listed. -/
def stepCount (t : Task) : Nat :=
  if t.podManifest?.isSome then 1 else t.manifests.length

end Task

------------------------------------------------------------
-- Playbooks
------------------------------------------------------------

/- A playbook has variables that its instances may set, the
   tasks that a deployment consists of, and perhaps a message
   for a success. -/
structure Playbook where
  id : String
  name : String
  vars : List String
  tasks : List Task
  message : Option String
deriving DecidableEq, Repr, Inhabited

/- What is wrong with a playbook or a request. -/
inductive Invalid where
  | badSegment (what value : String)
  | noName (playbook : String)
  | noTasks (playbook : String)
  | noManifests (task playbook : String)
  | unknownReference (task playbook manifest : String)
  | unknownManifest (manifest : String)
  | taken (label : String)
  | undeclared (playbook key : String)
  | unreadablePlaybook
deriving DecidableEq, Repr

/- The text of an error names what is to be corrected. -/
def Invalid.message : Invalid → String
  | badSegment what value =>
      what ++ " " ++ Quoted.text value ++
        " must be non-empty and contain no '/'"
  | noName p => "playbook " ++ p ++ " has no name"
  | noTasks p => "playbook " ++ p ++ " has no tasks"
  | noManifests t p =>
      "task " ++ t ++ " of playbook " ++ p ++
        " references no manifests"
  | unknownReference t p m =>
      "task " ++ t ++ " of playbook " ++ p ++
        " references unknown manifest " ++ m
  | unknownManifest m => "unknown manifest " ++ m
  | taken label => "instance " ++ label ++ " already exists"
  | undeclared p key =>
      "playbook " ++ p ++ " does not accept variable " ++ key
  | unreadablePlaybook =>
      "invalid playbook: not a playbook definition"

namespace Playbook

/- Whether a variable may be set. -/
def declares (p : Playbook) (key : String) : Bool :=
  p.vars.contains key

/- The number of steps that the tasks have together. -/
def stepCount (p : Playbook) : Nat :=
  p.tasks.foldr (fun t n => t.stepCount + n) 0

/- A task uses manifests, and all of them are known. -/
def validateTask
    (p : Playbook)
    (manifests : Table String)
    (t : Task) :
    Except Invalid Unit :=
  if t.references.isEmpty then
    .error (.noManifests t.name p.id)
  else
    match t.references.find?
      (fun m => !manifests.contains m) with
    | some m => .error (.unknownReference t.name p.id m)
    | none => .ok ()

/- Whether a playbook can be used with some manifests. -/
def validate
    (p : Playbook)
    (manifests : Table String) :
    Except Invalid Unit :=
  if !Path.isSegment p.id then
    .error (.badSegment "playbook id" p.id)
  else if p.name.isEmpty then .error (.noName p.id)
  else if p.tasks.isEmpty then .error (.noTasks p.id)
  else p.tasks.forM (p.validateTask manifests)

------------------------------------------------------------
-- Reading
------------------------------------------------------------

variable {ν : Type}

/- Read a task; only its name is required. -/
def readTask? (r : Reader ν) (node : ν) : Option Task := do
  let fields ←
    r.record? ["name", "manifests", "pod_manifest"] node
  let name ← Reader.required? fields "name" r.text?
  let manifests ←
    Reader.defaulted? fields "manifests" [] r.textList?
  let pod ←
    Reader.defaulted? fields "pod_manifest" none
      r.optionalText?
  return ⟨name, manifests, pod⟩

/- Read a playbook from any format. -/
def read? (r : Reader ν) (node : ν) : Option Playbook := do
  let fields ←
    r.record? ["id", "name", "vars", "tasks", "message"] node
  let id ← Reader.required? fields "id" r.text?
  let name ← Reader.required? fields "name" r.text?
  let vars ←
    Reader.defaulted? fields "vars" [] r.textList?
  let tasks ←
    Reader.required? fields "tasks" fun node => do
      (← r.items? node).mapM (readTask? r)
  let message ←
    Reader.defaulted? fields "message" none r.optionalText?
  return ⟨id, name, vars, tasks, message⟩

/- Read a playbook from YAML text. -/
def ofYaml (text : String) : Except Invalid Playbook :=
  match (Yaml.Node.ofText? text).bind
    (read? Yaml.Node.reader) with
  | some p => .ok p
  | none => .error .unreadablePlaybook

end Playbook

------------------------------------------------------------
-- Catalogs
------------------------------------------------------------

/- Playbooks by their ids, and the manifest templates that
   they use. -/
structure Catalog where
  playbooks : Table Playbook
  manifests : Table String
deriving Inhabited

namespace Catalog

/- A catalog of manifests, without playbooks. -/
def empty (manifests : Table String) : Catalog :=
  ⟨Table.empty, manifests⟩

/- Register a playbook in place of one with the same id. -/
def insert (c : Catalog) (p : Playbook) :
    Except Invalid Catalog := do
  p.validate c.manifests
  return { c with playbooks := c.playbooks.insert p.id p }

/- The playbook that is registered under an id. -/
def get? (c : Catalog) (id : String) : Option Playbook :=
  c.playbooks.get? id

end Catalog

end Preview
