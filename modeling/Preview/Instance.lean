import Preview.Identity
import Preview.Status
import Preview.Json.Printer
import Preview.Json.Reader
import Preview.Time.Instant

/-
  Instances of playbooks, and the records that keep them.

  A record is a JSON object with the fields of an instance in
  a fixed order.  Variables, lock flag and status may be
  missing from a record that is read.

  Key definitions include:
    * `Instance`
    * `Instance.create?`
    * `Instance.isExpired`
    * `Instance.messageVars`
    * `Instance.encode`
    * `Instance.record`
    * `Instance.ofRecord?`
-/

namespace Preview

------------------------------------------------------------
-- Instances
------------------------------------------------------------

/- One execution of a playbook with variables of its own. -/
structure Instance where
  identity : Identity
  createdAt : Instant
  expiresAt : Instant
  vars : Table String
  locked : Bool
  status : Status
deriving DecidableEq, Inhabited

namespace Instance

/- Instances are labelled by their identity. -/
def label (i : Instance) : String :=
  i.identity.label

/-
  A new instance that expires some days from now; none when
  that is beyond the calendar.
-/
def create?
    (identity : Identity)
    (vars : Table String)
    (now : Instant)
    (days : Nat) :
    Option Instance :=
  (now.addDays? days).map fun expiresAt =>
    { identity
      createdAt := now
      expiresAt
      vars
      locked := false
      status := .new }

/- Whether the instance has expired at a time. -/
def isExpired (i : Instance) (asOf : Instant) : Bool :=
  i.expiresAt.le asOf

/- Lifting a lock requires that there is one. -/
def unlock? (i : Instance) : Option Instance :=
  if i.locked then some { i with locked := false } else none

/- Lock an instance, whether or not it is locked already. -/
def lock (i : Instance) : Instance :=
  { i with locked := true }

/- Set one variable; the others stay. -/
def setVar (i : Instance) (key value : String) : Instance :=
  { i with vars := i.vars.insert key value }

/- The variables of a message: those of the instance and what
   identifies it. -/
def messageVars (i : Instance) : Table String :=
  (((i.vars.insert "playbook_id" i.identity.playbook).insert
    "instance_id" i.identity.id).insert
    "id" i.identity.id).insert
    "instance_status" i.status.name

/- A new instance has the identity that was asked for. -/
theorem identity_of_create?
    {identity : Identity}
    {vars : Table String}
    {now : Instant}
    {days : Nat}
    {i : Instance}
    (hNew : create? identity vars now days = some i) :
    i.identity = identity := by
  rcases Option.map_eq_some_iff.1 hNew with ⟨_, _, rfl⟩
  rfl

/- Lifting a lock does not touch the identity. -/
theorem identity_of_unlock?
    {i j : Instance}
    (hFree : i.unlock? = some j) :
    j.identity = i.identity := by
  unfold unlock? at hFree
  split at hFree
  · cases hFree
    rfl
  · cases hFree

------------------------------------------------------------
-- Writing
------------------------------------------------------------

/- An instance as a JSON object in the order of the record. -/
def encode (i : Instance) : Json :=
  .object
    [("playbook_id", .string i.identity.playbook),
      ("id", .string i.identity.id),
      ("created_time", .string i.createdAt.text),
      ("expired_at", .string i.expiresAt.text),
      ("vars", .ofTexts i.vars),
      ("lock", .bool i.locked),
      ("status", .string i.status.name)]

/- The record of an instance. -/
def record (i : Instance) : String :=
  i.encode.text

------------------------------------------------------------
-- Reading
------------------------------------------------------------

/- The fields that every record has. -/
def recordFields : List String :=
  ["playbook_id", "id", "created_time", "expired_at",
    "vars", "lock", "status"]

variable {ν : Type}

/- An instant is a text in its own format. -/
def readInstant? (r : Reader ν) (node : ν) :
    Option Instant := do
  Instant.ofText? (← r.text? node)

/- A status is a name that some status has. -/
def readStatus? (r : Reader ν) (node : ν) :
    Option Status := do
  Status.ofName? (← r.choice? node)

/- Read an instance from any format. -/
def read? (r : Reader ν) (node : ν) : Option Instance := do
  let fields ← r.record? recordFields node
  let playbook ←
    Reader.required? fields "playbook_id" r.text?
  let id ← Reader.required? fields "id" r.text?
  let createdAt ←
    Reader.required? fields "created_time" (readInstant? r)
  let expiresAt ←
    Reader.required? fields "expired_at" (readInstant? r)
  let vars ←
    Reader.defaulted? fields "vars" Table.empty r.texts?
  let locked ←
    Reader.defaulted? fields "lock" false r.flag?
  let status ←
    Reader.defaulted? fields "status" .new (readStatus? r)
  some
    { identity := ⟨playbook, id⟩
      createdAt
      expiresAt
      vars
      locked
      status }

/- The instance of a record. -/
def ofRecord? (text : String) : Option Instance := do
  read? Json.Raw.reader (← Json.Raw.ofText? text)

end Instance

end Preview
