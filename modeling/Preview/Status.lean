/-
  The lifecycle status of an instance and the phase of a
  cluster object.

  Key definitions include:
    * `Status`
    * `Status.name`
    * `Status.ofName?`
    * `Status.inProgress`
    * `Phase`
    * `Phase.name`
    * `Phase.ofName`
    * `Phase.isTerminal`
-/

namespace Preview

------------------------------------------------------------
-- Statuses
------------------------------------------------------------

/-
  A new instance is deployed and later deleted; while a run
  has claimed it, it is deploying or deleting, and a failed
  run leaves it in error.
-/
inductive Status where
  | new
  | deploying
  | deployed
  | deleting
  | error
deriving DecidableEq, Repr, Inhabited

namespace Status

/- A status as records spell it. -/
def name : Status → String
  | new => "new"
  | deploying => "deploying"
  | deployed => "deployed"
  | deleting => "deleting"
  | error => "error"

/- Every status there is, each once. -/
def all : List Status :=
  [new, deploying, deployed, deleting, error]

/- The status with this spelling, if there is one. -/
def ofName? (text : String) : Option Status :=
  all.find? (fun s => s.name == text)

/- A run has claimed the instance and not yet ended. -/
def inProgress : Status → Bool
  | deploying => true
  | deleting => true
  | _ => false

/- A status is read back from its own spelling. -/
theorem ofName?_name (s : Status) :
    ofName? s.name = some s := by
  cases s <;> decide

end Status

/- A text that names no status. -/
structure UnknownStatus where
  text : String
deriving DecidableEq, Repr

/- The text of the error names the spelling. -/
def UnknownStatus.message (e : UnknownStatus) : String :=
  "unknown instance status: " ++ e.text

/- Read a status, and refuse a spelling that no status has. -/
def Status.parse (text : String) :
    Except UnknownStatus Status :=
  match Status.ofName? text with
  | some s => .ok s
  | none => .error ⟨text⟩

------------------------------------------------------------
-- Phases
------------------------------------------------------------

/- How far a run-to-completion object has come. -/
inductive Phase where
  | pending
  | running
  | succeeded
  | failed
  | unknown
deriving DecidableEq, Repr, Inhabited

namespace Phase

/- A phase as clusters spell it. -/
def name : Phase → String
  | pending => "Pending"
  | running => "Running"
  | succeeded => "Succeeded"
  | failed => "Failed"
  | unknown => "Unknown"

/- Names that are not recognised mean an unknown phase. -/
def ofName (text : String) : Phase :=
  if text == "Pending" then pending
  else if text == "Running" then running
  else if text == "Succeeded" then succeeded
  else if text == "Failed" then failed
  else unknown

/- A terminal phase decides the wait for the object. -/
def isTerminal : Phase → Bool
  | succeeded => true
  | failed => true
  | unknown => true
  | _ => false

/- A phase is read back from its own spelling. -/
theorem ofName_name (p : Phase) : ofName p.name = p := by
  cases p <;> decide

end Phase

end Preview
