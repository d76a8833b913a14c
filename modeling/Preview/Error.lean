import Preview.Cluster.Watch
import Preview.Identity
import Preview.Playbook
import Preview.Status
import Preview.Store
import Preview.Template.Term

/-
  Why an operation fails.

  Every layer has causes of its own, and every cause has one
  wording.

  Key definitions include:
    * `RenderError`
    * `StepError`
    * `Error`
    * `Error.message`
-/

namespace Preview

------------------------------------------------------------
-- Rendering
------------------------------------------------------------

/- Why a manifest has no resource. -/
inductive RenderError where
  | template (cause : Template.Error)
  | malformed (cause : Resource.Malformed)
deriving DecidableEq, Repr

/- The text of an error tells whether the template failed or its
   result was no resource. -/
def RenderError.message : RenderError → String
  | template cause => "template error: " ++ cause.message
  | malformed cause =>
      "rendered output is not a resource: " ++ cause.message

------------------------------------------------------------
-- Steps
------------------------------------------------------------

/- Why a step fails; the label names its resource. -/
inductive StepError where
  | cluster (cause : ClusterError)
  | setupFailed (label : String)
  | stateUnknown (label : String)
  | timeout (label : String) (seconds : Nat)
  | cancelled (label : String)
  | watchClosed (label : String)
  | gone (label : String)
  | stillTerminating (label : String) (replicas : Nat)
deriving DecidableEq, Repr

/- A length of time in whole seconds. -/
def secondsText (seconds : Nat) : String :=
  if seconds = 0 then "0ns" else Digits.text seconds ++ "s"

/- The text of an error, with the label of the object where it
   has one. -/
def StepError.message : StepError → String
  | cluster cause => cause.message
  | setupFailed label => "setup of " ++ label ++ " failed"
  | stateUnknown label => "state of " ++ label ++ " is unknown"
  | timeout label seconds =>
      "timed out after " ++ secondsText seconds ++
        " waiting for " ++ label
  | cancelled label => "wait for " ++ label ++ " was cancelled"
  | watchClosed label =>
      "watch on " ++ label ++ " closed before completion"
  | gone label => label ++ " was deleted before completion"
  | stillTerminating label replicas =>
      label ++ " still has " ++ Digits.text replicas ++
        " replica(s) after deletion"

------------------------------------------------------------
-- Operations
------------------------------------------------------------

/- What is in the way of claiming an instance. -/
inductive Conflict where
  | already (status : Status)
  | changed
deriving DecidableEq, Repr

/- The text tells the status that is in the way, or that the
   record has changed. -/
def Conflict.message : Conflict → String
  | already status => "instance is already " ++ status.name
  | changed => "instance record changed while updating status"

/- Why a run, or an operation on records, has failed. -/
inductive Error where
  | store (cause : StoreError)
  | noInstance (identity : Identity)
  | noInstances (playbook : String)
  | malformedRecord (path : String)
  | notLocked (identity : Identity)
  | invalid (cause : Invalid)
  | unknownPlaybook (playbook : String)
  | render (manifest : String) (cause : RenderError)
  | step (label : String) (cause : StepError)
  | conflict (identity : Identity) (cause : Conflict)
  | config (detail : String)
  | notDelivered
  | beyondCalendar
deriving DecidableEq, Repr

/- The text of an error, with all of its causes. -/
def Error.message : Error → String
  | store cause => "store error: " ++ cause.message
  | noInstance identity =>
      "not found: instance " ++ identity.label
  | noInstances playbook =>
      "not found: instances of playbook " ++ playbook
  | malformedRecord path =>
      "malformed data at " ++ path ++ ": not an instance record"
  | notLocked identity =>
      "instance " ++ identity.label ++ " is not locked"
  | invalid cause => "validation error: " ++ cause.message
  | unknownPlaybook playbook =>
      "playbook not found: " ++ playbook
  | render manifest cause =>
      "failed to render manifest " ++ manifest ++ ": " ++
        cause.message
  | step label cause =>
      "step " ++ label ++ " failed: " ++ cause.message
  | conflict identity cause =>
      "concurrent operation on instance " ++ identity.label ++
        ": " ++ cause.message
  | config detail => "configuration error: " ++ detail
  | notDelivered => "notification error: delivery disabled"
  | beyondCalendar => "expiry date beyond the calendar"

end Preview
