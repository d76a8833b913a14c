import Preview.Resource

/-
  What a cluster reports: errors, and events of watched
  objects.

  A wait for an object to finish is decided by the first item
  of its watch that is an error, the deletion of the object,
  or a terminal phase.

  Key definitions include:
    * `ClusterError`
    * `Event`
    * `Item`
    * `Verdict`
    * `Verdict.ofItem?`
    * `Ending`
-/

namespace Preview

------------------------------------------------------------
-- Errors
------------------------------------------------------------

/- Why a cluster refuses a call. -/
inductive ClusterError where
  | notFound (kind name : String)
  | alreadyExists (kind name : String)
  | api (detail : String)
  | watch (detail : String)
deriving DecidableEq, Repr

/- The text of an error, with the object that is missing or in
   the way. -/
def ClusterError.message : ClusterError → String
  | notFound kind name => kind ++ " " ++ name ++ " not found"
  | alreadyExists kind name =>
      kind ++ " " ++ name ++ " already exists"
  | api detail => "cluster API error: " ++ detail
  | watch detail => "watch error: " ++ detail

------------------------------------------------------------
-- Events
------------------------------------------------------------

/- What happened to a watched object. -/
inductive Change where
  | added
  | modified
  | deleted
deriving DecidableEq, Repr

/- What a subscriber is told: a change, and the object as it
   then is. -/
structure Event where
  change : Change
  object : Resource

/- What a watch delivers. -/
abbrev Item := Except ClusterError Event

------------------------------------------------------------
-- Verdicts
------------------------------------------------------------

/- How a watched object has finished. -/
inductive Verdict where
  | succeeded
  | failed
  | unknown
  | gone
  | broken (cause : ClusterError)
  | closed
deriving DecidableEq, Repr

namespace Verdict

/- The verdict of a phase, if it is terminal. -/
def ofPhase? : Phase → Option Verdict
  | .succeeded => some succeeded
  | .failed => some failed
  | .unknown => some unknown
  | .pending => none
  | .running => none

/- The verdict of an item, if it decides. -/
def ofItem? : Item → Option Verdict
  | .error e => some (broken e)
  | .ok ⟨.deleted, _⟩ => some gone
  | .ok ⟨_, object⟩ => object.phase?.bind ofPhase?

/- The first verdict; the end of a closed stream is one. -/
def ofItems? (ended : Bool) (items : List Item) :
    Option Verdict :=
  (items.findSome? ofItem?).orElse fun _ =>
    if ended then some closed else none

end Verdict

/- How a wait ends. -/
inductive Ending where
  | decided (verdict : Verdict)
  | timedOut
  | cancelled
deriving DecidableEq, Repr

end Preview
