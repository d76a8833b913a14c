import Preview.Plan
import Preview.Repository

/-
  What is done with instances.

  A run claims its instance by its status, plans the playbook
  of the instance, deploys or destroys the plan, and leaves
  the outcome in the record and in one message.  That a claim
  cannot be stored does not stop a run.

  Key definitions include:
    * `Service`
    * `Service.deploy`
    * `Service.delete`
    * `Service.sweep`
    * `SweepReport`
-/

namespace Preview

------------------------------------------------------------
-- Reports
------------------------------------------------------------

/- The labels of the instances that a sweep has removed, and
   of those it has not, with the reasons. -/
structure SweepReport where
  removed : List String
  failed : List (String × Error)

namespace SweepReport

/- The report of a sweep that has found nothing. -/
def empty : SweepReport :=
  ⟨[], []⟩

/- No deletion has failed. -/
def isClean (r : SweepReport) : Bool :=
  r.failed.isEmpty

/- Add the outcome of one instance. -/
def add (r : SweepReport) (label : String) :
    Except Error Unit → SweepReport
  | .ok () => { r with removed := r.removed ++ [label] }
  | .error e => { r with failed := r.failed ++ [(label, e)] }

end SweepReport

------------------------------------------------------------
-- Services
------------------------------------------------------------

/- What runs are made with: the playbooks, the records, the
   place where resources are deployed, and how manifests are
   rendered. -/
structure Service where
  catalog : Catalog
  repository : Repository
  context : Context
  render : Renderer

namespace Service

/- The playbook of an id, or the error that there is none. -/
def playbook (s : Service) (id : String) :
    Except Error Playbook :=
  match s.catalog.get? id with
  | some p => .ok p
  | none => .error (.unknownPlaybook id)

/- Create an instance of a known playbook. -/
def create
    (s : Service)
    (identity : Identity)
    (vars : Table String) : Attempt Error Instance := do
  let _ ← Attempt.ofExcept (s.playbook identity.playbook)
  s.repository.create identity vars

/- Set a variable that the playbook declares. -/
def setVariable
    (s : Service)
    (identity : Identity)
    (key value : String) : Attempt Error Instance := do
  let p ← Attempt.ofExcept (s.playbook identity.playbook)
  if p.declares key then
    let i ← s.repository.find identity
    let i := i.setVar key value
    s.repository.save i
    return i
  else
    throw (.invalid (.undeclared identity.playbook key))

------------------------------------------------------------
-- Messages
------------------------------------------------------------

/- Send a message; nothing depends on its delivery. -/
def notify (level : Level) (text : String) : Action Unit := do
  let _ ← Action.perform (.send ⟨level, text⟩)
  return ()

/- The message of a failed run. -/
def failureText
    (action : String)
    (i : Instance)
    (e : Error) : String :=
  action ++ " of " ++ i.label ++ " failed: " ++ e.message

/- The message of a deployed instance; a message template
   that cannot be rendered counts as none. -/
def successText (s : Service) (p : Playbook) (i : Instance) :
    String :=
  let plain := i.label ++ " deployed"
  match p.message with
  | none => plain
  | some template =>
      match s.render template i.messageVars with
      | .ok text => text
      | .error _ => plain

------------------------------------------------------------
-- Runs
------------------------------------------------------------

/-
  Claim an instance for a run.  When the store fails, the run
  goes on with its own copy.
-/
def claim
    (s : Service)
    (i : Instance)
    (target : Status)
    (busy : List Status) : Attempt Error Instance :=
  if busy.contains i.status then
    throw (.conflict i.identity (.already i.status))
  else
    Attempt.ofAction (do
      match ← (s.repository.transition i target busy).run with
      | .ok claimed => return .ok claimed
      | .error (.store _) =>
          return .ok { i with status := target }
      | .error e => return .error e)

/- Report a run that has not started. -/
def refuse
    (action : String)
    (i : Instance)
    (e : Error) : Attempt Error Unit := do
  notify .failure (failureText action i e)
  throw e

/-
  Report a run that has failed.  When its status cannot be
  stored, that is the error of the run.
-/
def fail
    (s : Service)
    (action : String)
    (i : Instance)
    (e : Error) : Attempt Error Unit := do
  let saved : Except Error Unit ←
    (s.repository.save { i with status := .error }).run
  notify .failure (failureText action i e)
  match saved with
  | .ok () => throw e
  | .error e => throw e

/- Do the work of a claimed run. -/
def work
    (s : Service)
    (p : Playbook)
    (i : Instance)
    (carry : Plan → Attempt Error Unit) :
    Attempt Error Unit := do
  let plan ← Attempt.ofExcept
    (Plan.build s.render p i.vars s.catalog.manifests)
  carry plan

/- Deploy an instance. -/
def deploy (s : Service) (i : Instance) :
    Attempt Error Unit := do
  match s.playbook i.identity.playbook with
  | .error e => refuse "deploy" i e
  | .ok p =>
      let claimed : Except Error Instance ←
        (s.claim i .deploying [.deploying, .deleting]).run
      match claimed with
      | .error e => refuse "deploy" i e
      | .ok current =>
          let deployed := { current with status := .deployed }
          let outcome : Except Error Unit ←
            (s.work p current fun plan => do
              plan.deploy s.context
              s.repository.save deployed).run
          match outcome with
          | .error e => s.fail "deploy" current e
          | .ok () =>
              notify .success (s.successText p deployed)

/- Remove a record that may be gone already. -/
def removeRecord (s : Service) (i : Instance) :
    Attempt Error Unit :=
  Attempt.ofAction (do
    match ← (s.repository.delete i.identity).run with
    | .error (.noInstance _) => return .ok ()
    | result => return result)

/- Take an instance down and remove its record. -/
def delete (s : Service) (i : Instance) :
    Attempt Error Unit := do
  match s.playbook i.identity.playbook with
  | .error e => refuse "delete" i e
  | .ok p =>
      let claimed : Except Error Instance ←
        (s.claim i .deleting [.deleting]).run
      match claimed with
      | .error e => refuse "delete" i e
      | .ok current =>
          let outcome : Except Error Unit ←
            (s.work p current fun plan => do
              plan.destroy s.context
              s.removeRecord current).run
          match outcome with
          | .error e => s.fail "delete" current e
          | .ok () =>
              notify .success (i.label ++ " deleted")

------------------------------------------------------------
-- Sweeps
------------------------------------------------------------

/- Delete some instances one after the other. -/
def deleteAll (s : Service) :
    List Instance → SweepReport → Action SweepReport
  | [], report => return report
  | i :: rest, report => do
      let outcome : Except Error Unit ← (s.delete i).run
      s.deleteAll rest (report.add i.label outcome)

/- Delete every deployed instance that has expired. -/
def sweep (s : Service) (asOf : Instant) :
    Attempt Error SweepReport := do
  let expired ← s.repository.expired asOf
  s.deleteAll expired .empty

end Service

end Preview
