import Preview.Action
import Preview.Error

/-
  Steps that bring a cluster in line with one resource.

  A resource that stays is created, left alone when it is as
  desired, and replaced when it is not.  A resource that runs
  to completion is created anew, followed until it finishes,
  and removed when it has succeeded.

  Key definitions include:
    * `Timings`
    * `Context`
    * `Reconcile.deploy`
    * `Provision.deploy`
    * `Step`
    * `Step.deploy`
    * `Step.destroy`
-/

namespace Preview

------------------------------------------------------------
-- Contexts
------------------------------------------------------------

/- How long the waits of a step are. -/
structure Timings where
  watchTimeoutSeconds : Nat := 600
  scaleDownPollMs : Nat := 1000
  scaleDownAttempts : Nat := 60
  deletionSettleMs : Nat := 2000
deriving DecidableEq, Repr, Inhabited

/- Where a step works, and what cancels its waits. -/
structure Context where
  space : String
  timings : Timings
  token : Nat
deriving DecidableEq, Repr, Inhabited

namespace Context

/- The key of a resource in the namespace of a context. -/
def key (ctx : Context) (r : Resource) : Key :=
  ⟨r.kind, ctx.space, r.name⟩

variable {α : Type}

/- A call of the cluster. -/
def asked (m : Action (Except ClusterError α)) :
    Attempt StepError α :=
  (Attempt.ofAction m).mapError .cluster

/- Ask the cluster for the object of a resource. -/
def get (ctx : Context) (r : Resource) :
    Attempt StepError (Option Resource) :=
  asked (.perform (.cluster (.get (ctx.key r))))

/- Ask the cluster to create a resource. -/
def create (ctx : Context) (r : Resource) :
    Action (Except ClusterError Unit) :=
  .perform (.cluster (.create r.kind ctx.space r))

/- Ask the cluster to delete the object of a resource. -/
def delete (ctx : Context) (r : Resource) :
    Action (Except ClusterError Unit) :=
  .perform (.cluster (.delete (ctx.key r)))

/- Wait a while, unless the context is cancelled. -/
def pause (ctx : Context) (ms : Nat) (r : Resource) :
    Attempt StepError Unit := do
  if ← Action.perform (.pause ctx.token ms) then
    return ()
  else
    throw (.cancelled r.label)

/- Delete a resource that need not be there. -/
def deleteIfPresent (ctx : Context) (r : Resource) :
    Attempt StepError Unit :=
  Attempt.ofAction (do
    match ← ctx.delete r with
    | .error (.notFound _ _) => return .ok ()
    | .error e => return .error (.cluster e)
    | .ok () => return .ok ())

end Context

------------------------------------------------------------
-- Resources That Stay
------------------------------------------------------------

namespace Reconcile

/-
  Wait until a deleted resource is gone, reading it once more
  than the number of pauses left.
-/
def awaitGone (ctx : Context) (r : Resource) :
    Nat → Attempt StepError Unit
  | 0 => do
      match ← ctx.get r with
      | none => return ()
      | some live =>
          throw (.stillTerminating r.label
            (live.replicas?.getD 1))
  | pauses + 1 => do
      match ← ctx.get r with
      | none => return ()
      | some _ =>
          ctx.pause ctx.timings.scaleDownPollMs r
          awaitGone ctx r pauses

/- Make the object ask for what the resource does: create it
   where there is none, leave one that asks for the same, and
   replace any other once it is gone. -/
def deploy (ctx : Context) (r : Resource) :
    Attempt StepError Unit := do
  match ← ctx.get r with
  | none => Context.asked (ctx.create r)
  | some live =>
      if live.sameSpec r then
        return ()
      else
        Context.asked (ctx.delete r)
        awaitGone ctx r ctx.timings.scaleDownAttempts
        Context.asked (ctx.create r)

/- Delete the object, which has to be there. -/
def destroy (ctx : Context) (r : Resource) :
    Attempt StepError Unit :=
  Context.asked (ctx.delete r)

end Reconcile

------------------------------------------------------------
-- Resources That Run to Completion
------------------------------------------------------------

namespace Provision

/- What the end of a wait means for the step. -/
def outcome (label : String) (seconds : Nat) :
    Ending → Except StepError Unit
  | .cancelled => .error (.cancelled label)
  | .timedOut => .error (.timeout label seconds)
  | .decided .succeeded => .ok ()
  | .decided .failed => .error (.setupFailed label)
  | .decided .unknown => .error (.stateUnknown label)
  | .decided .gone => .error (.gone label)
  | .decided (.broken e) => .error (.cluster e)
  | .decided .closed => .error (.watchClosed label)

/-
  Create a resource and follow it to its end.  The watch is
  opened before, so that nothing is missed, and is closed in
  every case.
-/
def complete (ctx : Context) (r : Resource) :
    Attempt StepError Unit := do
  let seconds := ctx.timings.watchTimeoutSeconds
  let id ← Context.asked
    (.perform (.cluster (.watch (ctx.key r))))
  match ← (ctx.create r : Action _) with
  | .error e =>
      Action.perform (.release id)
      throw (.cluster e)
  | .ok () =>
      let ending ←
        Action.perform (.settle ctx.token id (1000 * seconds))
      Action.perform (.release id)
      Attempt.ofExcept (outcome r.label seconds ending)

/- Run the object to completion: clear away one that is there,
   create it and wait, and delete it when it has succeeded. -/
def deploy (ctx : Context) (r : Resource) :
    Attempt StepError Unit := do
  if (← ctx.get r).isSome then
    ctx.deleteIfPresent r
    ctx.pause ctx.timings.deletionSettleMs r
  complete ctx r
  ctx.deleteIfPresent r

/- Delete the object, if it is there. -/
def destroy (ctx : Context) (r : Resource) :
    Attempt StepError Unit :=
  ctx.deleteIfPresent r

end Provision

------------------------------------------------------------
-- Steps
------------------------------------------------------------

/- The two ways to treat a resource. -/
inductive StepKind where
  | resource
  | provisioning
deriving DecidableEq, Repr, Inhabited

/- A kind of step by its name. -/
def StepKind.name : StepKind → String
  | resource => "resource"
  | provisioning => "provisioning"

/- A resource and how it is reconciled. -/
structure Step where
  kind : StepKind
  resource : Resource
deriving Inhabited

namespace Step

/- Steps are labelled by their resource. -/
def label (s : Step) : String :=
  s.resource.label

/- Deploy the resource in the way of its kind. -/
def deploy (ctx : Context) (s : Step) :
    Attempt StepError Unit :=
  match s.kind with
  | .resource => Reconcile.deploy ctx s.resource
  | .provisioning => Provision.deploy ctx s.resource

/- Destroy the resource in the way of its kind. -/
def destroy (ctx : Context) (s : Step) :
    Attempt StepError Unit :=
  match s.kind with
  | .resource => Reconcile.destroy ctx s.resource
  | .provisioning => Provision.destroy ctx s.resource

end Step

end Preview
