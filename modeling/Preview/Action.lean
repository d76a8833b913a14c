import Preview.Cluster.Watch
import Preview.Cluster.State
import Preview.Notification
import Preview.Store
import Preview.Time.Instant

/-
  Programs that act on a store, a cluster and time.

  A program is finished, or it makes a call and goes on with
  the reply.  What a call does is left to whoever runs the
  program, so one program can be run against any store and
  any cluster, alone or interleaved with others.

  Key definitions include:
    * `Store.Call`
    * `Cluster.Call`
    * `Call`
    * `Action`
    * `Action.eval`

  Programs compose:
    * `Action.bind_assoc`
    * `Action.eval_bind`
-/

namespace Preview

------------------------------------------------------------
-- Calls
------------------------------------------------------------

/- What can be asked of a store. -/
inductive Store.Call where
  | value (path : String)
  | values (path : String)
  | set (path value : String)
  | erase (path : String)
  | swap
    (path : String)
    (expected : Option String)
    (value : String)
deriving DecidableEq, Repr

/- What a call of the store answers, or why it has failed. -/
@[reducible]
def Store.Call.Reply : Store.Call → Type
  | value _ => Except StoreError (Option String)
  | values _ => Except StoreError (List (String × String))
  | set _ _ => Except StoreError Unit
  | erase _ => Except StoreError Bool
  | swap _ _ _ => Except StoreError Bool

/- What can be asked of a cluster. -/
inductive Cluster.Call where
  | get (key : Key)
  | create (kind space : String) (r : Resource)
  | update (kind space : String) (r : Resource)
  | delete (key : Key)
  | watch (key : Key)

/- What a call of the cluster answers, or why it has failed; a
   watch answers the number of its subscription. -/
@[reducible]
def Cluster.Call.Reply : Cluster.Call → Type
  | get _ => Except ClusterError (Option Resource)
  | create _ _ _ => Except ClusterError Unit
  | update _ _ _ => Except ClusterError Unit
  | delete _ => Except ClusterError Unit
  | watch _ => Except ClusterError Nat

/- What a bounded wait for one item brings. -/
inductive Received where
  | item (item : Item)
  | closed
  | pending

/-
  All calls.  Times are in milliseconds, subscriptions and
  cancellation tokens are numbers.
    * `settle` waits for the verdict on a followed object
    * `receive` waits for one item of a subscription
    * `pause` waits unless its token is cancelled
    * `sleep` waits until a time
-/
inductive Call where
  | store (c : Store.Call)
  | cluster (c : Cluster.Call)
  | release (subscription : Nat)
  | settle (token subscription : Nat) (ms : Nat)
  | receive (subscription : Nat) (ms : Nat)
  | pause (token : Nat) (ms : Nat)
  | sleep (time : Nat)
  | clock
  | today
  | send (n : Notification)

/- What any call answers. -/
@[reducible]
def Call.Reply : Call → Type
  | store c => c.Reply
  | cluster c => c.Reply
  | release _ => Unit
  | settle _ _ _ => Ending
  | receive _ _ => Received
  | pause _ _ => Bool
  | sleep _ => Unit
  | clock => Nat
  | today => Instant
  | send _ => Bool

------------------------------------------------------------
-- Programs
------------------------------------------------------------

/- A program with a result. -/
inductive Action (α : Type) where
  | finish (result : α)
  | call (c : Call) (next : c.Reply → Action α)

namespace Action

variable {α β γ : Type}

/- Run a program, and another one on its result. -/
def bind : Action α → (α → Action β) → Action β
  | finish a, f => f a
  | call c next, f => call c (fun r => bind (next r) f)

instance : Monad Action where
  pure := finish
  bind := bind

/- The program that makes one call. -/
def perform (c : Call) : Action c.Reply :=
  call c finish

theorem bind_finish (m : Action α) : bind m finish = m := by
  induction m with
  | finish a => rfl
  | call c next ih => exact congrArg _ (funext ih)

/- How three programs in a row are bracketed does not matter. -/
theorem bind_assoc
    (m : Action α)
    (f : α → Action β)
    (g : β → Action γ) :
    bind (bind m f) g = bind m (fun a => bind (f a) g) := by
  induction m with
  | finish a => rfl
  | call c next ih => exact congrArg _ (funext ih)

instance : LawfulMonad Action :=
  LawfulMonad.mk' Action bind_finish (fun _ _ => rfl)
    bind_assoc

------------------------------------------------------------
-- Evaluation
------------------------------------------------------------

/- What every call does to a state, and its reply. -/
abbrev Handler (σ : Type) :=
  σ → (c : Call) → σ × c.Reply

/- Run a program alone. -/
def eval {σ : Type} (h : Handler σ) :
    Action α → σ → σ × α
  | finish a, s => (s, a)
  | call c next, s => eval h (next (h s c).2) (h s c).1

/- A program in two parts runs them one after the other. -/
theorem eval_bind
    {σ : Type}
    (h : Handler σ)
    (m : Action α)
    (f : α → Action β)
    (s : σ) :
    eval h (bind m f) s =
      eval h (f (eval h m s).2) (eval h m s).1 := by
  induction m generalizing s with
  | finish a => rfl
  | call c next ih => exact ih _ _

end Action

------------------------------------------------------------
-- Fallible Programs
------------------------------------------------------------

/- A program that may fail. -/
abbrev Attempt (ε α : Type) :=
  ExceptT ε Action α

namespace Attempt

variable {ε ε' α : Type}

/- A call whose reply may be a failure. -/
def ofAction (m : Action (Except ε α)) : Attempt ε α :=
  ExceptT.mk m

/- A result that needs no call. -/
def ofExcept (e : Except ε α) : Attempt ε α :=
  ExceptT.mk (.finish e)

/- Report the failures of a program in other terms. -/
def mapError (f : ε → ε') (m : Attempt ε α) : Attempt ε' α :=
  ExceptT.mk (do
    let r ← m.run
    pure (r.mapError f))

end Attempt

end Preview
