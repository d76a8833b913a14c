import Preview.Action
import Preview.Error
import Preview.Instance

/-
  Instances in a store.

  An instance is kept as its record under a path made of the
  root of the repository, the playbook and the name of the
  instance.  Claiming an instance replaces the record that
  was read only if it has not changed since.

  Key definitions include:
    * `Repository`
    * `Repository.create`
    * `Repository.find`
    * `Repository.findAll`
    * `Repository.save`
    * `Repository.delete`
    * `Repository.expired`
    * `Repository.transition`
-/

namespace Preview

/- Where instances are kept and for how many days. -/
structure Repository where
  root : String
  days : Nat
deriving DecidableEq, Repr, Inhabited

namespace Repository

------------------------------------------------------------
-- Paths
------------------------------------------------------------

/- The path that all records are below. -/
def instancesPath (r : Repository) : String :=
  Path.join [r.root, "instances"]

/- The path that the records of a playbook are below. -/
def playbookPath (r : Repository) (playbook : String) :
    String :=
  Path.join [r.root, "instances", playbook]

/- The path of the record of one instance. -/
def path (r : Repository) (i : Identity) : String :=
  Path.join [r.root, "instances", i.playbook, i.id]

------------------------------------------------------------
-- Calls
------------------------------------------------------------

variable {α : Type}

/- A call of the store. -/
def stored (m : Action (Except StoreError α)) :
    Attempt Error α :=
  (Attempt.ofAction m).mapError .store

/- Read the text under a path. -/
def value (path : String) : Attempt Error (Option String) :=
  stored (.perform (.store (.value path)))

/- List what is below a path. -/
def values (path : String) :
    Attempt Error (List (String × String)) :=
  stored (.perform (.store (.values path)))

/- Write a text under a path, whatever is there. -/
def set (path value : String) : Attempt Error Unit :=
  stored (.perform (.store (.set path value)))

/- Remove what is under a path, and tell whether there was
   anything. -/
def erase (path : String) : Attempt Error Bool :=
  stored (.perform (.store (.erase path)))

/- Write a text under a path if what is there is as expected,
   and tell whether it was. -/
def swap
    (path : String)
    (expected : Option String)
    (value : String) : Attempt Error Bool :=
  stored (.perform (.store (.swap path expected value)))

/- The instance of a record that was found at a path. -/
def decode (path record : String) : Except Error Instance :=
  match Instance.ofRecord? record with
  | some i => .ok i
  | none => .error (.malformedRecord path)

------------------------------------------------------------
-- Operations
------------------------------------------------------------

/- An identity has segments of a path as its parts. -/
def checkSegments (i : Identity) : Except Error Unit :=
  if !Path.isSegment i.playbook then
    .error (.invalid (.badSegment "playbook id" i.playbook))
  else if !Path.isSegment i.id then
    .error (.invalid (.badSegment "instance id" i.id))
  else .ok ()

/- Create an instance whose identity is not taken. -/
def create
    (r : Repository)
    (identity : Identity)
    (vars : Table String) : Attempt Error Instance := do
  Attempt.ofExcept (checkSegments identity)
  let now ← Action.perform .today
  match Instance.create? identity vars now r.days with
  | none => throw .beyondCalendar
  | some i =>
      if ← swap (r.path identity) none i.record then
        return i
      else
        throw (.invalid (.taken identity.label))

/- The instance that is stored under an identity. -/
def find (r : Repository) (identity : Identity) :
    Attempt Error Instance := do
  match ← value (r.path identity) with
  | none => throw (.noInstance identity)
  | some record =>
      Attempt.ofExcept (decode (r.path identity) record)

/- All instances of a playbook, in the order of their names. -/
def findAll (r : Repository) (playbook : String) :
    Attempt Error (List Instance) := do
  let base := r.playbookPath playbook
  let entries ← values base
  if entries.isEmpty then
    throw (.noInstances playbook)
  else
    Attempt.ofExcept (entries.mapM fun (rest, record) =>
      decode (Path.join [base, rest]) record)

/- Store an instance, whatever is there. -/
def save (r : Repository) (i : Instance) :
    Attempt Error Unit :=
  set (r.path i.identity) i.record

/- Remove the record of an identity, which has to be there. -/
def delete (r : Repository) (identity : Identity) :
    Attempt Error Unit := do
  if ← erase (r.path identity) then
    return ()
  else
    throw (.noInstance identity)

/- Lock the instance of an identity: read it, and store it
   locked. -/
def lock (r : Repository) (identity : Identity) :
    Attempt Error Instance := do
  let i ← r.find identity
  r.save i.lock
  return i.lock

/- Unlock the instance of an identity, which has to be
   locked. -/
def unlock (r : Repository) (identity : Identity) :
    Attempt Error Instance := do
  let i ← r.find identity
  match i.unlock? with
  | none => throw (.notLocked i.identity)
  | some i =>
      r.save i
      return i

/- Whether a sweep takes an instance down. -/
def isSwept (asOf : Instant) (i : Instance) : Bool :=
  i.status = .deployed && i.isExpired asOf

/- The deployed instances that have expired, in the order of
   their paths; records that cannot be read are passed over. -/
def expired (r : Repository) (asOf : Instant) :
    Attempt Error (List Instance) := do
  let entries ← values r.instancesPath
  return (entries.filterMap fun e =>
    Instance.ofRecord? e.2).filter (isSwept asOf)

/- The status of a stored record, if there is one. -/
def storedStatus (path : String) :
    Option String → Except Error (Option Status)
  | none => .ok none
  | some record => do
      return some (← decode path record).status

/-
  Give an instance a status, unless the status of the copy or
  of the stored record is busy, or the record changes between
  the read and the write.
-/
def transition
    (r : Repository)
    (i : Instance)
    (target : Status)
    (busy : List Status) : Attempt Error Instance := do
  let path := r.path i.identity
  let current ← value path
  let status ← Attempt.ofExcept (storedStatus path current)
  match (i.status :: status.toList).find? busy.contains with
  | some s => throw (.conflict i.identity (.already s))
  | none =>
      let next := { i with status := target }
      if ← swap path current next.record then
        return next
      else
        throw (.conflict i.identity .changed)

end Repository

end Preview
