import Preview.Cluster.Watch
import Preview.Registry
import Preview.Table
import Preview.Text.Digits

/-
  An in-memory cluster.

  Objects are kept by kind, namespace and name.  Creating,
  updating and deleting are journaled and reported to the
  watches of the object.  An object whose name has a lag
  stays visible for that many reads after it is deleted.  A
  failure prepared for an operation on a name is reported
  once in place of the operation's effect.

  Key definitions include:
    * `Key`
    * `Operation`
    * `Cluster`
    * `Cluster.get`
    * `Cluster.create`
    * `Cluster.update`
    * `Cluster.delete`
    * `Cluster.watch`
    * `Cluster.setPhase`
-/

namespace Preview

------------------------------------------------------------
-- Keys
------------------------------------------------------------

/- What a cluster keeps an object under. -/
structure Key where
  kind : String
  space : String
  name : String
deriving DecidableEq, Repr, Inhabited

/- The kinds of calls of a cluster, for each of which a failure
   can be prepared. -/
inductive Operation where
  | get
  | create
  | update
  | delete
  | watch
deriving DecidableEq, Repr

namespace Operation

/- An operation by its name. -/
def name : Operation → String
  | get => "get"
  | create => "create"
  | update => "update"
  | delete => "delete"
  | watch => "watch"

/- Every operation, each once. -/
def all : List Operation :=
  [get, create, update, delete, watch]

/- The operation with this name, if there is one. -/
def ofName? (text : String) : Option Operation :=
  all.find? (fun op => op.name == text)

end Operation

------------------------------------------------------------
-- States
------------------------------------------------------------

/- A journaled change. -/
structure Mutation where
  operation : Operation
  key : Key
deriving DecidableEq, Repr

/-
  An open subscription: the object it follows, unless what it
  delivers is fixed, the items that wait to be taken, and
  whether no more can follow.
-/
structure Subscription where
  id : Nat
  key : Option Key
  pending : List Item
  ended : Bool

/-
  The state of a cluster.
    * `terminating` counts the reads that a deleted object
      still shows in
    * `journal` are the changes made so far
    * `scripts` are the phases that a new object of a name goes
      through, and `lags` how long one lingers when it is
      deleted
    * `failures` are those that are prepared
    * `serial` is the next number to be given
-/
structure Cluster where
  objects : Registry Key Resource
  terminating : Registry Key Nat
  journal : List Mutation
  scripts : Table (List Phase)
  lags : Table Nat
  failures : Registry (Operation × String) ClusterError
  subscriptions : List Subscription
  serial : Nat
deriving Inhabited

namespace Cluster

/- A cluster without objects, in which nothing fails. -/
def empty : Cluster :=
  ⟨.empty, .empty, [], .empty, .empty, .empty, [], 0⟩

------------------------------------------------------------
-- Parts of an Operation
------------------------------------------------------------

/- The failure prepared for an operation; it is used up. -/
def takeFailure
    (c : Cluster)
    (op : Operation)
    (name : String) :
    Cluster × Option ClusterError :=
  match c.failures.get? (op, name) with
  | some e =>
      ({ c with failures := c.failures.drop (op, name) }, some e)
  | none => (c, none)

/- Add a change to the journal. -/
def record (c : Cluster) (op : Operation) (key : Key) :
    Cluster :=
  { c with journal := c.journal ++ [⟨op, key⟩] }

/- Report an event to the watches of an object. -/
def emit (c : Cluster) (key : Key) (event : Event) : Cluster :=
  { c with
    subscriptions := c.subscriptions.map fun s =>
      if s.key = some key then
        { s with pending := s.pending ++ [.ok event] }
      else s }

/- Report a phase of an object and tell whether it exists. -/
def setPhase (c : Cluster) (key : Key) (phase : Phase) :
    Cluster × Bool :=
  match c.objects.get? key with
  | none => (c, false)
  | some object =>
      let object := object.setPhase phase
      let c := { c with objects := c.objects.set key object }
      (c.emit key ⟨.modified, object⟩, true)

/- Remove an object and report it. -/
def remove (c : Cluster) (key : Key) : Cluster :=
  let c := { c with terminating := c.terminating.drop key }
  match c.objects.get? key with
  | none => c
  | some object =>
      let c := { c with objects := c.objects.drop key }
      c.emit key ⟨.deleted, object⟩

/- An identifier of 26 digits. -/
def uid (serial : Nat) : String :=
  String.ofList (Digits.padded 26 serial)

/- The object that a cluster keeps for a created one. -/
def stamped
    (c : Cluster)
    (space : String)
    (r : Resource) : Resource :=
  let extra :=
    (r.metadata.extra.insert "uid" (.string (uid c.serial))).insert
      "resourceVersion"
      (.string (Digits.text (c.journal.length + 1)))
  { r with
    metadata := { r.metadata with space := some space, extra } }

------------------------------------------------------------
-- Operations
------------------------------------------------------------

/-
  Read an object.  Reading a deleted object that is still
  visible uses up one of its remaining reads; the read after
  the last one removes it.
-/
def get (c : Cluster) (key : Key) :
    Cluster × Except ClusterError (Option Resource) :=
  match c.takeFailure .get key.name with
  | (c, some e) => (c, .error e)
  | (c, none) =>
      match c.terminating.get? key with
      | some 0 => (c.remove key, .ok none)
      | some (left + 1) =>
          ({ c with terminating := c.terminating.set key left },
            .ok (c.objects.get? key))
      | none => (c, .ok (c.objects.get? key))

/- Create an object, unless its key is taken, and let it go
   through the phases prepared for its name. -/
def create (c : Cluster) (kind space : String) (r : Resource) :
    Cluster × Except ClusterError Unit :=
  match c.takeFailure .create r.name with
  | (c, some e) => (c, .error e)
  | (c, none) =>
      let key : Key := ⟨kind, space, r.name⟩
      if c.objects.contains key then
        (c, .error (.alreadyExists kind r.name))
      else
        let object := c.stamped space r
        let c := (c.record .create key)
        let c :=
          { c with
            objects := c.objects.set key object
            serial := c.serial + 1 }
        let c := c.emit key ⟨.added, object⟩
        let phases := (c.scripts.get? r.name).getD []
        (phases.foldl (fun c p => (c.setPhase key p).1) c,
          .ok ())

/- Replace an object, except for what the cluster assigned. -/
def update (c : Cluster) (kind space : String) (r : Resource) :
    Cluster × Except ClusterError Unit :=
  match c.takeFailure .update r.name with
  | (c, some e) => (c, .error e)
  | (c, none) =>
      let key : Key := ⟨kind, space, r.name⟩
      match c.objects.get? key with
      | none => (c, .error (.notFound kind r.name))
      | some existing =>
          let object :=
            { r with
              metadata :=
                { r.metadata with
                  space := some space
                  extra := existing.metadata.extra }
              status := existing.status }
          let c := c.record .update key
          let c :=
            { c with objects := c.objects.set key object }
          (c.emit key ⟨.modified, object⟩, .ok ())

/- Delete an object, or let it begin to terminate. -/
def delete (c : Cluster) (key : Key) :
    Cluster × Except ClusterError Unit :=
  match c.takeFailure .delete key.name with
  | (c, some e) => (c, .error e)
  | (c, none) =>
      if c.objects.contains key then
        let c := c.record .delete key
        match (c.lags.get? key.name).getD 0 with
        | 0 => (c.remove key, .ok ())
        | lag =>
            if c.terminating.contains key then (c, .ok ())
            else
              ({ c with
                  terminating := c.terminating.set key lag },
                .ok ())
      else (c, .error (.notFound key.kind key.name))

------------------------------------------------------------
-- Subscriptions
------------------------------------------------------------

/- Open a subscription. -/
def subscribe
    (c : Cluster)
    (key : Option Key)
    (pending : List Item)
    (ended : Bool) : Cluster × Nat :=
  ({ c with
      subscriptions :=
        c.subscriptions ++ [⟨c.serial, key, pending, ended⟩]
      serial := c.serial + 1 },
    c.serial)

/- Follow an object from now on. -/
def watch (c : Cluster) (key : Key) :
    Cluster × Except ClusterError Nat :=
  match c.takeFailure .watch key.name with
  | (c, some e) => (c, .error e)
  | (c, none) =>
      let (c, id) := c.subscribe (some key) [] false
      (c, .ok id)

/- The open subscription with a number. -/
def subscription? (c : Cluster) (id : Nat) :
    Option Subscription :=
  c.subscriptions.find? (fun s => s.id = id)

/- Close a subscription; nothing is delivered to it again. -/
def release (c : Cluster) (id : Nat) : Cluster :=
  { c with
    subscriptions :=
      c.subscriptions.filter (fun s => s.id ≠ id) }

/- Take the first item that waits in a subscription. -/
def take? (c : Cluster) (id : Nat) : Option (Cluster × Item) :=
  match (c.subscription? id).map Subscription.pending with
  | some (item :: rest) =>
      let subscriptions := c.subscriptions.map fun s =>
        if s.id = id then { s with pending := rest } else s
      some ({ c with subscriptions }, item)
  | _ => none

/- Whether nothing can be delivered any more. -/
def isClosed (c : Cluster) (id : Nat) : Bool :=
  match c.subscription? id with
  | none => true
  | some s => s.ended && s.pending.isEmpty

/- The verdict on a followed object, once there is one. -/
def verdict? (c : Cluster) (id : Nat) : Option Verdict :=
  match c.subscription? id with
  | none => some .closed
  | some s => Verdict.ofItems? s.ended s.pending

/- The number of subscriptions that follow an object. -/
def watchCount (c : Cluster) : Nat :=
  (c.subscriptions.filter (fun s => s.key.isSome)).length

------------------------------------------------------------
-- Preparation
------------------------------------------------------------

/- Put an object into the cluster unnoticed. -/
def insert (c : Cluster) (space : String) (r : Resource) :
    Cluster :=
  { c with
    objects := c.objects.set ⟨r.kind, space, r.name⟩ r }

/- The phases that a created object of a name reports. -/
def script (c : Cluster) (name : String) (phases : List Phase) :
    Cluster :=
  { c with scripts := c.scripts.insert name phases }

/- How many reads a deleted object of a name stays visible. -/
def lag (c : Cluster) (name : String) (reads : Nat) : Cluster :=
  { c with lags := c.lags.insert name reads }

/- Prepare a failure of the next operation on a name. -/
def fail
    (c : Cluster)
    (op : Operation)
    (name : String)
    (e : ClusterError) : Cluster :=
  { c with failures := c.failures.set (op, name) e }

/- Forget the changes made so far. -/
def clearJournal (c : Cluster) : Cluster :=
  { c with journal := [] }

/- How often an operation was journaled. -/
def count (c : Cluster) (op : Operation) : Nat :=
  (c.journal.filter (fun m => m.operation = op)).length

end Cluster

end Preview
