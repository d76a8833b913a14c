import Preview.Action

/-
  An environment in memory, in which programs can run.

  It holds a store, a cluster and an outbox, all of which can
  be made to fail, and a clock that only moves when it is
  told to.  Calls of the cluster can take time, and waits end
  at a time of their own.

  Key definitions include:
    * `Faults`
    * `World`
    * `World.perform`
    * `World.due`
    * `World.issue`
-/

namespace Preview

------------------------------------------------------------
-- Faults
------------------------------------------------------------

/-
  How the store fails, and with which error.
    * `reads` and `writes` fail always
    * `plain` counts the sets and removals that still fail
    * `rival` is what another writer does to a path just
      before the next swap
-/
structure Faults where
  reads : Bool
  writes : Bool
  plain : Nat
  error : StoreError
  rival : Option (String × Option String)

/- A store that does not fail. -/
def Faults.none : Faults :=
  ⟨false, false, 0, .timeout, Option.none⟩

instance : Inhabited Faults := ⟨Faults.none⟩

------------------------------------------------------------
-- Worlds
------------------------------------------------------------

/-
  The state of everything that programs act on.
    * `streams` are the items of watches that do not follow
      an object, by its name, and whether they end
    * `latencyMs` is how long a call of the cluster takes
    * `keeps` tells whether sent messages are kept
    * `calls` are the cluster calls made so far
-/
structure World where
  store : Store
  faults : Faults
  cluster : Cluster
  streams : Table (List Item × Bool)
  latencyMs : Nat
  outbox : Outbox
  keeps : Bool
  clock : Nat
  today : Instant
  cancelled : List Nat
  calls : List (Operation × Key)
deriving Inhabited

namespace World

/- Cancel whatever waits under a token. -/
def cancel (w : World) (token : Nat) : World :=
  { w with cancelled := token :: w.cancelled }

/- What waits under this token has been cancelled. -/
def isCancelled (w : World) (token : Nat) : Bool :=
  w.cancelled.contains token

------------------------------------------------------------
-- Store Calls
------------------------------------------------------------

/- Carry out a change of the store. -/
def change {α : Type} (w : World)
    (r : Except StoreError (Store × α)) :
    World × Except StoreError α :=
  match r with
  | .ok (s, a) => ({ w with store := s }, .ok a)
  | .error e => (w, .error e)

/- The failure of a set or a removal, if it fails. -/
def plainFault (w : World) : Option World :=
  if w.faults.writes then some w
  else
    match w.faults.plain with
    | 0 => none
    | left + 1 =>
        some { w with faults := { w.faults with plain := left } }

/- Let the other writer act. -/
def rivalActs (w : World) : World :=
  match w.faults.rival with
  | none => w
  | some (path, value) =>
      let w := { w with faults := { w.faults with rival := none } }
      let changed : Except StoreError Store :=
        match value with
        | some v => w.store.set path v
        | none => (w.store.erase path).map (·.1)
      match changed with
      | .ok s => { w with store := s }
      | .error _ => w

/- Carry out a call of the store, unless it is to fail. -/
def performStore (w : World) :
    (c : Store.Call) → World × c.Reply
  | .value path =>
      if w.faults.reads then (w, .error w.faults.error)
      else (w, w.store.value path)
  | .values path =>
      if w.faults.reads then (w, .error w.faults.error)
      else (w, .ok (w.store.values path))
  | .set path value =>
      match w.plainFault with
      | some w => (w, .error w.faults.error)
      | none =>
          w.change ((w.store.set path value).map (·, ()))
  | .erase path =>
      match w.plainFault with
      | some w => (w, .error w.faults.error)
      | none => w.change (w.store.erase path)
  | .swap path expected value =>
      if w.faults.writes then (w, .error w.faults.error)
      else
        let w := w.rivalActs
        w.change (w.store.swap path expected value)

------------------------------------------------------------
-- Cluster Calls
------------------------------------------------------------

/- The operation and the object of a call. -/
def subject : Cluster.Call → Operation × Key
  | .get key => (.get, key)
  | .create kind space r => (.create, ⟨kind, space, r.name⟩)
  | .update kind space r => (.update, ⟨kind, space, r.name⟩)
  | .delete key => (.delete, key)
  | .watch key => (.watch, key)

/- Open a watch, or the stream that stands in for it. -/
def openWatch (w : World) (key : Key) :
    World × Except ClusterError Nat :=
  match w.streams.get? key.name with
  | some (items, ended) =>
      let (c, id) := w.cluster.subscribe none items ended
      ({ w with
          cluster := c
          streams := w.streams.erase key.name },
        .ok id)
  | none =>
      let (c, r) := w.cluster.watch key
      ({ w with cluster := c }, r)

/- Carry out a call of the cluster, and keep what becomes of
   it. -/
def performCluster (w : World) :
    (c : Cluster.Call) → World × c.Reply
  | .get key =>
      let (c, r) := w.cluster.get key
      ({ w with cluster := c }, r)
  | .create kind space object =>
      let (c, r) := w.cluster.create kind space object
      ({ w with cluster := c }, r)
  | .update kind space object =>
      let (c, r) := w.cluster.update kind space object
      ({ w with cluster := c }, r)
  | .delete key =>
      let (c, r) := w.cluster.delete key
      ({ w with cluster := c }, r)
  | .watch key => w.openWatch key

------------------------------------------------------------
-- Calls
------------------------------------------------------------

/- What happens when a call is made: calls of the cluster are
   noted before they take effect. -/
def issue (w : World) : Call → World
  | .cluster c => { w with calls := w.calls ++ [subject c] }
  | _ => w

/-
  When a call that was made at some time takes effect, as far
  as is known now.
-/
def due (w : World) (issued : Nat) : Call → Nat
  | .cluster _ => issued + w.latencyMs
  | .settle token id ms =>
      if (w.cluster.verdict? id).isSome || w.isCancelled token
      then issued
      else issued + ms
  | .receive id ms =>
      if w.cluster.isClosed id || (w.cluster.take? id).isSome
      then issued
      else issued + ms
  | .pause token ms =>
      if w.isCancelled token then issued else issued + ms
  | .sleep time => time
  | _ => issued

/- Let a call take effect now. -/
def perform (w : World) : (c : Call) → World × c.Reply
  | .store c => w.performStore c
  | .cluster c => w.performCluster c
  | .release id =>
      ({ w with cluster := w.cluster.release id }, ())
  | .settle token id _ =>
      match w.cluster.verdict? id with
      | some v => (w, .decided v)
      | none =>
          (w, if w.isCancelled token then .cancelled
            else .timedOut)
  | .receive id _ =>
      match w.cluster.take? id with
      | some (c, item) => ({ w with cluster := c }, .item item)
      | none =>
          (w, if w.cluster.isClosed id then .closed
            else .pending)
  | .pause token _ => (w, !w.isCancelled token)
  | .sleep _ => (w, ())
  | .clock => (w, w.clock)
  | .today => (w, w.today)
  | .send n =>
      if w.keeps then
        let (o, accepted) := w.outbox.send n
        ({ w with outbox := o }, accepted)
      else (w, true)

end World

end Preview
