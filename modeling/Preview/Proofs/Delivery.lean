import Preview.Proofs.Messages
import Preview.Proofs.Passes
import Preview.Proofs.Teardown

/-
  Runs and the delivery of their messages.

  A service is asked for runs and sweeps one after the other.
  Each run makes one attempt to send a message, and nothing
  that it does depends on whether the message was accepted: two
  environments that differ in nothing else see the same calls,
  have the same states and give the same results.

  Main declarations:
    * `Action.Deaf` and `Action.deaf_bind`
    * `Action.Handler.Relays` and `Action.Deaf.agrees`
    * `Service.Order` and `Service.conduct`
    * `Service.Order.Notified` and `Service.conduct_notified`
    * `World.perform_heard`
    * `Service.runs_notify`
-/

namespace Preview

open Preview.Action (Handler eval exchanges)

------------------------------------------------------------
-- Programs That Do Not Listen
------------------------------------------------------------

namespace Action

variable {α β : Type}

/- A program goes on in the same way whatever is replied to its
   messages. -/
inductive Deaf : Action α → Prop where
  | finish (a : α) : Deaf (.finish a)
  | call
    {c : Call}
    {next : c.Reply → Action α}
    (hSame : c.isMessage = true → ∀ r r', next r = next r')
    (hNext : ∀ r, Deaf (next r)) : Deaf (.call c next)

/- A call that is no message is listened to. -/
theorem Deaf.of_silent
    {c : Call}
    {next : c.Reply → Action α}
    (hSilent : c.isMessage = false)
    (hNext : ∀ r, Deaf (next r)) :
    Deaf (.call c next) := by
  refine .call (fun hMessage => ?_) hNext
  rw [hSilent] at hMessage
  cases hMessage

/- A message that is followed by the same program anyway. -/
theorem Deaf.send
    (n : Notification)
    {m : Action α}
    (hRest : Deaf m) :
    Deaf (.call (.send n) fun _ => m) :=
  .call (fun _ _ _ => rfl) fun _ => hRest

/- Two deaf parts are deaf together. -/
theorem deaf_bind
    {m : Action α}
    {f : α → Action β}
    (hFirst : Deaf m)
    (hRest : ∀ a, Deaf (f a)) :
    Deaf (bind m f) := by
  induction hFirst with
  | finish a => exact hRest a
  | call hSame _ ih =>
      refine .call (fun hMessage r r' => ?_) ih
      rw [hSame hMessage r r']

/- The states of an environment after each call. -/
def states {σ : Type} (h : Handler σ) :
    Action α → σ → List σ
  | finish _, _ => []
  | call c next, s =>
      (h s c).1 :: states h (next (h s c).2) (h s c).1

end Action

/- An exchange, but for what was replied to a message. -/
def Exchange.hushed : Exchange → Exchange
  | ⟨.send n, _⟩ => ⟨.send n, true⟩
  | x => x

/- Hushed, the replies to a message are one. -/
theorem Exchange.hushed_of_message
    {c : Call}
    (hMessage : c.isMessage = true)
    (reply reply' : c.Reply) :
    hushed ⟨c, reply⟩ = hushed ⟨c, reply'⟩ := by
  cases c with
  | send n => rfl
  | _ => cases hMessage

------------------------------------------------------------
-- Environments
------------------------------------------------------------

/- An environment does what another one does, but replies to
   messages in its own way. -/
structure Action.Handler.Relays
    {σ ε : Type}
    (h : Handler σ)
    (view : σ → ε)
    (g : Handler ε) : Prop where
  acts : ∀ s c, view (h s c).1 = (g (view s) c).1
  replies : ∀ s c, c.isMessage = false →
    (h s c).2 = (g (view s) c).2

section Agreement

variable {α σ ε : Type}
variable {h : Handler σ} {view : σ → ε} {g : Handler ε}

/- A program that does not listen does in an environment what
   it does in the one behind it. -/
theorem Action.Deaf.agrees
    {m : Action α}
    (hDeaf : m.Deaf)
    (hRelays : h.Relays view g)
    (start : σ) :
    (eval h m start).2 = (eval g m (view start)).2 ∧
      view (eval h m start).1 = (eval g m (view start)).1 ∧
      (exchanges h m start).map Exchange.hushed =
        (exchanges g m (view start)).map Exchange.hushed ∧
      (states h m start).map view =
        states g m (view start) := by
  induction hDeaf generalizing start with
  | finish a => exact ⟨rfl, rfl, rfl, rfl⟩
  | @call c next hSame _ ih =>
      have hState := hRelays.acts start c
      have hNext : next (h start c).2 =
          next (g (view start) c).2 := by
        cases hMessage : c.isMessage with
        | true => exact hSame hMessage _ _
        | false => rw [hRelays.replies start c hMessage]
      have hHushed : Exchange.hushed ⟨c, (h start c).2⟩ =
          Exchange.hushed ⟨c, (g (view start) c).2⟩ := by
        cases hMessage : c.isMessage with
        | true => exact Exchange.hushed_of_message hMessage _ _
        | false => rw [hRelays.replies start c hMessage]
      have hRest := ih (h start c).2 (h start c).1
      rw [hNext, hState] at hRest
      rcases hRest with ⟨hResult, hEnd, hCalls, hStates⟩
      simp only [eval, exchanges, states, List.map_cons, hNext,
        hHushed, hState, hCalls, hStates]
      exact ⟨hResult, hEnd, trivial, trivial⟩

end Agreement

------------------------------------------------------------
-- Runs That Do Not Listen
------------------------------------------------------------

section Runs

variable (s : Service) (i : Instance)

/- A run that fails says so and ends, heard or not. -/
theorem Job.failing_deaf (job : Job) (e : Error) :
    (job.failing s i e).Deaf := by
  refine .of_silent rfl fun saved => ?_
  rcases saved with cause | ⟨⟩
  · exact .send _ (.finish _)
  · exact .send _ (.finish _)

/- The work of a run does not wait for a message. -/
theorem Job.last_deaf (job : Job) (p : Playbook) :
    (job.last s i p).Deaf := by
  cases job with
  | deploy =>
      refine .of_silent rfl fun saved => ?_
      rcases saved with cause | ⟨⟩
      · exact failing_deaf s i .deploy _
      · exact .send _ (.finish _)
  | delete =>
      refine .of_silent rfl fun removed => ?_
      rcases removed with cause | removed
      · exact failing_deaf s i .delete _
      · exact .send _ (.finish _)

/- A run is deaf in all of its parts. -/
theorem Job.program_deaf (job : Job) :
    (job.program s i).Deaf := by
  refine program_induction (fun _ m => m.Deaf) ?_ ?_ ?_ ?_
  · intro _ c _ _ hPreliminary hNext
    exact .of_silent (hPreliminary.open c.calm).1 hNext
  · exact fun _ _ _ => .send _ (.finish _)
  · exact fun _ e _ => failing_deaf s i job e
  · exact fun _ p _ _ => last_deaf s i job p

/- A sweep goes on to the next instance in any case. -/
theorem Service.deleteAll_deaf
    (is : List Instance)
    (report : SweepReport) :
    (s.deleteAll is report).Deaf := by
  induction is generalizing report with
  | nil => exact .finish report
  | cons i is ih =>
      exact Action.deaf_bind (Job.program_deaf s i .delete)
        fun outcome => ih (report.add i.label outcome)

theorem Service.sweep_deaf (asOf : Instant) :
    (s.sweep asOf).run.Deaf := by
  rw [sweep_run]
  refine .of_silent rfl fun reply => ?_
  rcases reply with e | listing
  · exact .finish _
  · exact Action.deaf_bind (deleteAll_deaf s _ .empty)
      fun _ => .finish _

end Runs

------------------------------------------------------------
-- Orders
------------------------------------------------------------

namespace Service

/- What a service is asked for. -/
inductive Order where
  | run (job : Job) (i : Instance)
  | sweep (asOf : Instant)

/- What comes back. -/
inductive Outturn where
  | run (result : Except Error Unit)
  | sweep (result : Except Error SweepReport)

/- What is done for an order. -/
def Order.program (s : Service) : Order → Action Outturn
  | run job i => (job.program s i).bind fun result =>
      .finish (.run result)
  | sweep asOf => (s.sweep asOf).run.bind fun result =>
      .finish (.sweep result)

/- Carry out some orders one after the other. -/
def conduct (s : Service) : List Order → Action (List Outturn)
  | [] => .finish []
  | o :: os => (o.program s).bind fun r =>
      (s.conduct os).bind fun rs => .finish (r :: rs)

/- A service does not listen to how messages fare. -/
theorem conduct_deaf (s : Service) (orders : List Order) :
    (s.conduct orders).Deaf := by
  induction orders with
  | nil => exact .finish []
  | cons o os ih =>
      have hOrder : (o.program s).Deaf := by
        cases o with
        | run job i =>
            exact Action.deaf_bind (Job.program_deaf s i job)
              fun _ => .finish _
        | sweep asOf =>
            exact Action.deaf_bind (s.sweep_deaf asOf)
              fun _ => .finish _
      exact Action.deaf_bind hOrder fun _ =>
        Action.deaf_bind ih fun _ => .finish _

/-
  The exchanges and the outturn of an order: each run has
  reported, and a sweep makes one delete run for each instance
  that it lists, unless it has no listing.
-/
inductive Order.Notified (s : Service) :
    Order → List Exchange → Outturn → Prop where
  | run
    {job : Job}
    {i : Instance}
    {xs : List Exchange}
    {result : Except Error Unit}
    (hReported : job.Reported s i xs result) :
    Notified s (.run job i) xs (.run result)
  | unscanned
    (asOf : Instant)
    (e : StoreError) :
    Notified s (.sweep asOf)
      [⟨.store (.values s.repository.instancesPath), .error e⟩]
      (.sweep (.error (.store e)))
  | swept
    {asOf : Instant}
    {listing : List (String × String)}
    {visits : List Visit}
    (hCopies : visits.map Visit.copy =
      Repository.listed asOf listing)
    (hReported : ∀ v ∈ visits,
      Job.delete.Reported s v.copy v.exchanges v.result) :
    Notified s (.sweep asOf)
      (⟨.store (.values s.repository.instancesPath),
          .ok listing⟩ ::
        visits.flatMap Visit.exchanges)
      (.sweep (.ok (Visit.report visits)))

/- The exchanges of some orders, one after the other. -/
inductive Notified (s : Service) :
    List Order → List Exchange → List Outturn → Prop where
  | none : Notified s [] [] []
  | next
    {o : Order}
    {xs ys : List Exchange}
    {r : Outturn}
    {os : List Order}
    {rs : List Outturn}
    (hOrder : o.Notified s xs r)
    (hRest : Notified s os ys rs) :
    Notified s (o :: os) (xs ++ ys) (r :: rs)

variable {σ : Type} (h : Handler σ) (s : Service)

/- An order is carried out with one message for each run. -/
theorem Order.program_notified (o : Order) (start : σ) :
    (o.program s).Yields h start fun xs r _ =>
      o.Notified s xs r := by
  cases o with
  | run job i =>
      refine (Action.yields_bind _ _ _ _ _).2 ?_
      apply ((Job.program_reports s i job).yields h start).mono
      intro xs result t hReported
      have hRun := Order.Notified.run hReported
      rw [← List.append_nil xs] at hRun
      exact hRun
  | sweep asOf =>
      refine (Action.yields_bind _ _ _ _ _).2 ?_
      apply (s.sweep_yields h asOf start).mono
      intro xs result t hSweeps
      have hSweep : (Order.sweep asOf).Notified s xs
          (.sweep result) := by
        cases hSweeps with
        | unscanned _ => exact .unscanned asOf _
        | scanned _ hVisits hCopies =>
            exact .swept hCopies (hVisits.forall fun copy t =>
              (Job.program_reports s copy .delete).yields h t)
      rw [← List.append_nil xs] at hSweep
      exact hSweep

/- So are all orders, by induction on their list. -/
theorem conduct_notified (orders : List Order) (start : σ) :
    (s.conduct orders).Yields h start fun xs rs _ =>
      s.Notified orders xs rs := by
  induction orders generalizing start with
  | nil => exact .none
  | cons o os ih =>
      refine (Action.yields_bind _ _ _ _ _).2 ?_
      apply (o.program_notified h s start).mono
      intro xs r t hOrder
      refine (Action.yields_bind _ _ _ _ _).2 ?_
      apply (ih t).mono
      intro ys rs u hRest
      have hAll := Notified.next hOrder hRest
      rw [← List.append_nil ys] at hAll
      exact hAll

end Service

------------------------------------------------------------
-- Worlds That Refuse Messages
------------------------------------------------------------

namespace World

/- A world as it is when no message is refused. -/
def heard (w : World) : World :=
  { w with outbox := { w.outbox with refusing := false } }

/- Failures do not depend on whether messages are refused. -/
theorem plainFault_heard (w : World) :
    w.heard.plainFault = w.plainFault.map heard := by
  unfold plainFault heard
  dsimp only
  split
  · rfl
  · split <;> rfl

theorem rivalActs_heard (w : World) :
    w.heard.rivalActs = w.rivalActs.heard := by
  unfold rivalActs heard
  dsimp only
  split
  · rfl
  · split <;> rfl

theorem change_heard
    {α : Type}
    (w : World)
    (r : Except StoreError (Store × α)) :
    w.heard.change r =
      ((w.change r).1.heard, (w.change r).2) := by
  unfold change
  split <;> rfl

/- The store is the same in both worlds. -/
theorem performStore_heard (w : World) (c : Store.Call) :
    w.heard.performStore c =
      ((w.performStore c).1.heard, (w.performStore c).2) := by
  cases c with
  | value path =>
      change (if w.faults.reads then _ else _) = _
      unfold performStore
      split <;> rfl
  | values path =>
      change (if w.faults.reads then _ else _) = _
      unfold performStore
      split <;> rfl
  | set path value =>
      unfold performStore
      rw [plainFault_heard]
      cases w.plainFault with
      | some v => rfl
      | none => exact change_heard w _
  | erase path =>
      unfold performStore
      rw [plainFault_heard]
      cases w.plainFault with
      | some v => rfl
      | none => exact change_heard w _
  | swap path expected value =>
      unfold performStore
      change (if w.faults.writes then _ else _) = _
      split
      · rfl
      · rw [rivalActs_heard]
        exact change_heard _ _

theorem performCluster_heard (w : World) (c : Cluster.Call) :
    w.heard.performCluster c =
      ((w.performCluster c).1.heard,
        (w.performCluster c).2) := by
  cases c with
  | watch key =>
      unfold performCluster openWatch heard
      dsimp only
      split <;> rfl
  | _ => rfl

/- Only messages are replied to in another way by a world that
   refuses them. -/
theorem perform_heard :
    Handler.Relays perform heard perform := by
  suffices hEach : ∀ (w : World) (c : Call),
      (w.perform c).1.heard = (w.heard.perform c).1 ∧
        (c.isMessage = false →
          (w.perform c).2 = (w.heard.perform c).2) from
    ⟨fun w c => (hEach w c).1, fun w c => (hEach w c).2⟩
  intro w c
  cases c with
  | store c =>
      have hBoth : w.heard.perform (.store c) = _ :=
        performStore_heard w c
      rw [hBoth]
      exact ⟨rfl, fun _ => rfl⟩
  | cluster c =>
      have hBoth : w.heard.perform (.cluster c) = _ :=
        performCluster_heard w c
      rw [hBoth]
      exact ⟨rfl, fun _ => rfl⟩
  | settle token id ms =>
      unfold perform heard
      dsimp only
      split <;> exact ⟨rfl, fun _ => rfl⟩
  | receive id ms =>
      unfold perform heard
      dsimp only
      split <;> exact ⟨rfl, fun _ => rfl⟩
  | send n =>
      refine ⟨?_, fun h => (nomatch h)⟩
      unfold perform heard
      dsimp only
      split <;> rfl
  | _ => exact ⟨rfl, fun _ => rfl⟩

end World

------------------------------------------------------------
-- Notifications
------------------------------------------------------------

/-
  Whatever a service is asked for and whatever it is replied,
  each run makes one attempt to send a message, after all its
  other calls, and the message tells of a success exactly if
  the run has one.  Environments that differ only in the
  messages that they accept see the same calls in the same
  states, and the service gives the same results.
-/
theorem Service.runs_notify
    {σ σ' ε : Type}
    {h : Handler σ}
    {h' : Handler σ'}
    {g : Handler ε}
    {view : σ → ε}
    {view' : σ' → ε}
    (hFirst : h.Relays view g)
    (hSecond : h'.Relays view' g)
    (s : Service)
    (orders : List Service.Order)
    {start : σ}
    {start' : σ'}
    (hStart : view start = view' start') :
    (s.conduct orders).Yields h start fun xs rs t =>
      s.Notified orders xs rs ∧
        (s.conduct orders).Yields h' start' fun xs' rs' t' =>
          rs' = rs ∧
            view' t' = view t ∧
            xs'.map Exchange.hushed =
              xs.map Exchange.hushed ∧
            ((s.conduct orders).states h' start').map view' =
              ((s.conduct orders).states h start).map view := by
  have hDeaf := s.conduct_deaf orders
  rcases hDeaf.agrees hFirst start with
    ⟨hResult, hEnd, hCalls, hStates⟩
  rcases hDeaf.agrees hSecond start' with
    ⟨hResult', hEnd', hCalls', hStates'⟩
  rw [← hStart] at hResult' hEnd' hCalls' hStates'
  exact ⟨s.conduct_notified h orders start,
    hResult'.trans hResult.symm, hEnd'.trans hEnd.symm,
    hCalls'.trans hCalls.symm, hStates'.trans hStates.symm⟩

/- A world that keeps its messages and refuses them or not. -/
def World.mailing (w : World) (refusing : Bool) : World :=
  { w with outbox := ⟨[], refusing⟩, keeps := true }

/- What a service with one instance is asked for. -/
def Service.threeOrders : List Order :=
  [.run .deploy (.ofBranch "main"), .sweep default,
    .run .delete (.ofBranch "main")]

/- An instance is deployed, a sweep takes place and the instance
   is deleted, in a world that accepts messages and in one that
   refuses them. -/
theorem Service.runs_notify_refused :
    Handler.Relays World.perform World.heard World.perform ∧
      (World.branching.mailing false).heard =
        (World.branching.mailing true).heard ∧
      (branching.conduct threeOrders).Yields World.perform
        (World.branching.mailing false) fun xs rs t =>
          branching.Notified threeOrders xs rs ∧
            (branching.conduct threeOrders).Yields World.perform
              (World.branching.mailing true) fun xs' rs' t' =>
                rs' = rs ∧
                  t'.heard = t.heard ∧
                  xs'.map Exchange.hushed =
                    xs.map Exchange.hushed := by
  have hStart : (World.branching.mailing false).heard =
      (World.branching.mailing true).heard := rfl
  rcases Service.runs_notify World.perform_heard
    World.perform_heard branching threeOrders hStart with
    ⟨hNotified, hResults, hEnd, hCalls, -⟩
  exact ⟨World.perform_heard, hStart, hNotified, hResults, hEnd,
    hCalls⟩

end Preview
