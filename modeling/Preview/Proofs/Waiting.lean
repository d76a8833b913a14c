import Preview.Proofs.Schedules
import Preview.Proofs.Tending

/-
  What decides a wait.

  A wait follows a watch while items arrive in it, and can be
  cancelled.  The first of its items that decides, its timeout
  and its cancellation compete, and whichever comes first
  decides.  What arrives before it is not enough, and what
  comes after it is not looked at.

  Main declarations:
    * `Item.Idle`, `Item.Decides` and `Timeline.Decided`
    * `Provision.start` and `Provision.await`
    * `Provision.follower_ends`
    * `Provision.undecided_until` and `resultWith_decided`
    * `Provision.wait_first`
-/

namespace Preview

open Preview.Stage (advance finishAll)

------------------------------------------------------------
-- Items
------------------------------------------------------------

namespace Item

/- An item that reports an object that goes on. -/
def Idle (item : Item) : Prop :=
  ∃ change object,
    item = .ok ⟨change, object⟩ ∧
      change ≠ .deleted ∧
      (object.phase? = none ∨ object.phase? = some .pending ∨
        object.phase? = some .running)

/- An item decides a wait, and how. -/
inductive Decides (label : String) :
    Item → Except StepError Unit → Prop where
  | broken (e : ClusterError) :
      Decides label (.error e) (.error (.cluster e))
  | gone (object : Resource) :
      Decides label (.ok ⟨.deleted, object⟩)
        (.error (.gone label))
  | succeeded
    {change : Change}
    {object : Resource}
    (hThere : change ≠ .deleted)
    (hPhase : object.phase? = some .succeeded) :
      Decides label (.ok ⟨change, object⟩) (.ok ())
  | failed
    {change : Change}
    {object : Resource}
    (hThere : change ≠ .deleted)
    (hPhase : object.phase? = some .failed) :
      Decides label (.ok ⟨change, object⟩)
        (.error (.setupFailed label))
  | unknown
    {change : Change}
    {object : Resource}
    (hThere : change ≠ .deleted)
    (hPhase : object.phase? = some .unknown) :
      Decides label (.ok ⟨change, object⟩)
        (.error (.stateUnknown label))

/- The verdict on an object that is there is that of its
   phase. -/
theorem ofItem?_of_there
    {change : Change}
    (hThere : change ≠ .deleted)
    (object : Resource) :
    Verdict.ofItem? (.ok ⟨change, object⟩) =
      object.phase?.bind Verdict.ofPhase? := by
  cases change with
  | deleted => exact absurd rfl hThere
  | _ => rfl

/- An item is idle if there is no verdict on it. -/
theorem idle_iff (item : Item) :
    Idle item ↔ Verdict.ofItem? item = none := by
  constructor
  · rintro ⟨change, object, rfl, hThere, hPhase⟩
    rw [ofItem?_of_there hThere]
    rcases hPhase with hPhase | hPhase | hPhase <;>
      rw [hPhase] <;> rfl
  · intro hNone
    rcases item with e | ⟨change, object⟩
    · cases hNone
    · by_cases hThere : change = .deleted
      · subst hThere
        cases hNone
      · refine ⟨change, object, rfl, hThere, ?_⟩
        rw [ofItem?_of_there hThere] at hNone
        rcases hPhase : object.phase? with - | phase
        · exact .inl rfl
        · rw [hPhase] at hNone
          cases phase <;> simp_all [Verdict.ofPhase?]

/- An item decides what its verdict comes to. -/
theorem decides_iff
    (label : String)
    (seconds : Nat)
    (item : Item)
    (out : Except StepError Unit) :
    Decides label item out ↔
      ∃ v, Verdict.ofItem? item = some v ∧
        Provision.outcome label seconds (.decided v) = out := by
  constructor
  · intro hDecides
    cases hDecides with
    | broken e => exact ⟨_, rfl, rfl⟩
    | gone object => exact ⟨_, rfl, rfl⟩
    | succeeded hThere hPhase =>
        refine ⟨.succeeded, ?_, rfl⟩
        rw [ofItem?_of_there hThere, hPhase]
        rfl
    | failed hThere hPhase =>
        refine ⟨.failed, ?_, rfl⟩
        rw [ofItem?_of_there hThere, hPhase]
        rfl
    | unknown hThere hPhase =>
        refine ⟨.unknown, ?_, rfl⟩
        rw [ofItem?_of_there hThere, hPhase]
        rfl
  · rintro ⟨v, hVerdict, rfl⟩
    rcases item with e | ⟨change, object⟩
    · cases hVerdict
      exact .broken e
    · by_cases hThere : change = .deleted
      · subst hThere
        cases hVerdict
        exact .gone object
      · rw [ofItem?_of_there hThere] at hVerdict
        rcases hPhase : object.phase? with - | phase
        · rw [hPhase] at hVerdict
          cases hVerdict
        · rw [hPhase] at hVerdict
          cases phase with
          | pending => cases hVerdict
          | running => cases hVerdict
          | succeeded =>
              cases hVerdict
              exact .succeeded hThere hPhase
          | failed =>
              cases hVerdict
              exact .failed hThere hPhase
          | unknown =>
              cases hVerdict
              exact .unknown hThere hPhase

end Item

------------------------------------------------------------
-- Timelines
------------------------------------------------------------

/- What arrives in a watch, when, and when the watch ends, if it
   ends. -/
structure Timeline where
  items : List (Nat × Item)
  close? : Option Nat
  hSorted :
    (items.map Prod.fst ++ close?.toList).Pairwise (· ≤ ·)

namespace Timeline

/- The first item that decides arrives at a time, or the watch
   ends then and none has decided. -/
inductive Decided (label : String) (close? : Option Nat) :
    List (Nat × Item) → Nat → Except StepError Unit →
      Prop where
  | item
    {time : Nat}
    {item : Item}
    {rest : List (Nat × Item)}
    {out : Except StepError Unit}
    (hDecides : item.Decides label out) :
      Decided label close? ((time, item) :: rest) time out
  | later
    {early time : Nat}
    {item : Item}
    {rest : List (Nat × Item)}
    {out : Except StepError Unit}
    (hIdle : item.Idle)
    (hRest : Decided label close? rest time out) :
      Decided label close? ((early, item) :: rest) time out
  | closed
    {time : Nat}
    (hClose : close? = some time) :
      Decided label close? [] time (.error (.watchClosed label))

section Pending

variable {label : String} {close? : Option Nat}
variable {items : List (Nat × Item)}

/- A decision comes with an item or with the end. -/
theorem Decided.mem_times
    {time : Nat}
    {out : Except StepError Unit}
    (hDecided : Decided label close? items time out) :
    time ∈ items.map Prod.fst ++ close?.toList := by
  induction hDecided with
  | item hDecides => exact .head _
  | later hIdle hRest ih => exact .tail _ ih
  | closed hClose =>
      rw [hClose]
      exact .head _

/- An item that does not decide does not matter. -/
theorem decided_cons_of_idle
    {item : Item}
    (hNone : Verdict.ofItem? item = none)
    (early time : Nat)
    (out : Except StepError Unit) :
    Decided label close? ((early, item) :: items) time out ↔
      Decided label close? items time out := by
  constructor
  · intro hDecided
    cases hDecided with
    | item hDecides =>
        rcases (Item.decides_iff label 0 item out).1 hDecides
          with ⟨v, hVerdict, -⟩
        rw [hNone] at hVerdict
        cases hVerdict
    | later hIdle hRest => exact hRest
  · exact .later ((Item.idle_iff item).2 hNone)

/- After an item that decides no other one counts. -/
theorem decided_cons_of_verdict
    {item : Item}
    {v : Verdict}
    (hVerdict : Verdict.ofItem? item = some v)
    (seconds first time : Nat)
    (out : Except StepError Unit) :
    Decided label close? ((first, item) :: items) time out ↔
      time = first ∧
        Provision.outcome label seconds (.decided v) = out := by
  constructor
  · intro hDecided
    cases hDecided with
    | item hDecides =>
        rcases (Item.decides_iff label seconds item out).1
          hDecides with ⟨v', hVerdict', hOut⟩
        rw [hVerdict] at hVerdict'
        cases hVerdict'
        exact ⟨rfl, hOut⟩
    | later hIdle hRest =>
        rw [(Item.idle_iff item).1 hIdle] at hVerdict
        cases hVerdict
  · rintro ⟨rfl, hOut⟩
    exact .item ((Item.decides_iff label seconds item out).2
      ⟨v, hVerdict, hOut⟩)

variable (label close? items)
variable {pending : List Item} (now seconds time : Nat)
variable (out : Except StepError Unit)

/- Items that decide nothing can be left out. -/
theorem decided_after_idle
    (hNone : pending.findSome? Verdict.ofItem? = none) :
    Decided label close?
        (pending.map (now, ·) ++ items) time out ↔
      Decided label close? items time out := by
  induction pending with
  | nil => rfl
  | cons item pending ih =>
      rw [List.findSome?_cons] at hNone
      cases hItem : Verdict.ofItem? item with
      | some v =>
          rw [hItem] at hNone
          cases hNone
      | none =>
          rw [hItem] at hNone
          exact (decided_cons_of_idle hItem _ _ _).trans
            (ih hNone)

/- An item that is there already decides at once. -/
theorem decided_by_pending
    {v : Verdict}
    (hSome : pending.findSome? Verdict.ofItem? = some v) :
    Decided label close?
        (pending.map (now, ·) ++ items) time out ↔
      time = now ∧
        Provision.outcome label seconds (.decided v) = out := by
  induction pending with
  | nil => cases hSome
  | cons item pending ih =>
      rw [List.findSome?_cons] at hSome
      cases hItem : Verdict.ofItem? item with
      | some v' =>
          rw [hItem] at hSome
          cases hSome
          exact decided_cons_of_verdict hItem _ _ _ _
      | none =>
          rw [hItem] at hSome
          exact (decided_cons_of_idle hItem _ _ _).trans
            (ih hSome)

end Pending

end Timeline

------------------------------------------------------------
-- Waits
------------------------------------------------------------

namespace Provision

/- Create a resource that is watched. -/
def start (ctx : Context) (r : Resource) :
    Attempt StepError Nat := do
  let id ← Context.asked
    (.perform (.cluster (.watch (ctx.key r))))
  match ← (ctx.create r : Action _) with
  | .error e =>
      Action.perform (.release id)
      throw (.cluster e)
  | .ok () => return id

/- Wait until a resource has finished. -/
def await (ctx : Context) (r : Resource) (id : Nat) :
    Attempt StepError Unit := do
  let seconds := ctx.timings.watchTimeoutSeconds
  let ending ←
    Action.perform (.settle ctx.token id (1000 * seconds))
  Action.perform (.release id)
  Attempt.ofExcept (outcome r.label seconds ending)

/- A step waits once it has created its resource. -/
theorem deploy_waits (ctx : Context) (r : Resource) :
    deploy ctx r = (do
      clear ctx r
      let id ← start ctx r
      await ctx r id
      ctx.deleteIfPresent r) := by
  have hComplete : complete ctx r = (do
      let id ← start ctx r
      await ctx r id) := by
    unfold complete start await
    rw [bind_assoc]
    refine bind_congr fun id => ?_
    rw [bind_assoc]
    refine bind_congr fun created => ?_
    cases created <;> rfl
  rw [deploy_eq, hComplete]
  refine bind_congr fun _ => ?_
  rw [bind_assoc]

end Provision

------------------------------------------------------------
-- Surroundings
------------------------------------------------------------

namespace World

/- An item arrives in a world. -/
def deliver (id : Nat) (item : Item) (w : World) : World :=
  { w with cluster := w.cluster.deliver id item }

/- A watch ends in a world. -/
def hangUp (id : Nat) (w : World) : World :=
  { w with cluster := w.cluster.hangUp id }

end World

/- The items of a watch arrive at their times, and it ends. -/
def arrivals (id : Nat) (close? : Option Nat) :
    List (Nat × Item) →
      Activity World (Except StepError Unit)
  | [] =>
      match close? with
      | none => .finish (.ok ())
      | some time =>
          .startingAt time
            (.change (World.hangUp id) fun _ =>
              .finish (.ok ()))
  | (time, item) :: rest =>
      .startingAt time
        (.change (World.deliver id item) fun _ =>
          arrivals id close? rest)

/- A token is cancelled at some time, if it is. -/
def cancellation (token : Nat) :
    Option Nat → Activity World (Except StepError Unit)
  | none => .finish (.ok ())
  | some time =>
      .startingAt time
        (.change (fun w => w.cancel token) fun _ =>
          .finish (.ok ()))

------------------------------------------------------------
-- Sleeping Threads
------------------------------------------------------------

/- A thread that does nothing until after some time. -/
inductive Thread.SleepsPast
    {σ ρ : Type}
    (d : Nat) : Thread σ ρ → Prop where
  | finished (result : ρ) : SleepsPast d (.finished result)
  | sleeping
    (issued : Nat)
    {time : Nat}
    (next : Unit → Activity σ ρ)
    (hLater : d < time) :
      SleepsPast d (.waiting issued (.sleep time) next)

/- A thread that sleeps past a time wakes later, if at all. -/
theorem Thread.SleepsPast.wakes
    {ρ : Type}
    {d : Nat}
    {t : Thread World ρ}
    (hSleeps : t.SleepsPast d)
    (w : World)
    (now : Nat) :
    ∀ e ∈ t.wakes? World.stage w now, d < e := by
  intro e hWakes
  cases hSleeps with
  | finished result => cases hWakes
  | sleeping issued next hLater =>
      cases hWakes
      exact Nat.lt_of_lt_of_le hLater (Nat.le_max_right _ _)

/- What starts at a time starts at once if the time has come,
   and sleeps until then if not. -/
theorem World.advance_startingAt_of_le
    {ρ : Type}
    {time : Nat}
    {w : World}
    (hCome : time ≤ w.clock)
    (t : Activity World ρ) :
    advance World.stage (.startingAt time t) w =
      advance World.stage t w :=
  if_pos hCome

/- What starts later sleeps until then. -/
theorem World.advance_startingAt_of_lt
    {ρ : Type}
    {time : Nat}
    {w : World}
    (hLater : w.clock < time)
    (t : Activity World ρ) :
    advance World.stage (.startingAt time t) w =
      (w, .waiting w.clock (.sleep time) fun _ => t) :=
  if_neg (Nat.not_le.2 hLater)

/- How a wait ends that ends now. -/
def World.ending (w : World) (token id : Nat) : Ending :=
  match w.cluster.verdict? id with
  | some v => .decided v
  | none => if w.isCancelled token then .cancelled else .timedOut

/- To settle is to look at the subscription and the token. -/
theorem World.perform_settle (w : World) (token id ms : Nat) :
    w.perform (.settle token id ms) = (w, w.ending token id) := by
  unfold perform ending
  dsimp only
  cases w.cluster.verdict? id <;> rfl

/- A release takes no time. -/
theorem World.advance_release
    {ρ : Type}
    (w : World)
    (id : Nat)
    (result : ρ) :
    advance World.stage
        (.call (.release id) fun _ => .finish result) w =
      ({ w with cluster := w.cluster.release id },
        .finished result) :=
  if_pos (Nat.le_refl w.clock)

/- Arrivals take no time, and do not undo what has been
   decided. -/
theorem World.advance_arrivals
    (id : Nat)
    (close? : Option Nat)
    (items : List (Nat × Item))
    (w : World) :
    (advance World.stage (arrivals id close? items) w).1.clock =
        w.clock ∧
      (advance World.stage
        (arrivals id close? items) w).2.SleepsPast w.clock ∧
      ∀ v, w.cluster.Brings id v →
        (advance World.stage
          (arrivals id close? items) w).1.cluster.Brings id v := by
  induction items generalizing w with
  | nil =>
      rcases close? with - | time
      · exact ⟨rfl, .finished _, fun v hBrings => hBrings⟩
      · unfold arrivals
        rcases Nat.lt_or_ge w.clock time with hLater | hCome
        · rw [advance_startingAt_of_lt hLater]
          exact ⟨rfl, .sleeping _ _ hLater,
            fun v hBrings => hBrings⟩
        · rw [advance_startingAt_of_le hCome]
          exact ⟨rfl, .finished _,
            fun v hBrings => hBrings.hangUp⟩
  | cons arrival rest ih =>
      rcases arrival with ⟨time, item⟩
      unfold arrivals
      rcases Nat.lt_or_ge w.clock time with hLater | hCome
      · rw [advance_startingAt_of_lt hLater]
        exact ⟨rfl, .sleeping _ _ hLater,
          fun v hBrings => hBrings⟩
      · rw [advance_startingAt_of_le hCome]
        have hRest := ih (w.deliver id item)
        exact ⟨hRest.1, hRest.2.1, fun v hBrings =>
          hRest.2.2 v (hBrings.deliver item)⟩

namespace Provision

section Runs

variable (ctx : Context) (r : Resource) (id issued : Nat)

/- What a wait asks for. -/
abbrev settling : Call :=
  .settle ctx.token id (1000 * ctx.timings.watchTimeoutSeconds)

/- A wait that has begun at some time. -/
def follower : Thread World (Except StepError Unit) :=
  .waiting issued (settling ctx id)
    fun ending => .call (.release id) fun _ =>
      .finish (outcome r.label ctx.timings.watchTimeoutSeconds
        ending)

/- When a wait that has begun gives up. -/
def deadline : Nat :=
  issued + 1000 * ctx.timings.watchTimeoutSeconds

/- A cancellation that is to come, if it is. -/
def canceller : Option Nat → Thread World (Except StepError Unit)
  | none => .finished (.ok ())
  | some time =>
      .waiting issued (.sleep time) fun _ =>
        .change (fun w => w.cancel ctx.token) fun _ =>
          .finish (.ok ())

/- A wait is the thread that settles, releases and tells. -/
theorem await_run :
    Activity.ofAction (await ctx r id).run Activity.finish =
      (follower ctx r id issued).activity :=
  rfl

variable {ctx r id issued}
variable {w : World} {p : Thread World (Except StepError Unit)}
variable {cancel? : Option Nat}

/- A cancellation is not earlier than it is to be. -/
theorem canceller_wakes
    {d now : Nat}
    (hLate : ∀ time ∈ cancel?, d ≤ max now time) :
    ∀ e ∈ (canceller ctx issued cancel?).wakes? World.stage w now,
      d ≤ e := by
  intro e hWakes
  rcases cancel? with - | time
  · cases hWakes
  · cases hWakes
    exact hLate time rfl

/- A wait that goes on before everything else ends with what is
   known then. -/
theorem follower_ends
    {d : Nat}
    (hDue : max w.clock (w.due issued
      (settling ctx id)) = d)
    (hBefore : p.SleepsPast d)
    (hAfter : ∀ time ∈ cancel?, d ≤ max w.clock time) :
    (finishAll World.stage
      [p, follower ctx r id issued,
        canceller ctx issued cancel?] w).2[1]? =
      some (some (outcome r.label
        ctx.timings.watchTimeoutSeconds
        (w.ending ctx.token id))) := by
  have hFirst : ∀ u ∈ [p],
      ∀ e ∈ u.wakes? World.stage w w.clock, d < e := by
    simpa using hBefore.wakes w w.clock
  have hRest : ∀ u ∈ [canceller ctx issued cancel?],
      ∀ e ∈ u.wakes? World.stage w w.clock, d ≤ e := by
    simpa using canceller_wakes hAfter
  have hStep := Stage.finishAll_wakes World.stage w [p]
    [canceller ctx issued cancel?] issued
    (settling ctx id)
    (fun ending => .call (.release id) fun _ =>
      .finish (outcome r.label ctx.timings.watchTimeoutSeconds
        ending))
    hDue hFirst hRest (World.perform_settle _ _ _ _)
  refine (congrArg (fun o => o.2[1]?) hStep).trans ?_
  apply Stage.finishAll_of_finished
  rw [World.advance_release]
  rfl

/- A wait for something that has not arrived ends at its
   deadline. -/
variable (issued) in
theorem due_settle
    (hNone : w.cluster.verdict? id = none)
    (hFree : w.isCancelled ctx.token = false) :
    w.due issued (settling ctx id) =
        deadline ctx issued := by
  unfold World.due
  dsimp only
  rw [hNone, hFree]
  rfl

/- Once something has arrived that decides, a wait ends. -/
theorem follower_decided
    {v : Verdict}
    (hVerdict : w.cluster.verdict? id = some v)
    (hIssued : issued ≤ w.clock)
    (hBefore : p.SleepsPast w.clock) :
    (finishAll World.stage
      [p, follower ctx r id issued,
        canceller ctx issued cancel?] w).2[1]? =
      some (some (outcome r.label
        ctx.timings.watchTimeoutSeconds (.decided v))) := by
  have hDue : w.due issued (settling ctx id) = issued := by
    unfold World.due
    dsimp only
    rw [hVerdict]
    rfl
  have hEnding : w.ending ctx.token id = .decided v := by
    unfold World.ending
    rw [hVerdict]
  rw [← hEnding]
  apply follower_ends _ hBefore
  · exact fun time _ => Nat.le_max_left _ _
  · rw [hDue]
    exact Nat.max_eq_left hIssued

/- Once it is cancelled, a wait for something that has not
   arrived ends. -/
theorem follower_stopped
    (hNone : w.cluster.verdict? id = none)
    (hCancelled : w.isCancelled ctx.token = true)
    (hIssued : issued ≤ w.clock)
    (hBefore : p.SleepsPast w.clock) :
    (finishAll World.stage
      [p, follower ctx r id issued,
        canceller ctx issued cancel?] w).2[1]? =
      some (some (.error (.cancelled r.label))) := by
  have hDue : w.due issued (settling ctx id) = issued := by
    unfold World.due
    dsimp only
    rw [hCancelled, Bool.or_true]
    rfl
  have hEnding : w.ending ctx.token id = .cancelled := by
    unfold World.ending
    rw [hNone, hCancelled]
    rfl
  have hOutcome : outcome r.label
      ctx.timings.watchTimeoutSeconds (w.ending ctx.token id) =
        .error (.cancelled r.label) := by
    rw [hEnding]
    rfl
  rw [← hOutcome]
  apply follower_ends _ hBefore
  · exact fun time _ => Nat.le_max_left _ _
  · rw [hDue]
    exact Nat.max_eq_left hIssued

section Undecided

variable (hNone : w.cluster.verdict? id = none)
variable (hFree : w.isCancelled ctx.token = false)

include hNone hFree

/- A wait ends at its deadline if nothing happens before. -/
theorem follower_timedOut
    (hClock : w.clock ≤ deadline ctx issued)
    (hBefore : p.SleepsPast (deadline ctx issued))
    (hAfter : ∀ time ∈ cancel?, deadline ctx issued < time) :
    (finishAll World.stage
      [p, follower ctx r id issued,
        canceller ctx issued cancel?] w).2[1]? =
      some (some (.error (.timeout r.label
        ctx.timings.watchTimeoutSeconds))) := by
  have hEnding : w.ending ctx.token id = .timedOut := by
    unfold World.ending
    rw [hNone, hFree]
    rfl
  have hDue : max w.clock (w.due issued (settling ctx id)) =
        deadline ctx issued := by
    rw [due_settle issued hNone hFree]
    exact Nat.max_eq_right hClock
  have hRest : ∀ time ∈ cancel?,
      deadline ctx issued ≤ max w.clock time :=
    fun time hTime => Nat.le_trans
      (Nat.le_of_lt (hAfter time hTime)) (Nat.le_max_right _ _)
  refine (follower_ends hDue hBefore hRest).trans ?_
  rw [hEnding]
  rfl

/- A wait ends with its cancellation if nothing happens
   before. -/
theorem follower_cancelled
    {time : Nat}
    (hClock : w.clock ≤ time)
    (hEarly : time < deadline ctx issued)
    (hIssued : issued ≤ time)
    (hBefore : p.SleepsPast time) :
    (finishAll World.stage
      [p, follower ctx r id issued,
        canceller ctx issued (some time)] w).2[1]? =
      some (some (.error (.cancelled r.label))) := by
  have hOthers : ∀ u ∈ [p, follower ctx r id issued],
      ∀ e ∈ u.wakes? World.stage w w.clock, time < e := by
    intro u hu e hWakes
    rcases List.mem_cons.1 hu with rfl | hu
    · exact hBefore.wakes w w.clock e hWakes
    · cases List.mem_singleton.1 hu
      cases hWakes
      refine Nat.lt_of_lt_of_le hEarly ?_
      rw [← due_settle issued hNone hFree]
      exact Nat.le_max_right _ _
  have hStep := Stage.finishAll_wakes World.stage w
    [p, follower ctx r id issued] [] issued (.sleep time)
    (fun _ => .change (fun w => w.cancel ctx.token) fun _ =>
      .finish (.ok ()))
    (Nat.max_eq_right hClock) hOthers nofun rfl
  refine (congrArg (fun o => o.2[1]?) hStep).trans ?_
  have hCancelled : (({ w with clock := time } : World).cancel
      ctx.token).isCancelled ctx.token = true :=
    List.contains_cons.trans (by simp)
  change (finishAll World.stage
    [p, follower ctx r id issued, canceller ctx issued none]
    (({ w with clock := time } : World).cancel
      ctx.token)).2[1]? = _
  exact follower_stopped hNone hCancelled hIssued hBefore

end Undecided

------------------------------------------------------------
-- Races
------------------------------------------------------------

/- How a wait ends while an activity goes on. -/
variable (ctx r id issued cancel?) in
def resultWith
    (t : Activity World (Except StepError Unit))
    (w : World) : Option (Option (Except StepError Unit)) :=
  (finishAll World.stage
    [(advance World.stage t w).2, follower ctx r id issued,
      canceller ctx issued cancel?]
    (advance World.stage t w).1).2[1]?

/- What starts before a wait ends starts at its time. -/
theorem resultWith_startingAt
    (hNone : w.cluster.verdict? id = none)
    (hFree : w.isCancelled ctx.token = false)
    {time : Nat}
    (hDeadline : time ≤ deadline ctx issued)
    (hCancel : ∀ other ∈ cancel?, time ≤ other)
    (t : Activity World (Except StepError Unit)) :
    resultWith ctx r id issued cancel? (.startingAt time t) w =
      resultWith ctx r id issued cancel? t
        { w with clock := max w.clock time } := by
  unfold resultWith
  rcases Nat.lt_or_ge w.clock time with hLater | hCome
  · have hMax := Nat.max_eq_right (Nat.le_of_lt hLater)
    rw [World.advance_startingAt_of_lt hLater, hMax]
    have hOthers : ∀ u ∈ [follower ctx r id issued,
        canceller ctx issued cancel?],
        ∀ e ∈ u.wakes? World.stage w w.clock, time ≤ e := by
      intro u hu e hWakes
      rcases List.mem_cons.1 hu with rfl | hu
      · cases hWakes
        refine Nat.le_trans hDeadline ?_
        rw [← due_settle issued hNone hFree]
        exact Nat.le_max_right _ _
      · cases List.mem_singleton.1 hu
        refine canceller_wakes ?_ e hWakes
        exact fun other hOther => Nat.le_trans
          (hCancel other hOther) (Nat.le_max_right _ _)
    have hStep := Stage.finishAll_wakes World.stage w []
      [follower ctx r id issued, canceller ctx issued cancel?]
      w.clock (.sleep time) (fun _ => t) hMax nofun hOthers rfl
    exact congrArg (fun o => o.2[1]?) hStep
  · rw [World.advance_startingAt_of_le hCome,
      Nat.max_eq_left hCome]

/- What starts later sleeps until then. -/
theorem resultWith_sleeping
    {time : Nat}
    (hLater : w.clock < time)
    (t : Activity World (Except StepError Unit)) :
    resultWith ctx r id issued cancel? (.startingAt time t) w =
      (finishAll World.stage
        [.waiting w.clock (.sleep time) fun _ => t,
          follower ctx r id issued,
          canceller ctx issued cancel?] w).2[1]? := by
  unfold resultWith
  rw [World.advance_startingAt_of_lt hLater]

/- An item that comes in time arrives before anything else
   happens; the wait goes on from there. -/
theorem resultWith_arrival
    (hNone : w.cluster.verdict? id = none)
    (hFree : w.isCancelled ctx.token = false)
    {time : Nat}
    (hDeadline : time ≤ deadline ctx issued)
    (hCancel : ∀ other ∈ cancel?, time ≤ other)
    (close? : Option Nat)
    (item : Item)
    (rest : List (Nat × Item)) :
    resultWith ctx r id issued cancel?
        (arrivals id close? ((time, item) :: rest)) w =
      resultWith ctx r id issued cancel?
        (arrivals id close? rest)
        (World.deliver id item
          { w with clock := max w.clock time }) :=
  resultWith_startingAt hNone hFree hDeadline hCancel _

/- Once something has arrived that decides, it does not matter
   what else arrives. -/
theorem resultWith_of_brings
    {v : Verdict}
    (hBrings : w.cluster.Brings id v)
    (hIssued : issued ≤ w.clock)
    (close? : Option Nat)
    (items : List (Nat × Item)) :
    resultWith ctx r id issued cancel?
        (arrivals id close? items) w =
      some (some (outcome r.label
        ctx.timings.watchTimeoutSeconds (.decided v))) := by
  rcases World.advance_arrivals id close? items w with
    ⟨hClock, hSleeps, hKept⟩
  rw [← hClock] at hIssued hSleeps
  exact follower_decided (hKept v hBrings).verdict hIssued
    hSleeps

/-
  The item that decides comes before the deadline and the
  cancellation.  By induction on what comes before it.
-/
theorem resultWith_decided
    {close? : Option Nat}
    {items : List (Nat × Item)}
    {time : Nat}
    {out : Except StepError Unit}
    (hDecided : Timeline.Decided r.label close? items time out)
    (hSorted :
      (items.map Prod.fst ++ close?.toList).Pairwise (· ≤ ·))
    (hAwaits : w.cluster.Awaits id)
    (hFree : w.isCancelled ctx.token = false)
    (hIssued : issued ≤ w.clock)
    (hDeadline : time < deadline ctx issued)
    (hCancel : ∀ other ∈ cancel?, time < other) :
    resultWith ctx r id issued cancel?
      (arrivals id close? items) w = some (some out) := by
  induction hDecided generalizing w with
  | @item time item rest out hDecides =>
      rcases (Item.decides_iff r.label
        ctx.timings.watchTimeoutSeconds item out).1 hDecides
        with ⟨v, hVerdict, rfl⟩
      rw [resultWith_arrival hAwaits.verdict hFree
        (Nat.le_of_lt hDeadline)
        (fun other hOther => Nat.le_of_lt (hCancel other hOther))]
      apply resultWith_of_brings (hAwaits.brings hVerdict)
      exact Nat.le_trans hIssued (Nat.le_max_left _ _)
  | @later early time item rest out hIdle hRest ih =>
      have hEarly : early ≤ time :=
        (List.pairwise_cons.1 hSorted).1 time hRest.mem_times
      rw [resultWith_arrival hAwaits.verdict hFree
        (Nat.le_of_lt (Nat.lt_of_le_of_lt hEarly hDeadline))
        (fun other hOther => Nat.le_of_lt
          (Nat.lt_of_le_of_lt hEarly (hCancel other hOther)))]
      refine ih (List.pairwise_cons.1 hSorted).2 ?_ ?_ ?_
        hDeadline hCancel
      · exact hAwaits.deliver ((Item.idle_iff item).1 hIdle)
      · exact hFree
      · exact Nat.le_trans hIssued (Nat.le_max_left _ _)
  | @closed time hClose =>
      rw [hClose]
      unfold arrivals
      dsimp only
      rw [resultWith_startingAt hAwaits.verdict hFree
        (Nat.le_of_lt hDeadline)
        (fun other hOther => Nat.le_of_lt (hCancel other hOther))]
      have hClosed := hAwaits.closed
      exact follower_decided
        (w := World.hangUp id { w with clock := max w.clock time })
        hClosed (Nat.le_trans hIssued (Nat.le_max_left _ _))
        (.finished _)

/-
  Nothing that decides arrives up to some time, and neither
  the deadline nor the cancellation is before it.  Then the
  wait goes on up to that time.  By induction on the items.
-/
theorem undecided_until
    {close? : Option Nat}
    {items : List (Nat × Item)}
    {bound : Nat}
    (hDeadline : bound ≤ deadline ctx issued)
    (hCancel : ∀ other ∈ cancel?, bound ≤ other)
    (hLate : ∀ time out,
      Timeline.Decided r.label close? items time out →
        bound < time)
    (hAwaits : w.cluster.Awaits id)
    (hFree : w.isCancelled ctx.token = false)
    (hClock : w.clock ≤ bound) :
    ∃ (now : World) (p : Thread World (Except StepError Unit)),
      resultWith ctx r id issued cancel?
          (arrivals id close? items) w =
        (finishAll World.stage
          [p, follower ctx r id issued,
            canceller ctx issued cancel?] now).2[1]? ∧
      now.cluster.verdict? id = none ∧
      now.isCancelled ctx.token = false ∧
      now.clock ≤ bound ∧
      p.SleepsPast bound := by
  induction items generalizing w with
  | nil =>
      rcases close? with - | time
      · exact ⟨w, .finished (.ok ()), rfl, hAwaits.verdict, hFree,
          hClock, .finished _⟩
      · have hLater := hLate time _ (.closed rfl)
        refine ⟨w, .waiting w.clock (.sleep time) fun _ =>
          .change (World.hangUp id) fun _ => .finish (.ok ()),
          ?_, hAwaits.verdict, hFree, hClock,
          .sleeping w.clock _ hLater⟩
        exact resultWith_sleeping
          (Nat.lt_of_le_of_lt hClock hLater) _
  | cons arrival rest ih =>
      rcases arrival with ⟨time, item⟩
      -- an item that comes in time decides nothing, and the
      -- wait goes on; one that is later is slept past
      rcases Nat.lt_or_ge bound time with hLater | hCome
      · refine ⟨w, .waiting w.clock (.sleep time) fun _ =>
          .change (World.deliver id item) fun _ =>
            arrivals id close? rest,
          ?_, hAwaits.verdict, hFree, hClock,
          .sleeping w.clock _ hLater⟩
        exact resultWith_sleeping
          (Nat.lt_of_le_of_lt hClock hLater) _
      · rw [resultWith_arrival hAwaits.verdict hFree
          (Nat.le_trans hCome hDeadline)
          (fun other hOther =>
            Nat.le_trans hCome (hCancel other hOther))]
        cases hItem : Verdict.ofItem? item with
        | some v =>
            have hTooEarly := hLate time _
              ((Timeline.decided_cons_of_verdict hItem
                ctx.timings.watchTimeoutSeconds time time _).2
                  ⟨rfl, rfl⟩)
            exact absurd hCome (Nat.not_le.2 hTooEarly)
        | none =>
            refine ih ?_ (hAwaits.deliver hItem) hFree
              (Nat.max_le.2 ⟨hClock, hCome⟩)
            intro other out hRest
            exact hLate other out
              ((Timeline.decided_cons_of_idle hItem time other
                out).2 hRest)

section Late

variable {close? : Option Nat} {items : List (Nat × Item)}
variable (hAwaits : w.cluster.Awaits id)
variable (hFree : w.isCancelled ctx.token = false)

include hAwaits hFree

/- The cancellation comes before the deadline and before
   everything that decides. -/
theorem resultWith_cancelled
    {cancel : Nat}
    (hIssued : issued ≤ cancel)
    (hClock : w.clock ≤ cancel)
    (hDeadline : cancel < deadline ctx issued)
    (hLate : ∀ time out,
      Timeline.Decided r.label close? items time out →
        cancel < time) :
    resultWith ctx r id issued (some cancel)
        (arrivals id close? items) w =
      some (some (.error (.cancelled r.label))) := by
  have hOnly : ∀ other ∈ some cancel, cancel ≤ other := by
    simp
  rcases undecided_until (Nat.le_of_lt hDeadline) hOnly hLate
    hAwaits hFree hClock with
    ⟨now, p, hResult, hNone, hStill, hNow, hSleeps⟩
  rw [hResult]
  exact follower_cancelled hNone hStill hNow hDeadline hIssued
    hSleeps

/- The deadline comes before the cancellation and before
   everything that decides. -/
theorem resultWith_timedOut
    (hClock : w.clock ≤ deadline ctx issued)
    (hCancel : ∀ other ∈ cancel?, deadline ctx issued < other)
    (hLate : ∀ time out,
      Timeline.Decided r.label close? items time out →
        deadline ctx issued < time) :
    resultWith ctx r id issued cancel?
        (arrivals id close? items) w =
      some (some (.error (.timeout r.label
        ctx.timings.watchTimeoutSeconds))) := by
  rcases undecided_until (Nat.le_refl _)
    (fun other hOther => Nat.le_of_lt (hCancel other hOther))
    hLate hAwaits hFree hClock with
    ⟨now, p, hResult, hNone, hStill, hNow, hSleeps⟩
  rw [hResult]
  exact follower_timedOut hNone hStill hNow hSleeps hCancel

end Late

/- A cancellation that is to come sleeps until then. -/
theorem advance_cancellation
    (hLater : ∀ time ∈ cancel?, w.clock < time) :
    advance World.stage (cancellation ctx.token cancel?) w =
      (w, canceller ctx w.clock cancel?) := by
  rcases cancel? with - | time
  · rfl
  · exact World.advance_startingAt_of_lt (hLater time rfl) _

/- A wait ends at once if it is due, and is followed if not. -/
theorem advance_await (w : World) :
    advance World.stage
        (.ofAction (await ctx r id).run .finish) w =
      if w.due w.clock (settling ctx id) ≤ w.clock
      then
        ({ w with cluster := w.cluster.release id },
          .finished (outcome r.label
            ctx.timings.watchTimeoutSeconds
            (w.ending ctx.token id)))
      else (w, follower ctx r id w.clock) := by
  rw [await_run ctx r id w.clock]
  unfold follower Thread.activity
  rw [Stage.advance]
  refine if_congr Iff.rfl ?_ rfl
  have hPerform : World.stage.perform
      (World.stage.issue w (settling ctx id))
      (settling ctx id) = (w, w.ending ctx.token id) :=
    World.perform_settle w ctx.token id _
  rw [hPerform]
  exact World.advance_release w id _

/- Items arrive in a watch while a wait follows it, which is
   cancelled at some time, if it is. -/
theorem runAll_await
    (w : World)
    (tl : Timeline)
    (hLater : ∀ time ∈ cancel?, w.clock < time) :
    (World.stage.runAll
      [arrivals id tl.close? tl.items,
        .ofAction (await ctx r id).run .finish,
        cancellation ctx.token cancel?] w).2[1]? =
      resultWith ctx r id w.clock cancel?
        (arrivals id tl.close? tl.items) w := by
  rcases World.advance_arrivals id tl.close? tl.items w with
    ⟨hClock, hSleeps, -⟩
  unfold resultWith Stage.runAll
  simp only [Stage.startAll]
  generalize advance World.stage
    (arrivals id tl.close? tl.items) w = start
    at hClock hSleeps ⊢
  rcases start with ⟨now, p⟩
  dsimp only at hClock hSleeps ⊢
  rw [← hClock] at hSleeps hLater ⊢
  rw [advance_await]
  split
  · rename_i hDue
    refine (Stage.finishAll_of_finished World.stage _
      rfl).trans ?_
    exact (follower_ends (Nat.max_eq_left hDue) hSleeps
      fun time _ => Nat.le_max_left _ _).symm
  · rw [advance_cancellation hLater]

end Runs

end Provision

/-
  A step waits once it has created its resource.  Items arrive
  in its watch, some before the wait and some after it has
  begun, the watch may end, and the wait may be cancelled.

  If the first of these items that decides, or the end of the
  watch if none does, comes before the timeout and before the
  cancellation, then the wait ends as this item says.  If the
  cancellation comes first, then it is cancelled, and if the
  timeout comes first, it times out.
-/
theorem Provision.wait_first
    (ctx : Context)
    (r : Resource)
    {w : World}
    {id : Nat}
    {watch : Subscription}
    (hWatch : w.cluster.subscription? id = some watch)
    (hOpen : watch.ended = false)
    (hFree : w.isCancelled ctx.token = false)
    (tl : Timeline)
    {cancel? : Option Nat}
    (hLater : ∀ time ∈ cancel?, w.clock < time) :
    (deploy ctx r = (do
      clear ctx r
      let id ← start ctx r
      await ctx r id
      ctx.deleteIfPresent r)) ∧
    let Decided := Timeline.Decided r.label tl.close?
      (watch.pending.map (w.clock, ·) ++ tl.items)
    let timeout :=
      w.clock + 1000 * ctx.timings.watchTimeoutSeconds
    let result := (World.stage.runAll
      [arrivals id tl.close? tl.items,
        .ofAction (await ctx r id).run .finish,
        cancellation ctx.token cancel?] w).2[1]?
    (∀ time out, Decided time out →
      time < timeout → (∀ cancel ∈ cancel?, time < cancel) →
        result = some (some out)) ∧
    (∀ cancel ∈ cancel?, cancel < timeout →
      (∀ time out, Decided time out → cancel < time) →
        result = some (some (.error (.cancelled r.label)))) ∧
    ((∀ cancel ∈ cancel?, timeout < cancel) →
      (∀ time out, Decided time out → timeout < time) →
        result = some (some (.error (.timeout r.label
          ctx.timings.watchTimeoutSeconds)))) := by
  refine ⟨deploy_waits ctx r, ?_⟩
  dsimp only
  rw [runAll_await w tl hLater]
  -- if something that waits decides, the wait ends at once; if
  -- not, what is to come does
  cases hPending : watch.pending.findSome? Verdict.ofItem? with
  | some v =>
      have hDecided := fun time out =>
        Timeline.decided_by_pending r.label tl.close? tl.items
          w.clock ctx.timings.watchTimeoutSeconds time out
          hPending
      rw [resultWith_of_brings ⟨watch, hWatch, hPending⟩
        (Nat.le_refl _)]
      refine ⟨?_, ?_, ?_⟩
      · intro time out hFirst _ _
        rw [((hDecided time out).1 hFirst).2]
      · intro cancel hCancel _ hLate
        have hTooLate := hLate _ _ ((hDecided _ _).2 ⟨rfl, rfl⟩)
        exact absurd (hLater cancel hCancel)
          (Nat.lt_asymm hTooLate)
      · intro _ hLate
        have hTooLate := hLate _ _ ((hDecided _ _).2 ⟨rfl, rfl⟩)
        exact absurd hTooLate
          (Nat.not_lt.2 (Nat.le_add_right _ _))
  | none =>
      have hAwaits : w.cluster.Awaits id :=
        ⟨watch, hWatch, hOpen, hPending⟩
      have hDecided := fun time out =>
        Timeline.decided_after_idle r.label tl.close? tl.items
          w.clock time out hPending
      refine ⟨?_, ?_, ?_⟩
      · intro time out hFirst hTimeout hCancel
        exact resultWith_decided ((hDecided time out).1 hFirst)
          tl.hSorted hAwaits hFree (Nat.le_refl _) hTimeout
          hCancel
      · intro cancel hCancel hTimeout hLate
        cases hCancel
        have hClock := Nat.le_of_lt (hLater cancel rfl)
        exact resultWith_cancelled hAwaits hFree hClock hClock
          hTimeout fun time out hItem =>
            hLate time out ((hDecided time out).2 hItem)
      · intro hCancel hLate
        exact resultWith_timedOut hAwaits hFree
          (Nat.le_add_right _ _) hCancel fun time out hItem =>
            hLate time out ((hDecided time out).2 hItem)

namespace Provision

/- A pod that is reported to run at 5 and to have succeeded at
   10, after which its watch ends. -/
def seedTimeline : Timeline where
  items :=
    [(5, .ok ⟨.modified, seed.setPhase .running⟩),
      (10, .ok ⟨.modified, seed.setPhase .succeeded⟩)]
  close? := some 12
  hSorted := by decide

/- A world with one subscription, in which nothing has
   arrived. -/
def watchedWorld : World :=
  { (default : World) with
    cluster := (Cluster.empty.subscribe none [] false).1 }

/- A context whose waits last so many seconds. -/
def patiently (seconds : Nat) : Context :=
  ⟨"previews", { watchTimeoutSeconds := seconds }, 0⟩

/- A wait for these items, with a cancellation or without. -/
def seedRun (seconds : Nat) (cancel? : Option Nat) :
    Option (Option (Except StepError Unit)) :=
  (World.stage.runAll
    [arrivals 0 seedTimeline.close? seedTimeline.items,
      .ofAction (await (patiently seconds) seed 0).run .finish,
      cancellation 0 cancel?] watchedWorld).2[1]?

/- Its decision is the success at 10. -/
theorem seedTimeline_decided
    (time : Nat)
    (out : Except StepError Unit) :
    Timeline.Decided seed.label seedTimeline.close?
        ([].map (0, ·) ++ seedTimeline.items) time out ↔
      time = 10 ∧ .ok () = out := by
  have hRunning : Verdict.ofItem?
      (.ok ⟨.modified, seed.setPhase .running⟩) = none := by
    decide +kernel
  have hSucceeded : Verdict.ofItem?
      (.ok ⟨.modified, seed.setPhase .succeeded⟩) =
        some .succeeded := by
    decide +kernel
  exact (Timeline.decided_cons_of_idle hRunning 5 time
    out).trans
      (Timeline.decided_cons_of_verdict hSucceeded 0 10 time out)

/- A later cancellation does not matter, an earlier one does,
   and so does an earlier timeout. -/
theorem wait_first_seed :
    seedRun 1 (some 20) = some (some (.ok ())) ∧
      seedRun 1 (some 7) =
        some (some (.error (.cancelled seed.label))) ∧
      seedRun 0 none =
        some (some (.error (.timeout seed.label 0))) := by
  have hWatch : watchedWorld.cluster.subscription? 0 =
      some ⟨0, none, [], false⟩ := rfl
  have hNever : ∀ time ∈ (none : Option Nat),
      watchedWorld.clock < time := by
    simp
  have hSoon : ∀ time ∈ some 7, watchedWorld.clock < time := by
    decide
  have hLate : ∀ time ∈ some 20, watchedWorld.clock < time := by
    decide
  have hOnly {bound : Nat} (hBound : bound < 10) :
      ∀ time out,
        Timeline.Decided seed.label seedTimeline.close?
          ([].map (0, ·) ++ seedTimeline.items) time out →
        bound < time := by
    intro time out hDecided
    rw [((seedTimeline_decided time out).1 hDecided).1]
    exact hBound
  refine ⟨?_, ?_, ?_⟩
  · exact (wait_first (patiently 1) seed hWatch rfl rfl
      seedTimeline hLate).2.1 10 (.ok ())
        ((seedTimeline_decided _ _).2 ⟨rfl, rfl⟩)
        (by decide) (by decide)
  · exact (wait_first (patiently 1) seed hWatch rfl rfl
      seedTimeline hSoon).2.2.1 7 rfl (by decide)
        (hOnly (by decide))
  · exact (wait_first (patiently 0) seed hWatch rfl rfl
      seedTimeline hNever).2.2.2 (by simp) (hOnly (by decide))

end Provision

end Preview
