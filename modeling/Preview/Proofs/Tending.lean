import Preview.Proofs.Journal
import Preview.Proofs.Steps
import Preview.Proofs.Watches

/-
  How a resource that runs to completion is tended.

  A step asks for one thing after the other, until something
  fails.  A watch that it has opened it releases in every
  case.  What it has created it removes only if the wait ended
  with success.

  Main declarations:
    * `asked`, `found`, `watched` and `succeeded`
    * `Provision.fault?`
    * `Provision.Clearing`, `Running` and `Tending`
    * `Cluster.Undisturbed`
    * `Provision.deploy_cleans_up`
-/

namespace Preview

open Preview.Action (Handler)

------------------------------------------------------------
-- What Was Asked and Told
------------------------------------------------------------

namespace Call

/- What is asked of a cluster. -/
def asked? : Call → Option Cluster.Call
  | cluster c => some c
  | _ => none

/- Whether a call asks for a watch. -/
def isWatch : Call → Bool
  | cluster (.watch _) => true
  | _ => false

/- Whether a read has found an object. -/
def finds : (c : Call) → c.Reply → Bool
  | cluster (.get _), .ok (some _) => true
  | _, _ => false

/- Whether a watch has been opened. -/
def opens : (c : Call) → c.Reply → Bool
  | cluster (.watch _), .ok _ => true
  | _, _ => false

/- Whether a wait has ended with success. -/
def succeeds : (c : Call) → c.Reply → Bool
  | settle _ _ _, .decided .succeeded => true
  | _, _ => false

end Call

/- The calls of a cluster among some exchanges. -/
def asked (xs : List Exchange) : List Cluster.Call :=
  xs.filterMap fun x => x.call.asked?

/- Some read has found an object. -/
def found (xs : List Exchange) : Bool :=
  xs.any fun x => x.call.finds x.reply

/- Some watch has been opened. -/
def watched (xs : List Exchange) : Bool :=
  xs.any fun x => x.call.opens x.reply

/- Some wait has ended with success. -/
def succeeded (xs : List Exchange) : Bool :=
  xs.any fun x => x.call.succeeds x.reply

/- What happened before a watch was asked for. -/
def beforeWatch (xs : List Exchange) : List Exchange :=
  xs.takeWhile fun x => !x.call.isWatch

section Appended

variable (xs ys : List Exchange)

/- All four are read off piece by piece. -/
theorem asked_append : asked (xs ++ ys) = asked xs ++ asked ys :=
  List.filterMap_append

theorem found_append :
    found (xs ++ ys) = (found xs || found ys) :=
  List.any_append

theorem watched_append :
    watched (xs ++ ys) = (watched xs || watched ys) :=
  List.any_append

theorem succeeded_append :
    succeeded (xs ++ ys) = (succeeded xs || succeeded ys) :=
  List.any_append

end Appended

/- What follows an element that is there at most once. -/
theorem rest_of_once
    {α : Type}
    {a : α}
    {early late past rest : List α}
    {there : Bool}
    (hEarly : a ∉ early)
    (hLate : a ∉ late)
    (hSplit : past ++ a :: rest =
      early ++ ((if there then [a] else []) ++ late)) :
    rest = late := by
  cases there with
  | true =>
      exact ((List.append_cons_inj_of_notMem hEarly
        hLate).1 hSplit.symm).2.2.symm
  | false =>
      have hMem : a ∈ early ++ late :=
        hSplit ▸ List.mem_append_right past (.head rest)
      rcases List.mem_append.1 hMem with hMem | hMem
      · exact absurd hMem hEarly
      · exact absurd hMem hLate

------------------------------------------------------------
-- Ways Through a Step
------------------------------------------------------------

namespace Provision

/- The failure that a reply is for a step.  That there was
   nothing to delete is none. -/
def fault? (ctx : Context) (r : Resource) :
    (c : Call) → c.Reply → Option StepError
  | .cluster (.delete _), .error (.notFound _ _) => none
  | .cluster (.get _), .error e => some (.cluster e)
  | .cluster (.delete _), .error e => some (.cluster e)
  | .cluster (.watch _), .error e => some (.cluster e)
  | .cluster (.create _ _ _), .error e => some (.cluster e)
  | .pause _ _, false => some (.cancelled r.label)
  | .settle _ _ _, ending =>
      match outcome r.label ctx.timings.watchTimeoutSeconds
        ending with
      | .ok () => none
      | .error e => some e
  | _, _ => none

/- The failures of a step, in order. -/
def faults (ctx : Context) (r : Resource)
    (xs : List Exchange) : List StepError :=
  xs.filterMap fun x => fault? ctx r x.call x.reply

section Ways

variable (ctx : Context) (r : Resource)

/- What a removal comes to that need not find anything. -/
abbrev removed : Except ClusterError Unit → Except StepError Unit :=
  Step.removed .provisioning

/- The ways to remove what was left before. -/
inductive Clearing :
    List Exchange → Except StepError Unit → Prop where
  | unread (e : ClusterError) :
      Clearing [⟨.cluster (.get (ctx.key r)), .error e⟩]
        (.error (.cluster e))
  | absent :
      Clearing [⟨.cluster (.get (ctx.key r)), .ok none⟩] (.ok ())
  | undeleted
    (live : Resource)
    (reply : Except ClusterError Unit)
    (e : StepError)
    (hReply : removed reply = .error e) :
      Clearing
        [⟨.cluster (.get (ctx.key r)), .ok (some live)⟩,
          ⟨.cluster (.delete (ctx.key r)), reply⟩]
        (.error e)
  | interrupted
    (live : Resource)
    (reply : Except ClusterError Unit)
    (hReply : removed reply = .ok ()) :
      Clearing
        [⟨.cluster (.get (ctx.key r)), .ok (some live)⟩,
          ⟨.cluster (.delete (ctx.key r)), reply⟩,
          ⟨.pause ctx.token ctx.timings.deletionSettleMs, false⟩]
        (.error (.cancelled r.label))
  | cleared
    (live : Resource)
    (reply : Except ClusterError Unit)
    (hReply : removed reply = .ok ()) :
      Clearing
        [⟨.cluster (.get (ctx.key r)), .ok (some live)⟩,
          ⟨.cluster (.delete (ctx.key r)), reply⟩,
          ⟨.pause ctx.token ctx.timings.deletionSettleMs, true⟩]
        (.ok ())

/- The ways to create and follow a resource. -/
inductive Running :
    List Exchange → Except StepError Unit → Prop where
  | unwatched (e : ClusterError) :
      Running [⟨.cluster (.watch (ctx.key r)), .error e⟩]
        (.error (.cluster e))
  | uncreated (id : Nat) (e : ClusterError) :
      Running
        [⟨.cluster (.watch (ctx.key r)), .ok id⟩,
          ⟨.cluster (.create r.kind ctx.space r), .error e⟩,
          ⟨.release id, ()⟩]
        (.error (.cluster e))
  | ended (id : Nat) (ending : Ending) :
      Running
        [⟨.cluster (.watch (ctx.key r)), .ok id⟩,
          ⟨.cluster (.create r.kind ctx.space r), .ok ()⟩,
          ⟨.settle ctx.token id
            (1000 * ctx.timings.watchTimeoutSeconds), ending⟩,
          ⟨.release id, ()⟩]
        (outcome r.label ctx.timings.watchTimeoutSeconds ending)

/- The ways through a step. -/
inductive Tending :
    List Exchange → Except StepError Unit → Prop where
  | blocked
    {xs : List Exchange}
    {e : StepError}
    (hClearing : Clearing ctx r xs (.error e)) :
      Tending xs (.error e)
  | unfinished
    {xs ys : List Exchange}
    {e : StepError}
    (hClearing : Clearing ctx r xs (.ok ()))
    (hRunning : Running ctx r ys (.error e)) :
      Tending (xs ++ ys) (.error e)
  | finished
    {xs ys : List Exchange}
    (hClearing : Clearing ctx r xs (.ok ()))
    (hRunning : Running ctx r ys (.ok ()))
    (reply : Except ClusterError Unit) :
      Tending
        (xs ++ (ys ++ [⟨.cluster (.delete (ctx.key r)), reply⟩]))
        (removed reply)

section Runs

variable {σ : Type} (h : Handler σ) (s : σ)

/- A removal is one call, and an absent object is no failure of
   it. -/
theorem deleteIfPresent_removes :
    (ctx.deleteIfPresent r).run.Yields h s fun xs result _ =>
      ∃ reply,
        xs = [⟨.cluster (.delete (ctx.key r)), reply⟩] ∧
          result = removed reply := by
  have hRun := Step.destroy_run ctx ⟨.provisioning, r⟩
  change (ctx.deleteIfPresent r).run = _ at hRun
  rw [hRun, Action.yields_call]
  exact ⟨_, rfl, rfl⟩

/- A pause ends on time or is cancelled. -/
theorem pause_asks (ms : Nat) :
    (ctx.pause ms r).run.Yields h s fun xs result _ =>
      (xs = [⟨.pause ctx.token ms, true⟩] ∧ result = .ok ()) ∨
        (xs = [⟨.pause ctx.token ms, false⟩] ∧
          result = .error (.cancelled r.label)) := by
  unfold Context.pause Action.perform
  rw [Attempt.run_lift_bind, Action.yields_bind,
    Action.yields_call]
  generalize h s (.pause ctx.token ms) = outcome
  rcases outcome with ⟨t, waited⟩
  cases waited with
  | true => exact .inl ⟨rfl, rfl⟩
  | false => exact .inr ⟨rfl, rfl⟩

theorem get_asks :
    (ctx.get r).run.Yields h s fun xs result _ =>
      ∃ reply,
        xs = [⟨.cluster (.get (ctx.key r)), reply⟩] ∧
          result = reply.mapError .cluster :=
  ⟨_, rfl, rfl⟩

/- Remove what was left before. -/
def clear : Attempt StepError Unit := do
  if (← ctx.get r).isSome then
    ctx.deleteIfPresent r
    ctx.pause ctx.timings.deletionSettleMs r

/- A step is to clear, to complete and to remove. -/
theorem deploy_eq :
    deploy ctx r = (do
      clear ctx r
      complete ctx r
      ctx.deleteIfPresent r) := by
  unfold deploy clear
  rw [bind_assoc]
  refine congrArg _ (funext fun live => ?_)
  cases live with
  | none => exact (pure_bind _ _).symm
  | some live => exact (bind_assoc _ _ _).symm

/- The first part goes in one of its ways. -/
theorem clear_goes :
    (clear ctx r).run.Yields h s fun xs result _ =>
      Clearing ctx r xs result := by
  unfold clear
  rw [Attempt.yields_bind]
  apply (get_asks ctx r h s).mono
  rintro xs _ t ⟨reply, rfl, rfl⟩
  rcases reply with e | - | live
  · exact .unread e
  · exact .absent
  · change (do
        ctx.deleteIfPresent r
        ctx.pause ctx.timings.deletionSettleMs r :
          Attempt StepError Unit).run.Yields h t _
    rw [Attempt.yields_bind]
    apply (deleteIfPresent_removes ctx r h t).mono
    rintro ys _ u ⟨reply, rfl, rfl⟩
    cases hReply : removed reply with
    | error e => exact .undeleted live reply e hReply
    | ok _ =>
        apply (pause_asks ctx r h u _).mono
        rintro zs _ v (⟨rfl, rfl⟩ | ⟨rfl, rfl⟩)
        · exact .cleared live reply hReply
        · exact .interrupted live reply hReply

/- So does the second, whatever the wait ends with. -/
theorem complete_goes :
    (complete ctx r).run.Yields h s fun xs result _ =>
      Running ctx r xs result := by
  have hWatch : (Context.asked (.perform
      (.cluster (.watch (ctx.key r))))).run.Yields h s
        fun xs result _ =>
          ∃ reply : Except ClusterError Nat,
            xs = [⟨.cluster (.watch (ctx.key r)), reply⟩] ∧
              result = reply.mapError .cluster :=
    ⟨_, rfl, rfl⟩
  unfold complete
  rw [Attempt.yields_bind]
  apply hWatch.mono
  rintro xs _ t ⟨reply, rfl, rfl⟩
  cases reply with
  | error e => exact .unwatched e
  | ok id =>
      change Action.Yields h (ExceptT.run _) t _
      unfold Context.create Action.perform
      rw [Attempt.run_lift_bind, Action.yields_bind,
        Action.yields_call]
      generalize h t (.cluster (.create r.kind ctx.space r)) =
        outcome
      rcases outcome with ⟨u, e | ⟨⟩⟩
      · exact .uncreated id e
      · exact .ended id _

/- So does a whole step. -/
theorem deploy_goes :
    (deploy ctx r).run.Yields h s fun xs result _ =>
      Tending ctx r xs result := by
  rw [deploy_eq, Attempt.yields_bind]
  apply (clear_goes ctx r h s).mono
  intro xs cleared t hClearing
  cases cleared with
  | error e => exact .blocked hClearing
  | ok _ =>
      dsimp only
      rw [Attempt.yields_bind]
      apply (complete_goes ctx r h t).mono
      intro ys completed u hRunning
      cases completed with
      | error e => exact .unfinished hClearing hRunning
      | ok _ =>
          apply (deleteIfPresent_removes ctx r h u).mono
          rintro zs _ v ⟨reply, rfl, rfl⟩
          exact .finished hClearing hRunning reply

end Runs

------------------------------------------------------------
-- What the Ways Have in Common
------------------------------------------------------------

/- The failure that a result tells. -/
def failures : Except StepError Unit → List StepError
  | .ok () => []
  | .error e => [e]

theorem faults_append (xs ys : List Exchange) :
    faults ctx r (xs ++ ys) =
      faults ctx r xs ++ faults ctx r ys :=
  List.filterMap_append

/- A deletion that failed is a failure, unless the object was
   absent. -/
theorem faults_delete (reply : Except ClusterError Unit) :
    faults ctx r [⟨.cluster (.delete (ctx.key r)), reply⟩] =
      failures (removed reply) := by
  rcases reply with e | ⟨⟩
  · cases e <;> rfl
  · rfl

variable {ctx r}

/- A deletion that is taken well adds no failure. -/
theorem faults_of_removed
    {reply : Except ClusterError Unit}
    (hReply : removed reply = .ok ())
    (xs : List Exchange) :
    faults ctx r
        (⟨.cluster (.delete (ctx.key r)), reply⟩ :: xs) =
      faults ctx r xs := by
  rw [← List.singleton_append, faults_append, faults_delete,
    hReply]
  rfl

variable {xs : List Exchange} {result : Except StepError Unit}

namespace Clearing

variable (hClearing : Clearing ctx r xs result)

include hClearing

/- What is deleted here was found before. -/
theorem asked_eq :
    asked xs = .get (ctx.key r) ::
      if found xs then [.delete (ctx.key r)] else [] := by
  cases hClearing <;> rfl

theorem unwatched : ∀ x ∈ xs, (!x.call.isWatch) = true := by
  cases hClearing <;> simp [Call.isWatch]

/- The failure that there may be is the result. -/
theorem faults_eq : faults ctx r xs = failures result := by
  cases hClearing with
  | unread e => rfl
  | absent => rfl
  | undeleted live reply e hReply =>
      rw [← hReply]
      exact faults_delete ctx r reply
  | interrupted live reply hReply =>
      exact faults_of_removed hReply _
  | cleared live reply hReply =>
      exact faults_of_removed hReply _

/- All of it comes before a watch. -/
theorem beforeWatch_append (ys : List Exchange) :
    beforeWatch (xs ++ ys) = xs ++ beforeWatch ys :=
  List.takeWhile_append_of_pos hClearing.unwatched

/- The failure before the watch is that of this part. -/
theorem faults_beforeWatch
    {ys : List Exchange}
    (hRest : beforeWatch ys = []) :
    faults ctx r (beforeWatch (xs ++ ys)) = failures result := by
  rw [hClearing.beforeWatch_append, hRest, List.append_nil]
  exact hClearing.faults_eq

theorem watched_eq : watched xs = false := by
  cases hClearing <;> rfl

theorem succeeded_eq : succeeded xs = false := by
  cases hClearing <;> rfl

/- No subscription is opened or closed. -/
theorem watching_eq (held : List Nat) :
    watching held xs = held := by
  cases hClearing <;> rfl

end Clearing

namespace Running

variable (hRunning : Running ctx r xs result)

include hRunning

/- An object is created only under a watch. -/
theorem asked_eq :
    asked xs = .watch (ctx.key r) ::
      if watched xs then [.create r.kind ctx.space r]
      else [] := by
  cases hRunning <;> rfl

theorem found_eq : found xs = false := by
  cases hRunning <;> rfl

/- This part begins with asking for a watch. -/
theorem beforeWatch_eq (ys : List Exchange) :
    beforeWatch (xs ++ ys) = [] := by
  cases hRunning <;> rfl

/- Only a success of the wait is one of this part. -/
theorem succeeded_eq : succeeded xs = result.isOk := by
  cases hRunning with
  | unwatched e => rfl
  | uncreated id e => rfl
  | ended id ending =>
      rcases ending with verdict | - | -
      · cases verdict <;> rfl
      · rfl
      · rfl

/- A subscription that this part opens is closed by it. -/
theorem watching_subset (held : List Nat) :
    watching held xs ⊆ held := by
  cases hRunning with
  | unwatched e => exact List.Subset.refl held
  | uncreated id e => exact released_subset held id
  | ended id ending => exact released_subset held id

/- The failure that this part may have is its result. -/
theorem faults_eq : faults ctx r xs = failures result := by
  cases hRunning with
  | unwatched e => rfl
  | uncreated id e => rfl
  | ended id ending =>
      rcases ending with verdict | - | -
      · cases verdict <;> rfl
      · rfl
      · rfl

end Running

namespace Tending

variable (hTending : Tending ctx r xs result)

include hTending

/- The calls of a step. -/
theorem asked_eq :
    asked xs = .get (ctx.key r) ::
      ((if found xs then [.delete (ctx.key r)] else []) ++
        ((if (faults ctx r (beforeWatch xs)).isEmpty
          then [.watch (ctx.key r)] else []) ++
          ((if watched xs then [.create r.kind ctx.space r]
            else []) ++
            if succeeded xs then [.delete (ctx.key r)]
            else []))) := by
  cases hTending with
  | blocked hClearing =>
      have hFaults := hClearing.faults_beforeWatch
        (rfl : beforeWatch [] = [])
      rw [List.append_nil] at hFaults
      rw [hClearing.asked_eq, hFaults, hClearing.watched_eq,
        hClearing.succeeded_eq]
      exact congrArg _ (List.append_nil _).symm
  | unfinished hClearing hRunning =>
      have hFaults := hClearing.faults_beforeWatch
        (hRunning.beforeWatch_eq [])
      rw [List.append_nil] at hFaults
      rw [asked_append, found_append, watched_append,
        succeeded_append, hFaults,
        hClearing.asked_eq, hClearing.watched_eq,
        hClearing.succeeded_eq, hRunning.asked_eq,
        hRunning.found_eq, hRunning.succeeded_eq,
        Bool.or_false, Bool.false_or, Bool.false_or]
      simp [failures, Except.isOk, Except.toBool]
  | @finished _ ys hClearing hRunning reply =>
      have hFaults := hClearing.faults_beforeWatch
        (hRunning.beforeWatch_eq
          [⟨.cluster (.delete (ctx.key r)), reply⟩])
      rw [asked_append, asked_append, found_append, found_append,
        watched_append, watched_append, succeeded_append,
        succeeded_append, hFaults,
        hClearing.asked_eq, hClearing.watched_eq,
        hClearing.succeeded_eq, hRunning.asked_eq,
        hRunning.found_eq, hRunning.succeeded_eq,
        Bool.false_or, Bool.false_or]
      simp [failures, Except.isOk, Except.toBool, asked, found,
        watched, succeeded, Call.asked?, Call.finds, Call.opens,
        Call.succeeds]

/- A step has one failure, that of the part in which it ends, or
   none. -/
theorem faults_eq : faults ctx r xs = failures result := by
  cases hTending with
  | blocked hClearing => exact hClearing.faults_eq
  | unfinished hClearing hRunning =>
      rw [faults_append, hClearing.faults_eq,
        hRunning.faults_eq]
      rfl
  | finished hClearing hRunning reply =>
      rw [faults_append, faults_append, hClearing.faults_eq,
        hRunning.faults_eq, faults_delete]
      rfl

/- A step leaves no subscription behind. -/
theorem watching_subset (held : List Nat) :
    watching held xs ⊆ held := by
  cases hTending with
  | blocked hClearing =>
      rw [hClearing.watching_eq]
      exact List.Subset.refl held
  | unfinished hClearing hRunning =>
      rw [watching_append, hClearing.watching_eq]
      exact hRunning.watching_subset held
  | finished hClearing hRunning reply =>
      rw [watching_append, watching_append,
        hClearing.watching_eq]
      exact hRunning.watching_subset held

/- What a step asks for after it has asked for the object. -/
theorem asked_after_create
    {past rest : List Exchange}
    {reply : Except ClusterError Unit}
    (hSplit : xs = past ++
      ⟨.cluster (.create r.kind ctx.space r), reply⟩ :: rest) :
    asked rest =
      if succeeded xs then [.delete (ctx.key r)] else [] := by
  have hAsked := hTending.asked_eq
  have hParts : asked xs = asked past ++
      .create r.kind ctx.space r :: asked rest := by
    rw [hSplit, asked_append]
    rfl
  rw [hParts, ← List.append_assoc, ← List.cons_append] at hAsked
  refine rest_of_once ?_ ?_ hAsked
  · split <;> split <;> simp
  · split <;> simp

end Tending

end Ways

------------------------------------------------------------
-- What Is Left
------------------------------------------------------------

end Provision

/- A state holds a cluster in which objects are created, and
   that only calls of the cluster change. -/
structure Cluster.Undisturbed
    {σ : Type}
    (h : Handler σ)
    (view : σ → Cluster) : Prop where
  creates : ∀ s kind space r,
    (view (h s (.cluster (.create kind space r))).1,
      (h s (.cluster (.create kind space r))).2) =
        (view s).create kind space r
  stays : ∀ s c, c.isCluster = false →
    (view (h s c).1).objects = (view s).objects

/- Only calls of the cluster change the objects of a world. -/
theorem World.perform_undisturbed :
    Cluster.Undisturbed World.perform World.cluster where
  creates _ _ _ _ := rfl
  stays w c hCluster := by
    have hSame {v : World} (hSame : v.cluster = w.cluster) :
        v.cluster.objects = w.cluster.objects :=
      congrArg _ hSame
    cases c with
    | store c => exact hSame (w.cluster_performStore c)
    | cluster c => cases hCluster
    | settle token id ms =>
        apply hSame
        simp only [perform]
        split <;> rfl
    | receive id ms =>
        simp only [perform]
        cases hTaken : w.cluster.take? id with
        | none => rfl
        | some taken =>
            unfold Cluster.take? at hTaken
            split at hTaken <;> cases hTaken
            rfl
    | send n =>
        apply hSame
        simp only [perform]
        split <;> rfl
    | _ => rfl

section Left

variable {σ : Type} {h : Handler σ} {view : σ → Cluster}
variable (hUndisturbed : Cluster.Undisturbed h view)

include hUndisturbed

/- Objects stay as they are when the cluster is not asked for
   anything. -/
theorem objects_of_silent
    {α : Type}
    (m : Action α)
    (s : σ) :
    m.Yields h s fun xs _ t =>
      asked xs = [] → (view t).objects = (view s).objects := by
  induction m generalizing s with
  | finish a => exact fun _ => rfl
  | call c next ih =>
      rw [Action.yields_call]
      apply (ih (h s c).2 (h s c).1).mono
      intro xs _ t hRest hSilent
      cases c with
      | cluster c => cases hSilent
      | _ =>
          exact (hRest hSilent).trans
            (hUndisturbed.stays s _ rfl)

/- An object that was created is there as long as nothing else
   is asked of the cluster. -/
theorem shown_of_created
    {α : Type}
    (kind space : String)
    (r : Resource)
    (m : Action α)
    (s : σ) :
    m.Yields h s fun xs _ t =>
      ∀ past rest,
        xs = past ++
          ⟨.cluster (.create kind space r), .ok ()⟩ :: rest →
        asked rest = [] →
        Shown r
          ((view t).objects.get? ⟨kind, space, r.name⟩) := by
  induction m generalizing s with
  | finish a =>
      intro past rest hSplit
      cases (List.append_eq_nil_iff.1 hSplit.symm).2
  | call c next ih =>
      have hSilent := objects_of_silent hUndisturbed
        (next (h s c).2) (h s c).1
      rw [Action.yields_call]
      apply ((ih (h s c).2 (h s c).1).and hSilent).mono
      rintro xs _ t ⟨hLater, hSilent⟩ past rest hSplit hRest
      cases past with
      | nil =>
          rcases List.cons.inj hSplit with ⟨hHead, rfl⟩
          rcases Exchange.mk.inj hHead with ⟨rfl, hReply⟩
          rw [hSilent hRest]
          have hCreate := hUndisturbed.creates s kind space r
          rw [eq_of_heq hReply] at hCreate
          rcases (view s).create_cases kind space r with
            ⟨e, hFailed, -⟩ | ⟨-, -, live, hSame, hSlots⟩
          · rw [← hCreate] at hFailed
            cases hFailed
          · rw [← hCreate] at hSlots
            have hSlot := hSlots ⟨kind, space, r.name⟩
            rw [if_pos rfl] at hSlot
            exact ⟨live, congrArg Slot.object hSlot, hSame⟩
      | cons y past =>
          rcases List.cons.inj hSplit with ⟨-, hSplit⟩
          exact hLater past rest hSplit hRest

end Left

/-
  Whatever the cluster replies, and however the wait ends.

  The calls of a step are a read, a deletion if it has found
  an object, a watch if nothing has failed before, a creation
  if there is a watch, and a deletion if the wait has ended
  with success.  After the creation nothing else is asked of
  the cluster.  So what was created is left in place if there
  was no success.

  The subscriptions that are live in the end were live before.
  A step fails with the one failure there was, and that there
  was nothing to delete is none.
-/
theorem Provision.deploy_cleans_up
    {σ : Type}
    (h : Handler σ)
    (ctx : Context)
    (r : Resource)
    (s : σ) :
    (deploy ctx r).run.Yields h s fun xs result t =>
      asked xs = .get (ctx.key r) ::
        ((if found xs then [.delete (ctx.key r)] else []) ++
          ((if (faults ctx r (beforeWatch xs)).isEmpty
            then [.watch (ctx.key r)] else []) ++
            ((if watched xs then [.create r.kind ctx.space r]
              else []) ++
              if succeeded xs then [.delete (ctx.key r)]
              else []))) ∧
      (∀ past reply rest,
        xs = past ++
          ⟨.cluster (.create r.kind ctx.space r), reply⟩ ::
            rest →
        asked rest =
          if succeeded xs then [.delete (ctx.key r)]
          else []) ∧
      (∀ view, Cluster.Undisturbed h view →
        ⟨.cluster (.create r.kind ctx.space r), .ok ()⟩ ∈ xs →
        succeeded xs = false →
        Shown r ((view t).objects.get? (ctx.key r))) ∧
      (∀ held, watching held xs ⊆ held) ∧
      (∀ live, Cluster.Holds h live → live t ⊆ live s) ∧
      faults ctx r xs = failures result := by
  have hLive : (deploy ctx r).run.Yields h s fun xs _ t =>
      ∀ live, Cluster.Holds h live →
        live t = watching (live s) xs :=
    fun live hHolds => hHolds.watching _ s
  have hShown : (deploy ctx r).run.Yields h s fun xs _ t =>
      ∀ view, Cluster.Undisturbed h view →
        ∀ past rest,
          xs = past ++
            ⟨.cluster (.create r.kind ctx.space r), .ok ()⟩ ::
              rest →
          asked rest = [] →
          Shown r ((view t).objects.get? (ctx.key r)) :=
    fun view hUndisturbed =>
      shown_of_created hUndisturbed r.kind ctx.space r _ s
  apply (((deploy_goes ctx r h s).and hLive).and hShown).mono
  rintro xs result t ⟨⟨hTending, hLive⟩, hShown⟩
  refine ⟨hTending.asked_eq, ?_, ?_, hTending.watching_subset,
    ?_, hTending.faults_eq⟩
  · intro past reply rest hSplit
    exact hTending.asked_after_create hSplit
  · intro view hUndisturbed hCreated hFailed
    rcases List.append_of_mem hCreated with ⟨past, rest, hSplit⟩
    have hRest := hTending.asked_after_create hSplit
    rw [hFailed] at hRest
    exact hShown view hUndisturbed past rest hSplit hRest
  · intro live hHolds
    rw [hLive live hHolds]
    exact hTending.watching_subset (live s)

namespace Provision

/- A pod that was left behind, and that fails when it is run
   again. -/
def seed : Resource :=
  .plain "v1" "Pod" "seed"

/- A world with an object of this name, and in which the next
   one fails. -/
def seedWorld : World :=
  { (default : World) with
    cluster :=
      (Cluster.empty.insert "previews" seed).script "seed"
        [.running, .failed] }

/- It is replaced, and what has failed is left in place. -/
theorem deploy_cleans_up_failed :
    Cluster.Undisturbed World.perform World.cluster ∧
      Cluster.Holds World.perform (fun w => w.cluster.ids) ∧
      (deploy ⟨"previews", {}, 0⟩ seed).run.Yields
        World.perform seedWorld fun _ result t =>
          failures result = [.setupFailed seed.label] ∧
            Shown seed (t.cluster.objects.get?
              ⟨"Pod", "previews", "seed"⟩) ∧
            t.cluster.ids = [] := by
  have hRun : (deploy ⟨"previews", {}, 0⟩ seed).run.Yields
      World.perform seedWorld fun xs result _ =>
        succeeded xs = false ∧
          failures result = [.setupFailed seed.label] := by
    unfold Action.Yields
    decide +kernel
  have hCreated : (deploy ⟨"previews", {}, 0⟩ seed).run.Yields
      World.perform seedWorld fun xs _ _ =>
        ⟨.cluster (.create "Pod" "previews" seed), .ok ()⟩ ∈ xs :=
    .tail _ (.tail _ (.tail _ (.tail _ (.head _))))
  refine ⟨World.perform_undisturbed, World.perform_holds, ?_⟩
  apply ((deploy_cleans_up World.perform _ seed seedWorld).and
    (hRun.and hCreated)).mono
  rintro xs result t ⟨⟨-, -, hShown, -, hLive, -⟩,
    ⟨hFailed, hResult⟩, hCreated⟩
  refine ⟨hResult, ?_, ?_⟩
  · exact hShown World.cluster World.perform_undisturbed
      hCreated hFailed
  · exact List.eq_nil_of_subset_nil
      (hLive _ World.perform_holds)

end Provision

end Preview
