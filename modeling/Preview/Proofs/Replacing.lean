import Preview.Proofs.Journal
import Preview.Proofs.Lingering

/-
  How long a replacement waits.

  A deleted object goes on being shown for as many reads as
  its name lags.  A wait reads it once more than it may pause.
  So it sees the object go exactly if the lag is no more than
  the pauses, and after as many of them; or else it gives up
  after all of them.

  Main declarations:
    * `Slot.Fades` and `Slot.fades_deleted`
    * `Cluster.Unhurried` and `World.perform_unhurried`
    * `Reconcile.polls`
    * `Reconcile.awaitGone_polls`
    * `Reconcile.replace_within_budget`
-/

namespace Preview

open Preview.Action (Handler)
open Cluster (Journals)

------------------------------------------------------------
-- Fading Objects
------------------------------------------------------------

namespace Slot

/- An object that some more reads show, and then is gone. -/
def Fades (live : Resource) : Nat → Slot → Prop
  | 0, s => s.shown = none ∧ s.read = empty
  | left + 1, s => s.shown = some live ∧ Fades live left s.read

/- An object on its last reads fades with their number. -/
theorem fades_terminating (live : Resource) (left : Nat) :
    Fades live left ⟨some live, some left⟩ := by
  induction left with
  | zero => exact ⟨rfl, rfl⟩
  | succ left ih => exact ⟨rfl, ih⟩

/- A deleted object fades with its lag. -/
theorem fades_deleted (live : Resource) (lag : Nat) :
    Fades live lag (deleted lag ⟨some live, none⟩) := by
  cases lag with
  | zero => exact ⟨rfl, rfl⟩
  | succ lag => exact fades_terminating live (lag + 1)

end Slot

------------------------------------------------------------
-- Clusters Without Failures
------------------------------------------------------------

namespace Cluster

section Unarmed

variable {c : Cluster} (hUnarmed : c.failures = .empty)

include hUnarmed

/- Where no failure is prepared, a read tells what its slot
   shows. -/
theorem get_of_unarmed (key : Key) :
    (c.get key).2 = .ok (c.slot key).shown ∧
      (c.get key).1.slot key = (c.slot key).read := by
  rcases c.get_cases key with ⟨e, hReply, -⟩ | ⟨hReply, hSlots⟩
  · exfalso
    unfold get at hReply
    rw [takeFailure_of_unarmed hUnarmed] at hReply
    dsimp only at hReply
    split at hReply <;> cases hReply
  · exact ⟨hReply, (hSlots key).trans (if_pos rfl)⟩

/- A fresh object is deleted, at once or with a lag. -/
theorem delete_of_unarmed
    {key : Key}
    {live : Resource}
    (hFresh : c.slot key = ⟨some live, none⟩) :
    (c.delete key).2 = .ok () ∧
      (c.delete key).1.slot key =
        (c.slot key).deleted (c.lagOf key.name) := by
  have hLive : c.objects.get? key = some live :=
    congrArg Slot.object hFresh
  have hThere : c.objects.contains key = true := by
    unfold Registry.contains
    rw [hLive]
    rfl
  have hDone := delete_of_untroubled
    (takeFailure_of_unarmed hUnarmed .delete key.name) hThere
  rcases c.delete_cases key with
    ⟨e, hReply, -⟩ | ⟨hReply, -, hSlots⟩
  · rw [hDone] at hReply
    cases hReply
  · exact ⟨hReply, (hSlots key).trans (if_pos rfl)⟩

/- An empty slot takes an object that lasts. -/
theorem create_of_unarmed
    {kind space : String}
    {r : Resource}
    (hEmpty : c.slot ⟨kind, space, r.name⟩ = .empty) :
    (c.create kind space r).2 = .ok () ∧
      ((c.create kind space r).1.slot
        ⟨kind, space, r.name⟩).Lasts r none := by
  have hNone : c.objects.get? ⟨kind, space, r.name⟩ = none :=
    congrArg Slot.object hEmpty
  have hAbsent :
      ¬ c.objects.contains ⟨kind, space, r.name⟩ = true := by
    unfold Registry.contains
    rw [hNone]
    decide
  have hDone := create_of_untroubled
    (takeFailure_of_unarmed hUnarmed .create r.name) kind space
  rw [if_neg hAbsent] at hDone
  rcases c.create_cases kind space r with
    ⟨e, hReply, -⟩ | ⟨hReply, -, live, hSame, hSlots⟩
  · rw [hDone] at hReply
    cases hReply
  · refine ⟨hReply, ?_⟩
    rw [hSlots, if_pos rfl, hEmpty]
    exact ⟨rfl, live, rfl, hSame⟩

end Unarmed

/- While a state is free, nothing cancels what waits under a
   token. -/
structure Unhurried
    {σ : Type}
    (h : Handler σ)
    (view : σ → Cluster)
    (token : Nat)
    (Free : σ → Prop) : Prop
    extends Patient h view where
  waits : ∀ s ms, Free s → (h s (.pause token ms)).2 = true
  rests : ∀ s ms, Free s → Free (h s (.pause token ms)).1
  asks : ∀ s c, Free s → Free (h s (.cluster c)).1

end Cluster

/- A world in which a token is not cancelled. -/
theorem World.perform_unhurried (token : Nat) :
    Cluster.Unhurried World.perform World.cluster token
      (fun w => w.isCancelled token = false) where
  toPatient := World.perform_patient
  waits w _ hFree := by
    change (!w.isCancelled token) = true
    rw [hFree]
    rfl
  rests _ _ hFree := hFree
  asks w c hFree := by
    cases c with
    | watch key =>
        change (w.openWatch key).1.isCancelled token = false
        unfold openWatch
        split <;> exact hFree
    | _ => exact hFree

------------------------------------------------------------
-- Waits
------------------------------------------------------------

namespace Reconcile

/- So many reads of a resource, each with a pause after it. -/
def polls (ctx : Context) (r : Resource) (n : Nat) :
    List Call :=
  (List.replicate n
    [.cluster (.get (ctx.key r)),
      .pause ctx.token ctx.timings.scaleDownPollMs]).flatten

/- Whether a call waits for a while. -/
def isPause : Call → Bool
  | .pause _ _ => true
  | _ => false

/- How often a program has paused. -/
def pauses (calls : List Call) : Nat :=
  calls.countP isPause

section Polls

variable (ctx : Context) (r : Resource) (n : Nat)

/- One more round is a read and a pause in front. -/
theorem polls_succ :
    polls ctx r (n + 1) =
      .cluster (.get (ctx.key r)) ::
        .pause ctx.token ctx.timings.scaleDownPollMs ::
          polls ctx r n :=
  rfl

theorem pauses_polls : pauses (polls ctx r n) = n := by
  induction n with
  | zero => rfl
  | succ n ih =>
      unfold pauses at ih ⊢
      rw [polls_succ, List.countP_cons, List.countP_cons, ih]
      rfl

theorem mutation?_polls :
    (polls ctx r n).filterMap Call.mutation? = [] := by
  induction n with
  | zero => rfl
  | succ n ih =>
      rw [polls_succ]
      exact ih

/- What a replacement asks for when the object goes after some
   reads, as far as the pauses suffice. -/
def replaceCalls (lag : Nat) : List Call :=
  .cluster (.delete (ctx.key r)) ::
    polls ctx r (min lag ctx.timings.scaleDownAttempts) ++
      .cluster (.get (ctx.key r)) ::
        if lag ≤ ctx.timings.scaleDownAttempts then
          [.cluster (.create r.kind ctx.space r)]
        else []

/- Only the deletion and the creation change anything; the
   creation is left out when the pauses do not suffice. -/
theorem mutation?_replaceCalls (lag : Nat) :
    (replaceCalls ctx r lag).filterMap Call.mutation? =
      if lag ≤ ctx.timings.scaleDownAttempts then
        [⟨.delete, ctx.key r⟩, ⟨.create, ctx.key r⟩]
      else [⟨.delete, ctx.key r⟩] := by
  have hDelete : Call.mutation? (.cluster (.delete (ctx.key r))) =
      some ⟨.delete, ctx.key r⟩ := rfl
  unfold replaceCalls
  rw [List.filterMap_append, List.filterMap_cons_some hDelete,
    mutation?_polls]
  split <;> rfl

/- There are no more pauses than attempts. -/
theorem pauses_replaceCalls (lag : Nat) :
    pauses (replaceCalls ctx r lag) =
      min lag ctx.timings.scaleDownAttempts := by
  have hPolls :=
    pauses_polls ctx r (min lag ctx.timings.scaleDownAttempts)
  unfold replaceCalls
  unfold pauses at hPolls ⊢
  rw [List.countP_append,
    List.countP_cons_of_neg Bool.false_ne_true, hPolls]
  split <;> rfl

end Polls

section Waits

variable {σ : Type} {h : Handler σ} {view : σ → Cluster}
variable {Free : σ → Prop} {ctx : Context}
variable (hUnhurried :
  Cluster.Unhurried h view ctx.token Free)
variable (r : Resource) {s : σ} (hFree : Free s)

include hUnhurried hFree

/- A pause in a free state ends on time. -/
theorem pause_waits (ms : Nat) :
    (ctx.pause ms r).run.Yields h s fun xs result t =>
      xs.map Exchange.call = [.pause ctx.token ms] ∧
        result = .ok () ∧ Free t ∧ view t = view s := by
  have hWaits := hUnhurried.waits s ms hFree
  have hRests := hUnhurried.rests s ms hFree
  have hView := hUnhurried.pauses s ctx.token ms
  unfold Context.pause Action.perform
  rw [Attempt.run_lift_bind, Action.yields_bind,
    Action.yields_call]
  generalize h s (.pause ctx.token ms) = outcome
    at hWaits hRests hView ⊢
  rcases outcome with ⟨t, waited⟩
  cases hWaits
  exact ⟨rfl, rfl, hRests, hView⟩

variable (hUnarmed : (view s).failures = .empty)

include hUnarmed

/- A read tells what the slot shows, and lets one of its reads
   pass. -/
theorem get_reads :
    (ctx.get r).run.Yields h s fun xs result t =>
      xs.map Exchange.call = [.cluster (.get (ctx.key r))] ∧
        result = .ok ((view s).slot (ctx.key r)).shown ∧
        Free t ∧
        (view t).slot (ctx.key r) =
          ((view s).slot (ctx.key r)).read ∧
        Journals (view s) [] (view t) := by
  have hGet := hUnhurried.gets s (ctx.key r)
  have hRead := Cluster.get_of_unarmed hUnarmed (ctx.key r)
  have hJournals := (view s).get_journals (ctx.key r)
  rw [← hGet] at hRead hJournals
  refine ⟨rfl, ?_, hUnhurried.asks s _ hFree, hRead.2,
    hJournals⟩
  change (h s (.cluster (.get (ctx.key r)))).2.mapError
    StepError.cluster = _
  rw [hRead.1]
  rfl

/-
  A wait for an object that fades: it goes well if the pauses
  suffice, and takes as many as there are reads left; if not,
  it fails after all of them.  By induction on the pauses.
-/
theorem awaitGone_polls
    {live : Resource}
    {left pauses : Nat}
    (hFades : ((view s).slot (ctx.key r)).Fades live left) :
    (awaitGone ctx r pauses).run.Yields h s fun xs result t =>
      Free t ∧
        Journals (view s) [] (view t) ∧
        xs.map Exchange.call =
          polls ctx r (min left pauses) ++
            [.cluster (.get (ctx.key r))] ∧
        if left ≤ pauses then
          result = .ok () ∧
            (view t).slot (ctx.key r) = .empty
        else
          result = .error
            (.stillTerminating r.label
              (live.replicas?.getD 1)) := by
  have hGet := get_reads hUnhurried r hFree hUnarmed
  induction left generalizing s pauses with
  | zero =>
      rw [awaitGone_eq, Attempt.yields_bind]
      apply hGet.mono
      rintro xs _ t ⟨hCalls, rfl, hFree', hSlot, hJournals⟩
      rw [hFades.1]
      refine ⟨hFree', hJournals, ?_, ?_⟩
      · rw [List.map_append, hCalls, Nat.zero_min]
        rfl
      · rw [if_pos (Nat.zero_le pauses)]
        exact ⟨rfl, hSlot.trans hFades.2⟩
  | succ left ih =>
      rw [awaitGone_eq, Attempt.yields_bind]
      apply hGet.mono
      rintro xs _ t ⟨hCalls, rfl, hFree', hSlot, hJournals⟩
      rw [hFades.1]
      -- the object still shows: without a pause left the wait
      -- gives up
      cases pauses with
      | zero =>
          refine ⟨hFree', hJournals, ?_, ?_⟩
          · rw [List.map_append, hCalls, Nat.min_zero]
            rfl
          · rw [if_neg (Nat.not_succ_le_zero left)]
            rfl
      | succ pauses =>
          dsimp only
          rw [Attempt.yields_bind]
          apply (pause_waits hUnhurried r hFree' _).mono
          rintro ys _ u ⟨hPause, rfl, hFree'', hView⟩
          have hUnarmed' : (view u).failures = .empty := by
            rw [hView]
            exact hJournals.hUnarmed hUnarmed
          have hLeft :
              ((view u).slot (ctx.key r)).Fades live left := by
            rw [hView, hSlot]
            exact hFades.2
          apply (ih hFree'' hUnarmed' hLeft
            (get_reads hUnhurried r hFree'' hUnarmed')).mono
          rintro zs result v ⟨hEnd, hRest, hCalls', hResult⟩
          refine ⟨hEnd, ?_, ?_, ?_⟩
          · rw [hView] at hRest
            exact hJournals.trans hRest
          · rw [List.map_append, List.map_append, hCalls,
              hPause, hCalls', Nat.succ_min_succ, polls_succ]
            rfl
          · simpa using hResult

/- After a deletion the object fades with its lag. -/
theorem delete_fades
    {live : Resource}
    (hFresh : (view s).slot (ctx.key r) = ⟨some live, none⟩) :
    (Context.asked (ctx.delete r)).run.Yields h s
      fun xs result t =>
        xs.map Exchange.call =
            [.cluster (.delete (ctx.key r))] ∧
          result = .ok () ∧
          Free t ∧
          ((view t).slot (ctx.key r)).Fades live
            ((view s).lagOf r.name) ∧
          Journals (view s) [⟨.delete, ctx.key r⟩] (view t) := by
  have hDelete := hUnhurried.deletes s (ctx.key r)
  have hDone := Cluster.delete_of_unarmed hUnarmed hFresh
  have hJournals := (view s).delete_journals (ctx.key r)
  rw [hDone.1] at hJournals
  rw [← hDelete, hFresh] at hDone
  rw [← hDelete] at hJournals
  refine ⟨rfl, ?_, hUnhurried.asks s _ hFree, ?_, hJournals⟩
  · change (h s (.cluster (.delete (ctx.key r)))).2.mapError
      StepError.cluster = _
    rw [hDone.1]
    rfl
  · change ((view (h s (.cluster
      (.delete (ctx.key r)))).1).slot (ctx.key r)).Fades live _
    rw [hDone.2]
    exact Slot.fades_deleted live _

/- What is created in an empty slot lasts. -/
omit hFree in
theorem create_lasts
    (hEmpty : (view s).slot (ctx.key r) = .empty) :
    (Context.asked (ctx.create r)).run.Yields h s
      fun xs result t =>
        xs.map Exchange.call =
            [.cluster (.create r.kind ctx.space r)] ∧
          result = .ok () ∧
          ((view t).slot (ctx.key r)).Lasts r none ∧
          Journals (view s) [⟨.create, ctx.key r⟩] (view t) := by
  have hCreate := hUnhurried.creates s r.kind ctx.space r
  have hDone := Cluster.create_of_unarmed hUnarmed hEmpty
  have hJournals := (view s).create_journals r.kind ctx.space r
  rw [hDone.1] at hJournals
  rw [← hCreate] at hDone hJournals
  refine ⟨rfl, ?_, hDone.2, hJournals⟩
  change (h s (.cluster (.create r.kind ctx.space r))).2.mapError
    StepError.cluster = _
  rw [hDone.1]
  rfl

/- A replacement makes the calls that its lag requires, and ends
   well if the attempts suffice for it. -/
theorem replace_polls
    {live : Resource}
    (hFresh : (view s).slot (ctx.key r) = ⟨some live, none⟩) :
    (replace ctx r).run.Yields h s fun xs result t =>
      xs.map Exchange.call =
          replaceCalls ctx r ((view s).lagOf r.name) ∧
        Journals (view s) (changes xs) (view t) ∧
        if (view s).lagOf r.name ≤ ctx.timings.scaleDownAttempts
        then
          result = .ok () ∧
            ((view t).slot (ctx.key r)).Lasts r none
        else
          result = .error
            (.stillTerminating r.label
              (live.replicas?.getD 1)) := by
  generalize hLag : (view s).lagOf r.name = lag
  unfold replace
  rw [Attempt.yields_bind]
  apply (delete_fades hUnhurried r hFree hUnarmed hFresh).mono
  rintro xs _ t ⟨hDelete, rfl, hFree', hFades, hDeleted⟩
  rw [hLag] at hFades
  dsimp only
  rw [Attempt.yields_bind]
  apply (awaitGone_polls hUnhurried r hFree'
    (hDeleted.hUnarmed hUnarmed) hFades).mono
  rintro ys result u ⟨-, hWaited, hPolls, hResult⟩
  by_cases hFits : lag ≤ ctx.timings.scaleDownAttempts
  · rw [if_pos hFits] at hResult
    rcases hResult with ⟨rfl, hEmpty⟩
    dsimp only
    apply (create_lasts hUnhurried r (hWaited.hUnarmed
      (hDeleted.hUnarmed hUnarmed)) hEmpty).mono
    rintro zs _ v ⟨hCreate, rfl, hLasts, hCreated⟩
    have hCalls : (xs ++ (ys ++ zs)).map Exchange.call =
        replaceCalls ctx r lag := by
      rw [List.map_append, List.map_append, hDelete, hPolls,
        hCreate]
      unfold replaceCalls
      rw [if_pos hFits, List.append_assoc]
      rfl
    refine ⟨hCalls, ?_, ?_⟩
    · rw [changes_eq, hCalls, mutation?_replaceCalls, if_pos hFits]
      exact (hDeleted.trans hWaited).trans hCreated
    · rw [if_pos hFits]
      exact ⟨rfl, hLasts⟩
  · rw [if_neg hFits] at hResult
    subst hResult
    have hCalls : (xs ++ ys).map Exchange.call =
        replaceCalls ctx r lag := by
      rw [List.map_append, hDelete, hPolls]
      unfold replaceCalls
      rw [if_neg hFits]
      rfl
    refine ⟨hCalls, ?_, ?_⟩
    · rw [changes_eq, hCalls, mutation?_replaceCalls, if_neg hFits]
      exact hDeleted.trans hWaited
    · rw [if_neg hFits]

end Waits

/-
  A resource that stays is deployed over an object that asks
  for something else and is not being deleted, on a cluster
  without prepared failures, alone, and nothing is cancelled.

  The deploy goes well exactly if the object lags for no more
  reads than the wait may pause.  Then it has paused once for
  each of these reads, has deleted and created the object, and
  this is there as desired.  Otherwise the deploy gives up,
  after all pauses and one more read; it has deleted the object
  and created nothing, and tells the replicas that the object
  reports, or one if it reports none.
-/
theorem replace_within_budget
    {σ : Type}
    {h : Handler σ}
    {view : σ → Cluster}
    {Free : σ → Prop}
    {ctx : Context}
    (hUnhurried : Cluster.Unhurried h view ctx.token Free)
    {r : Resource}
    {s : σ}
    (hFree : Free s)
    (hUnarmed : (view s).failures = .empty)
    {live : Resource}
    (hFresh : (view s).slot (ctx.key r) = ⟨some live, none⟩)
    (hOther : live.sameSpec r = false) :
    (deploy ctx r).run.Yields h s fun xs result t =>
      (result = .ok () ↔
        (view s).lagOf r.name ≤
          ctx.timings.scaleDownAttempts) ∧
      (view t).journal = (view s).journal ++ changes xs ∧
      if (view s).lagOf r.name ≤ ctx.timings.scaleDownAttempts
      then
        xs.map Exchange.call =
            .cluster (.get (ctx.key r)) ::
              .cluster (.delete (ctx.key r)) ::
                polls ctx r ((view s).lagOf r.name) ++
                  [.cluster (.get (ctx.key r)),
                    .cluster (.create r.kind ctx.space r)] ∧
          pauses (xs.map Exchange.call) =
            (view s).lagOf r.name ∧
          changes xs =
            [⟨.delete, ctx.key r⟩, ⟨.create, ctx.key r⟩] ∧
          ((view t).slot (ctx.key r)).Lasts r none
      else
        result = .error
            (.stillTerminating r.label
              (live.replicas?.getD 1)) ∧
          xs.map Exchange.call =
            .cluster (.get (ctx.key r)) ::
              .cluster (.delete (ctx.key r)) ::
                polls ctx r ctx.timings.scaleDownAttempts ++
                  [.cluster (.get (ctx.key r))] ∧
          pauses (xs.map Exchange.call) =
            ctx.timings.scaleDownAttempts ∧
          changes xs = [⟨.delete, ctx.key r⟩] := by
  rw [deploy_eq, Attempt.yields_bind]
  apply (get_reads hUnhurried r hFree hUnarmed).mono
  rintro xs _ t ⟨hGet, rfl, hFree', hSlot, hRead⟩
  rw [hFresh] at hSlot ⊢
  dsimp only [Slot.shown]
  rw [if_neg (Bool.eq_false_iff.mp hOther)]
  have hLag : (view t).lagOf r.name = (view s).lagOf r.name := by
    unfold Cluster.lagOf
    rw [hRead.hLags]
  apply (replace_polls hUnhurried r hFree'
    (hRead.hUnarmed hUnarmed) hSlot).mono
  rw [hLag]
  generalize (view s).lagOf r.name = lag
  rintro ys result u ⟨hReplaced, hJournals, hResult⟩
  have hCalls : (xs ++ ys).map Exchange.call =
      .cluster (.get (ctx.key r)) :: replaceCalls ctx r lag := by
    rw [List.map_append, hGet, hReplaced]
    rfl
  have hChanges : changes (xs ++ ys) = changes ys := by
    rw [changes_append, changes_eq xs, hGet]
    rfl
  have hAsked := mutation?_replaceCalls ctx r lag
  rw [← hReplaced, ← changes_eq, ← hChanges] at hAsked
  have hJournal := (hRead.trans hJournals).hJournal
  rw [List.nil_append, ← hChanges] at hJournal
  have hPauses : pauses ((xs ++ ys).map Exchange.call) =
      min lag ctx.timings.scaleDownAttempts := by
    rw [hCalls]
    exact pauses_replaceCalls ctx r lag
  rw [hPauses, hCalls]
  unfold replaceCalls
  by_cases hFits : lag ≤ ctx.timings.scaleDownAttempts
  · rw [if_pos hFits] at hResult hAsked ⊢
    rw [if_pos hFits, Nat.min_eq_left hFits]
    rcases hResult with ⟨hOk, hLasts⟩
    exact ⟨⟨fun _ => hFits, fun _ => hOk⟩, hJournal, rfl, rfl,
      hAsked, hLasts⟩
  · rw [if_neg hFits] at hResult hAsked ⊢
    rw [if_neg hFits,
      Nat.min_eq_right (Nat.le_of_not_le hFits)]
    refine ⟨⟨fun hOk => ?_, fun h => absurd h hFits⟩, hJournal,
      hResult, rfl, rfl, hAsked⟩
    rw [hResult] at hOk
    cases hOk

/- The boundary: an object that may report its replicas, a
   world in which it lags for two reads, and what asks for
   something else in its place. -/
def scaled (replicas : Option Int) : Resource :=
  { Resource.plain "v1" "ConfigMap" "app" with
    status := replicas.map fun n =>
      .object [("replicas", .number (.int n))] }

/- A world in which this object lingers for two reads. -/
def laggingWorld (live : Resource) : World :=
  { (default : World) with
    cluster :=
      (Cluster.empty.insert "previews" live).lag "app" 2 }

/- The same object with a field that it does not have. -/
def wanted : Resource :=
  (Resource.plain "v1" "ConfigMap" "app").withField "data"
    (.string "new")

/- A context whose budget is a number of attempts. -/
def briefly (attempts : Nat) : Context :=
  ⟨"previews", { scaleDownAttempts := attempts }, 0⟩

/- Two pauses suffice, and one does not: the error then tells
   the replicas, or one where there is no such report or a
   negative one. -/
theorem replace_within_budget_boundary :
    (∀ replicas,
      (laggingWorld (scaled replicas)).isCancelled 0 = false ∧
        (laggingWorld (scaled replicas)).cluster.failures =
          .empty ∧
        (laggingWorld (scaled replicas)).cluster.slot
            ⟨"ConfigMap", "previews", "app"⟩ =
          ⟨some (scaled replicas), none⟩ ∧
        (scaled replicas).sameSpec wanted = false) ∧
      (∀ replicas, (deploy (briefly 2) wanted).run.Yields
        World.perform (laggingWorld (scaled replicas))
        (fun xs result _ =>
          result = .ok () ∧
            pauses (xs.map Exchange.call) = 2)) ∧
      ∀ replicas count,
        (replicas, count) ∈
          [(some 3, 3), (some 0, 0), (some (-2), 1), (none, 1)] →
        (deploy (briefly 1) wanted).run.Yields
          World.perform (laggingWorld (scaled replicas))
          (fun xs result _ =>
            result =
                .error (.stillTerminating "ConfigMap/app" count) ∧
              pauses (xs.map Exchange.call) = 1 ∧
              changes xs =
                [⟨.delete, ⟨"ConfigMap", "previews", "app"⟩⟩]) := by
  have hOther : ∀ replicas,
      (scaled replicas).sameSpec wanted = false := by
    intro replicas
    change (Resource.plain "v1" "ConfigMap" "app").sameSpec
      wanted = false
    decide +kernel
  have hLag : ∀ replicas,
      (laggingWorld (scaled replicas)).cluster.lagOf
        wanted.name = 2 :=
    fun _ => rfl
  have hUnhurried := fun n =>
    World.perform_unhurried (briefly n).token
  have hFresh : ∀ n replicas,
      (laggingWorld (scaled replicas)).cluster.slot
          ((briefly n).key wanted) =
        ⟨some (scaled replicas), none⟩ := by
    intro n replicas
    cases replicas <;> rfl
  refine ⟨fun replicas =>
    ⟨rfl, rfl, hFresh 2 replicas, hOther replicas⟩, ?_, ?_⟩
  · intro replicas
    apply (replace_within_budget (hUnhurried 2) rfl rfl
      (hFresh 2 replicas) (hOther replicas)).mono
    rintro xs result t ⟨hOk, -, hFits⟩
    rw [hLag] at hOk hFits
    rw [if_pos (by decide)] at hFits
    exact ⟨hOk.2 (by decide), hFits.2.1⟩
  · intro replicas count hCount
    have hReplicas :
        (scaled replicas).replicas?.getD 1 = count := by
      simp only [List.mem_cons, List.not_mem_nil, or_false,
        Prod.mk.injEq] at hCount
      rcases hCount with
        ⟨rfl, rfl⟩ | ⟨rfl, rfl⟩ | ⟨rfl, rfl⟩ | ⟨rfl, rfl⟩ <;>
        decide +kernel
    apply (replace_within_budget (hUnhurried 1) rfl rfl
      (hFresh 1 replicas) (hOther replicas)).mono
    rintro xs result t ⟨-, -, hFits⟩
    rw [hLag, if_neg (by decide), hReplicas] at hFits
    rcases hFits with ⟨hError, -, hPauses, hChanges⟩
    exact ⟨hError, hPauses, hChanges⟩

end Reconcile

end Preview
