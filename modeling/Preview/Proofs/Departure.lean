import Preview.Proofs.Outcome
import Preview.Proofs.Teardown

/-
  How a delete run ends on a store that may fail.

  A delete run removes the record when every distinct step of
  its plan is destroyed.  Rendering, a step and the removal of
  the record can fail; the run then stores that its copy is in
  error, and this can fail too.

  Main declarations:
    * `Departure` and `Departure.Fits`
    * `Departed` and `Departed.fits`
    * `Service.delete_outcome`
-/

namespace Preview

open Preview.Action (Handler exchanges)

------------------------------------------------------------
-- Outcomes
------------------------------------------------------------

/- How a delete run may end. -/
inductive Departure where
  | refused
  | removed
  | failed
  | unsaved
deriving DecidableEq, Repr

namespace Departure

variable (s : Service) (i : Instance)

/- The errors that are a run's own: of its plan, of a step
   that it has tried to destroy, or of removing the record. -/
inductive IsOwn (xs : List Exchange) : Error → Prop where
  | render
    {e : Error}
    (hPlan : s.plan i = .error e)
    (hRender : e.IsRender) : IsOwn xs e
  | step
    {plan : Plan}
    {step : Step}
    {x : Exchange}
    {cause : StepError}
    (hPlan : s.plan i = .ok plan)
    (hStep : step ∈ Plan.distinct [] plan.steps)
    (hMade : x ∈ xs)
    (hFailed : step.Destroyed s.context (.error cause) x) :
    IsOwn xs (.step step.label cause)
  | store
    {cause : StoreError}
    (hMade :
      ⟨.store (.erase (s.repository.path i.identity)),
        Except.error cause⟩ ∈ xs) :
    IsOwn xs (.store cause)

/-
  What an outcome says about a run that began with one store
  and ended with another:
    * refused: an error before the claim, no cluster call, and
      nothing written
    * removed: no error, the calls of the cluster have
      destroyed each distinct step of the plan, and there is
      no record
    * failed: an error of its own, and the copy is in error,
      which was the last call of the store
    * unsaved: the error of that last call, and the copy is
      deleting if the claim was stored, or else nothing is
      changed
-/
def Fits
    (before after : Store)
    (xs : List Exchange)
    (result : Except Error Unit) : Departure → Prop
  | refused =>
      Refused result ∧
        Harmless xs ∧
        after = before
  | removed =>
      result = .ok () ∧
        (∃ plan, s.plan i = .ok plan ∧
          List.Forall₂
            (fun step x => step.Destroyed s.context (.ok ()) x)
            (Plan.distinct [] plan.steps)
            (xs.filter fun x => x.call.isCluster)) ∧
        after.content? (s.repository.path i.identity) = none
  | failed =>
      ∃ e, result = .error e ∧
        IsOwn s i xs e ∧
        lastStored xs =
          some ⟨.store (savingOf s i .error), Except.ok ()⟩ ∧
        after.content? (s.repository.path i.identity) =
          some { i with status := .error : Instance }.record
  | unsaved =>
      ∃ e, result = .error (.store e) ∧
        lastStored xs =
          some ⟨.store (savingOf s i .error),
            Except.error e⟩ ∧
        (HasClaimed xs →
          after.content? (s.repository.path i.identity) =
            some { i with status := .deleting :
              Instance }.record) ∧
        (¬ HasClaimed xs → after = before)

/- What tells the outcome of a run. -/
def ofRun (xs : List Exchange) : Except Error Unit → Departure
  | .ok () => removed
  | .error e =>
      if e.isRefusal then refused
      else if (lastStored xs).any Exchange.wrote then failed
      else unsaved

variable {s i}
variable {before after : Store} {xs : List Exchange}
variable {result : Except Error Unit}

theorem IsOwn.not_isRefusal
    {e : Error}
    (hOwn : IsOwn s i xs e) :
    e.isRefusal = false := by
  cases hOwn with
  | render hPlan hRender =>
      rcases hRender with ⟨_, _, rfl⟩
      rfl
  | step hPlan hStep hMade hFailed => rfl
  | store hMade => rfl

theorem IsOwn.mono
    {e : Error}
    {ys : List Exchange}
    (hOwn : IsOwn s i xs e)
    (hMore : xs ⊆ ys) :
    IsOwn s i ys e := by
  cases hOwn with
  | render hPlan hRender => exact .render hPlan hRender
  | step hPlan hStep hMade hFailed =>
      exact .step hPlan hStep (hMore hMade) hFailed
  | store hMade => exact .store (hMore hMade)

/- A run has no other outcome than the one that it tells. -/
theorem Fits.eq_ofRun
    {o : Departure}
    (hFits : o.Fits s i before after xs result) :
    o = ofRun xs result := by
  cases o with
  | refused =>
      rcases hFits with ⟨⟨e, rfl, hRefusal⟩, _⟩
      simp only [ofRun, hRefusal, if_true]
  | removed =>
      rcases hFits with ⟨rfl, _⟩
      rfl
  | failed =>
      rcases hFits with ⟨e, rfl, hOwn, hLast, _⟩
      simp only [ofRun, hOwn.not_isRefusal, hLast]
      rfl
  | unsaved =>
      rcases hFits with ⟨e, rfl, hLast, _⟩
      simp only [ofRun, hLast]
      rfl

end Departure

------------------------------------------------------------
-- Runs That Go On
------------------------------------------------------------

section Departing

variable (s : Service) (i : Instance)

/- How a delete run ends that has gone on with its claim. -/
inductive Departed
    (before after : Store)
    (xs : List Exchange) : Except Error Unit → Prop where
  | removed
    {plan : Plan}
    (hPlan : s.plan i = .ok plan)
    (hDestroyed :
      List.Forall₂
        (fun step x => step.Destroyed s.context (.ok ()) x)
        (Plan.distinct [] plan.steps)
        (xs.filter fun x => x.call.isCluster))
    (hGone :
      after.content? (s.repository.path i.identity) = none) :
    Departed before after xs (.ok ())
  | lapsed
    {e : Error}
    {result : Except Error Unit}
    (hOwn : Departure.IsOwn s i xs e)
    (hLapsed : Lapsed s i e before after xs result) :
    Departed before after xs result

/- A run that has gone on has one of the outcomes that follow
   a claim. -/
theorem Departed.fits
    {before middle after : Store}
    {xs ys : List Exchange}
    {result : Except Error Unit}
    (hDeparted : Departed s i middle after xs result)
    (hEntered : Entered s i .delete before ys middle)
    (hClaimed : HasClaimed (ys ++ xs) ↔ HasClaimed ys) :
    ∃ o : Departure,
      o.Fits s i before after (ys ++ xs) result := by
  cases hDeparted with
  | removed hPlan hDestroyed hGone =>
      refine ⟨.removed, rfl, ⟨_, hPlan, ?_⟩, hGone⟩
      have hQuiet : ys.filter (fun x => x.call.isCluster) =
          [] := by
        apply List.filter_eq_nil_iff.2
        intro y hy
        rw [hEntered.hQuiet y hy]
        simp
      rw [List.filter_append, hQuiet]
      exact hDestroyed
  | lapsed hOwn hLapsed =>
      cases hLapsed.prepend s i ys with
      | stored hLast hContent =>
          exact ⟨.failed, _, rfl,
            hOwn.mono (List.subset_append_right ys xs), hLast,
            hContent⟩
      | lost cause hLast hSame =>
          refine ⟨.unsaved, cause, rfl, hLast, fun h => ?_,
            fun h => ?_⟩
          · rw [hSame]
            exact hEntered.hWritten (hClaimed.1 h)
          · rw [hSame]
            exact hEntered.hUnwritten fun h' =>
              h (hClaimed.2 h')

variable {σ : Type} {h : Handler σ} {view : σ → Store}
variable (hStore : Store.Unsteady h view)

include hStore

/- A run whose steps are destroyed removes the record, or
   fails with the error of the store. -/
theorem removing_departs
    (start : σ)
    {plan : Plan}
    (hPlan : s.plan i = .ok plan)
    {ys : List Exchange}
    (hDestroys : Plan.Destroys s.context
      (Plan.distinct [] plan.steps) ys (.ok ())) :
    (Job.removing s i).Yields h start fun xs result t =>
      (∀ x ∈ xs, x.call.isForClaim = false) ∧
        Departed s i (view start) (view t) (ys ++ xs)
          result := by
  unfold Job.removing
  rw [Action.yields_call]
  rcases hStore.erase_cases start
    (s.repository.path i.identity) with
    ⟨removed, hReply, hGone⟩ | ⟨hSame, cause, hReply⟩
  · rw [hReply, Action.yields_call]
    refine ⟨by simp [exchanges, Call.isForClaim], ?_⟩
    apply Departed.removed hPlan
    · have hAll : ys.filter (fun x => x.call.isCluster) =
          ys :=
        List.filter_eq_self.2 hDestroys.isCluster
      rw [List.filter_append, hAll]
      simpa [exchanges, Call.isCluster] using
        hDestroys.forall₂
    · rw [← hGone]
      exact congrArg (Store.content? · _)
        (view_send hStore _ _)
  · rw [hReply]
    apply (lapsing_yields hStore s i .delete _
      (.store cause)).mono
    intro xs result t hEnd
    rcases hEnd with ⟨hCalls, hLapsed⟩
    constructor
    · intro x hx
      rcases List.mem_cons.1 hx with rfl | hx
      · rfl
      · exact (hCalls x hx).1
    · rw [hSame] at hLapsed
      rw [List.append_cons]
      apply Departed.lapsed _ (hLapsed.prepend s i _)
      exact .store (List.mem_append_left _
        (List.mem_append_right _ (List.mem_singleton_self _)))

/- Destroying a plan does not touch the store. -/
theorem destroying_yields (plan : Plan) (start : σ) :
    (plan.destroy s.context).run.Yields h start
      fun xs outcome t =>
        (∀ x ∈ xs, x.call.isForClaim = false) ∧
          view t = view start ∧
          Plan.Destroys s.context (Plan.distinct [] plan.steps)
            xs outcome := by
  have hOutside :=
    Action.Leads.yields (plan.destroy_within s.context) h
      (I := fun t => view t = view start)
      (fun t c hOutside hSame =>
        (hStore.stays t c hOutside).trans hSame)
      (s := start) rfl
  rcases hOutside with ⟨hCalls, -, hSame⟩
  refine ⟨fun x hx => ?_, hSame,
    plan.destroy_runs h s.context start⟩
  exact Call.not_isForClaim_of_not_isStore (hCalls x hx)

/- A run that goes on with its claim does no more to the
   record until its steps are destroyed. -/
theorem start_departs
    (hCatalog : s.catalog.Valid)
    {p : Playbook}
    (hBook : s.playbook i.identity.playbook = .ok p)
    (start : σ) :
    (Job.delete.start s p i).Yields h start fun xs result t =>
      (∀ x ∈ xs, x.call.isForClaim = false) ∧
        Departed s i (view start) (view t) xs result := by
  rw [Job.start_delete]
  cases hBuild : Plan.build s.render p i.vars
      s.catalog.manifests with
  -- without a plan the run fails before any call of the cluster
  | error e =>
      have hOwn : Departure.IsOwn s i [] e :=
        .render ((Service.plan_eq hBook).trans hBuild)
          (Plan.build_error_of_valid
            (Service.playbook_valid hCatalog hBook) hBuild)
      apply (lapsing_yields hStore s i .delete start e).mono
      intro xs result t hEnd
      rcases hEnd with ⟨hCalls, hLapsed⟩
      exact ⟨fun x hx => (hCalls x hx).1,
        .lapsed (hOwn.mono (List.nil_subset _)) hLapsed⟩
  | ok plan =>
      have hPlan := (Service.plan_eq hBook).trans hBuild
      dsimp only
      rw [Action.yields_bind]
      apply (destroying_yields s hStore plan start).mono
      intro xs outcome middle hMiddle
      rcases hMiddle with ⟨hEarly, hSame, hDestroys⟩
      cases outcome with
      | error e =>
          have hOwn : Departure.IsOwn s i xs e := by
            rcases hDestroys.exists_failed with
              ⟨step, hStep, x, hx, cause, hFailed, rfl⟩
            exact .step hPlan hStep hx hFailed
          apply (lapsing_yields hStore s i .delete middle
            e).mono
          intro zs result t hEnd
          rcases hEnd with ⟨hLate, hLapsed⟩
          rw [hSame] at hLapsed
          exact ⟨List.forall_mem_append.2
              ⟨hEarly, fun x hx => (hLate x hx).1⟩,
            .lapsed
              (hOwn.mono (List.subset_append_left xs zs))
              (hLapsed.prepend s i xs)⟩
      | ok _ =>
          apply (removing_departs s i hStore middle hPlan
            hDestroys).mono
          intro zs result t hEnd
          rcases hEnd with ⟨hLate, hDeparted⟩
          rw [hSame] at hDeparted
          exact ⟨List.forall_mem_append.2 ⟨hEarly, hLate⟩,
            hDeparted⟩

end Departing

/-
  A delete run on a store that may fail has exactly one
  outcome, whatever the cluster does.
-/
theorem Service.delete_outcome
    {σ : Type}
    {h : Handler σ}
    {view : σ → Store}
    (hStore : Store.Unsteady h view)
    (s : Service)
    (hCatalog : s.catalog.Valid)
    (i : Instance)
    (start : σ) :
    (s.delete i).run.Yields h start fun xs result t =>
      ∃! o : Departure,
        o.Fits s i (view start) (view t) xs result := by
  have hFits : (Job.delete.program s i).Yields h start
      fun xs result t => ∃ o : Departure,
        o.Fits s i (view start) (view t) xs result := by
    apply course_yields hStore s i .delete start
    · intro xs e t hRefusal hHarmless hSame
      exact ⟨.refused, ⟨e, rfl, hRefusal⟩, hHarmless, hSame⟩
    · intro p hBook ys t hEntered
      apply (start_departs s i hStore hCatalog hBook t).mono
      intro xs result u hRest
      exact hRest.2.fits s i hEntered
        (hasClaimed_append hRest.1 ys)
  apply hFits.mono
  intro xs result t hOutcome
  rcases hOutcome with ⟨o, hFits⟩
  refine ⟨o, hFits, ?_⟩
  intro o' hFits'
  rw [hFits.eq_ofRun, hFits'.eq_ofRun]

/- A run on a store of which no call fails, on one that fails
   when the run claims and when it removes the record, and on
   one that fails once the claim is stored. -/
theorem Service.delete_outcome_flaky :
    Store.Unsteady Store.flaky Prod.fst ∧
      (single (plainManifest "app")).catalog.Valid ∧
      ∀ schedule o,
        (schedule, o) ∈
          [([], .removed), ([false, true, true], .failed),
            ([false, false, true, true], .unsaved)] →
        ((single (plainManifest "app")).delete
          (.ofBranch "main")).run.Yields Store.flaky
            (Store.empty, schedule)
            fun xs result t =>
              Departure.Fits (single (plainManifest "app"))
                (.ofBranch "main") Store.empty t.1 xs result o ∧
              ∃! o : Departure,
                o.Fits (single (plainManifest "app"))
                  (.ofBranch "main") Store.empty t.1 xs
                  result := by
  refine ⟨Store.flaky_unsteady, single_valid _, ?_⟩
  intro schedule o hListed
  have hOutcome := Service.delete_outcome Store.flaky_unsteady
    (single (plainManifest "app")) (single_valid _)
    (.ofBranch "main") (Store.empty, schedule)
  rcases hOutcome with ⟨o', hFits, hOnly⟩
  have hSame : o' = o := by
    refine hFits.eq_ofRun.trans ?_
    simp only [List.mem_cons, List.not_mem_nil, or_false,
      Prod.mk.injEq] at hListed
    rcases hListed with ⟨rfl, rfl⟩ | ⟨rfl, rfl⟩ | ⟨rfl, rfl⟩ <;>
      decide +kernel
  subst hSame
  exact ⟨hFits, _, hFits, hOnly⟩

end Preview
