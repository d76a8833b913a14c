import Preview.Proofs.Exclusion

/-
  What a delete run owns.

  A delete run may claim an instance while a deploy run is
  still at work on it.  From then on the record is left alone
  until the delete run or a run that was in flight before
  makes its last write.  Where none was in flight, that is
  the delete run; what it has removed comes back only through
  a run that was in flight or that has read it as absent.

  Main declarations:
    * `Group.unwritten` and `Group.writer`
    * `Group.last_turn`
    * `Service.delete_run_owns`
-/

namespace Preview

open Pool

namespace Group

variable {ι : Type} [DecidableEq ι] (g : Group ι)
variable {store : Store}
variable {trace more : List (ι × Exchange)}
variable {p q r : Pool ι (Except Error Unit)}

------------------------------------------------------------
-- Between Writes
------------------------------------------------------------

/-
  While nothing is written the record stays, and no run gets
  in flight.  A run that is in flight stays so if there is a
  record, because its last write would change it.
-/
theorem unwritten
    (hRuns : Runs (g.start store) trace p)
    (hMore : Runs p more r)
    (hUnwritten : ∀ y ∈ more, y.2.wrote = false) :
    g.record? r.store = g.record? p.store ∧
      (∀ j, r.InFlight (trace ++ more) j →
        p.InFlight trace j) ∧
      (g.record? p.store ≠ none → ∀ j,
        p.InFlight trace j → r.InFlight (trace ++ more) j) := by
  induction hMore with
  | none =>
      rw [List.append_nil]
      exact ⟨rfl, fun _ => id, fun _ _ => id⟩
  | @step more q r x hMore hStep ih =>
      rcases x with ⟨i, x⟩
      have hSilent : x.wrote = false :=
        hUnwritten (i, x) (by simp)
      rcases ih fun y hy =>
        hUnwritten y (List.mem_append_left _ hy) with
          ⟨hSame, hBack, hForth⟩
      rw [← List.append_assoc]
      cases g.effect (hRuns.append hMore) hStep with
      | still hRecord _ hFlight =>
          simp only [hFlight, hRecord]
          exact ⟨hSame, hBack, hForth⟩
      | claimed hExchange =>
          rw [hExchange] at hSilent
          cases hSilent
      | last c result _ _ _ _ hWrote _ hFlight =>
          rw [hSilent] at hWrote
          rcases hWrote.resolve_left Bool.false_ne_true with
              ⟨hAbsent, hStill⟩
          refine ⟨by rw [hStill, ← hSame, hAbsent],
            fun j hj => hBack j ((hFlight j).1 hj).2, ?_⟩
          intro hPresent
          rw [← hSame] at hPresent
          exact absurd hAbsent hPresent

/- A write is the last one of a run in flight, or the claim
   of a run that has read the record as it is. -/
theorem writer
    (hRuns : Runs (g.start store) trace p)
    {j : ι}
    {y : Exchange}
    (hStep : Pool.Step p (j, y) q)
    (hWrote : y.wrote = true) :
    (p.InFlight trace j ∧
        ¬ q.InFlight (trace ++ [(j, y)]) j) ∨
      (g.objection? j (g.record? p.store) = none ∧
        (j, ⟨.store (.value g.path),
          .ok (g.record? p.store)⟩) ∈ trace) := by
  cases g.effect hRuns hStep with
  | still _ hSilent =>
      rw [hSilent] at hWrote
      cases hWrote
  | claimed _ hFree hRead => exact .inr ⟨hFree, hRead⟩
  | last c result _ _ hBefore _ _ _ hFlight =>
      exact .inl ⟨hBefore, fun h => ((hFlight j).1 h).1 rfl⟩

/- A run that is no more in flight has made its last write,
   which has decided its result. -/
theorem last_turn
    (hRuns : Runs (g.start store) trace p)
    {d : ι}
    (hBefore : p.InFlight trace d)
    (hMore : Runs p more r)
    (hAfter : ¬ r.InFlight (trace ++ more) d) :
    ∃ early y late m n c result,
      more = early ++ (d, y) :: late ∧
        Runs p early m ∧
        Pool.Step m (d, y) n ∧
        Runs n late r ∧
        y.call = .store c ∧
        g.LastWrite d c result ∧
        g.record? n.store = c.leaves ∧
        Closing (fun x => x = result) (n.programs d) := by
  induction hMore with
  | none =>
      rw [List.append_nil] at hAfter
      exact absurd hBefore hAfter
  | @step more q r x hMore hStep ih =>
      rcases x with ⟨i, x⟩
      by_cases hStill : q.InFlight (trace ++ more) d
      · rw [← List.append_assoc] at hAfter
        cases g.effect (hRuns.append hMore) hStep with
        | still _ _ hFlight =>
            exact absurd ((hFlight d).2 hStill) hAfter
        | claimed _ _ _ _ _ hFlight =>
            exact absurd ((hFlight d).2 (.inr hStill)) hAfter
        | last c result hCall hLast _ hRecord _ hResult
            hFlight =>
            have hSame : d = i := by
              by_contra hNe
              exact hAfter ((hFlight d).2 ⟨hNe, hStill⟩)
            subst hSame
            exact ⟨more, x, [], q, r, c, result, rfl, hMore,
              hStep, .none, hCall, hLast, hRecord, hResult⟩
      · rcases ih hStill with
            ⟨early, y, late, m, n, c, result, rfl, hEarly,
              hTurn, hLate, hRest⟩
        exact ⟨early, y, late ++ [(i, x)], m, n, c, result,
          by simp, hEarly, hTurn, .step hLate hStep, hRest⟩

------------------------------------------------------------
-- After the Claim of a Delete Run
------------------------------------------------------------

variable {d : ι} {x : Exchange}

/- A successful claim puts the run in flight. -/
theorem claim_effect
    (hRuns : Runs (g.start store) trace p)
    (hClaim : Pool.Step p (d, x) q)
    (hCall : x.call.isForClaim = true)
    (hWon : x.wrote = true) :
    Claimed (trace ++ [(d, x)]) d ∧
      g.record? q.store = some (g.claimRecord d) ∧
      ∀ j, q.InFlight (trace ++ [(d, x)]) j ↔
        j = d ∨ p.InFlight trace j := by
  cases g.effect hRuns hClaim with
  | still _ hSilent =>
      rw [hSilent] at hWon
      cases hWon
  | last c _ hLastCall hLast =>
      rw [hLastCall, Job.LastWrite.not_isForClaim hLast]
        at hCall
      cases hCall
  | claimed _ _ _ hRecord _ hFlight =>
      exact ⟨((hFlight d).2 (.inl rfl)).1, hRecord, hFlight⟩

/- From the claim of a delete run to the next write, the
   record is the claim and no other run can claim. -/
theorem held
    (hRuns : Runs (g.start store) trace p)
    (hDelete : g.job d = .delete)
    (hClaim : Pool.Step p (d, x) q)
    (hCall : x.call.isForClaim = true)
    (hWon : x.wrote = true)
    (hMore : Runs q more r)
    (hUnwritten : ∀ y ∈ more, y.2.wrote = false) :
    g.record? r.store = some (g.claimRecord d) ∧
      (∀ j, r.InFlight (trace ++ [(d, x)] ++ more) j ↔
        j = d ∨ p.InFlight trace j) ∧
      ∀ j, g.objection? j (g.record? r.store) =
        some (.conflict g.identity (.already .deleting)) := by
  rcases g.unwritten (.step hRuns hClaim) hMore hUnwritten with
      ⟨hSame, hBack, hForth⟩
  rcases g.claim_effect hRuns hClaim hCall hWon with
      ⟨_, hRecord, hFlight⟩
  rw [hRecord] at hForth
  have hHeld := hSame.trans hRecord
  refine ⟨hHeld, fun j => ?_, fun j => ?_⟩
  · rw [← hFlight]
    exact ⟨hBack j, hForth (by simp) j⟩
  · have hObjection := g.objection?_claimRecord (i := j)
      (j := d) (by
        rw [hDelete]
        exact (g.job j).deleting_mem_busy)
    rw [hHeld, hObjection, hDelete]
    rfl

/- With no other run in flight, the delete run alone writes
   the record until it is done. -/
theorem held_alone
    (hRuns : Runs (g.start store) trace p)
    (hDelete : g.job d = .delete)
    (hClaim : Pool.Step p (d, x) q)
    (hCall : x.call.isForClaim = true)
    (hWon : x.wrote = true)
    (hAlone : ∀ j, ¬ p.InFlight trace j)
    (hMore : Runs q more r)
    (hFlight : r.InFlight (trace ++ [(d, x)] ++ more) d) :
    ∀ y ∈ more, y.2.wrote = false := by
  induction hMore with
  | none => simp
  | @step more r t y hMore hStep ih =>
      rcases y with ⟨i, y⟩
      have hBefore : Runs (g.start store)
          (trace ++ [(d, x)] ++ more) r :=
        Runs.append (.step hRuns hClaim) hMore
      have hClaimed :=
        (g.claim_effect hRuns hClaim hCall hWon).1.append more
      -- up to this turn nothing is written, by induction
      have hHeld (hStill :
          r.InFlight (trace ++ [(d, x)] ++ more) d) :=
        g.held hRuns hDelete hClaim hCall hWon hMore
          (ih hStill)
      rw [← List.append_assoc] at hFlight
      have hTurn : r.InFlight (trace ++ [(d, x)] ++ more) d ∧
          y.wrote = false := by
        cases g.effect hBefore hStep with
        | still _ hSilent hFlight' =>
            exact ⟨(hFlight' d).1 hFlight, hSilent⟩
        | claimed _ hFree _ _ hFirst hFlight' =>
            rcases (hFlight' d).1 hFlight with rfl | hStill
            · exact absurd hClaimed hFirst
            · rw [(hHeld hStill).2.2 i] at hFree
              cases hFree
        | last _ _ _ _ hLast _ _ _ hFlight' =>
            rcases (hFlight' d).1 hFlight with ⟨hOther, hStill⟩
            rcases ((hHeld hStill).2.1 i).1 hLast with hi | hi
            · exact absurd hi.symm hOther
            · exact absurd hi (hAlone i)
      intro z hz
      rcases List.mem_append.1 hz with hOld | hNew
      · exact ih hTurn.1 z hOld
      · rw [List.mem_singleton.1 hNew]
        exact hTurn.2

end Group

/-
  A delete run that has claimed its instance is the next one
  to write the record, unless a run that was in flight at the
  claim is.  Up to that write the record is the claim, no
  other run gets in flight, and a run that reads or claims
  ends with a conflict.  If no other run was in flight, that
  lasts until the last write of the delete run.  A delete run
  that has succeeded has removed the record, and the first
  write after that is made by a run that was then in flight,
  or by the claim of a run that has read no record.
-/
theorem Service.delete_run_owns
    {ι : Type}
    [DecidableEq ι]
    (s : Service)
    (identity : Identity)
    (job : ι → Job)
    (copy : ι → Instance)
    (store : Store)
    (hCopy : ∀ i, (copy i).identity = identity)
    (hKey :
      (Store.key (s.repository.path identity)).isOk = true)
    {trace more : List (ι × Exchange)}
    {p q r : Pool ι (Except Error Unit)}
    {d : ι}
    {x : Exchange}
    (hRuns : Runs
      ⟨store, fun i => (job i).program s (copy i)⟩ trace p)
    (hDelete : job d = .delete)
    (hClaim : Pool.Step p (d, x) q)
    (hCall : x.call.isForClaim = true)
    (hWon : x.wrote = true)
    (hMore : Runs q more r) :
    ((∀ y ∈ more, y.2.wrote = false) →
      r.store.content? (s.repository.path identity) =
          some { copy d with status := .deleting : Instance }.record ∧
        (∀ j, r.InFlight (trace ++ [(d, x)] ++ more) j ↔
          j = d ∨ p.InFlight trace j) ∧
        ∀ j y t, Pool.Step r (j, y) t →
          (y.wrote = true →
            (j = d ∨ p.InFlight trace j) ∧
              ¬ t.InFlight
                (trace ++ [(d, x)] ++ more ++ [(j, y)]) j) ∧
            (y.call.isForClaim = true →
              (t.programs j).Ends (Conflicting identity))) ∧
    ((∀ j, ¬ p.InFlight trace j) →
      r.InFlight (trace ++ [(d, x)] ++ more) d →
        ∀ y ∈ more, y.2.wrote = false) ∧
    (r.programs d = .finish (.ok ()) →
      ∃ early y late m n,
        more = early ++ (d, y) :: late ∧
          Runs q early m ∧
          Pool.Step m (d, y) n ∧
          Runs n late r ∧
          n.store.content? (s.repository.path identity) =
            none ∧
          ((∀ z ∈ late, z.2.wrote = false) →
            r.store.content? (s.repository.path identity) =
                none ∧
              ∀ j z t, Pool.Step r (j, z) t →
                z.wrote = true →
                  n.InFlight
                      (trace ++ [(d, x)] ++ early ++ [(d, y)])
                      j ∨
                    (j, ⟨.store
                          (.value (s.repository.path identity)),
                        .ok none⟩) ∈
                      trace ++ [(d, x)] ++ more)) := by
  -- the programs are the start of a group of runs, of which
  -- what a claim brings is known
  let g : Group ι := ⟨s, identity, job, copy, hCopy, hKey⟩
  have hGroup : Runs (g.start store) trace p := hRuns
  have hClaimed : Runs (g.start store) (trace ++ [(d, x)]) q :=
    .step hGroup hClaim
  have hAll := hClaimed.append hMore
  refine ⟨fun hUnwritten => ?_, fun hAlone hFlight => ?_,
    fun hEnded => ?_⟩
  · rcases g.held hGroup hDelete hClaim hCall hWon hMore
      hUnwritten with
        ⟨hRecord, hFlight, hObjection⟩
    have hCopyRecord : g.claimRecord d =
        { copy d with status := .deleting : Instance }.record := by
      unfold Group.claimRecord Job.claimRecord
      rw [show g.job d = .delete from hDelete]
      rfl
    refine ⟨hRecord.trans (congrArg some hCopyRecord), hFlight,
      fun j y t hStep => ⟨fun hWrote => ?_, fun hRead => ?_⟩⟩
    · rcases g.writer hAll hStep hWrote with
        ⟨hBefore, hAfter⟩ | ⟨hFree, _⟩
      · exact ⟨(hFlight j).1 hBefore, hAfter⟩
      · rw [hObjection j] at hFree
        cases hFree
    · exact g.conflicts hAll hStep hRead (hObjection j)
  · exact g.held_alone hGroup hDelete hClaim hCall hWon hAlone
      hMore hFlight
  · have hBefore : q.InFlight (trace ++ [(d, x)]) d :=
      ((g.claim_effect hGroup hClaim hCall hWon).2.2 d).2
        (.inl rfl)
    have hAfter : ¬ r.InFlight (trace ++ [(d, x)] ++ more) d := by
      intro h
      rw [InFlight, hEnded] at h
      cases h.2
    rcases g.last_turn hClaimed hBefore hMore hAfter with
        ⟨early, y, late, m, n, c, result, rfl, hEarly, hTurn,
          hLate, _, hLast, hLeaves, hResult⟩
    have hOk : Except.ok () = result := by
      have hFinal := hLate.leads hResult
      rw [hEnded] at hFinal
      exact hFinal
    have hAbsent : g.record? n.store = none := by
      subst hOk
      unfold Group.LastWrite at hLast
      rw [show g.job d = .delete from hDelete] at hLast
      cases hLast
      exact hLeaves
    have hRemoved := Runs.step (hClaimed.append hEarly) hTurn
    refine ⟨early, y, late, m, n, rfl, hEarly, hTurn, hLate,
      hAbsent, ?_⟩
    intro hUnwritten
    rcases g.unwritten hRemoved hLate hUnwritten with
        ⟨hSame, hBack, _⟩
    refine ⟨hSame.trans hAbsent, ?_⟩
    intro j z t hStep hWrote
    rcases g.writer (hRemoved.append hLate) hStep hWrote with
      ⟨hFlight, _⟩ | ⟨_, hRead⟩
    · exact .inl (hBack j hFlight)
    · right
      rw [hSame, hAbsent] at hRead
      simpa using hRead

------------------------------------------------------------
-- A Delete Run Among Deploy Runs
------------------------------------------------------------

namespace Group

/- Two deploy runs and a delete run on one instance. -/
def trio : Group (Fin 3) where
  service := .single (plainManifest "app")
  identity := ⟨"web", "demo"⟩
  job i := if i = 1 then .delete else .deploy
  copy _ := .ofBranch "main"
  hCopy _ := rfl
  hKey := by decide +kernel

/-
  One deploy run reads, the other one reads and claims, and
  then the delete run claims.
-/
theorem trio_claims :
    ∃ book before x p q,
      Runs (trio.start .empty) before p ∧
        (2, ⟨.store (.value trio.path), .ok none⟩) ∈ before ∧
        Pool.Step p (1, x) q ∧
        x.call.isForClaim = true ∧
        x.wrote = true ∧
        q.InFlight (before ++ [(1, x)]) 1 ∧
        trio.record? q.store = some (trio.claimRecord 1) ∧
        trio.service.playbook "web" = .ok book ∧
        q.programs 0 =
          Job.deploy.start trio.service book
            (.ofBranch "main") ∧
        q.programs 1 =
          Job.delete.start trio.service book
            (.ofBranch "main") ∧
        q.programs 2 =
          Job.deploy.proceed trio.service book
            (.ofBranch "main") none := by
  have hStart (i : Fin 3) : (trio.start .empty).programs i =
      (trio.job i).program trio.service (trio.copy i) := rfl
  have hAbsent : trio.record? .empty = none :=
    Store.content?_empty _
  -- the two reads, which find no record
  rcases trio.read_turn (i := 2) rfl (by decide) (hStart 2) with
      ⟨a, hReadA, hNextA, hStoreA, hOthersA⟩
  rcases trio.read_turn (p := a) (i := 0) rfl (by decide)
    ((hOthersA 0 (by decide)).trans (hStart 0)) with
      ⟨b, hReadB, hNextB, hStoreB, hOthersB⟩
  have hRecordB : trio.record? b.store = none := by
    rw [hStoreB, hStoreA]
    exact hAbsent
  rw [← hStoreB] at hNextB
  -- the claim of the deploy run
  have hFreeB : trio.objection? 0 (trio.record? b.store) =
      none := by
    rw [hRecordB]
    rfl
  rcases trio.swap_turn hNextB hFreeB with
      ⟨c, hSwapC, hBegunC, hRecordC, _, hOthersC⟩
  -- the claim of the delete run, which does not mind it
  rcases trio.read_turn (p := c) (i := 1) rfl (by decide)
    ((hOthersC 1 (by decide)).trans
      ((hOthersB 1 (by decide)).trans
        ((hOthersA 1 (by decide)).trans (hStart 1)))) with
      ⟨p, hReadP, hNextP, hStoreP, hOthersP⟩
  have hFreeP : trio.objection? 1 (trio.record? p.store) =
      none := by
    rw [hStoreP, hRecordC]
    exact Job.objection?_record_of_free _ _ (by decide)
  rw [← hStoreP] at hNextP
  rcases trio.swap_turn hNextP hFreeP with
      ⟨q, hSwapQ, hBegunQ, hRecordQ, hFlightQ, hOthersQ⟩
  refine ⟨_, _, _, p, q,
    .step (.step (.step (.step .none hReadA) hReadB) hSwapC)
      hReadP, ?_, hSwapQ, rfl, rfl, hFlightQ _, hRecordQ, rfl,
    ?_, hBegunQ, ?_⟩
  · rw [show trio.record? (trio.start .empty).store = none
      from hAbsent]
    simp
  · exact (hOthersQ 0 (by decide)).trans
      ((hOthersP 0 (by decide)).trans hBegunC)
  · rw [hOthersQ 2 (by decide), hOthersP 2 (by decide),
      hOthersC 2 (by decide), hOthersB 2 (by decide), hNextA,
      show trio.record? (trio.start .empty).store = none
        from hAbsent]
    rfl

end Group

/-
  A delete run does not own the record against a run that was
  in flight at its claim, nor against one that has read no
  record: the first deploy run replaces the claim, and when
  the delete run has succeeded, the second one brings the
  record back.
-/
theorem Service.delete_run_overwritten :
    ∃ before middle after x y z p q m n t u,
      Runs (Group.trio.start .empty) before p ∧
        (2, ⟨.store (.value Group.trio.path), .ok none⟩) ∈
          before ∧
        Pool.Step p (1, x) q ∧
        x.call.isForClaim = true ∧
        x.wrote = true ∧
        Group.trio.record? q.store =
          some { Instance.ofBranch "main" with
            status := .deleting }.record ∧
        Runs q middle m ∧
        Pool.Step m (0, y) n ∧
        y.wrote = true ∧
        n.InFlight
          (before ++ [(1, x)] ++ middle ++ [(0, y)]) 1 ∧
        Group.trio.record? n.store =
          some { Instance.ofBranch "main" with
            status := .deployed }.record ∧
        Runs n after t ∧
        t.programs 1 = .finish (.ok ()) ∧
        Group.trio.record? t.store = none ∧
        Pool.Step t (2, z) u ∧
        z.wrote = true ∧
        Group.trio.record? u.store =
          some { Instance.ofBranch "main" with
            status := .deploying }.record := by
  obtain ⟨resource, hRender⟩ : ∃ resource,
      renderResource Template.render (plainManifest "app")
        (Instance.ofBranch "main").vars = .ok resource :=
    exists_of_isOk (by decide +kernel)
  rcases build_single hRender with ⟨book', hBook', hPlan⟩
  rcases Group.trio_claims with
      ⟨book, before, x, p, q, hBefore, hEarly, hClaim,
        hForClaim, hWon, hFlight, hRecord, hBook, hDeploy,
        hDelete, hWaiting⟩
  cases hBook'.symm.trans hBook
  rcases Job.start_deploy_single Group.trio.service
    (.ofBranch "main") hPlan with
      ⟨afterGet, afterCreate, afterSave, _, _, hGet, hCreate,
        hSave, _⟩
  rcases Job.start_delete_single Group.trio.service
    (.ofBranch "main") hPlan with
      ⟨afterDelete, afterErase, message, afterSend, hRemove,
        hErase, hSend, hDone⟩
  -- the deploy run finishes its work and writes the record
  rcases runs_turn (hDeploy.trans hGet)
    (.other (.cluster (.get _)) (Except.ok none) rfl) with
      ⟨a, hStepA, hNextA, hStoreA, hOthersA⟩
  rcases runs_turn (hNextA.trans hCreate)
    (.other (.cluster (.create _ _ _)) (Except.ok ()) rfl) with
      ⟨m, hStepM, hNextM, hStoreM, hOthersM⟩
  rcases Answers.set
    Group.trio.hKey m.store
    { Instance.ofBranch "main" with status := .deployed }.record
    with
      ⟨saved, hSet, hSaved⟩
  rcases runs_turn (hNextM.trans hSave) hSet with
      ⟨n, hStepN, hNextN, hStoreN, hOthersN⟩
  have hProgram : n.programs 1 = q.programs 1 :=
    (hOthersN 1 (by decide)).trans
      ((hOthersM 1 (by decide)).trans (hOthersA 1 (by decide)))
  -- the delete run removes the object and the record
  rcases runs_turn (hProgram.trans (hDelete.trans hRemove))
    (.other (.cluster (.delete _)) (Except.ok ()) rfl) with
      ⟨b, hStepB, hNextB, hStoreB, hOthersB⟩
  have hPresent :
      (Group.trio.record? b.store).isSome = true := by
    rw [hStoreB, hStoreN]
    exact congrArg Option.isSome hSaved
  rcases Answers.erase Group.trio.hKey b.store with
      ⟨removed, hErased, hRemoved⟩
  rw [hPresent] at hErased
  rcases runs_turn (hNextB.trans hErase) hErased with
      ⟨c, hStepC, hNextC, hStoreC, hOthersC⟩
  rcases runs_turn (hNextC.trans hSend)
    (.other (.send _) true rfl) with
      ⟨t, hStepT, hNextT, hStoreT, hOthersT⟩
  have hAbsent : Group.trio.record? t.store = none := by
    rw [hStoreT, hStoreC]
    exact hRemoved
  -- the other deploy run claims what it has read
  have hStill : t.programs 2 = q.programs 2 := by
    rw [hOthersT 2 (by decide), hOthersC 2 (by decide),
      hOthersB 2 (by decide), hOthersN 2 (by decide),
      hOthersM 2 (by decide), hOthersA 2 (by decide)]
  have hProceed := hStill.trans hWaiting
  have hFree : Group.trio.objection? 2
      (Group.trio.record? t.store) = none := by
    rw [hAbsent]
    rfl
  rw [← hAbsent] at hProceed
  rcases Group.trio.swap_turn hProceed hFree with
      ⟨u, hStepU, _, hRecordU, _⟩
  refine ⟨before, _, _, x, _, _, p, q, m, n, t, u, hBefore,
    hEarly, hClaim, hForClaim, hWon, hRecord,
    .step (.step .none hStepA) hStepM, hStepN, rfl, ?_, ?_,
    .step (.step (.step .none hStepB) hStepC) hStepT,
    hNextT.trans (hDone true), hAbsent, hStepU, rfl, hRecordU⟩
  · exact ⟨(hFlight.1.append _).append _,
      hProgram.symm ▸ hFlight.2⟩
  · rw [hStoreN]
    exact hSaved

/- The claim of the delete run, with a deploy run in flight:
   the record is the claim, and a run in flight is the delete
   run or was in flight before. -/
theorem Service.delete_run_owns_trio :
    ∃ before x,
      ∃ p q : Pool (Fin 3) (Except Error Unit),
        Runs (Group.trio.start .empty) before p ∧
          Pool.Step p (1, x) q ∧
          x.call.isForClaim = true ∧
          x.wrote = true ∧
          q.store.content? Group.trio.path =
            some { Instance.ofBranch "main" with
              status := .deleting }.record ∧
          ∀ j, q.InFlight (before ++ [(1, x)] ++ []) j ↔
            j = 1 ∨ p.InFlight before j := by
  rcases Group.trio_claims with
      ⟨_, before, x, p, q, hBefore, _, hClaim, hForClaim, hWon,
        _⟩
  have hOwns := (Service.delete_run_owns Group.trio.service
    Group.trio.identity Group.trio.job Group.trio.copy .empty
    Group.trio.hCopy Group.trio.hKey hBefore rfl hClaim
    hForClaim hWon .none).1 (by simp)
  exact ⟨before, x, p, q, hBefore, hClaim, hForClaim, hWon,
    hOwns.1, hOwns.2.1⟩

end Preview
