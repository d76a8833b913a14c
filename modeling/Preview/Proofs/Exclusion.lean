import Preview.Proofs.Standing

/-
  Deploy runs exclude each other.

  The record tells which run is in flight: a claim replaces a
  record that is free by one that is not, and the run that is
  in flight alone puts a free one back.  So of any number of
  deploy runs on one instance at most one is in flight at any
  time, whatever the order of their calls.

  Main declarations:
    * `Effect` and `Group.effect`
    * `Group.Exclusive` and `Group.exclusive`
    * `Service.deploy_runs_exclude`
-/

namespace Preview

open Pool

------------------------------------------------------------
-- Effects
------------------------------------------------------------

section Effects

variable {ι : Type} [DecidableEq ι] (g : Group ι)
variable {store : Store}
variable {trace : List (ι × Exchange)}
variable {i j : ι}
variable {x : Exchange}
variable {p q : Pool ι (Except Error Unit)}

/- A turn concerns the run that makes it. -/
theorem Pool.Step.programs_other
    {α : Type}
    {p q : Pool ι α}
    (hStep : Step p (i, x) q)
    (hOther : j ≠ i) :
    q.programs j = p.programs j := by
  cases hStep with
  | turn => simp [Function.update_of_ne hOther]

/- What one party does, leaves another in flight or not. -/
theorem inFlight_other
    (hStep : Pool.Step p (i, x) q)
    (hOther : j ≠ i) :
    q.InFlight (trace ++ [(i, x)]) j ↔ p.InFlight trace j := by
  unfold InFlight
  rw [hStep.programs_other hOther, claimed_append (.inl hOther)]

/- What a turn changes in a group: nothing, or it is a claim,
   or it is a last write. -/
inductive Effect
    (trace : List (ι × Exchange))
    (i : ι)
    (x : Exchange)
    (p q : Pool ι (Except Error Unit)) : Prop where
  | still
    (hRecord : g.record? q.store = g.record? p.store)
    (hWrote : x.wrote = false)
    (hFlight : ∀ j, q.InFlight (trace ++ [(i, x)]) j ↔
      p.InFlight trace j)
  | claimed
    (hExchange : x =
      ⟨.store (.swap g.path (g.record? p.store)
        (g.claimRecord i)), .ok true⟩)
    (hFree : g.objection? i (g.record? p.store) = none)
    (hRead :
      (i, ⟨.store (.value g.path),
        .ok (g.record? p.store)⟩) ∈ trace)
    (hRecord : g.record? q.store = some (g.claimRecord i))
    (hBefore : ¬ Claimed trace i)
    (hFlight : ∀ j, q.InFlight (trace ++ [(i, x)]) j ↔
      j = i ∨ p.InFlight trace j)
  | last
    (c : Store.Call)
    (result : Except Error Unit)
    (hCall : x.call = .store c)
    (hLast : g.LastWrite i c result)
    (hBefore : p.InFlight trace i)
    (hRecord : g.record? q.store = c.leaves)
    (hWrote : x.wrote = true ∨
      g.record? p.store = none ∧ g.record? q.store = none)
    (hResult : Closing (fun r => r = result) (q.programs i))
    (hFlight : ∀ j, q.InFlight (trace ++ [(i, x)]) j ↔
      j ≠ i ∧ p.InFlight trace j)

/- Every turn in a group is one of these changes. -/
theorem Group.effect
    (hRuns : Runs (g.start store) trace p)
    (hStep : Pool.Step p (i, x) q) :
    Effect g trace i x p q := by
  have hOthers (j : ι) (hOther : j ≠ i) :
      q.InFlight (trace ++ [(i, x)]) j ↔ p.InFlight trace j :=
    inFlight_other hStep hOther
  have hSame
      (hSelf : q.InFlight (trace ++ [(i, x)]) i ↔
        p.InFlight trace i)
      (j : ι) :
      q.InFlight (trace ++ [(i, x)]) j ↔
        p.InFlight trace j := by
    by_cases hj : j = i
    · exact hj ▸ hSelf
    · exact hOthers j hj
  -- only a claim and a last write change who is in flight; all
  -- other moves leave the record
  cases g.move hRuns hStep with
  | outside hCall hStore hFlight =>
      have hWrote : x.wrote = false :=
        Call.not_wrote_of_not_isStore hCall x.reply
      refine .still (by rw [hStore]) hWrote (hSame ?_)
      unfold InFlight
      rw [hFlight, claimed_append (.inr (.inl hWrote))]
  | read hCall hStore hBefore _ =>
      have hWrote : x.wrote = false := by
        rcases x with ⟨c, reply⟩
        cases hCall
        rfl
      refine .still (by rw [hStore]) hWrote (hSame ?_)
      refine iff_of_false (fun h => hBefore ?_)
        (fun h => hBefore h.1)
      exact (claimed_append (.inr (.inl hWrote))).1 h.1
  | missed seen hExchange hStore hBefore _ =>
      have hWrote : x.wrote = false := by
        rw [hExchange]
        rfl
      refine .still (by rw [hStore]) hWrote (hSame ?_)
      refine iff_of_false (fun h => hBefore ?_)
        (fun h => hBefore h.1)
      exact (claimed_append (.inr (.inl hWrote))).1 h.1
  | claimed hExchange hFree hRead hRecord hBefore hFlight =>
      refine .claimed hExchange hFree hRead hRecord hBefore ?_
      intro j
      by_cases hj : j = i
      · subst hj
        refine iff_of_true ⟨?_, hFlight⟩ (.inl rfl)
        rw [hExchange]
        exact claimed_last trace j _ _ _
      · rw [hOthers j hj]
        exact ⟨.inr, fun h => h.resolve_left hj⟩
  | last c result hCall hLast hClaimed hBefore hRecord
      hWrote hResult =>
      refine .last c result hCall hLast ⟨hClaimed, hBefore⟩
        hRecord hWrote hResult ?_
      intro j
      by_cases hj : j = i
      · subst hj
        exact iff_of_false (fun h => hResult.not_mayWrite h.2)
          (fun h => h.1 rfl)
      · rw [hOthers j hj]
        exact ⟨fun h => ⟨hj, h⟩, fun h => h.2⟩

end Effects

------------------------------------------------------------
-- Deploy Runs
------------------------------------------------------------

namespace Group

variable {ι : Type} [DecidableEq ι] (g : Group ι)
variable {store : Store}
variable {trace : List (ι × Exchange)}
variable {p q : Pool ι (Except Error Unit)}

/- The record is that of an instance which is deployed or in
   error. -/
def Settled (store : Store) : Prop :=
  ∃ record current,
    g.record? store = some record ∧
      Instance.ofRecord? record = some current ∧
      (current.status = .deployed ∨ current.status = .error)

/-
  One run is in flight and the record is its claim, or none
  is and the record is settled once there has been a claim.
-/
def Exclusive
    (trace : List (ι × Exchange))
    (p : Pool ι (Except Error Unit)) : Prop :=
  (∃ i, (∀ j, p.InFlight trace j ↔ j = i) ∧
    g.record? p.store = some (g.claimRecord i)) ∨
  ((∀ j, ¬ p.InFlight trace j) ∧
    ((∀ j, ¬ Claimed trace j) ∨ g.Settled p.store))

/- A claim is an objection to whoever must wait for its
   status. -/
omit [DecidableEq ι] in
theorem objection?_claimRecord
    {i j : ι}
    (hBusy : (g.job j).target ∈ (g.job i).busy) :
    g.objection? i (some (g.claimRecord j)) =
      some (.conflict g.identity
        (.already (g.job j).target)) :=
  Job.objection?_record _ _
    (i := { g.copy j with status := (g.job j).target }) hBusy

/- The last write of a deploy run leaves a status in which no
   run is under way. -/
omit [DecidableEq ι] in
theorem settled_of_last
    {i : ι}
    {c : Store.Call}
    {result : Except Error Unit}
    {store : Store}
    (hDeploy : g.job i = .deploy)
    (hLast : g.LastWrite i c result)
    (hRecord : g.record? store = c.leaves) :
    g.Settled store := by
  unfold LastWrite at hLast
  rw [hDeploy] at hLast
  cases hLast with
  | failed =>
      exact ⟨_, _, hRecord, Instance.ofRecord?_record _,
        .inr rfl⟩
  | deployed =>
      exact ⟨_, _, hRecord, Instance.ofRecord?_record _,
        .inl rfl⟩

/- At most one deploy run is in flight at a time. -/
theorem exclusive
    (hDeploy : ∀ i, g.job i = .deploy)
    (hRuns : Runs (g.start store) trace p) :
    g.Exclusive trace p := by
  induction hRuns with
  | none =>
      have hNone (j : ι) : ¬ Claimed [] j := by
        rintro ⟨_, _, _, hSwap⟩
        cases hSwap
      exact .inr ⟨fun j h => hNone j h.1, .inl hNone⟩
  | @step trace p q x hRuns hStep ih =>
      rcases x with ⟨i, x⟩
      cases g.effect hRuns hStep with
      | still hRecord hWrote hFlight =>
          have hClaimed (j : ι) :
              Claimed (trace ++ [(i, x)]) j ↔ Claimed trace j :=
            claimed_append (.inr (.inl hWrote))
          unfold Exclusive Settled
          simp only [hFlight, hRecord, hClaimed]
          exact ih
      | claimed _ hFree _ hRecord _ hFlight =>
          rcases ih with ⟨k, _, hClaim⟩ | ⟨hNone, _⟩
          · rw [hClaim, g.objection?_claimRecord
              (by rw [hDeploy, hDeploy]; decide)] at hFree
            cases hFree
          · refine .inl ⟨i, fun j => ?_, hRecord⟩
            rw [hFlight]
            exact or_iff_left (hNone j)
      | last c result _ hLast hBefore hRecord _ _ hFlight =>
          refine .inr ⟨fun j hAfter => ?_, .inr
            (g.settled_of_last (hDeploy i) hLast hRecord)⟩
          have hj := (hFlight j).1 hAfter
          rcases ih with ⟨k, hOnly, _⟩ | ⟨hNone, _⟩
          · exact hj.1 (((hOnly j).1 hj.2).trans
              ((hOnly i).1 hBefore).symm)
          · exact hNone i hBefore

/- While a run is in flight, the record is its claim. -/
theorem record_of_inFlight
    (hDeploy : ∀ i, g.job i = .deploy)
    (hRuns : Runs (g.start store) trace p)
    {i : ι}
    (hFlight : p.InFlight trace i) :
    g.record? p.store = some (g.claimRecord i) := by
  rcases g.exclusive hDeploy hRuns with
    ⟨k, hOnly, hRecord⟩ | ⟨hNone, _⟩
  · rw [(hOnly i).1 hFlight]
    exact hRecord
  · exact absurd hFlight (hNone i)

/- A run that reads or claims while the record conflicts with
   its claim can only end with the conflict. -/
theorem conflicts
    (hRuns : Runs (g.start store) trace p)
    {j : ι}
    {x : Exchange}
    (hStep : Pool.Step p (j, x) q)
    (hCall : x.call.isForClaim = true)
    {cause : Conflict}
    (hObjection : g.objection? j (g.record? p.store) =
      some (.conflict g.identity cause)) :
    (q.programs j).Ends (Conflicting g.identity) := by
  cases g.move hRuns hStep with
  | outside hOutside =>
      rcases x with ⟨c, reply⟩
      cases c <;>
        simp_all [Call.isStore, Call.isForClaim]
  | read _ _ _ hRefused =>
      exact (hRefused _ hObjection).mono (fun _ _ => trivial)
        fun r hr => ⟨cause, hr⟩
  | missed _ _ _ _ hRefused =>
      exact hRefused.mono (fun _ _ => trivial) fun _ => id
  | claimed _ hFree =>
      rw [hObjection] at hFree
      cases hFree
  | last c result hLastCall hLast =>
      rw [hLastCall, Job.LastWrite.not_isForClaim hLast]
        at hCall
      cases hCall

/- A run that has ended was refused, having done nothing, or
   it had claimed its instance. -/
theorem ended
    (hRuns : Runs (g.start store) trace p)
    {i : ι}
    {result : Except Error Unit}
    (hEnded : p.programs i = .finish result) :
    (Refused result ∧ Quiet trace i) ∨
      (¬ Refused result ∧ Claimed trace i) := by
  have hStanding := g.standing hRuns i
  rw [hEnded] at hStanding
  cases hStanding with
  | refused hRefused hQuiet => exact .inl ⟨hRefused, hQuiet⟩
  | reading hReading =>
      rcases hReading with ⟨_, hCall, _⟩
      cases hCall
  | swapping _ _ _ hSwapping =>
      rcases hSwapping with ⟨_, hCall, _⟩
      cases hCall
  | working hWorking =>
      cases hWorking with
      | now hLeft =>
          rcases hLeft with ⟨_, _, _, hCall, _⟩
          cases hCall
  | done c reply result' hLast _ hClosing hClaimed =>
      have hResult : result = result' := hClosing
      rw [hResult]
      exact .inr ⟨Job.LastWrite.not_refused hLast, hClaimed⟩

end Group

/-
  Any number of deploy runs on copies of one instance share a
  reliable store in which no one else writes its record.  At
  every moment at most one is in flight; a run that reads or
  claims while another one is in flight ends with a conflict;
  a run that is refused has asked no cluster and has written
  nothing, and only such a run ends without a claim; and when
  all have ended and one has claimed the instance, then it is
  deployed or in error.
-/
theorem Service.deploy_runs_exclude
    {ι : Type}
    [DecidableEq ι]
    (s : Service)
    (identity : Identity)
    (copy : ι → Instance)
    (store : Store)
    (hCopy : ∀ i, (copy i).identity = identity)
    (hKey :
      (Store.key (s.repository.path identity)).isOk = true)
    {trace : List (ι × Exchange)}
    {p : Pool ι (Except Error Unit)}
    (hRuns : Runs
      ⟨store, fun i => (s.deploy (copy i)).run⟩ trace p) :
    (∀ i j, p.InFlight trace i → p.InFlight trace j → i = j) ∧
    (∀ i j x q, p.InFlight trace i → j ≠ i →
      Pool.Step p (j, x) q → x.call.isForClaim = true →
        (q.programs j).Ends (Conflicting identity)) ∧
    (∀ i result, p.programs i = .finish result →
      (Refused result ↔ ¬ Claimed trace i) ∧
        (Refused result → Quiet trace i)) ∧
    ((∀ i, ∃ result, p.programs i = .finish result) →
      (∃ i, Claimed trace i) →
        ∃ record current,
          p.store.content? (s.repository.path identity) =
              some record ∧
            Instance.ofRecord? record = some current ∧
            (current.status = .deployed ∨
              current.status = .error)) := by
  let g : Group ι := ⟨s, identity, fun _ => .deploy, copy,
    hCopy, hKey⟩
  have hDeploy (i : ι) : g.job i = .deploy := rfl
  have hGroup : Runs (g.start store) trace p := hRuns
  have hExclusive := g.exclusive hDeploy hGroup
  refine ⟨fun i j hi hj => ?_,
    fun i j x q hFlight _ hStep hCall => ?_,
    fun i result hEnded => ?_, fun hAll hSome => ?_⟩
  · rcases hExclusive with ⟨k, hOnly, _⟩ | ⟨hNone, _⟩
    · exact ((hOnly i).1 hi).trans ((hOnly j).1 hj).symm
    · exact absurd hi (hNone i)
  · have hObjection :=
      g.objection?_claimRecord (i := j) (j := i)
        (Job.target_mem_busy .deploy)
    rw [← g.record_of_inFlight hDeploy hGroup hFlight]
      at hObjection
    exact g.conflicts hGroup hStep hCall hObjection
  · rcases g.ended hGroup hEnded with
      ⟨hRefused, hQuiet⟩ | ⟨hNot, hClaimed⟩
    · exact ⟨iff_of_true hRefused hQuiet.not_claimed,
        fun _ => hQuiet⟩
    · exact ⟨iff_of_false hNot (not_not_intro hClaimed),
        fun h => absurd h hNot⟩
  · rcases hExclusive with ⟨k, hOnly, _⟩ | ⟨_, hSettled⟩
    · rcases hAll k with ⟨result, hEnded⟩
      have hMayWrite := ((hOnly k).2 rfl).2
      rw [hEnded] at hMayWrite
      cases hMayWrite
    · rcases hSome with ⟨i, hClaimed⟩
      exact hSettled.resolve_left fun h => h i hClaimed

/- Two runs: the second one reads while the first one is in
   flight, and can only end with a conflict. -/
theorem Service.deploy_runs_exclude_two :
    ∃ trace x,
      ∃ p q : Pool Bool (Except Error Unit),
        Runs
            ⟨.empty, fun _ =>
              ((Service.single "").deploy
                (Instance.ofBranch "main")).run⟩ trace p ∧
          p.InFlight trace false ∧
          Pool.Step p (true, x) q ∧
          (∀ i, p.InFlight trace i → i = false) ∧
          (q.programs true).Ends
            (Conflicting ⟨"web", "demo"⟩) := by
  let g : Group Bool :=
    { service := .single ""
      identity := ⟨"web", "demo"⟩
      job := fun _ => .deploy
      copy := fun _ => .ofBranch "main"
      hCopy := fun _ => rfl
      hKey := by decide +kernel }
  have hStart (i : Bool) : (g.start .empty).programs i =
      (g.job i).program g.service (g.copy i) := rfl
  have hAbsent : g.record? .empty = none :=
    Store.content?_empty _
  rcases g.read_turn rfl (by decide) (hStart false) with
      ⟨m, hRead, hNext, hStore, hOthers⟩
  have hRecord : g.record? m.store = none := by
    rw [hStore]
    exact hAbsent
  rw [show g.record? (g.start .empty).store =
    g.record? m.store by rw [hStore]] at hNext
  have hFree : g.objection? false (g.record? m.store) =
      none := by
    rw [hRecord]
    rfl
  rcases g.swap_turn hNext hFree with
      ⟨p, hSwap, _, _, hFlight, hStill⟩
  have hRuns := Runs.step (.step .none hRead) hSwap
  rcases g.read_turn (p := p) (i := true) rfl
    (by decide) (by
      rw [hStill true (by decide), hOthers true (by decide)]
      exact hStart true) with
      ⟨q, hStep, _⟩
  have hMain := Service.deploy_runs_exclude (.single "")
    ⟨"web", "demo"⟩ (fun _ => .ofBranch "main") .empty
    (fun _ => rfl) (by decide +kernel) hRuns
  exact ⟨_, _, p, q, hRuns, hFlight _, hStep,
    fun i hi => hMain.1 i false hi (hFlight _),
    hMain.2.1 false true _ _ (hFlight _) (by decide) hStep rfl⟩

end Preview
