import Preview.Proofs.Job
import Preview.Proofs.Record

/-
  The protocol of a run on a store that does not fail.

  A run reads the record, replaces what it has read by its
  claim, works without touching the record, and ends with one
  last write.  A run that is refused makes no other call than
  the message about it.

  Main declarations:
    * `Refused` and `Conflicting`
    * `Job.LastWrite`
    * `Job.Working`, `Job.Swapping` and `Job.Reading`
    * `Job.program_start`
-/

namespace Preview

------------------------------------------------------------
-- Results
------------------------------------------------------------

/- A run has not started. -/
def Refused (result : Except Error Unit) : Prop :=
  ∃ e, result = .error e ∧ e.isRefusal = true

/- Another run was in the way. -/
def Conflicting
    (identity : Identity)
    (result : Except Error Unit) : Prop :=
  ∃ cause, result = .error (.conflict identity cause)

theorem Conflicting.refused
    {identity : Identity}
    {result : Except Error Unit}
    (hConflict : Conflicting identity result) :
    Refused result := by
  rcases hConflict with ⟨cause, rfl⟩
  exact ⟨_, rfl, rfl⟩

/- A program only sends messages before it ends. -/
abbrev Closing
    (Q : Except Error Unit → Prop)
    (m : Action (Except Error Unit)) : Prop :=
  m.Leads (fun c => c.isMessage = true) Q

/- A program that is closing writes no record again. -/
theorem Closing.not_mayWrite
    {Q : Except Error Unit → Prop}
    {m : Action (Except Error Unit)}
    (hClosing : Closing Q m) :
    ¬ m.MayWrite := by
  apply Action.Leads.not_mayWrite hClosing
  intro c hMessage
  cases c <;> simp_all [Call.isMessage, Call.isWrite]

theorem Plan.build_error_not_isRefusal
    {render : Renderer}
    {p : Playbook}
    {vars manifests : Table String}
    {e : Error}
    (hBuild : build render p vars manifests = .error e) :
    e.isRefusal = false := by
  rcases build_error hBuild with ⟨entry, _, hEntry⟩
  unfold buildStep at hEntry
  split at hEntry
  · cases hEntry
    rfl
  · split at hEntry
    · cases hEntry
      rfl
    · cases hEntry

theorem Error.IsStep.not_isRefusal
    {e : Error}
    (hStep : e.IsStep) :
    e.isRefusal = false := by
  rcases hStep with ⟨label, cause, rfl⟩
  rfl

theorem Service.playbook_error
    {s : Service}
    {id : String}
    {e : Error}
    (hBook : s.playbook id = .error e) :
    e.isRefusal = true := by
  unfold playbook at hBook
  split at hBook <;> cases hBook
  rfl

namespace Job

/- The record of a busy instance is an objection. -/
theorem objection?_record
    (r : Repository)
    (identity : Identity)
    {job : Job}
    {i : Instance}
    (hBusy : i.status ∈ job.busy) :
    job.objection? r identity (some i.record) =
      some (.conflict identity (.already i.status)) := by
  unfold objection?
  simp only [Instance.ofRecord?_record]
  exact if_pos (by simpa using hBusy)

/- The record of an instance that is not busy is none. -/
theorem objection?_record_of_free
    (r : Repository)
    (identity : Identity)
    {job : Job}
    {i : Instance}
    (hFree : i.status ∉ job.busy) :
    job.objection? r identity (some i.record) = none := by
  unfold objection?
  simp only [Instance.ofRecord?_record]
  exact if_neg (by simpa using hFree)

------------------------------------------------------------
-- Stages of a Run
------------------------------------------------------------

variable (s : Service) (identity : Identity)
variable (i : Instance) (job : Job)

/- The last write of a run, and the result that comes with
   it. -/
inductive LastWrite :
    Job → Store.Call → Except Error Unit → Prop where
  | failed
    (job : Job)
    (e : Error)
    (hOwn : e.isRefusal = false) :
    LastWrite job
      (.set (s.repository.path identity)
        { i with status := .error : Instance }.record)
      (.error e)
  | deployed :
    LastWrite .deploy
      (.set (s.repository.path identity)
        { i with status := .deployed : Instance }.record)
      (.ok ())
  | removed :
    LastWrite .delete
      (.erase (s.repository.path identity))
      (.ok ())

/- The last write comes next, and then only messages. -/
def AtLastWrite (m : Action (Except Error Unit)) : Prop :=
  ∃ c next result,
    m = .call (.store c) next ∧
      LastWrite s identity i job c result ∧
      ∀ store : Store,
        Closing (fun r => r = result)
          (next (store.perform c).2)

/- The last write is all that is still done to the store. -/
def Working (m : Action (Except Error Unit)) : Prop :=
  m.Until Call.Outside (AtLastWrite s identity i job)

/- The claim comes next. -/
def Swapping
    (seen : Option String)
    (m : Action (Except Error Unit)) : Prop :=
  ∃ next,
    m = .call
        (.store
          (.swap (s.repository.path identity) seen
            (job.claimRecord i)))
        next ∧
      Working s identity i job (next (.ok true)) ∧
      Closing (Conflicting identity) (next (.ok false))

/- The read comes next. -/
def Reading (m : Action (Except Error Unit)) : Prop :=
  ∃ next,
    m = .call
        (.store (.value (s.repository.path identity)))
        next ∧
      (∀ seen,
        job.objection? s.repository identity seen = none →
          Swapping s identity i job seen (next (.ok seen))) ∧
      ∀ seen e,
        job.objection? s.repository identity seen = some e →
          Closing (fun r => r = .error e) (next (.ok seen))

/- A run that has come to its last write is not refused. -/
variable {s identity i job} in
theorem LastWrite.not_refused
    {c : Store.Call}
    {result : Except Error Unit}
    (hLast : LastWrite s identity i job c result) :
    ¬ Refused result := by
  rintro ⟨e, hResult, hRefusal⟩
  cases hLast with
  | failed _ e' hOwn =>
      cases hResult
      rw [hOwn] at hRefusal
      cases hRefusal
  | deployed => cases hResult
  | removed => cases hResult

/- The last write of a run is not its claim. -/
variable {s identity i job} in
theorem LastWrite.not_isForClaim
    {c : Store.Call}
    {result : Except Error Unit}
    (hLast : LastWrite s identity i job c result) :
    (Call.store c).isForClaim = false := by
  cases hLast <;> rfl

/- A run at work still has a write before it. -/
theorem Working.mayWrite
    {m : Action (Except Error Unit)}
    (hWorking : Working s identity i job m) :
    m.MayWrite := by
  apply Action.Until.mayWrite hWorking
  intro m hLast
  rcases hLast with ⟨c, next, result, rfl, hLast, _⟩
  refine .now _ _ ?_
  cases hLast <;> rfl

------------------------------------------------------------
-- The Stages of Every Run
------------------------------------------------------------

/- A refusal only sends a message. -/
theorem closing_refuse (e : Error) :
    Closing (fun r => r = .error e) (job.refuse i e) :=
  ⟨rfl, fun _ => rfl⟩

variable (hKey :
  (Store.key (s.repository.path i.identity)).isOk = true)

include hKey

/- A failed run stores the error and reports it. -/
theorem atLastWrite_fail
    {e : Error}
    (hOwn : e.isRefusal = false) :
    AtLastWrite s i.identity i job
      (s.fail job.name { i with status := job.target } e).run := by
  refine ⟨_, _, .error e, rfl, .failed job e hOwn, ?_⟩
  intro store
  rw [Store.perform_set_reply hKey]
  exact ⟨rfl, fun _ => rfl⟩

omit hKey in
/- After some work, a run goes on as it did. -/
theorem working_bind
    {work last : Attempt Error Unit}
    {next : Except Error Unit → Action (Except Error Unit)}
    (hWork : Attempt.Within Call.Outside Error.IsStep work)
    (hFailed : ∀ e, e.isRefusal = false →
      AtLastWrite s i.identity i job (next (.error e)))
    (hDone : AtLastWrite s i.identity i job (last.run.bind next)) :
    Working s i.identity i job
      ((work >>= fun _ => last).run.bind next) := by
  have hRun : (work >>= fun _ => last).run.bind next =
      work.run.bind fun r => match r with
        | .ok _ => last.run.bind next
        | .error e => next (.error e) := by
    refine (Action.bind_assoc work.run _ next).trans
      (congrArg _ (funext ?_))
    intro r
    cases r <;> rfl
  rw [hRun]
  refine Action.until_bind
    (hWork.mono (fun _ => id) ?_)
  intro r hResult
  cases r with
  | ok _ => exact .now hDone
  | error e =>
      exact .now (hFailed e (Error.IsStep.not_isRefusal hResult))

/- A run with a plan works until its last write. -/
theorem working_carry (p : Playbook) (plan : Plan) :
    Working s i.identity i job
      (Action.bind
        (job.carry s { i with status := job.target } plan).run
        fun outcome =>
          (job.afterWork s p i { i with status := job.target }
            outcome).run) := by
  have hFailed (e : Error) (hOwn : e.isRefusal = false) :
      AtLastWrite s i.identity i job
        (s.fail job.name { i with status := job.target } e).run :=
    atLastWrite_fail s i job hKey hOwn
  cases job with
  | deploy =>
      apply working_bind s i .deploy
        (plan.deploy_within s.context) hFailed
      refine ⟨_, _, .ok (), rfl, .deployed, ?_⟩
      intro store
      rw [Store.perform_set_reply hKey]
      exact ⟨rfl, fun _ => rfl⟩
  | delete =>
      apply working_bind s i .delete
        (plan.destroy_within s.context) hFailed
      refine ⟨_, _, .ok (), rfl, .removed, ?_⟩
      intro store
      rw [Store.perform_erase_reply hKey]
      cases (store.content?
        (s.repository.path i.identity)).isSome <;>
        exact ⟨rfl, fun _ => rfl⟩

/- A claimed run works until its last write. -/
theorem working_start (p : Playbook) :
    Working s i.identity i job (job.start s p i) := by
  unfold start rest Service.work
  cases hBuild : Plan.build s.render p i.vars
      s.catalog.manifests with
  | error e =>
      exact .now (atLastWrite_fail s i job hKey
        (Plan.build_error_not_isRefusal hBuild))
  | ok plan => exact working_carry s i job hKey p plan

/- A run of a known playbook on a copy that is not busy
   begins with its read. -/
theorem program_reading
    {p : Playbook}
    (hBook : s.playbook i.identity.playbook = .ok p)
    (hFree : i.status ∉ job.busy) :
    Reading s i.identity i job (job.program s i) := by
  rw [program_of_free s i job hBook hFree]
  refine ⟨_, rfl, fun seen hSeen => ?_,
    fun seen e hObjection => ?_⟩
  · rw [afterValue_read, proceed_of_free hSeen]
    refine ⟨_, rfl, working_start s i job hKey p, ?_⟩
    exact (closing_refuse i job _).mono (fun _ => id)
      fun r hr => ⟨.changed, hr⟩
  · rw [afterValue_read, proceed_of_objection hObjection]
    exact closing_refuse i job e

/- A run is refused, or begins with its read. -/
theorem program_start :
    Closing Refused (job.program s i) ∨
      Reading s i.identity i job (job.program s i) := by
  cases hBook : s.playbook i.identity.playbook with
  | error e =>
      have hRefusal := Service.playbook_error hBook
      left
      rw [program_of_unknown s i job hBook]
      exact (closing_refuse i job e).mono (fun _ => id)
        fun r hr => ⟨e, hr, hRefusal⟩
  | ok p =>
      by_cases hBusy : i.status ∈ job.busy
      · left
        rw [program_of_busy s i job hBook hBusy]
        exact (closing_refuse i job _).mono (fun _ => id)
          fun r hr => ⟨_, hr, rfl⟩
      · right
        exact program_reading s i job hKey hBook hBusy

end Job

end Preview
