import Preview.Proofs.Anatomy
import Preview.Proofs.Histories
import Preview.Proofs.Outcome

/-
  The message of a run.

  Every run makes one attempt to send a message, and that is
  its last call.  The message tells of a success exactly if
  the run has one, which it has exactly if its last write was
  acknowledged: no template, and nobody who is told, decides
  that.

  Main declarations:
    * `Action.Course.yields`
    * `Service.Announces` and `Service.announces_successText`
    * `Job.Finished`, `Job.Tells` and `Job.Reported`
    * `Job.program_reports`
-/

namespace Preview

open Preview.Action (Handler)

/- A program that runs alone goes on with its course. -/
theorem Action.Course.yields
    {α σ : Type}
    {P : List Exchange → Call → Prop}
    {Q : List Exchange → α → Prop}
    {m : Action α}
    {past : List Exchange}
    (hCourse : m.Course P Q past)
    (h : Handler σ)
    (start : σ) :
    m.Yields h start fun xs a _ => Q (past ++ xs) a := by
  induction m generalizing past start with
  | finish a =>
      change Q (past ++ []) a
      rw [List.append_nil]
      exact hCourse
  | call c next ih =>
      rw [yields_call]
      apply (ih _ (hCourse.2 _) _).mono
      intro xs a _ hResult
      rw [List.append_cons]
      exact hResult

------------------------------------------------------------
-- Texts
------------------------------------------------------------

/- The text that tells of a deployed instance: what becomes of
   the message template of the playbook, or a plain text if
   there is none or nothing becomes of it. -/
def Service.Announces
    (s : Service)
    (p : Playbook)
    (i : Instance)
    (text : String) : Prop :=
  (∃ template,
      p.message = some template ∧
        s.render template i.messageVars = .ok text) ∨
    ((∀ template, p.message = some template →
        ∃ e, s.render template i.messageVars = .error e) ∧
      text = i.label ++ " deployed")

/- The text of a success is what is to be announced. -/
theorem Service.announces_successText
    (s : Service)
    (p : Playbook)
    (i : Instance) :
    s.Announces p i (s.successText p i) := by
  unfold Announces successText
  cases hMessage : p.message with
  | none => exact .inr ⟨fun _ h => (nomatch h), rfl⟩
  | some template =>
      dsimp only
      cases hRender : s.render template i.messageVars with
      | ok text => exact .inl ⟨template, rfl, hRender⟩
      | error e =>
          refine .inr ⟨fun other hOther => ?_, rfl⟩
          cases hOther
          exact ⟨e, hRender⟩

------------------------------------------------------------
-- Reports
------------------------------------------------------------

namespace Job

variable (s : Service) (i : Instance)

/- The last write of a run that goes well was acknowledged. -/
def Finished : Job → Exchange → Prop
  | deploy, x =>
      x = ⟨.store (savingOf s i .deployed), Except.ok ()⟩
  | delete, x =>
      ∃ removed,
        x = ⟨.store (.erase (s.repository.path i.identity)),
          Except.ok removed⟩

/- The text that tells of a success. -/
def Praises : Job → String → Prop
  | deploy, text =>
      ∃ p, s.playbook i.identity.playbook = .ok p ∧
        s.Announces p { i with status := .deployed } text
  | delete, text => text = i.label ++ " deleted"

/-
  What a message tells of a run with some exchanges and some
  result:
    * its level is that of a success exactly if the result is
      one, and this is so if the last write was acknowledged
    * a failure is told with the error of the run, which is
      its result unless storing the failure failed too
-/
structure Tells
    (job : Job)
    (past : List Exchange)
    (result : Except Error Unit)
    (n : Notification) : Prop where
  level : n.level = .success ↔ result = .ok ()
  finished : result = .ok () ↔ ∃ x ∈ past, job.Finished s i x
  praises : result = .ok () → job.Praises s i n.text
  blames : ∀ cause, result = .error cause →
    ∃ e, n.text = Service.failureText job.name i e ∧
      (cause = e ∨
        ∃ lost, cause = .store lost ∧
          ⟨.store (savingOf s i .error), Except.error lost⟩ ∈
            past)

/- A run has sent one message, after all its other calls. -/
def Reported
    (job : Job)
    (xs : List Exchange)
    (result : Except Error Unit) : Prop :=
  ∃ past n sent,
    xs = past ++ [⟨.send n, sent⟩] ∧
      (∀ x ∈ past, x.call.isMessage = false) ∧
      job.Tells s i past result n

variable {s i}
variable {job : Job}

/- No message was sent, and the last write not acknowledged. -/
def Open (s : Service) (i : Instance) (job : Job)
    (past : List Exchange) : Prop :=
  ∀ x ∈ past, x.call.isMessage = false ∧ ¬ job.Finished s i x

/- A run stays open until it sends a message or its last write
   is acknowledged. -/
theorem Open.concat
    {past : List Exchange}
    {x : Exchange}
    (hOpen : job.Open s i past)
    (hSilent : x.call.isMessage = false)
    (hUnfinished : ¬ job.Finished s i x) :
    job.Open s i (past ++ [x]) := by
  intro y hy
  rcases List.mem_append.1 hy with hy | hy
  · exact hOpen y hy
  · cases List.mem_singleton.1 hy
    exact ⟨hSilent, hUnfinished⟩

/- The last write is a call of the store, and not for a claim. -/
theorem Finished.kind
    {x : Exchange}
    (hFinished : job.Finished s i x) :
    x.call.isStore = true ∧ x.call.isForClaim = false := by
  cases job with
  | deploy =>
      cases hFinished
      exact ⟨rfl, rfl⟩
  | delete =>
      rcases hFinished with ⟨removed, rfl⟩
      exact ⟨rfl, rfl⟩

/- No preliminary call sends a message or ends the work. -/
theorem Preliminary.open
    {c : Call}
    (hPreliminary : job.Preliminary s i c)
    (reply : c.Reply) :
    c.isMessage = false ∧ ¬ job.Finished s i ⟨c, reply⟩ := by
  cases hPreliminary with
  | read =>
      exact ⟨rfl, fun hFinished => nomatch hFinished.kind.2⟩
  | swap seen =>
      exact ⟨rfl, fun hFinished => nomatch hFinished.kind.2⟩
  | aside hAside =>
      refine ⟨hAside.2, fun hFinished => ?_⟩
      have hStore := hFinished.kind.1
      rw [hAside.1] at hStore
      cases hStore

theorem Early.open
    {past : List Exchange}
    (hEarly : job.Early s i past) :
    job.Open s i past :=
  fun x hx => (hEarly x hx).open x.reply

/- The message of a failure that was not preceded by the last
   write of the job. -/
theorem Open.tells_failure
    {past : List Exchange}
    (hOpen : job.Open s i past)
    {cause e : Error}
    (hCause : cause = e ∨
      ∃ lost, cause = .store lost ∧
        ⟨.store (savingOf s i .error), Except.error lost⟩ ∈
          past) :
    job.Tells s i past (.error cause)
      ⟨.failure, Service.failureText job.name i e⟩ where
  level := ⟨fun h => (nomatch h), fun h => (nomatch h)⟩
  finished := by
    refine ⟨fun h => (nomatch h), ?_⟩
    rintro ⟨x, hx, hFinished⟩
    exact absurd hFinished (hOpen x hx).2
  praises := fun h => (nomatch h)
  blames := by
    intro cause' hResult
    cases hResult
    exact ⟨e, rfl, hCause⟩

/- The message of a success, after the last write. -/
theorem Finished.tells
    {x : Exchange}
    (hFinished : job.Finished s i x)
    (past : List Exchange)
    {text : String}
    (hPraises : job.Praises s i text) :
    job.Tells s i (past ++ [x]) (.ok ())
      ⟨.success, text⟩ where
  level := ⟨fun _ => rfl, fun _ => rfl⟩
  finished :=
    ⟨fun _ => ⟨x, List.mem_append_right _
        (List.mem_singleton_self x), hFinished⟩,
      fun _ => rfl⟩
  praises := fun _ => hPraises
  blames := fun _ h => (nomatch h)

/- A run that only sends its message has reported then. -/
theorem course_send
    {past : List Exchange}
    (hSilent : ∀ x ∈ past, x.call.isMessage = false)
    {n : Notification}
    {result : Except Error Unit}
    (hTells : job.Tells s i past result n) :
    (Action.call (.send n) fun _ => .finish result).Course
      (fun _ _ => True) (job.Reported s i) past :=
  ⟨trivial, fun sent => ⟨past, n, sent, rfl, hSilent, hTells⟩⟩

/- A refusal reports a failure, with its error. -/
theorem refuse_reports
    {past : List Exchange}
    (hOpen : job.Open s i past)
    (e : Error) :
    (job.refuse i e).Course (fun _ _ => True)
      (job.Reported s i) past :=
  course_send (fun x hx => (hOpen x hx).1)
    (hOpen.tells_failure (.inl rfl))

/- Storing a failure is not the last write of a run that goes
   well. -/
theorem saving_error_open
    (reply : Except StoreError Unit) :
    ¬ job.Finished s i
      ⟨.store (savingOf s i .error), reply⟩ := by
  intro hFinished
  cases job with
  | deploy =>
      have hCalls := congrArg Exchange.call hFinished
      have hTexts := (Store.Call.set.inj
        (Call.store.inj hCalls)).2
      cases congrArg Instance.status
        (Instance.record_injective hTexts)
  | delete =>
      rcases hFinished with ⟨_, hFinished⟩
      cases congrArg Exchange.call hFinished

/- A failing run reports its error after storing it. -/
theorem failing_reports
    {past : List Exchange}
    (hOpen : job.Open s i past)
    (e : Error) :
    (job.failing s i e).Course (fun _ _ => True)
      (job.Reported s i) past := by
  refine ⟨trivial, fun saved => ?_⟩
  have hSaved := hOpen.concat (x :=
    ⟨.store (savingOf s i .error), saved⟩) rfl
    (saving_error_open saved)
  have hSilent := fun x hx => (hSaved x hx).1
  rcases saved with lost | ⟨⟩
  · exact course_send hSilent (hSaved.tells_failure
      (.inr ⟨lost, rfl, List.mem_append_right _
        (List.mem_singleton_self _)⟩))
  · exact course_send hSilent (hSaved.tells_failure (.inl rfl))

/- A run whose last write was acknowledged praises it. -/
theorem Finished.reports
    {past : List Exchange}
    (hOpen : job.Open s i past)
    {x : Exchange}
    (hFinished : job.Finished s i x)
    (hSilent : x.call.isMessage = false)
    {text : String}
    (hPraises : job.Praises s i text) :
    (Action.call (.send ⟨.success, text⟩)
        fun _ => .finish (.ok ())).Course
      (fun _ _ => True) (job.Reported s i) (past ++ [x]) := by
  refine course_send (fun y hy => ?_)
    (hFinished.tells past hPraises)
  rcases List.mem_append.1 hy with hy | hy
  · exact (hOpen y hy).1
  · rw [List.mem_singleton.1 hy]
    exact hSilent

/- The work of a run ends with a report either way. -/
theorem last_reports
    {past : List Exchange}
    (hOpen : job.Open s i past)
    {p : Playbook}
    (hBook : s.playbook i.identity.playbook = .ok p) :
    (job.last s i p).Course (fun _ _ => True)
      (job.Reported s i) past := by
  cases job with
  | deploy =>
      refine ⟨trivial, fun saved => ?_⟩
      rcases saved with cause | ⟨⟩
      · refine failing_reports (hOpen.concat rfl ?_) _
        intro hFinished
        cases hFinished
      · have hFinished : deploy.Finished s i
            ⟨.store (savingOf s i .deployed),
              Except.ok ()⟩ := rfl
        exact hFinished.reports hOpen rfl
          ⟨p, hBook, s.announces_successText p _⟩
  | delete =>
      refine ⟨trivial, fun removed => ?_⟩
      rcases removed with cause | removed
      · refine failing_reports (hOpen.concat rfl ?_) _
        rintro ⟨_, hFinished⟩
        cases hFinished
      · have hFinished : delete.Finished s i
            ⟨.store (.erase (s.repository.path i.identity)),
              Except.ok removed⟩ := ⟨removed, rfl⟩
        exact hFinished.reports hOpen rfl rfl

/- Every run reports, whatever it is replied. -/
theorem program_reports
    (s : Service)
    (i : Instance)
    (job : Job) :
    (job.program s i).Course (fun _ _ => True)
      (job.Reported s i) [] := by
  refine program_induction
    (fun past m =>
      m.Course (fun _ _ => True) (job.Reported s i) past)
    ?_ ?_ ?_ ?_
  · exact fun _ _ _ _ _ hNext => ⟨trivial, hNext⟩
  · exact fun _ e hEarly => refuse_reports hEarly.open e
  · exact fun _ e hEarly => failing_reports hEarly.open e
  · exact fun _ _ hEarly hBook =>
      last_reports hEarly.open hBook

end Job

end Preview
