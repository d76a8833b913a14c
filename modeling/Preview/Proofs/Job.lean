import Preview.Service
import Preview.Proofs.Steps

/-
  The course of the runs that claim an instance.

  A deploy run and a delete run differ in the status that
  they claim, the statuses that they respect, and what they
  do to the cluster and to the record in the end.  Both are
  one program with these as parameters.

  Main declarations:
    * `Service.single`
    * `Job`, `Job.program` and `Job.program_eq`
    * `Job.objection?` and `Job.transition_run`
    * `Job.claim_run` and `Job.program_of_free`
    * `Job.proceed_of_free`
    * `Job.start_deploy` and `Job.start_delete`
-/

namespace Preview

------------------------------------------------------------
-- A Service with One Playbook
------------------------------------------------------------

/- A service whose playbook deploys one manifest, which may
   use the variable of a branch. -/
def Service.single (template : String) : Service where
  catalog :=
    { playbooks := Table.empty.insert "web"
        ⟨"web", "Web", ["branch"], [⟨"app", ["app"], none⟩],
          none⟩
      manifests := Table.empty.insert "app" template }
  repository := ⟨"previews", 7⟩
  context := ⟨"previews", {}, 0⟩
  render := Template.render

/- A manifest of one object without content. -/
def plainManifest (name : String) : String :=
  "apiVersion: v1\nkind: ConfigMap\nmetadata:\n  name: " ++
    name ++ "\n"

/- A new instance of its playbook. -/
def Instance.ofBranch (branch : String) : Instance :=
  { (default : Instance) with
    identity := ⟨"web", "demo"⟩
    vars := Table.empty.insert "branch" branch }

/- Its plan has one step for the manifest. -/
theorem Service.build_single
    {template : String}
    {vars : Table String}
    {resource : Resource}
    (hRender : renderResource Template.render template vars =
      .ok resource) :
    ∃ book,
      (single template).playbook "web" = .ok book ∧
        Plan.build (single template).render book vars
            (single template).catalog.manifests =
          .ok ⟨[⟨.resource, resource⟩]⟩ := by
  refine ⟨_, rfl, ?_⟩
  change (do
    let steps ← [(StepKind.resource, "app")].mapM
      (Plan.buildStep Template.render vars
        (Table.empty.insert "app" template))
    return (⟨steps⟩ : Plan)) = _
  have hStep : Plan.buildStep Template.render vars
      (Table.empty.insert "app" template)
      (StepKind.resource, "app") =
        .ok ⟨.resource, resource⟩ := by
    unfold Plan.buildStep
    rw [Table.get?_insert]
    simp only [if_true, hRender]
  rw [List.mapM_cons, List.mapM_nil, hStep]
  rfl

/- The store admits the path of its instance. -/
theorem Service.single_key :
    (Store.key ((single (plainManifest "app")).repository.path
      ⟨"web", "demo"⟩)).isOk = true := by
  decide +kernel

theorem Service.single_valid (template : String) :
    (single template).catalog.Valid :=
  Catalog.insert_valid
    (Catalog.empty_valid (Table.empty.insert "app" template))
    (p := ⟨"web", "Web", ["branch"], [⟨"app", ["app"], none⟩],
      none⟩)
    rfl

------------------------------------------------------------
-- Jobs
------------------------------------------------------------

/- The errors of a run that has not started. -/
def Error.isRefusal : Error → Bool
  | unknownPlaybook _ => true
  | conflict _ _ => true
  | malformedRecord _ => true
  | _ => false

/- What a run is for. -/
inductive Job where
  | deploy
  | delete
deriving DecidableEq, Repr

namespace Job

/- A job by its name, as messages have it. -/
def name : Job → String
  | deploy => "deploy"
  | delete => "delete"

/- The status that a run claims. -/
def target : Job → Status
  | deploy => .deploying
  | delete => .deleting

/- The statuses that keep a run from its claim. -/
def busy : Job → List Status
  | deploy => [.deploying, .deleting]
  | delete => [.deleting]

/- A run of a service on a copy of an instance. -/
def attempt (s : Service) (i : Instance) :
    Job → Attempt Error Unit
  | deploy => s.deploy i
  | delete => s.delete i

/- The program of a run. -/
def program (s : Service) (i : Instance) (job : Job) :
    Action (Except Error Unit) :=
  (job.attempt s i).run

/- What a claimed run does with its plan. -/
def carry (s : Service) (i : Instance) (plan : Plan) :
    Job → Attempt Error Unit
  | deploy => do
      plan.deploy s.context
      s.repository.save { i with status := .deployed }
  | delete => do
      plan.destroy s.context
      s.removeRecord i

/- The message of a run that has succeeded. -/
def text (s : Service) (p : Playbook) (i current : Instance) :
    Job → String
  | deploy =>
      s.successText p { current with status := .deployed }
  | delete => i.label ++ " deleted"

/- What a run does when its work is done. -/
def afterWork (s : Service) (p : Playbook)
    (i current : Instance) (job : Job) :
    Except Error Unit → Attempt Error Unit
  | .error e => s.fail job.name current e
  | .ok () =>
      Service.notify .success (job.text s p i current)

/- The run of a claimed instance. -/
def rest (s : Service) (p : Playbook) (i current : Instance)
    (job : Job) : Action (Except Error Unit) :=
  Action.bind
    (s.work p current fun plan =>
      job.carry s current plan).run
    fun outcome => (job.afterWork s p i current outcome).run

/- What a run does when its claim is decided. -/
def afterClaim (s : Service) (p : Playbook) (i : Instance)
    (job : Job) :
    Except Error Instance → Action (Except Error Unit)
  | .error e => (Service.refuse job.name i e).run
  | .ok current => job.rest s p i current

/- A run is refused, or claims its instance and goes on. -/
theorem program_eq (s : Service) (i : Instance) (job : Job) :
    job.program s i =
      match s.playbook i.identity.playbook with
      | .error e => (Service.refuse job.name i e).run
      | .ok p =>
          Action.bind (s.claim i job.target job.busy).run
            (job.afterClaim s p i) := by
  unfold program attempt
  cases hBook : s.playbook i.identity.playbook with
  | error e =>
      cases job <;>
        simp only [Service.deploy, Service.delete, hBook, name]
  | ok p =>
      cases job with
      | deploy =>
          simp only [Service.deploy, hBook]
          refine (Attempt.run_lift_bind _ _).trans
            (congrArg _ (funext ?_))
          intro claimed
          cases claimed with
          | error e => rfl
          | ok current => exact Attempt.run_lift_bind _ _
      | delete =>
          simp only [Service.delete, hBook]
          refine (Attempt.run_lift_bind _ _).trans
            (congrArg _ (funext ?_))
          intro claimed
          cases claimed with
          | error e => rfl
          | ok current => exact Attempt.run_lift_bind _ _

/- A job is refused while another of its kind is under way. -/
theorem target_mem_busy (job : Job) :
    job.target ∈ job.busy := by
  cases job <;> decide

/- Both jobs are refused during a deletion. -/
theorem deleting_mem_busy (job : Job) :
    Status.deleting ∈ job.busy := by
  cases job <;> decide

------------------------------------------------------------
-- Claims
------------------------------------------------------------

/- The record that a run claims with. -/
def claimRecord (i : Instance) (job : Job) : String :=
  { i with status := job.target : Instance }.record

/- What keeps a run from claiming after its read. -/
def objection?
    (r : Repository)
    (identity : Identity)
    (job : Job) : Option String → Option Error
  | none => none
  | some record =>
      match Instance.ofRecord? record with
      | none => some (.malformedRecord (r.path identity))
      | some j =>
          if job.busy.contains j.status then
            some (.conflict identity (.already j.status))
          else none

/- The objection is the error of the stored status, or the
   first busy status. -/
theorem objection?_eq
    (r : Repository)
    (identity : Identity)
    (job : Job)
    (seen : Option String) :
    job.objection? r identity seen =
      match Repository.storedStatus (r.path identity) seen with
      | .error e => some e
      | .ok status =>
          (status.toList.find? job.busy.contains).map
            fun s => .conflict identity (.already s) := by
  cases seen with
  | none => rfl
  | some record =>
      simp only [objection?, Repository.storedStatus,
        Repository.decode]
      cases Instance.ofRecord? record with
      | none => rfl
      | some j =>
          change _ = ([j.status].find? job.busy.contains).map _
          dsimp only
          rw [List.find?_cons]
          cases job.busy.contains j.status <;> rfl

/- Whatever objects to a claim refuses the run. -/
theorem objection?_isRefusal
    {r : Repository}
    {identity : Identity}
    {job : Job}
    {seen : Option String}
    {e : Error}
    (hObjection : job.objection? r identity seen = some e) :
    e.isRefusal = true := by
  unfold objection? at hObjection
  split at hObjection
  · cases hObjection
  · split at hObjection
    · cases hObjection
      rfl
    · split at hObjection
      · cases hObjection
        rfl
      · cases hObjection

/- What a run does after its read. -/
def afterRead
    (r : Repository)
    (i : Instance)
    (job : Job)
    (seen : Option String) : Action (Except Error Instance) :=
  match job.objection? r i.identity seen with
  | some e => .finish (.error e)
  | none =>
      .call
        (.store
          (.swap (r.path i.identity) seen (job.claimRecord i)))
        fun reply =>
          match reply with
          | .ok false =>
              .finish (.error (.conflict i.identity .changed))
          | .ok true =>
              .finish (.ok { i with status := job.target })
          | .error e => .finish (.error (.store e))

/- A transition reads the record, and replaces what it has
   read unless there is an objection. -/
theorem transition_run
    (r : Repository)
    (i : Instance)
    (job : Job)
    (hFree : i.status ∉ job.busy) :
    (r.transition i job.target job.busy).run =
      .call (.store (.value (r.path i.identity))) fun reply =>
        match reply with
        | .ok seen => job.afterRead r i seen
        | .error e => .finish (.error (.store e)) := by
  unfold Repository.transition
  refine congrArg (Action.call _) (funext ?_)
  intro reply
  cases reply with
  | error e => rfl
  | ok seen =>
      change (Attempt.ofExcept
          (Repository.storedStatus (r.path i.identity) seen) >>=
        fun status => _ : Attempt Error Instance).run =
          job.afterRead r i seen
      unfold afterRead
      rw [objection?_eq]
      cases Repository.storedStatus (r.path i.identity) seen with
      | error e => rfl
      | ok status =>
          rw [Attempt.ofExcept_bind, List.find?_cons,
            show job.busy.contains i.status = false by
              simpa using hFree]
          dsimp only
          cases status.toList.find? job.busy.contains with
          | some s => rfl
          | none =>
              refine congrArg (Action.call _)
                (funext ?_)
              intro reply
              rcases reply with e | swapped
              · rfl
              · cases swapped <;> rfl

/- A claim does not fail with the store. -/
def forgiven (i : Instance) (job : Job) :
    Except Error Instance → Except Error Instance
  | .error (.store _) => .ok { i with status := job.target }
  | claimed => claimed

/- A copy that is busy itself is not even read. -/
theorem claim_run_of_busy
    (s : Service)
    (i : Instance)
    (job : Job)
    (hBusy : i.status ∈ job.busy) :
    (s.claim i job.target job.busy).run =
      .finish
        (.error (.conflict i.identity (.already i.status))) := by
  unfold Service.claim
  rw [if_pos (by simpa using hBusy)]
  rfl

/- A claim reads, decides on what it has read, and swaps; a
   failure of either call is forgiven. -/
theorem claim_run
    (s : Service)
    (i : Instance)
    (job : Job)
    (hFree : i.status ∉ job.busy) :
    (s.claim i job.target job.busy).run =
      .call (.store (.value (s.repository.path i.identity)))
        fun reply =>
          match reply with
          | .ok seen =>
              (job.afterRead s.repository i seen).bind
                fun claimed => .finish (job.forgiven i claimed)
          | .error _ =>
              .finish (.ok { i with status := job.target }) := by
  have hForgiven :
      (s.claim i job.target job.busy).run =
        (s.repository.transition i job.target job.busy).run.bind
          fun claimed => .finish (job.forgiven i claimed) := by
    unfold Service.claim
    rw [if_neg (by simpa using hFree)]
    refine congrArg (Action.bind _) (funext ?_)
    intro claimed
    rcases claimed with e | claimed
    · cases e <;> rfl
    · rfl
  rw [hForgiven, transition_run s.repository i job hFree]
  refine congrArg (Action.call _) (funext ?_)
  intro reply
  cases reply <;> rfl

------------------------------------------------------------
-- Programs
------------------------------------------------------------

/- The refusal of a run. -/
def refuse (i : Instance) (e : Error) (job : Job) :
    Action (Except Error Unit) :=
  (Service.refuse job.name i e).run

/- What a run does that goes on with its claim. -/
def start (s : Service) (p : Playbook) (i : Instance)
    (job : Job) : Action (Except Error Unit) :=
  job.rest s p i { i with status := job.target }

/- What a run does that has tried to store its claim; only
   another writer keeps it from going on. -/
def afterSwap (s : Service) (p : Playbook) (i : Instance)
    (job : Job) :
    Except StoreError Bool → Action (Except Error Unit)
  | .ok false => job.refuse i (.conflict i.identity .changed)
  | .ok true => job.start s p i
  | .error _ => job.start s p i

section Swaps

variable (s : Service) (p : Playbook) (i : Instance)
variable (job : Job)

theorem afterSwap_stored :
    job.afterSwap s p i (.ok true) = job.start s p i :=
  rfl

/- A record that has changed since is a conflict. -/
theorem afterSwap_missed :
    job.afterSwap s p i (.ok false) =
      job.refuse i (.conflict i.identity .changed) :=
  rfl

/- A claim that could not be stored is let pass. -/
theorem afterSwap_failed (e : StoreError) :
    job.afterSwap s p i (.error e) = job.start s p i :=
  rfl

end Swaps

/- What a run does that has read something. -/
def proceed (s : Service) (p : Playbook) (i : Instance)
    (job : Job) (seen : Option String) :
    Action (Except Error Unit) :=
  match job.objection? s.repository i.identity seen with
  | some e => job.refuse i e
  | none =>
      .call
        (.store
          (.swap (s.repository.path i.identity) seen
            (job.claimRecord i)))
        (job.afterSwap s p i)

/- What a run does after its read. -/
def afterValue (s : Service) (p : Playbook) (i : Instance)
    (job : Job) :
    Except StoreError (Option String) →
      Action (Except Error Unit)
  | .ok seen => job.proceed s p i seen
  | .error _ => job.start s p i

section Values

variable (s : Service) (p : Playbook) (i : Instance)
variable (job : Job)

theorem afterValue_read (seen : Option String) :
    job.afterValue s p i (.ok seen) =
      job.proceed s p i seen :=
  rfl

/- A record that could not be read is let pass. -/
theorem afterValue_failed (e : StoreError) :
    job.afterValue s p i (.error e) = job.start s p i :=
  rfl

end Values

section Programs

variable (s : Service) (i : Instance) (job : Job)

/- Without its playbook no call is made. -/
theorem program_of_unknown
    {e : Error}
    (hBook : s.playbook i.identity.playbook = .error e) :
    job.program s i = job.refuse i e := by
  rw [program_eq, hBook]
  rfl

/- A copy that is busy is refused before any call. -/
theorem program_of_busy
    {p : Playbook}
    (hBook : s.playbook i.identity.playbook = .ok p)
    (hBusy : i.status ∈ job.busy) :
    job.program s i =
      job.refuse i
        (.conflict i.identity (.already i.status)) := by
  rw [program_eq, hBook]
  dsimp only
  rw [claim_run_of_busy s i job hBusy]
  rfl

/- A run of a known playbook on a copy that is not busy reads
   and decides; a store that fails does not keep it. -/
theorem program_of_free
    {p : Playbook}
    (hBook : s.playbook i.identity.playbook = .ok p)
    (hFree : i.status ∉ job.busy) :
    job.program s i =
      .call (.store (.value (s.repository.path i.identity)))
        (job.afterValue s p i) := by
  rw [program_eq, hBook]
  dsimp only
  rw [claim_run s i job hFree]
  refine congrArg (Action.call _) (funext ?_)
  intro reply
  cases reply with
  | error e => rfl
  | ok seen =>
      change Action.bind
        ((job.afterRead s.repository i seen).bind fun claimed =>
          .finish (job.forgiven i claimed))
        (job.afterClaim s p i) = job.proceed s p i seen
      unfold afterRead proceed
      cases hSeen : job.objection? s.repository i.identity
          seen with
      | some e =>
          have hForgiven : job.forgiven i (.error e) =
              .error e := by
            have hRefusal := objection?_isRefusal hSeen
            cases e <;> first | rfl | cases hRefusal
          change job.afterClaim s p i
            (job.forgiven i (.error e)) = _
          rw [hForgiven]
          rfl
      | none =>
          refine congrArg (Action.call _)
            (funext ?_)
          intro reply
          rcases reply with e | swapped
          · rfl
          · cases swapped <;> rfl

variable {s i job}

/- A record that objects is refused before a swap. -/
theorem proceed_of_objection
    {p : Playbook}
    {seen : Option String}
    {e : Error}
    (hObjection :
      job.objection? s.repository i.identity seen = some e) :
    job.proceed s p i seen = job.refuse i e := by
  unfold proceed
  rw [hObjection]

/- The swap expects exactly what was read. -/
theorem proceed_of_free
    {p : Playbook}
    {seen : Option String}
    (hFree :
      job.objection? s.repository i.identity seen = none) :
    job.proceed s p i seen =
      .call
        (.store
          (.swap (s.repository.path i.identity) seen
            (job.claimRecord i)))
        (job.afterSwap s p i) := by
  unfold proceed
  rw [hFree]

variable (s i job)

/- A run that fails stores the error, whatever comes of it,
   and reports the failure. -/
def failing (e : Error) : Action (Except Error Unit) :=
  .call
    (.store
      (.set (s.repository.path i.identity)
        { i with status := .error : Instance }.record))
    fun saved =>
      .call
        (.send
          ⟨.failure, Service.failureText job.name
            { i with status := job.target } e⟩)
        fun _ =>
          match saved with
          | .ok () => .finish (.error e)
          | .error cause => .finish (.error (.store cause))

/- A failing run stores that it is in error and tells so. -/
theorem fail_run (e : Error) :
    (s.fail job.name { i with status := job.target } e).run =
      job.failing s i e := by
  refine congrArg (Action.call _) (funext ?_)
  intro saved
  refine congrArg (Action.call _) (funext ?_)
  intro _
  rcases saved with cause | ⟨⟩ <;> rfl

/- What a deploy run does when its plan is deployed. -/
def saving (p : Playbook) : Action (Except Error Unit) :=
  .call
    (.store
      (.set (s.repository.path i.identity)
        { i with status := .deployed : Instance }.record))
    fun saved =>
      match saved with
      | .ok () =>
          .call
            (.send ⟨.success, s.successText p
              { i with status := .deployed }⟩)
            fun _ => .finish (.ok ())
      | .error cause => deploy.failing s i (.store cause)

/- A deploy run plans, deploys and saves, and fails with the
   first of these that does. -/
theorem start_deploy (p : Playbook) :
    deploy.start s p i =
      match Plan.build s.render p i.vars s.catalog.manifests with
      | .error e => deploy.failing s i e
      | .ok plan =>
          (plan.deploy s.context).run.bind fun
            | .error e => deploy.failing s i e
            | .ok _ => saving s i p := by
  unfold start rest Service.work
  dsimp only
  cases Plan.build s.render p i.vars s.catalog.manifests with
  | error e => exact fail_run s i .deploy e
  | ok plan =>
      refine (Action.bind_assoc
        (plan.deploy s.context).run _ _).trans
          (congrArg _ (funext ?_))
      intro r
      cases r with
      | error e => exact fail_run s i .deploy e
      | ok _ =>
          refine congrArg (Action.call _)
            (funext ?_)
          intro saved
          rcases saved with cause | ⟨⟩
          · exact fail_run s i .deploy (.store cause)
          · rfl

/- What a delete run does when its plan is destroyed. -/
def removing : Action (Except Error Unit) :=
  .call
    (.store (.erase (s.repository.path i.identity)))
    fun removed =>
      match removed with
      | .ok _ =>
          .call (.send ⟨.success, i.label ++ " deleted"⟩)
            fun _ => .finish (.ok ())
      | .error cause => delete.failing s i (.store cause)

/- A delete run plans, destroys and removes the record, and
   fails with the first of these that does. -/
theorem start_delete (p : Playbook) :
    delete.start s p i =
      match Plan.build s.render p i.vars s.catalog.manifests with
      | .error e => delete.failing s i e
      | .ok plan =>
          (plan.destroy s.context).run.bind fun
            | .error e => delete.failing s i e
            | .ok _ => removing s i := by
  unfold start rest Service.work
  dsimp only
  cases Plan.build s.render p i.vars s.catalog.manifests with
  | error e => exact fail_run s i .delete e
  | ok plan =>
      refine (Action.bind_assoc
        (plan.destroy s.context).run _ _).trans
          (congrArg _ (funext ?_))
      intro r
      cases r with
      | error e => exact fail_run s i .delete e
      | ok _ =>
          refine congrArg (Action.call _)
            (funext ?_)
          intro removed
          rcases removed with cause | gone
          · exact fail_run s i .delete (.store cause)
          · cases gone <;> rfl

/- The course of a deploy run with one step, where the object
   is not there yet. -/
theorem start_deploy_single
    {book : Playbook}
    {resource : Resource}
    (hPlan : Plan.build s.render book i.vars
        s.catalog.manifests =
      .ok ⟨[⟨.resource, resource⟩]⟩) :
    ∃ afterGet afterCreate afterSave n afterSend,
      deploy.start s book i =
          .call (.cluster (.get (s.context.key resource)))
            afterGet ∧
        afterGet (.ok none) =
          .call
            (.cluster
              (.create resource.kind s.context.space resource))
            afterCreate ∧
        afterCreate (.ok ()) =
          .call
            (.store
              (.set (s.repository.path i.identity)
                { i with status := .deployed :
                  Instance }.record))
            afterSave ∧
        afterSave (.ok ()) = .call (.send n) afterSend ∧
        ∀ sent, afterSend sent = .finish (.ok ()) := by
  unfold start rest Service.work
  simp only [hPlan]
  exact ⟨_, _, _, _, _, rfl, rfl, rfl, rfl, fun _ => rfl⟩

/- The course of a delete run with one step, where the object
   and the record are there. -/
theorem start_delete_single
    {book : Playbook}
    {resource : Resource}
    (hPlan : Plan.build s.render book i.vars
        s.catalog.manifests =
      .ok ⟨[⟨.resource, resource⟩]⟩) :
    ∃ afterDelete afterErase n afterSend,
      delete.start s book i =
          .call (.cluster (.delete (s.context.key resource)))
            afterDelete ∧
        afterDelete (.ok ()) =
          .call
            (.store (.erase (s.repository.path i.identity)))
            afterErase ∧
        afterErase (.ok true) = .call (.send n) afterSend ∧
        ∀ sent, afterSend sent = .finish (.ok ()) := by
  unfold start rest Service.work
  simp only [hPlan]
  exact ⟨_, _, _, _, rfl, rfl, rfl, fun _ => rfl⟩

end Programs

end Job

end Preview
