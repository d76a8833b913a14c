import Preview.Proofs.Calm
import Preview.Proofs.Reports

/-
  What a deleted instance leaves in a cluster.

  A delete run makes its plan anew, from the variables that
  are stored then.  It removes the objects that this plan
  names, and no others: what an earlier plan named otherwise
  stays.

  Main declarations:
    * `Plan.visited` and `Plan.destroy_yields`
    * `Service.plan`
    * `History`
    * `Service.delete_leaves`
-/

namespace Preview

open Preview.Action (Handler eval exchanges)
open Cluster (InMemory)

------------------------------------------------------------
-- Destroyed Plans
------------------------------------------------------------

/- The objects of the steps that are destroyed. -/
def Plan.visited (ctx : Context) (p : Plan) : List Key :=
  (distinct [] p.steps).map fun s => ctx.key s.resource

section Destroying

variable {σ : Type} {h : Handler σ} {view : σ → Cluster}
variable (hMemory : InMemory h view)
variable (ctx : Context)

include hMemory

/- Once a step is destroyed its object is gone, and all other
   objects are as they were. -/
theorem Step.destroy_yields
    (s : Step)
    {start : σ}
    (hPrompt : (view start).Prompt) :
    (Plan.failing s (s.destroy ctx)).run.Yields h start
      fun _ _ t =>
        (view t).Prompt ∧
        ∀ key, (view t).objects.get? key =
          if key = ctx.key s.resource then none
          else (view start).objects.get? key := by
  rw [Plan.failing_destroy_run, Action.yields_call]
  have hDelete :
      view (h start (.cluster (.delete
          (ctx.key s.resource)))).1 =
        ((view start).delete (ctx.key s.resource)).1 :=
    congrArg Prod.fst (hMemory.deletes start _)
  constructor
  · exact hMemory.prompt_call hPrompt _
  · intro key
    refine Eq.trans ?_
      (Cluster.objects_delete hPrompt (ctx.key s.resource) key)
    exact congrArg (fun c => c.objects.get? key) hDelete

/- By induction on the steps: what one of them has removed,
   the others do not bring back. -/
theorem Step.destroyAll_yields
    (steps : List Step)
    {start : σ}
    (hPrompt : (view start).Prompt) :
    (steps.forM fun s =>
        Plan.failing s (s.destroy ctx)).run.Yields h start
      fun _ result t => result = .ok () →
        ∀ key, (view t).objects.get? key =
          if key ∈ steps.map (fun s => ctx.key s.resource)
          then none
          else (view start).objects.get? key := by
  induction steps generalizing start with
  | nil =>
      intro _ key
      rfl
  | cons s steps ih =>
      change (Plan.failing s (s.destroy ctx) >>= fun _ =>
        steps.forM fun s =>
          Plan.failing s (s.destroy ctx)).run.Yields _ _ _
      rw [Attempt.yields_bind]
      apply (Step.destroy_yields hMemory ctx s hPrompt).mono
      intro xs r t hFirst
      rcases hFirst with ⟨hPrompt', hFirst⟩
      cases r with
      | error e =>
          intro hOk
          cases hOk
      | ok _ =>
          apply (ih hPrompt').mono
          intro ys result u hRest hOk key
          rw [hRest hOk key, hFirst key, List.map_cons]
          by_cases hLater :
              key ∈ steps.map fun s => ctx.key s.resource
          · rw [if_pos hLater,
              if_pos (List.mem_cons_of_mem _ hLater)]
          · rw [if_neg hLater]
            by_cases hSame : key = ctx.key s.resource
            · rw [if_pos hSame,
                if_pos (List.mem_cons.2 (.inl hSame))]
            · rw [if_neg hSame, if_neg]
              intro hMem
              rcases List.mem_cons.1 hMem with hMem | hMem
              · exact hSame hMem
              · exact hLater hMem

/- A plan that is destroyed leaves none of the objects that its
   steps visit, and all others as they were. -/
theorem Plan.destroy_yields
    (p : Plan)
    {start : σ}
    (hPrompt : (view start).Prompt) :
    (p.destroy ctx).run.Yields h start fun _ result t =>
      (view t).Prompt ∧
      (result = .ok () →
        ∀ key, (view t).objects.get? key =
          if key ∈ p.visited ctx then none
          else (view start).objects.get? key) :=
  ⟨hMemory.prompt_eval _ hPrompt,
    Step.destroyAll_yields hMemory ctx _ hPrompt⟩

end Destroying

------------------------------------------------------------
-- Runs and Their Plans
------------------------------------------------------------

/- The plan of an instance, from its own variables. -/
def Service.plan (s : Service) (i : Instance) :
    Except Error Plan := do
  let p ← s.playbook i.identity.playbook
  Plan.build s.render p i.vars s.catalog.manifests

theorem Service.plan_eq
    {s : Service}
    {i : Instance}
    {p : Playbook}
    (hBook : s.playbook i.identity.playbook = .ok p) :
    s.plan i =
      Plan.build s.render p i.vars s.catalog.manifests := by
  unfold plan
  rw [hBook]
  rfl

section Planned

variable (s : Service) (i : Instance)

/- A call of the cluster is about an object of the plan. -/
def Planned (c : Call) : Prop :=
  c.isCluster = true →
    ∃ plan, s.plan i = .ok plan ∧
      ∃ key ∈ plan.keys s.context, c.IsFor key

/- Only calls of the cluster have to be planned. -/
theorem Planned.of_not_isCluster
    {c : Call}
    (hCluster : c.isCluster = false) :
    Planned s i c := by
  intro hIs
  rw [hCluster] at hIs
  cases hIs

/- What a run does to fail is not about objects. -/
theorem failing_quiet (job : Job) (e : Error) :
    (job.failing s i e).Leads (fun c => c.isCluster = false)
      (fun r => r ≠ .ok ()) := by
  refine ⟨rfl, fun saved => ⟨rfl, ?_⟩⟩
  intro _
  rcases saved with cause | ⟨⟩ <;>
    · intro hOk
      cases hOk

/- A refusal asks the cluster for nothing. -/
theorem refuse_quiet (job : Job) (e : Error) :
    (job.refuse i e).Leads (fun c => c.isCluster = false)
      (fun r => r ≠ .ok ()) := by
  refine ⟨rfl, ?_⟩
  intro _ hOk
  cases hOk

/- So does the last write of a deploy run. -/
theorem saving_quiet (p : Playbook) :
    (Job.saving s i p).Leads (fun c => c.isCluster = false)
      (fun _ => True) := by
  refine ⟨rfl, ?_⟩
  intro saved
  rcases saved with cause | ⟨⟩
  · exact (failing_quiet s i .deploy _).mono (fun _ => id)
      fun _ _ => trivial
  · exact ⟨rfl, fun _ => trivial⟩

/- So does the removal of a record. -/
theorem removing_quiet :
    (Job.removing s i).Leads (fun c => c.isCluster = false)
      (fun _ => True) := by
  refine ⟨rfl, ?_⟩
  intro removed
  rcases removed with cause | gone
  · exact (failing_quiet s i .delete _).mono (fun _ => id)
      fun _ _ => trivial
  · exact ⟨rfl, fun _ => trivial⟩

/- A claimed deploy run asks only for what it has planned. -/
theorem start_planned
    {p : Playbook}
    (hBook : s.playbook i.identity.playbook = .ok p) :
    (Job.deploy.start s p i).Leads (Planned s i)
      (fun _ => True) := by
  rw [Job.start_deploy]
  cases hPlan : Plan.build s.render p i.vars
      s.catalog.manifests with
  | error e =>
      exact (failing_quiet s i .deploy e).mono
        (fun _ => .of_not_isCluster s i) fun _ _ => trivial
  | ok plan =>
      refine (Action.leads_bind _ _ _).2
        ((plan.deploy_for s.context).mono
          (fun c hFor _ => ?_) fun outcome _ => ?_)
      · exact ⟨plan, (Service.plan_eq hBook).trans hPlan, hFor⟩
      · cases outcome with
        | error e =>
            exact (failing_quiet s i .deploy e).mono
              (fun _ => .of_not_isCluster s i)
              fun _ _ => trivial
        | ok _ =>
            exact (saving_quiet s i p).mono
              (fun _ => .of_not_isCluster s i)
              fun _ _ => trivial

/- A deploy run asks only for what is planned. -/
theorem deploy_planned :
    (Job.deploy.program s i).Leads (Planned s i)
      (fun _ => True) := by
  have hRefuse (e : Error) :
      (Job.deploy.refuse i e).Leads (Planned s i)
        (fun _ => True) :=
    (refuse_quiet i .deploy e).mono
      (fun _ => .of_not_isCluster s i) fun _ _ => trivial
  cases hBook : s.playbook i.identity.playbook with
  | error e =>
      rw [Job.program_of_unknown s i .deploy hBook]
      exact hRefuse e
  | ok p =>
      by_cases hBusy : i.status ∈ Job.deploy.busy
      · rw [Job.program_of_busy s i .deploy hBook hBusy]
        exact hRefuse _
      · rw [Job.program_of_free s i .deploy hBook hBusy]
        have hStart := start_planned s i hBook
        refine ⟨.of_not_isCluster s i rfl, ?_⟩
        intro reply
        rcases reply with e | seen
        · exact hStart
        · change (Job.deploy.proceed s p i seen).Leads _ _
          unfold Job.proceed
          split
          · exact hRefuse _
          · refine ⟨.of_not_isCluster s i rfl, ?_⟩
            intro swapped
            rcases swapped with e | swapped
            · exact hStart
            · cases swapped with
              | true => exact hStart
              | false => exact hRefuse _

end Planned

------------------------------------------------------------
-- Delete Runs
------------------------------------------------------------

section Deleting

variable {σ : Type} {h : Handler σ} {view : σ → Cluster}
variable (hMemory : InMemory h view)
variable (s : Service) (i : Instance)

/- A run that succeeds has removed what the plan of the
   instance visits, and nothing else. -/
def TakesDown
    (before after : Cluster)
    (result : Except Error Unit) : Prop :=
  result = .ok () →
    ∃ plan, s.plan i = .ok plan ∧
      ∀ key, after.objects.get? key =
        if key ∈ plan.visited s.context then none
        else before.objects.get? key

/- A run that does not succeed takes nothing down that matters
   here. -/
theorem takesDown_of_failing
    {m : Action (Except Error Unit)}
    (hFailing : m.Leads (fun c => c.isCluster = false)
      (fun r => r ≠ .ok ()))
    (before : Cluster)
    (start : σ) :
    m.Yields h start fun _ result t =>
      TakesDown s i before (view t) result := by
  apply (hFailing.yields h (I := fun _ => True)
    (fun _ _ _ _ => trivial) trivial).mono
  intro _ result _ hEnd hOk
  exact absurd hOk hEnd.2.1

include hMemory

/- A run that ends without calls of the cluster takes down
   what was taken down before. -/
theorem removing_takesDown
    {plan : Plan}
    (hPlan : s.plan i = .ok plan)
    {before : Cluster}
    {start : σ}
    (hPrompt : (view start).Prompt)
    (hGone : ∀ key, (view start).objects.get? key =
      if key ∈ plan.visited s.context then none
      else before.objects.get? key) :
    (Job.removing s i).Yields h start fun _ result t =>
      TakesDown s i before (view t) result := by
  intro _
  refine ⟨plan, hPlan, ?_⟩
  intro key
  rw [← hGone key]
  exact congrArg (Registry.get? · key)
    (hMemory.objects_eval (removing_quiet s i) hPrompt)

/- A delete run that goes on takes its plan down, if it goes
   well. -/
theorem start_takesDown
    {p : Playbook}
    (hBook : s.playbook i.identity.playbook = .ok p)
    {start : σ}
    (hPrompt : (view start).Prompt)
    {before : Cluster}
    (hSame : (view start).objects = before.objects) :
    (Job.delete.start s p i).Yields h start
      fun _ result t =>
        TakesDown s i before (view t) result := by
  rw [Job.start_delete]
  cases hPlan : Plan.build s.render p i.vars
      s.catalog.manifests with
  | error e =>
      exact takesDown_of_failing s i
        (failing_quiet s i .delete e) before start
  | ok plan =>
      dsimp only
      rw [Action.yields_bind]
      apply (plan.destroy_yields hMemory s.context
        hPrompt).mono
      intro xs outcome t hDestroyed
      rcases hDestroyed with ⟨hPrompt', hGone⟩
      cases outcome with
      | error e =>
          exact takesDown_of_failing s i
            (failing_quiet s i .delete e) before t
      | ok _ =>
          apply removing_takesDown hMemory s i
            ((Service.plan_eq hBook).trans hPlan) hPrompt'
          intro key
          rw [hGone rfl key, hSame]

/- A delete run makes its plan, and no call of the cluster
   before. -/
theorem delete_takesDown
    {start : σ}
    (hPrompt : (view start).Prompt) :
    (Job.delete.program s i).Yields h start
      fun _ result t =>
        TakesDown s i (view start) (view t) result := by
  have hRefuse (e : Error) (t : σ) :
      (Job.delete.refuse i e).Yields h t fun _ result u =>
        TakesDown s i (view start) (view u) result :=
    takesDown_of_failing s i
      (refuse_quiet i .delete e) (view start) t
  cases hBook : s.playbook i.identity.playbook with
  | error e =>
      rw [Job.program_of_unknown s i .delete hBook]
      exact hRefuse e start
  | ok p =>
      by_cases hBusy : i.status ∈ Job.delete.busy
      · rw [Job.program_of_busy s i .delete hBook hBusy]
        exact hRefuse _ start
      · rw [Job.program_of_free s i .delete hBook hBusy,
          Action.yields_call]
        have hRead := hMemory.stays start
          (.store (.value (s.repository.path i.identity)))
          rfl hPrompt
        -- whether or not the record could be claimed, the
        -- cluster is as it was
        have hStart {t : σ} (hPrompt : (view t).Prompt)
            (hSame : (view t).objects =
              (view start).objects) :=
          start_takesDown hMemory s i hBook hPrompt hSame
        generalize h start _ = read at hRead ⊢
        rcases read with ⟨t, reply⟩
        rcases reply with e | seen
        · exact hStart hRead.1 hRead.2
        · change (Job.delete.proceed s p i seen).Yields _ _ _
          unfold Job.proceed
          split
          · exact hRefuse _ t
          · rw [Action.yields_call]
            have hSwap := hMemory.stays t
              (.store (.swap (s.repository.path i.identity)
                seen (Job.delete.claimRecord i)))
              rfl hRead.1
            generalize h t _ = swapped at hSwap ⊢
            rcases swapped with ⟨u, reply⟩
            have hSame := hSwap.2.trans hRead.2
            rcases reply with e | swapped
            · exact hStart hSwap.1 hSame
            · cases swapped with
              | true => exact hStart hSwap.1 hSame
              | false => exact hRefuse _ u

end Deleting

------------------------------------------------------------
-- Histories
------------------------------------------------------------

/- A deploy run of the past: the copy that it was given, and
   its exchanges. -/
structure PastRun where
  copy : Instance
  exchanges : List Exchange

/- A run of the past has created an object. -/
def PastRun.HasCreated (r : PastRun) (key : Key) : Prop :=
  ∃ x ∈ r.exchanges, x.created? = some key

section Histories

variable {σ : Type} (h : Handler σ)
variable (s : Service) (identity : Identity)

/-
  An instance acts alone: it is deployed as it is found in
  the store, and its variables are set, and all of this
  succeeds.  The deploy runs are kept in their order.
-/
inductive History (start : σ) : List PastRun → σ → Prop where
  | start : History start [] start
  | deploy
    {runs : List PastRun}
    {t u v : σ}
    {i : Instance}
    (hBefore : History start runs t)
    (hFound :
      eval h (s.repository.find identity).run t = (u, .ok i))
    (hDone : eval h (s.deploy i).run u = (v, .ok ())) :
    History start
      (runs ++ [⟨i, exchanges h (s.deploy i).run u⟩]) v
  | setVariable
    {runs : List PastRun}
    {t u : σ}
    {key value : String}
    {i : Instance}
    (hBefore : History start runs t)
    (hDone :
      eval h (s.setVariable identity key value).run t =
        (u, .ok i)) :
    History start runs u

variable {h s identity}

/- A cluster is prompt after any history. -/
theorem History.prompt
    {view : σ → Cluster}
    (hMemory : InMemory h view)
    {start t : σ}
    {runs : List PastRun}
    (hHistory : History h s identity start runs t)
    (hPrompt : (view start).Prompt) :
    (view t).Prompt := by
  induction hHistory with
  | start => exact hPrompt
  | @deploy runs t u v i _ hFound hDone ih =>
      have hThen := hMemory.prompt_eval
        (s.repository.find identity).run ih
      rw [hFound] at hThen
      have hLast := hMemory.prompt_eval (s.deploy i).run hThen
      rw [hDone] at hLast
      exact hLast
  | @setVariable runs t u key value i _ hDone ih =>
      have hLast := hMemory.prompt_eval
        (s.setVariable identity key value).run ih
      rw [hDone] at hLast
      exact hLast

/- What a past run has created it had planned. -/
theorem History.planned
    {start t : σ}
    {runs : List PastRun}
    (hHistory : History h s identity start runs t)
    {r : PastRun}
    (hRun : r ∈ runs)
    {key : Key}
    (hCreated : r.HasCreated key) :
    ∃ plan, s.plan r.copy = .ok plan ∧
      key ∈ plan.keys s.context := by
  induction hHistory with
  | start => cases hRun
  | setVariable _ _ ih => exact ih hRun
  | @deploy runs t u v i _ _ _ ih =>
      rcases List.mem_append.1 hRun with hRun | hRun
      · exact ih hRun
      · rw [List.mem_singleton.1 hRun] at hCreated ⊢
        rcases hCreated with ⟨x, hExchange, hCreated⟩
        have hYields := (deploy_planned s i).yields h
          (I := fun _ => True) (fun _ _ _ _ => trivial)
          (s := u) trivial
        have hFor := Exchange.isFor_of_created? hCreated
        rcases hYields.1 x hExchange hFor.1 with
          ⟨plan, hPlan, other, hOther, hIs⟩
        refine ⟨plan, hPlan, ?_⟩
        rw [← hFor.2 other hIs]
        exact hOther

end Histories

/- The cluster is not asked for an instance. -/
theorem find_quiet (r : Repository) (identity : Identity) :
    (r.find identity).run.Leads
      (fun c => c.isCluster = false) (fun _ => True) := by
  refine ⟨rfl, ?_⟩
  intro reply
  rcases reply with e | ⟨_ | record⟩ <;> trivial

------------------------------------------------------------
-- A Renamed Object
------------------------------------------------------------

section Renaming

variable (s : Service) (i : Instance)
variable (hKey :
  (Store.key (s.repository.path i.identity)).isOk = true)
variable {w : World} (hCalm : w.Calm)
variable (hRecord :
  w.store.content? (s.repository.path i.identity) =
    some i.record)
variable {p : Playbook}
variable (hBook : s.playbook i.identity.playbook = .ok p)
variable {resource : Resource}
variable (hPlan :
  Plan.build s.render p i.vars s.catalog.manifests =
    .ok ⟨[⟨.resource, resource⟩]⟩)

include hKey hCalm hRecord hBook hPlan

/-
  The instance is deployed, a variable is set that renames
  its object, and it is deployed again.  The first object is
  then still there, and not planned any more.
-/
theorem renamed_calm
    (hFree : i.status ∉ Job.deploy.busy)
    {key value : String}
    (hDeclared : p.declares key = true)
    {renamed : Resource}
    (hRenamed :
      Plan.build s.render p (i.setVar key value).vars
          s.catalog.manifests =
        .ok ⟨[⟨.resource, renamed⟩]⟩)
    (hOther : s.context.key renamed ≠ s.context.key resource)
    (hEmpty : ∀ key, w.cluster.objects.contains key = false) :
    ∃ first second t j,
      History World.perform s i.identity w [first, second] t ∧
      eval World.perform (s.repository.find i.identity).run t =
        (t, .ok j) ∧
      (∃ v, eval World.perform (s.delete j).run t =
        (v, .ok ())) ∧
      first.HasCreated (s.context.key resource) ∧
      t.Calm ∧
      t.cluster.objects.contains (s.context.key resource) =
        true ∧
      ∃ plan, s.plan j = .ok plan ∧
        s.context.key resource ∉ plan.visited s.context := by
  have hFreeD : Status.deployed ∉ Job.deploy.busy := by decide
  have hFreeT : Status.deployed ∉ Job.delete.busy := by decide
  have hPlanned :
      s.plan (Instance.setVar { i with status := .deployed }
        key value) = .ok ⟨[⟨.resource, renamed⟩]⟩ :=
    (Service.plan_eq
      (i := Instance.setVar { i with status := .deployed }
        key value) hBook).trans hRenamed
  -- the first deploy run
  rcases deploy_calm s i hKey hCalm hRecord hBook hPlan hFree
    (hEmpty _) with
    ⟨x, hFirst, hCreated, hCalmX, hRecordX, hObjectsX⟩
  -- the new value
  rcases setVariable_calm s
    { i with status := .deployed } hKey hCalmX hRecordX hBook
    hDeclared value with
    ⟨y, hSet, hCalmY, hClusterY, hRecordY⟩
  have hFoundY := find_calm s
    (Instance.setVar { i with status := .deployed } key value)
    hKey hCalmY hRecordY
  -- the second deploy run
  have hAbsent : y.cluster.objects.contains
      (s.context.key renamed) = false := by
    rw [hClusterY, hObjectsX, decide_eq_false hOther, hEmpty]
    rfl
  rcases deploy_calm s
    (Instance.setVar { i with status := .deployed } key value)
    hKey hCalmY hRecordY hBook hRenamed hFreeD hAbsent with
    ⟨z, hSecond, -, hCalmZ, hRecordZ, hObjectsZ⟩
  have hFoundZ := find_calm s
    (Instance.setVar { i with status := .deployed } key value)
    hKey hCalmZ hRecordZ
  -- the delete run
  have hThere : z.cluster.objects.contains
      (s.context.key renamed) = true := by
    rw [hObjectsZ, decide_eq_true rfl]
    rfl
  have hDone := delete_calm s
    (Instance.setVar { i with status := .deployed } key value)
    hKey hCalmZ hRecordZ hBook hRenamed hFreeT hThere
  refine ⟨_, _, z,
    Instance.setVar { i with status := .deployed } key value,
    .deploy (.setVariable (.deploy .start
      (find_calm s i hKey hCalm hRecord) hFirst)
      hSet) hFoundY hSecond, hFoundZ,
    ⟨_, Prod.ext rfl hDone⟩, hCreated, hCalmZ, ?_, _,
    hPlanned, ?_⟩
  · rw [hObjectsZ, hClusterY, hObjectsX, decide_eq_true rfl]
    simp
  · intro hVisited
    exact hOther (List.mem_singleton.1 hVisited).symm

end Renaming

namespace Service

/- Its playbook names an object after the branch. -/
def branching : Service :=
  single (plainManifest "a-\x7b\x7bbranch\x7d\x7d")

/- The plan of an instance has one step, on an object that its
   variables name. -/
theorem branching_plan
    (vars : Table String)
    (name : String)
    (hRender :
      (renderResource Template.render
        (plainManifest "a-\x7b\x7bbranch\x7d\x7d")
        vars).toOption.map Resource.name = some name) :
    ∃ book resource,
      branching.playbook "web" = .ok book ∧
        book.declares "branch" = true ∧
        Plan.build branching.render book vars
          branching.catalog.manifests =
            .ok ⟨[⟨.resource, resource⟩]⟩ ∧
        resource.name = name := by
  cases hResource : renderResource Template.render
      (plainManifest "a-\x7b\x7bbranch\x7d\x7d") vars with
  | error e =>
      rw [hResource] at hRender
      cases hRender
  | ok resource =>
      rw [hResource] at hRender
      rcases build_single hResource with ⟨book, hBook, hPlan⟩
      refine ⟨book, resource, hBook, ?_, hPlan,
        Option.some.inj hRender⟩
      cases hBook
      rfl

end Service

/- A world that holds one record and no objects. -/
def World.holding (path record : String) : World :=
  { (default : World) with
    store := (Store.empty.perform (.set path record)).1
    cluster := .empty
    faults := .none }

theorem World.holding_calm (path record : String) :
    (holding path record).Calm :=
  ⟨rfl, Cluster.prompt_empty⟩

theorem World.holding_content
    {path : String}
    (hKey : (Store.key path).isOk = true)
    (record : String) :
    (holding path record).store.content? path =
      some record := by
  rcases Store.perform_set hKey Store.empty record with
    ⟨t, hSet, hContent⟩
  change (Store.empty.perform _).1.content? path = _
  rw [hSet]
  exact hContent

/- The world of a new instance of this service. -/
def World.branching : World :=
  holding
    (Service.branching.repository.path
      (Instance.ofBranch "main").identity)
    (Instance.ofBranch "main").record

/- Between two deploy runs the branch changes, and with it the
   name; so the delete run does not visit the first object. -/
theorem branching_history :
    ∃ first second t i old,
      History World.perform Service.branching ⟨"web", "demo"⟩
        World.branching [first, second] t ∧
      eval World.perform
        (Service.branching.repository.find
          ⟨"web", "demo"⟩).run t = (t, .ok i) ∧
      (∃ v, eval World.perform
        (Service.branching.delete i).run t = (v, .ok ())) ∧
      first.HasCreated old ∧
      t.Calm ∧
      t.cluster.objects.contains old = true ∧
      ∃ plan, Service.branching.plan i = .ok plan ∧
        old ∉ plan.visited Service.branching.context := by
  have hKey : (Store.key (Service.branching.repository.path
      (Instance.ofBranch "main").identity)).isOk = true := by
    decide +kernel
  have hRecord := World.holding_content hKey
    (Instance.ofBranch "main").record
  rcases Service.branching_plan (Instance.ofBranch "main").vars
    "a-main" (by decide +kernel) with
    ⟨book, main, hBook, hDeclared, hPlan, hMain⟩
  rcases Service.branching_plan
    ((Instance.ofBranch "main").setVar "branch" "dev").vars
    "a-dev" (by decide +kernel) with
    ⟨book', dev, hBook', -, hPlan', hDev⟩
  cases hBook.symm.trans hBook'
  have hOther : Service.branching.context.key dev ≠
      Service.branching.context.key main := by
    intro hSame
    have hNames := congrArg Key.name hSame
    change dev.name = main.name at hNames
    rw [hMain, hDev] at hNames
    exact absurd hNames (by decide)
  rcases renamed_calm Service.branching (.ofBranch "main") hKey
    (World.holding_calm _ _) hRecord hBook hPlan (by decide)
    hDeclared hPlan' hOther (fun _ => rfl) with
    ⟨first, second, t, i, hHistory, hFound, hDone, hRest⟩
  exact ⟨first, second, t, i, _, hHistory, hFound, hDone, hRest⟩

------------------------------------------------------------
-- What Is Left
------------------------------------------------------------

/-
  A delete run that succeeds has removed exactly the objects
  that it visits: those of its own plan, from the variables
  that it has found.  So an object that a deploy run of the
  same instance has created is left only if this plan does
  not visit it, while the plan of that run named it.
-/
theorem Service.delete_leaves
    {σ : Type}
    {h : Handler σ}
    {view : σ → Cluster}
    (hMemory : InMemory h view)
    (s : Service)
    (identity : Identity)
    {start t u v : σ}
    (hPrompt : (view start).Prompt)
    {runs : List PastRun}
    (hHistory : History h s identity start runs t)
    {i : Instance}
    (hFound :
      eval h (s.repository.find identity).run t = (u, .ok i))
    (hDone : eval h (s.delete i).run u = (v, .ok ())) :
    ∃ plan, s.plan i = .ok plan ∧
      (∀ key, (view v).objects.get? key =
        if key ∈ plan.visited s.context then none
        else (view t).objects.get? key) ∧
      ∀ r ∈ runs, ∀ key, r.HasCreated key →
        (view v).objects.contains key = true →
          key ∉ plan.visited s.context ∧
            ∃ old, s.plan r.copy = .ok old ∧
              key ∈ old.keys s.context := by
  have hThen := hHistory.prompt hMemory hPrompt
  have hSame := hMemory.objects_eval
    (find_quiet s.repository identity) hThen
  have hNext := hMemory.prompt_eval
    (s.repository.find identity).run hThen
  rw [hFound] at hSame hNext
  have hDown := delete_takesDown hMemory s i hNext
  change TakesDown s i _ (view (eval h (s.delete i).run u).1)
    (eval h (s.delete i).run u).2 at hDown
  rw [hDone] at hDown
  rcases hDown rfl with ⟨plan, hPlan, hGone⟩
  rw [hSame] at hGone
  refine ⟨plan, hPlan, hGone, ?_⟩
  intro r hRun key hCreated hLeft
  constructor
  · intro hVisited
    change ((view v).objects.get? key).isSome = true at hLeft
    rw [hGone key, if_pos hVisited] at hLeft
    cases hLeft
  · exact hHistory.planned hRun hCreated

/- The object of the first branch is left by a delete run that
   succeeds, although a deploy run of the instance has created
   it. -/
theorem Service.delete_leaves_renamed :
    branching.catalog.Valid ∧
      World.branching.cluster.Prompt ∧
      ∃ runs t u v i r key,
        History World.perform branching ⟨"web", "demo"⟩
          World.branching runs t ∧
        eval World.perform
          (branching.repository.find ⟨"web", "demo"⟩).run t =
            (u, .ok i) ∧
        eval World.perform (branching.delete i).run u =
          (v, .ok ()) ∧
        r ∈ runs ∧
        r.HasCreated key ∧
        v.cluster.objects.contains key = true := by
  rcases branching_history with
    ⟨first, second, t, i, old, hHistory, hFound, ⟨v, hDone⟩,
      hCreated, hCalm, hThere, plan, hPlan, hUnvisited⟩
  have hDown := delete_takesDown World.perform_inMemory
    branching i hCalm.hPrompt
  change TakesDown branching i _
    (eval World.perform (branching.delete i).run t).1.cluster
    (eval World.perform (branching.delete i).run t).2 at hDown
  rw [hDone] at hDown
  rcases hDown rfl with ⟨plan', hPlan', hGone⟩
  cases hPlan.symm.trans hPlan'
  refine ⟨single_valid _, Cluster.prompt_empty, _, t, t, v, i,
    first, old, hHistory, hFound, hDone,
    List.mem_cons_self .., hCreated, ?_⟩
  change (v.cluster.objects.get? old).isSome = true
  rw [hGone old, if_neg hUnvisited]
  exact hThere

/- In this history, the delete run has removed the object of
   its own plan. -/
theorem Service.delete_leaves_branching :
    ∃ runs t v i plan,
      History World.perform branching ⟨"web", "demo"⟩
          World.branching runs t ∧
        eval World.perform (branching.delete i).run t =
          (v, .ok ()) ∧
        branching.plan i = .ok plan ∧
        ∀ key, v.cluster.objects.get? key =
          if key ∈ plan.visited branching.context then none
          else t.cluster.objects.get? key := by
  rcases branching_history with
    ⟨first, second, t, i, old, hHistory, hFound, ⟨v, hDone⟩, _⟩
  rcases Service.delete_leaves World.perform_inMemory branching
    ⟨"web", "demo"⟩ Cluster.prompt_empty hHistory hFound
    hDone with ⟨plan, hPlan, hGone, _⟩
  exact ⟨_, t, v, i, plan, hHistory, hDone, hPlan, hGone⟩

end Preview
