import Preview.Proofs.Reports

/-
  What a deploy makes of the objects of its plan.

  A step that goes well ends with the call that settles its
  object, whatever came before; it keeps all other objects.
  So after a plan, every object is as the last step about it
  wants it, and the others are as they were.  When a step
  fails, this holds for the steps before it and all objects
  but its own.

  Main declarations:
    * `Step.Met`
    * `Achieves` and `Step.deploy_achieves`
    * `Plan.last?` and `Plan.Leaves`
    * `Plan.deploy_error`
    * `Plan.deploy_converges`
-/

namespace Preview

open Preview.Action (Handler eval)
open Cluster (Kept Reporting)

------------------------------------------------------------
-- Steps
------------------------------------------------------------

/- What a step wants of its object: a resource that stays is
   there as desired, one that runs to completion is gone. -/
def Step.Met (s : Step) (object : Option Resource) : Prop :=
  match s.kind with
  | .resource =>
      ∃ live, object = some live ∧
        live.sameSpec s.resource = true
  | .provisioning => object = none

/- No report changes whether a step has what it wants. -/
theorem Step.Met.map_onto
    {s : Step}
    {object : Option Resource}
    (hMet : s.Met object)
    (es : List Report)
    (key : Key) :
    s.Met (object.map (Report.onto es key)) := by
  unfold Met at hMet ⊢
  cases hKind : s.kind with
  | resource =>
      rw [hKind] at hMet
      rcases hMet with ⟨live, rfl, hSame⟩
      refine ⟨_, rfl, ?_⟩
      rw [Report.sameSpec_onto]
      exact hSame
  | provisioning =>
      rw [hKind] at hMet
      change object = none at hMet
      rw [hMet]
      rfl

/- What a call of the cluster brings when it goes well. -/
theorem Context.eval_of_asked
    {σ α : Type}
    {h : Handler σ}
    {m : Action (Except ClusterError α)}
    {s t : σ}
    {a : α}
    (hEval : eval h (asked m).run s = (t, .ok a)) :
    eval h m s = (t, .ok a) := by
  have hAsked : eval h (asked m).run s =
      ((eval h m s).1, (eval h m s).2.mapError .cluster) := by
    unfold asked
    rw [Attempt.eval_mapError]
    rfl
  rw [hAsked] at hEval
  rcases hResult : eval h m s with ⟨u, e | b⟩
  · rw [hResult] at hEval
    cases hEval
  · rw [hResult] at hEval
    cases hEval
    rfl

section Programs

variable {σ : Type}

/- From a prompt cluster, a program that goes well leaves an
   object as said. -/
def Achieves
    {ε α : Type}
    (h : Handler σ)
    (view : σ → Cluster)
    (m : Attempt ε α)
    (key : Key)
    (Goal : Option Resource → Prop) : Prop :=
  ∀ s t a, (view s).Prompt → eval h m.run s = (t, .ok a) →
    Goal ((view t).objects.get? key)

variable {h : Handler σ} {view : σ → Cluster}
variable {log : σ → List Report} {keys : List Key}
variable (hReporting : Reporting h view log keys)
variable {key : Key} {Goal : Option Resource → Prop}

include hReporting

/- Only the last part of a program matters. -/
theorem Achieves.bind
    {ε α β : Type}
    {m : Attempt ε α}
    {f : α → Attempt ε β}
    (hRest : ∀ a, Achieves h view (f a) key Goal) :
    Achieves h view (m >>= f) key Goal := by
  intro s u b hPrompt hEval
  rcases hFirst : eval h m.run s with ⟨t, e | a⟩
  · rw [Attempt.eval_bind_of_error hFirst] at hEval
    cases hEval
  · rw [Attempt.eval_bind_of_ok hFirst] at hEval
    exact hRest a t u b
      (hReporting.prompt_of_eval hPrompt hFirst) hEval

variable (ctx : Context) (r : Resource)

/- What is read is there, but for later reports. -/
theorem eval_get
    {s : σ}
    (hPrompt : (view s).Prompt) :
    ∃ t live es,
      eval h (ctx.get r).run s = (t, .ok live) ∧
      (view t).Prompt ∧
      (view t).objects.get? (ctx.key r) =
        live.map (Report.onto es (ctx.key r)) := by
  rcases hReporting.asks s (.get (ctx.key r)) rfl with
    ⟨before, after, -, -, hView, hReply⟩
  have hRead : ((view s).report before).perform
      (.get (ctx.key r)) = _ :=
    Cluster.get_prompt
      (Cluster.report_prompt hPrompt before) (ctx.key r)
  rw [hRead] at hView hReply
  have hEval : eval h (ctx.get r).run s =
      ((h s (.cluster (.get (ctx.key r)))).1,
        (h s (.cluster (.get (ctx.key r)))).2.mapError
          StepError.cluster) := rfl
  refine ⟨(h s (.cluster (.get (ctx.key r)))).1,
    ((view s).report before).objects.get? (ctx.key r), after,
    ?_, ?_, ?_⟩
  · rw [hEval, hReply]
    rfl
  · exact hReporting.prompt_call hPrompt _
  · rw [hView, Cluster.objects_report]

/- What has been created is there as desired. -/
theorem achieves_create :
    Achieves h view (Context.asked (ctx.create r)) (ctx.key r)
      (Step.Met ⟨.resource, r⟩) := by
  intro s t a hPrompt hEval
  have hDone : h s (.cluster (.create r.kind ctx.space r)) =
      (t, .ok ()) := Context.eval_of_asked hEval
  rcases hReporting.asks s (.create r.kind ctx.space r) rfl with
    ⟨before, after, -, -, hView, hReply⟩
  rw [hDone] at hView hReply
  rcases Cluster.objects_create_of_ok
    (Cluster.report_prompt hPrompt before) hReply.symm with
    ⟨live, hLive, hSame⟩
  have hObject : (view t).objects.get? (ctx.key r) =
      (some live).map (Report.onto after (ctx.key r)) := by
    rw [hView, Cluster.objects_report]
    exact congrArg (Option.map _) hLive
  rw [hObject]
  have hMet : Step.Met ⟨.resource, r⟩ (some live) :=
    ⟨live, rfl, hSame⟩
  exact hMet.map_onto after _

/- What need not be there is gone, whatever the cluster has
   replied. -/
theorem achieves_deleteIfPresent :
    Achieves h view (ctx.deleteIfPresent r) (ctx.key r)
      (Step.Met ⟨.provisioning, r⟩) := by
  intro s t a hPrompt hEval
  have hState : (eval h (ctx.deleteIfPresent r).run s).1 =
      (h s (.cluster (.delete (ctx.key r)))).1 := by
    change (eval h (Action.bind (ctx.delete r) _) s).1 = _
    rw [Action.eval_bind]
    split <;> rfl
  rw [hEval] at hState
  change t = _ at hState
  rcases hReporting.asks s (.delete (ctx.key r)) rfl with
    ⟨before, after, -, -, hView, -⟩
  have hGone :
      (((view s).report before).delete (ctx.key r)).1.objects.get?
        (ctx.key r) = none := by
    rw [Cluster.objects_delete
      (Cluster.report_prompt hPrompt before), if_pos rfl]
  change (view t).objects.get? (ctx.key r) = none
  rw [hState, hView, Cluster.objects_report]
  exact congrArg (Option.map _) hGone

/- After a reconciliation the object asks for what the resource
   does. -/
theorem achieves_reconcile :
    Achieves h view (Reconcile.deploy ctx r) (ctx.key r)
      (Step.Met ⟨.resource, r⟩) := by
  intro s u a hPrompt hEval
  rcases eval_get hReporting ctx r hPrompt with
    ⟨t, live, es, hRead, hThen, hObject⟩
  have hCreate := achieves_create hReporting ctx r
  unfold Reconcile.deploy at hEval
  rw [Attempt.eval_bind_of_ok hRead] at hEval
  cases live with
  | none => exact hCreate t u a hThen hEval
  | some live =>
      dsimp only at hEval
      split at hEval
      · rename_i hSame
        cases hEval
        rw [hObject]
        have hMet : Step.Met ⟨.resource, r⟩ (some live) :=
          ⟨live, rfl, hSame⟩
        exact hMet.map_onto es _
      · have hAgain : Achieves h view (do
            Reconcile.awaitGone ctx r
              ctx.timings.scaleDownAttempts
            Context.asked (ctx.create r)) (ctx.key r)
            (Step.Met ⟨.resource, r⟩) :=
          Achieves.bind hReporting fun _ => hCreate
        have hReplace :=
          Achieves.bind hReporting
            (m := Context.asked (ctx.delete r))
            fun _ => hAgain
        exact hReplace t u a hThen hEval

/- After a completed run there is no object. -/
theorem achieves_provision :
    Achieves h view (Provision.deploy ctx r) (ctx.key r)
      (Step.Met ⟨.provisioning, r⟩) := by
  have hComplete :
      Achieves h view (do
        Provision.complete ctx r
        ctx.deleteIfPresent r) (ctx.key r)
        (Step.Met ⟨.provisioning, r⟩) :=
    Achieves.bind hReporting fun _ =>
      achieves_deleteIfPresent hReporting ctx r
  unfold Provision.deploy
  refine Achieves.bind hReporting fun live => ?_
  cases live with
  | none => exact hComplete
  | some _ =>
      exact Achieves.bind hReporting fun _ =>
        Achieves.bind hReporting fun _ => hComplete

/- A step of either kind meets its own goal. -/
theorem Step.deploy_achieves (step : Step) :
    Achieves h view (step.deploy ctx) (ctx.key step.resource)
      step.Met := by
  rcases step with ⟨kind, r⟩
  cases kind with
  | resource => exact achieves_reconcile hReporting ctx r
  | provisioning => exact achieves_provision hReporting ctx r

end Programs

------------------------------------------------------------
-- Plans
------------------------------------------------------------

namespace Plan

/- The last step about an object. -/
def last? (p : Plan) (ctx : Context) (key : Key) : Option Step :=
  p.steps.reverse.find? fun s => ctx.key s.resource = key

/- The last step on an object is one of the rest, or else the
   first. -/
theorem last?_cons
    (s : Step)
    (rest : List Step)
    (ctx : Context)
    (key : Key) :
    last? ⟨s :: rest⟩ ctx key =
      (last? ⟨rest⟩ ctx key).or
        (if ctx.key s.resource = key then some s else none) := by
  unfold last?
  rw [List.reverse_cons, List.find?_append, List.find?_singleton]
  simp

/- Every object of a plan has a last step. -/
theorem exists_last?_of_mem
    {p : Plan}
    {ctx : Context}
    {key : Key}
    (hKey : key ∈ p.keys ctx) :
    ∃ step, p.last? ctx key = some step := by
  rcases List.mem_map.1 hKey with ⟨step, hStep, hSame⟩
  apply Option.isSome_iff_exists.1
  unfold last?
  rw [List.find?_isSome]
  exact ⟨step, List.mem_reverse.2 hStep,
    decide_eq_true hSame⟩

/- What a plan leaves of an object: what the last step about
   it wants, or else what it was, but for reports. -/
def Leaves
    {σ : Type}
    (p : Plan)
    (ctx : Context)
    (view : σ → Cluster)
    (log : σ → List Report)
    (keys : List Key)
    (key : Key)
    (s t : σ) : Prop :=
  match p.last? ctx key with
  | some step => step.Met ((view t).objects.get? key)
  | none => Kept view log keys key s t

section Runs

variable {σ : Type} {h : Handler σ}
variable {p : Plan} {ctx : Context}
variable {s t : σ}

/- A plan is deployed step by step. -/
theorem deploy_cons
    (step : Step)
    (rest : List Step)
    (ctx : Context) :
    deploy ctx ⟨step :: rest⟩ =
      (do
        failing step (step.deploy ctx)
        deploy ctx ⟨rest⟩) :=
  rfl

theorem eval_failing_of_ok
    {step : Step}
    {a : Unit}
    (hStep : eval h (step.deploy ctx).run s = (t, .ok a)) :
    eval h (failing step (step.deploy ctx)).run s =
      (t, .ok a) := by
  unfold failing
  rw [Attempt.eval_mapError, hStep]
  rfl

/- The error of a step is told with its label. -/
theorem eval_failing_of_error
    {step : Step}
    {cause : StepError}
    (hStep : eval h (step.deploy ctx).run s =
      (t, .error cause)) :
    eval h (failing step (step.deploy ctx)).run s =
      (t, .error (.step step.label cause)) := by
  unfold failing
  rw [Attempt.eval_mapError, hStep]
  rfl

/-
  A deploy that fails has come to some step, which fails: the
  steps before it have gone well, and those after it have not
  been started.
-/
theorem deploy_error
    {e : Error}
    (hFails : eval h (p.deploy ctx).run s = (t, .error e)) :
    ∃ before step rest u cause,
      p.steps = before ++ step :: rest ∧
      eval h (deploy ctx ⟨before⟩).run s = (u, .ok ()) ∧
      eval h (step.deploy ctx).run u = (t, .error cause) ∧
      e = .step step.label cause := by
  rcases p with ⟨steps⟩
  induction steps generalizing s with
  | nil => cases hFails
  | cons step rest ih =>
      rw [deploy_cons] at hFails
      rcases hStep : eval h (step.deploy ctx).run s with
        ⟨u, cause | a⟩
      · rw [Attempt.eval_bind_of_error
          (eval_failing_of_error hStep)] at hFails
        cases hFails
        exact ⟨[], step, rest, s, cause, rfl, rfl, hStep, rfl⟩
      · have hDone := eval_failing_of_ok hStep
        rw [Attempt.eval_bind_of_ok hDone] at hFails
        rcases ih hFails with
          ⟨before, other, after, v, cause, hSteps, hBefore,
            hOther, hError⟩
        change rest = before ++ other :: after at hSteps
        refine ⟨step :: before, other, after, v, cause, ?_, ?_,
          hOther, hError⟩
        · rw [hSteps]
          rfl
        · rw [deploy_cons, Attempt.eval_bind_of_ok hDone]
          exact hBefore

variable {view : σ → Cluster} {log : σ → List Report}
variable {keys : List Key} {key : Key}

/- What a plan leaves, reports leave. -/
theorem Leaves.kept
    {u : σ}
    (hLeaves : p.Leaves ctx view log keys key s t)
    (hKept : Kept view log keys key t u) :
    p.Leaves ctx view log keys key s u := by
  unfold Leaves at hLeaves ⊢
  cases hLast : p.last? ctx key with
  | none =>
      rw [hLast] at hLeaves
      exact Kept.trans hLeaves hKept
  | some step =>
      rw [hLast] at hLeaves
      rcases hKept with ⟨es, -, -, hObject⟩
      dsimp only
      rw [hObject]
      exact Step.Met.map_onto hLeaves es key

variable (hReporting : Reporting h view log keys)

include hReporting

/- A step keeps all objects but its own. -/
theorem kept_of_step
    {step : Step}
    {result : Except StepError Unit}
    (hPrompt : (view s).Prompt)
    (hStep : eval h (step.deploy ctx).run s = (t, result))
    (hOther : key ≠ ctx.key step.resource) :
    Kept view log keys key s t := by
  have hKept := hReporting.kept_of_leads (step.deploy_for ctx)
    (fun _ hFor => ⟨_, hFor, hOther⟩) hPrompt
  rw [hStep] at hKept
  exact hKept

/- A plan keeps all objects that it does not name. -/
theorem kept_of_plan
    {result : Except Error Unit}
    (hPrompt : (view s).Prompt)
    (hRun : eval h (p.deploy ctx).run s = (t, result))
    (hOutside : key ∉ p.keys ctx) :
    Kept view log keys key s t := by
  have hOther (c : Call)
      (hFor : ∃ own ∈ p.keys ctx, c.IsFor own) :
      ∃ own, c.IsFor own ∧ key ≠ own := by
    rcases hFor with ⟨own, hOwn, hFor⟩
    exact ⟨own, hFor, fun hSame => hOutside (hSame ▸ hOwn)⟩
  have hKept := hReporting.kept_of_leads (p.deploy_for ctx)
    hOther hPrompt
  rw [hRun] at hKept
  exact hKept

/-
  A deploy that goes well leaves every object as the last step
  about it wants it.  By induction on the steps: what follows
  either has a step of its own about an object, or keeps it.
-/
theorem deploy_leaves
    (hPrompt : (view s).Prompt)
    (hDone : eval h (p.deploy ctx).run s = (t, .ok ()))
    (key : Key) :
    p.Leaves ctx view log keys key s t := by
  rcases p with ⟨steps⟩
  induction steps generalizing s with
  | nil =>
      cases hDone
      exact Kept.refl _
  | cons step rest ih =>
      rw [deploy_cons] at hDone
      rcases hStep : eval h (step.deploy ctx).run s with
        ⟨u, cause | a⟩
      · rw [Attempt.eval_bind_of_error
          (eval_failing_of_error hStep)] at hDone
        cases hDone
      · rw [Attempt.eval_bind_of_ok (eval_failing_of_ok hStep)]
          at hDone
        have hThen := hReporting.prompt_of_eval hPrompt hStep
        have hRest := ih hThen hDone
        unfold Leaves at hRest ⊢
        rw [last?_cons]
        -- what a later step wants is settled by the rest
        cases hLast : last? ⟨rest⟩ ctx key with
        | some other =>
            rw [hLast] at hRest
            exact hRest
        | none =>
            rw [hLast] at hRest
            by_cases hOwn : ctx.key step.resource = key
            · rw [if_pos hOwn]
              have hMet := step.deploy_achieves hReporting ctx
                s u a hPrompt hStep
              rcases hRest with ⟨es, -, -, hObject⟩
              change step.Met ((view t).objects.get? key)
              rw [hObject, ← hOwn]
              exact hMet.map_onto es _
            · rw [if_neg hOwn]
              exact Kept.trans
                (kept_of_step hReporting hPrompt hStep
                  (Ne.symm hOwn)) hRest

omit hReporting in
/-
  A deploy of a plan whose objects others report phases on,
  over a prompt cluster.  It does not touch an object outside
  the plan.  If it goes well, every object of the plan is as
  the last step about it wants it.  If it fails, some step has
  failed; all objects but that of this step are what the steps
  before it leave, so those that only later steps are about
  have changed by what was reported on them, and by nothing
  else.
-/
theorem deploy_converges
    (hReporting : Reporting h view log (p.keys ctx))
    (hPrompt : (view s).Prompt)
    {result : Except Error Unit}
    (hRun : eval h (p.deploy ctx).run s = (t, result)) :
    (∀ key, key ∉ p.keys ctx →
      (view t).objects.get? key = (view s).objects.get? key) ∧
    match result with
    | .ok () =>
        ∀ key ∈ p.keys ctx, ∃ step,
          p.last? ctx key = some step ∧
            step.Met ((view t).objects.get? key)
    | .error e =>
        ∃ before step rest u cause,
          p.steps = before ++ step :: rest ∧
          eval h (deploy ctx ⟨before⟩).run s = (u, .ok ()) ∧
          eval h (step.deploy ctx).run u = (t, .error cause) ∧
          e = .step step.label cause ∧
          ∀ key, key ≠ ctx.key step.resource →
            Leaves ⟨before⟩ ctx view log (p.keys ctx) key s t := by
  constructor
  · intro key hOutside
    have hKept :=
      kept_of_plan hReporting hPrompt hRun hOutside
    exact hKept.eq_of_not_mem hOutside
  · cases result with
    | ok u =>
        intro key hKey
        rcases exists_last?_of_mem hKey with ⟨step, hLast⟩
        have hLeaves :=
          deploy_leaves hReporting hPrompt hRun key
        unfold Leaves at hLeaves
        rw [hLast] at hLeaves
        exact ⟨step, hLast, hLeaves⟩
    | error e =>
        rcases deploy_error hRun with
          ⟨before, step, rest, u, cause, hSteps, hBefore, hStep,
            hError⟩
        refine ⟨before, step, rest, u, cause, hSteps, hBefore,
          hStep, hError, ?_⟩
        intro key hOther
        have hThen :=
          hReporting.prompt_of_eval hPrompt hBefore
        have hLeaves :=
          deploy_leaves hReporting hPrompt hBefore key
        exact hLeaves.kept
          (kept_of_step hReporting hThen hStep hOther)

end Runs

end Plan

/- A world in which the phase of a job is reported while it is
   awaited. -/
def World.attended (e : Report) : Handler (World × List Report)
  | (w, log), .settle token id ms =>
      let w := { w with cluster := w.cluster.report [e] }
      ((w, log ++ [e]), (w.perform (.settle token id ms)).2)
  | (w, log), c => (((w.perform c).1, log), (w.perform c).2)

/- Beside the calls, only this report comes in, and only during
   a wait. -/
theorem World.attended_reporting
    {e : Report}
    {keys : List Key}
    (hKey : e.key ∈ keys) :
    Reporting (attended e) (·.1.cluster) (·.2) keys where
  asks s c hObject := by
    rcases perform_inMemory.reporting keys |>.asks s.1 c hObject
      with ⟨before, after, hKeys, hLog, hView, hReply⟩
    refine ⟨before, after, hKeys, ?_, hView, hReply⟩
    change s.2 = s.2 ++ (before ++ after)
    rw [← show [] = before ++ after from hLog,
      List.append_nil]
  stays s c hObject hPrompt := by
    rcases perform_inMemory.reporting keys |>.stays s.1 c hObject
      hPrompt with ⟨es, hKeys, hLog, hThen⟩
    cases c with
    | settle token id ms =>
        exact ⟨[e], by simpa using hKey, rfl,
          Cluster.report_prompt hPrompt [e], rfl⟩
    | _ =>
        refine ⟨es, hKeys, ?_, hThen⟩
        change s.2 = s.2 ++ es
        rw [← show [] = es from hLog, List.append_nil]

namespace Plan

/- A job and a resource that stays. -/
def setup : Plan :=
  ⟨[⟨.provisioning, .plain "v1" "Pod" "setup"⟩,
    ⟨.resource,
      (Resource.plain "v1" "Pod" "web").withField "image"
        (.string "new")⟩]⟩

/- The context of this plan. -/
def setupContext : Context :=
  ⟨"preview", {}, 0⟩

/- The resource that stays is there in an older form. -/
def setupWorld : World :=
  { (default : World) with
    cluster := Cluster.empty.insert "preview"
      ((Resource.plain "v1" "Pod" "web").withField "image"
        (.string "old")) }

/- The job has gone and the resource is in its new form. -/
theorem deploy_converges_setup :
    ∃ t live,
      eval
          (World.attended
            ⟨⟨"Pod", "preview", "setup"⟩, .succeeded⟩)
          (setup.deploy setupContext).run (setupWorld, []) =
        (t, .ok ()) ∧
      t.1.cluster.objects.get? ⟨"Pod", "preview", "setup"⟩ =
        none ∧
      t.1.cluster.objects.get? ⟨"Pod", "preview", "web"⟩ =
        some live ∧
      live.sameSpec
        ((Resource.plain "v1" "Pod" "web").withField "image"
          (.string "new")) = true := by
  have hOk :
      (eval
        (World.attended
          ⟨⟨"Pod", "preview", "setup"⟩, .succeeded⟩)
        (setup.deploy setupContext).run
        (setupWorld, [])).2.isOk = true := by
    decide +kernel
  rcases hRun : eval
    (World.attended ⟨⟨"Pod", "preview", "setup"⟩, .succeeded⟩)
    (setup.deploy setupContext).run (setupWorld, []) with
    ⟨t, e | ⟨⟩⟩
  · rw [hRun] at hOk
    cases hOk
  · have hPrompt : setupWorld.cluster.Prompt :=
      ⟨rfl, rfl, fun _ => rfl⟩
    have hThen := (deploy_converges
      (World.attended_reporting (by decide)) hPrompt hRun).2
    rcases hThen ⟨"Pod", "preview", "setup"⟩ (by decide) with
      ⟨job, hJob, hGone⟩
    rcases hThen ⟨"Pod", "preview", "web"⟩ (by decide) with
      ⟨web, hWeb, hMet⟩
    have hFirst : setup.last? setupContext
        ⟨"Pod", "preview", "setup"⟩ =
          some ⟨.provisioning, .plain "v1" "Pod" "setup"⟩ := rfl
    have hSecond : setup.last? setupContext
        ⟨"Pod", "preview", "web"⟩ =
          some ⟨.resource,
            (Resource.plain "v1" "Pod" "web").withField "image"
              (.string "new")⟩ := rfl
    rw [hFirst] at hJob
    rw [hSecond] at hWeb
    cases hJob
    cases hWeb
    rcases hMet with ⟨live, hLive, hSame⟩
    exact ⟨t, live, rfl, hGone, hLive, hSame⟩

end Plan

end Preview
