import Mathlib.Data.List.Forall2
import Preview.Plan
import Preview.Proofs.Execution

/-
  What plans ask for, and how they fail.

  A step makes no call of the store, and calls the cluster
  only about its own object.  So a plan is deployed or
  destroyed without touching a record, and touches no objects
  but those that it names; it fails with the label of the
  step that failed.  A plan cannot be built only if a
  manifest is unknown or has no resource; in a valid catalog
  all manifests are known.

  Main declarations:
    * `Call.IsFor` and `Call.Outside`
    * `Reconcile.replace` and `Reconcile.deploy_eq`
    * `Step.label_of_key`
    * `Step.deploy_for` and `Step.destroy_run`
    * `Plan.deploy_for`
    * `Plan.deploy_within` and `Plan.destroy_within`
    * `Plan.Destroys` and `Plan.destroy_runs`
    * `Plan.build_ok` and `Plan.build_first_error`
    * `Plan.build_error`
    * `Playbook.usable_of_validate`
    * `Catalog.Valid` and `Plan.build_error_of_valid`
-/

namespace Preview

open Attempt (Within)

------------------------------------------------------------
-- Steps
------------------------------------------------------------

namespace Call

/- Calls that leave every store as it is. -/
abbrev Outside (c : Call) : Prop :=
  c.isStore = false

/- Calls of a step: those of the cluster are about one
   object. -/
def IsFor (key : Key) : Call → Prop
  | store _ => False
  | cluster c => (World.subject c).2 = key
  | send _ => False
  | _ => True

/- Calls about an object leave the store alone. -/
theorem IsFor.outside
    {key : Key}
    {c : Call}
    (hFor : c.IsFor key) :
    c.Outside := by
  cases c with
  | store c => exact hFor.elim
  | _ => rfl

end Call

namespace Context

variable (ctx : Context) (r : Resource)

/- A call of the cluster may fail with any error. -/
theorem asked_within
    {P : Call → Prop}
    {α : Type}
    {m : Action (Except ClusterError α)}
    (hCalls : m.Leads P (fun _ => True)) :
    Within P (fun _ => True) (asked m) :=
  Within.mapError
    (Within.ofAction hCalls fun _ => trivial)
    (fun _ => id)

theorem get_for :
    Within (Call.IsFor (ctx.key r)) (fun _ => True)
      (ctx.get r) :=
  asked_within ⟨rfl, fun _ => trivial⟩

theorem create_for :
    (ctx.create r).Leads (Call.IsFor (ctx.key r))
      (fun _ => True) :=
  ⟨rfl, fun _ => trivial⟩

theorem delete_for :
    (ctx.delete r).Leads (Call.IsFor (ctx.key r))
      (fun _ => True) :=
  ⟨rfl, fun _ => trivial⟩

/- A pause is about no object. -/
theorem pause_for (ms : Nat) :
    Within (Call.IsFor (ctx.key r)) (fun _ => True)
      (ctx.pause ms r) := by
  refine Within.bind
    (Within.lift ⟨trivial, fun _ => trivial⟩) ?_
  intro waited
  cases waited with
  | true => exact Within.pure _
  | false => exact Within.throw trivial

theorem deleteIfPresent_for :
    Within (Call.IsFor (ctx.key r)) (fun _ => True)
      (ctx.deleteIfPresent r) := by
  refine Within.ofAction ?_ fun _ => trivial
  refine (Action.leads_bind (ctx.delete r) _ _).2
    ((ctx.delete_for r).mono (fun _ => id) ?_)
  intro reply _
  split <;> trivial

end Context

namespace Reconcile

/- Replace a resource that is there in another form. -/
def replace (ctx : Context) (r : Resource) :
    Attempt StepError Unit := do
  Context.asked (ctx.delete r)
  awaitGone ctx r ctx.timings.scaleDownAttempts
  Context.asked (ctx.create r)

/- A reconciliation creates, leaves or replaces. -/
theorem deploy_eq (ctx : Context) (r : Resource) :
    deploy ctx r = (do
      match ← ctx.get r with
      | none => Context.asked (ctx.create r)
      | some live =>
          if live.sameSpec r then return ()
          else replace ctx r) :=
  rfl

/- A wait reads, and may pause and go on. -/
theorem awaitGone_eq
    (ctx : Context)
    (r : Resource)
    (pauses : Nat) :
    awaitGone ctx r pauses = (do
      match ← ctx.get r with
      | none => return ()
      | some live =>
          match pauses with
          | 0 =>
              throw (.stillTerminating r.label
                (live.replicas?.getD 1))
          | n + 1 =>
              ctx.pause ctx.timings.scaleDownPollMs r
              awaitGone ctx r n) := by
  cases pauses <;> rfl

end Reconcile

namespace Step

/- Steps about one object have one label. -/
theorem label_of_key
    (ctx : Context)
    {a b : Step}
    (hKey : ctx.key a.resource = ctx.key b.resource) :
    a.label = b.label := by
  rcases Key.mk.inj hKey with ⟨hKind, -, hName⟩
  unfold label Resource.label
  rw [hKind, hName]

section Resources

variable (ctx : Context) (r : Resource)

/- Waiting for an object to go asks only for it. -/
theorem awaitGone_for (pauses : Nat) :
    Within (Call.IsFor (ctx.key r)) (fun _ => True)
      (Reconcile.awaitGone ctx r pauses) := by
  induction pauses with
  | zero =>
      apply Within.bind (ctx.get_for r)
      intro live
      cases live with
      | none => exact Within.pure _
      | some _ => exact Within.throw trivial
  | succ pauses ih =>
      apply Within.bind (ctx.get_for r)
      intro live
      cases live with
      | none => exact Within.pure _
      | some _ =>
          exact Within.bind (ctx.pause_for r _) fun _ => ih

/- All that a reconciliation asks for is its object. -/
theorem reconcile_for :
    Within (Call.IsFor (ctx.key r)) (fun _ => True)
      (Reconcile.deploy ctx r) := by
  apply Within.bind (ctx.get_for r)
  intro live
  cases live with
  | none => exact Context.asked_within (ctx.create_for r)
  | some live =>
      dsimp only
      split
      · exact Within.pure _
      · apply Within.bind
          (Context.asked_within (ctx.delete_for r))
        intro _
        exact Within.bind (awaitGone_for ctx r _) fun _ =>
          Context.asked_within (ctx.create_for r)

/- A wait for completion asks for its object only. -/
theorem complete_for :
    Within (Call.IsFor (ctx.key r)) (fun _ => True)
      (Provision.complete ctx r) := by
  refine Within.bind
    (Context.asked_within ⟨rfl, fun _ => trivial⟩) ?_
  intro id
  apply Within.bind
    (Within.lift (ctx.create_for r))
  intro created
  cases created with
  | error e =>
      exact Within.bind
        (Within.lift ⟨trivial, fun _ => trivial⟩)
        fun _ => Within.throw trivial
  | ok _ =>
      refine Within.bind
        (Within.lift ⟨trivial, fun _ => trivial⟩) ?_
      intro ending
      refine Within.bind
        (Within.lift ⟨trivial, fun _ => trivial⟩) ?_
      intro _
      exact Within.ofAction trivial fun _ => trivial

theorem provision_for :
    Within (Call.IsFor (ctx.key r)) (fun _ => True)
      (Provision.deploy ctx r) := by
  have hComplete :
      Within (Call.IsFor (ctx.key r)) (fun _ => True) (do
        Provision.complete ctx r
        ctx.deleteIfPresent r) :=
    Within.bind (complete_for ctx r) fun _ =>
      ctx.deleteIfPresent_for r
  apply Within.bind (ctx.get_for r)
  intro live
  cases live with
  | none => exact hComplete
  | some _ =>
      apply Within.bind (ctx.deleteIfPresent_for r)
      intro _
      exact Within.bind (ctx.pause_for r _) fun _ =>
        hComplete

end Resources

/- A step of either kind asks only for its own object. -/
theorem deploy_for (ctx : Context) (s : Step) :
    Within (Call.IsFor (ctx.key s.resource)) (fun _ => True)
      (s.deploy ctx) := by
  unfold deploy
  cases s.kind with
  | resource => exact reconcile_for ctx s.resource
  | provisioning => exact provision_for ctx s.resource

/- What the reply to a removal means; only a resource that
   stays must be there. -/
def removed :
    StepKind → Except ClusterError Unit → Except StepError Unit
  | .provisioning, .error (.notFound _ _) => .ok ()
  | _, .error e => .error (.cluster e)
  | _, .ok () => .ok ()

/- A deletion that goes well is a good end for either kind of
   step. -/
theorem removed_ok (kind : StepKind) :
    removed kind (.ok ()) = .ok () := by
  cases kind <;> rfl

/- A step is destroyed by one call. -/
theorem destroy_run (ctx : Context) (s : Step) :
    (s.destroy ctx).run =
      .call (.cluster (.delete (ctx.key s.resource)))
        fun reply => .finish (removed s.kind reply) := by
  unfold destroy
  cases s.kind with
  | resource =>
      refine congrArg (Action.call _) (funext ?_)
      intro reply
      rcases reply with e | ⟨⟩ <;> rfl
  | provisioning =>
      refine congrArg (Action.call _) (funext ?_)
      intro reply
      rcases reply with e | ⟨⟩
      · cases e <;> rfl
      · rfl

/- A step is destroyed by calls on its own object. -/
theorem destroy_for (ctx : Context) (s : Step) :
    Within (Call.IsFor (ctx.key s.resource)) (fun _ => True)
      (s.destroy ctx) := by
  unfold Within
  rw [destroy_run]
  refine ⟨rfl, ?_⟩
  intro reply
  change Attempt.Result _ _ (removed s.kind reply)
  cases removed s.kind reply <;> trivial

/- An exchange that destroys a step, and what it comes to. -/
def Destroyed
    (ctx : Context)
    (s : Step)
    (r : Except StepError Unit)
    (x : Exchange) : Prop :=
  ∃ reply,
    x = ⟨.cluster (.delete (ctx.key s.resource)), reply⟩ ∧
      removed s.kind reply = r

/- The one call is the deletion of its object. -/
theorem Destroyed.call_eq
    {ctx : Context}
    {s : Step}
    {r : Except StepError Unit}
    {x : Exchange}
    (hDestroyed : s.Destroyed ctx r x) :
    x.call = .cluster (.delete (ctx.key s.resource)) := by
  rcases hDestroyed with ⟨reply, rfl, _⟩
  rfl

end Step

------------------------------------------------------------
-- Plans
------------------------------------------------------------

/- The error of a step. -/
def Error.IsStep (e : Error) : Prop :=
  ∃ label cause, e = .step label cause

namespace Plan

/- The objects that a plan names. -/
def keys (ctx : Context) (p : Plan) : List Key :=
  p.steps.map fun s => ctx.key s.resource

/- An error of a step is told as one. -/
theorem failing_within
    {P : Call → Prop}
    (s : Step)
    {m : Attempt StepError Unit}
    (hWithin : Within P (fun _ => True) m) :
    Within P Error.IsStep (failing s m) :=
  Within.mapError hWithin fun cause _ => ⟨s.label, cause, rfl⟩

/- A plan asks for the objects of its steps only. -/
theorem deploy_for (ctx : Context) (p : Plan) :
    Within (fun c => ∃ key ∈ p.keys ctx, c.IsFor key)
      Error.IsStep (p.deploy ctx) := by
  apply Within.forM
  intro s hStep
  apply failing_within
  refine (s.deploy_for ctx).mono (fun c hFor => ?_)
    fun _ => id
  exact ⟨_, List.mem_map_of_mem hStep, hFor⟩

/- No step of a plan touches the store. -/
theorem deploy_within (ctx : Context) (p : Plan) :
    Within Call.Outside Error.IsStep (p.deploy ctx) := by
  refine (p.deploy_for ctx).mono (fun c hFor => ?_)
    fun _ => id
  rcases hFor with ⟨key, -, hFor⟩
  exact hFor.outside

/- Distinct steps have labels of their own, which have not
   occurred before. -/
theorem distinct_fresh (seen : List String) (steps : List Step) :
    (distinct seen steps).Pairwise
        (fun a b => a.label ≠ b.label) ∧
      ∀ s ∈ distinct seen steps, s ∈ steps ∧ s.label ∉ seen := by
  induction steps generalizing seen with
  | nil => exact ⟨.nil, by simp [distinct]⟩
  | cons first rest ih =>
      unfold distinct
      by_cases hSeen : seen.contains first.label = true
      · rw [if_pos hSeen]
        refine ⟨(ih seen).1, fun s hs => ?_⟩
        have hRest := (ih seen).2 s hs
        exact ⟨.tail _ hRest.1, hRest.2⟩
      · rw [if_neg hSeen]
        rcases ih (first.label :: seen) with ⟨hApart, hFresh⟩
        constructor
        · refine .cons (fun s hs hSame => ?_) hApart
          exact (hFresh s hs).2 (hSame ▸ List.mem_cons_self ..)
        · intro s hs
          rcases List.mem_cons.1 hs with rfl | hs
          · exact ⟨.head _, by simpa using hSeen⟩
          · have hRest := hFresh s hs
            exact ⟨.tail _ hRest.1,
              fun h => hRest.2 (.tail _ h)⟩

/- A plan is destroyed by calls on its own objects. -/
theorem destroy_for (ctx : Context) (p : Plan) :
    Within (fun c => ∃ key ∈ p.keys ctx, c.IsFor key)
      Error.IsStep (p.destroy ctx) := by
  apply Within.forM
  intro s hStep
  apply failing_within
  refine (s.destroy_for ctx).mono (fun c hFor => ?_)
    fun _ => id
  have hPlanned := ((distinct_fresh [] p.steps).2 s hStep).1
  exact ⟨_, List.mem_map_of_mem hPlanned, hFor⟩

theorem destroy_within (ctx : Context) (p : Plan) :
    Within Call.Outside Error.IsStep (p.destroy ctx) := by
  refine (p.destroy_for ctx).mono (fun c hFor => ?_)
    fun _ => id
  rcases hFor with ⟨key, -, hFor⟩
  exact hFor.outside

/- More steps add to the distinct ones. -/
theorem distinct_prefix
    (seen : List String)
    (before rest : List Step) :
    distinct seen before <+: distinct seen (before ++ rest) := by
  induction before generalizing seen with
  | nil => exact List.nil_prefix
  | cons first before ih =>
      rw [List.cons_append]
      unfold distinct
      split
      · exact ih seen
      · exact List.cons_prefix_cons.2 ⟨rfl, ih _⟩

/-
  What labels tell apart and nothing else is, for the distinct
  steps, what it is for all of them, each once and in the order
  of the first occurrence.  By induction on the steps, with
  those that have gone before.
-/
theorem map_distinct
    {β : Type}
    [DecidableEq β]
    (f : Step → β)
    (past steps : List Step)
    (hSame : ∀ a ∈ past ++ steps, ∀ b ∈ past ++ steps,
      a.label = b.label ↔ f a = f b) :
    (distinct (past.map Step.label) steps).map f =
      ((steps.map f).filter
        fun x => !(past.map f).contains x).eraseDups := by
  induction steps generalizing past with
  | nil => rfl
  | cons first rest ih =>
      -- the labels and the images have seen the first step both
      -- or neither
      have hSeen : (past.map Step.label).contains first.label =
          (past.map f).contains (f first) := by
        have hIff (a : Step) (ha : a ∈ past) :
            a.label = first.label ↔ f a = f first :=
          hSame a (List.mem_append_left _ ha) first (by simp)
        rw [Bool.eq_iff_iff]
        simp only [List.contains_iff_mem, List.mem_map]
        constructor
        · rintro ⟨a, ha, hLabel⟩
          exact ⟨a, ha, (hIff a ha).1 hLabel⟩
        · rintro ⟨a, ha, hf⟩
          exact ⟨a, ha, (hIff a ha).2 hf⟩
      unfold distinct
      rw [hSeen, List.map_cons, List.filter_cons]
      by_cases hOld : (past.map f).contains (f first) = true
      · have hSub : past ++ rest ⊆ past ++ first :: rest :=
          List.append_subset.2 ⟨List.subset_append_left _ _,
            fun a ha => List.mem_append_right _ (.tail _ ha)⟩
        rw [if_pos hOld, if_neg (by rw [hOld]; decide)]
        exact ih past fun a ha b hb =>
          hSame a (hSub ha) b (hSub hb)
      · have hSub :
            first :: past ++ rest ⊆ past ++ first :: rest :=
          List.append_subset.2
            ⟨List.cons_subset.2 ⟨by simp,
                List.subset_append_left _ _⟩,
              fun a ha => List.mem_append_right _ (.tail _ ha)⟩
        have hRest := ih (first :: past) fun a ha b hb =>
          hSame a (hSub ha) b (hSub hb)
        have hNew : (!(past.map f).contains (f first)) =
            true := by
          rw [Bool.not_eq_true] at hOld
          rw [hOld]
          rfl
        rw [List.map_cons] at hRest
        rw [if_neg hOld, if_pos hNew, List.map_cons, hRest,
          List.eraseDups_cons, List.filter_filter]
        refine congrArg (f first :: ·)
          (congrArg List.eraseDups (List.filter_congr ?_))
        intro x _
        rw [List.map_cons, List.contains_cons, Bool.not_or]

/- Steps are destroyed one after the other, until one
   fails. -/
inductive Destroys (ctx : Context) :
    List Step → List Exchange → Except Error Unit → Prop where
  | done : Destroys ctx [] [] (.ok ())
  | failed
    {s : Step}
    {x : Exchange}
    {cause : StepError}
    (rest : List Step)
    (hFailed : s.Destroyed ctx (.error cause) x) :
    Destroys ctx (s :: rest) [x] (.error (.step s.label cause))
  | next
    {s : Step}
    {x : Exchange}
    {rest : List Step}
    {xs : List Exchange}
    {r : Except Error Unit}
    (hDone : s.Destroyed ctx (.ok ()) x)
    (hRest : Destroys ctx rest xs r) :
    Destroys ctx (s :: rest) (x :: xs) r

namespace Destroys

variable {ctx : Context} {steps : List Step}
variable {xs : List Exchange} {r : Except Error Unit}

/- All calls are made to the cluster. -/
theorem isCluster
    (hDestroys : Destroys ctx steps xs r) :
    ∀ x ∈ xs, x.call.isCluster = true := by
  induction hDestroys with
  | done => simp
  | failed rest hFailed =>
      intro y hy
      rw [List.mem_singleton.1 hy, hFailed.call_eq]
      rfl
  | next hDone hRest ih =>
      intro y hy
      rcases List.mem_cons.1 hy with rfl | hy
      · rw [hDone.call_eq]
        rfl
      · exact ih y hy

/- The calls are about the first of the steps, in order. -/
theorem calls_eq
    (hDestroys : Destroys ctx steps xs r) :
    xs.map Exchange.call =
      (steps.take xs.length).map fun s =>
        .cluster (.delete (ctx.key s.resource)) := by
  induction hDestroys with
  | done => rfl
  | failed rest hFailed =>
      rw [List.map_singleton, hFailed.call_eq]
      rfl
  | next hDone hRest ih =>
      rw [List.map_cons, ih, hDone.call_eq]
      rfl

/- Steps that are all destroyed have an exchange each. -/
theorem forall₂
    (hDestroys : Destroys ctx steps xs (.ok ())) :
    List.Forall₂ (fun s x => s.Destroyed ctx (.ok ()) x)
      steps xs := by
  generalize hOk : Except.ok () = r at hDestroys
  induction hDestroys with
  | done => exact .nil
  | failed rest hFailed => cases hOk
  | next hDone hRest ih => exact .cons hDone (ih hOk)

/- The error is that of the step whose exchange has failed. -/
theorem exists_failed
    {e : Error}
    (hDestroys : Destroys ctx steps xs (.error e)) :
    ∃ s ∈ steps, ∃ x ∈ xs, ∃ cause,
      s.Destroyed ctx (.error cause) x ∧
        e = .step s.label cause := by
  generalize hError : Except.error e = r at hDestroys
  induction hDestroys with
  | done => cases hError
  | @failed s x cause rest hFailed =>
      cases hError
      exact ⟨s, .head _, x, .head _, cause, hFailed, rfl⟩
  | next hDone hRest ih =>
      rcases ih hError with ⟨s, hs, x, hx, hFailed⟩
      exact ⟨s, .tail _ hs, x, .tail _ hx, hFailed⟩

end Destroys

/- A step of a plan is destroyed by one call. -/
theorem failing_destroy_run (ctx : Context) (s : Step) :
    (failing s (s.destroy ctx)).run =
      .call (.cluster (.delete (ctx.key s.resource)))
        fun reply => .finish
          ((Step.removed s.kind reply).mapError
            (Error.step s.label)) := by
  change Action.bind (s.destroy ctx).run _ = _
  rw [Step.destroy_run]
  rfl

/- By induction on the steps: each of them is one call. -/
theorem destroyAll_runs
    {σ : Type}
    (h : Action.Handler σ)
    (ctx : Context)
    (steps : List Step)
    (start : σ) :
    (steps.forM fun s =>
        failing s (s.destroy ctx)).run.Yields h start
      fun xs r _ => Destroys ctx steps xs r := by
  induction steps generalizing start with
  | nil => exact .done
  | cons s rest ih =>
      change (failing s (s.destroy ctx) >>= fun _ =>
        rest.forM fun s =>
          failing s (s.destroy ctx)).run.Yields _ _ _
      rw [Attempt.yields_bind, failing_destroy_run,
        Action.yields_call]
      generalize h start _ = outcome
      rcases outcome with ⟨t, reply⟩
      cases hReply : Step.removed s.kind reply with
      | error cause =>
          exact .failed rest ⟨reply, rfl, hReply⟩
      | ok _ => exact .next ⟨reply, rfl, hReply⟩ (ih t)

/- The steps of a plan are destroyed each once, in the order in
   which they first occur. -/
theorem destroy_runs
    {σ : Type}
    (h : Action.Handler σ)
    (ctx : Context)
    (p : Plan)
    (start : σ) :
    (p.destroy ctx).run.Yields h start fun xs r _ =>
      Destroys ctx (distinct [] p.steps) xs r :=
  destroyAll_runs h ctx _ start

end Plan

------------------------------------------------------------
-- Fallible Lists
------------------------------------------------------------

section Fallible

variable {ε α β : Type} {f : α → Except ε β} {xs : List α}

/- A list that is mapped well has each item mapped well. -/
theorem forall₂_of_mapM
    {ys : List β}
    (hAll : xs.mapM f = .ok ys) :
    List.Forall₂ (fun x y => f x = .ok y) xs ys := by
  induction xs generalizing ys with
  | nil =>
      cases hAll
      exact .nil
  | cons x xs ih =>
      rw [List.mapM_cons] at hAll
      cases hFirst : f x with
      | error e =>
          rw [hFirst] at hAll
          cases hAll
      | ok y =>
          rw [hFirst] at hAll
          cases hRest : xs.mapM f with
          | error e =>
              rw [hRest] at hAll
              cases hAll
          | ok zs =>
              rw [hRest] at hAll
              cases hAll
              exact .cons hFirst (ih hRest)

/- The first failure is that of the list. -/
theorem first_of_mapM
    {e : ε}
    (hFailed : xs.mapM f = .error e) :
    ∃ before x rest,
      xs = before ++ x :: rest ∧
        (∀ z ∈ before, ∃ y, f z = .ok y) ∧
        f x = .error e := by
  induction xs with
  | nil => cases hFailed
  | cons x xs ih =>
      rw [List.mapM_cons] at hFailed
      cases hFirst : f x with
      | error e' =>
          rw [hFirst] at hFailed
          cases hFailed
          exact ⟨[], x, xs, rfl, by simp, hFirst⟩
      | ok y =>
          rw [hFirst] at hFailed
          cases hRest : xs.mapM f with
          | ok zs =>
              rw [hRest] at hFailed
              cases hFailed
          | error e' =>
              rw [hRest] at hFailed
              cases hFailed
              rcases ih hRest with
                ⟨before, z, rest, rfl, hBefore, hError⟩
              refine ⟨x :: before, z, rest, rfl, ?_, hError⟩
              intro w hw
              rcases List.mem_cons.1 hw with rfl | hw
              · exact ⟨y, hFirst⟩
              · exact hBefore w hw

theorem ok_of_forM
    {f : α → Except ε Unit}
    (hAll : xs.forM f = .ok ()) :
    ∀ x ∈ xs, f x = .ok () := by
  induction xs with
  | nil => simp
  | cons x xs ih =>
      change (f x >>= fun _ => xs.forM f) = .ok () at hAll
      cases hFirst : f x with
      | error e =>
          rw [hFirst] at hAll
          cases hAll
      | ok u =>
          rw [hFirst] at hAll
          intro y hy
          rcases List.mem_cons.1 hy with rfl | hy
          · exact hFirst
          · exact ih hAll y hy

end Fallible

namespace Plan

section Build

variable {render : Renderer} {p : Playbook}
variable {vars manifests : Table String}

/- A plan has the steps of its entries. -/
theorem build_ok
    {plan : Plan}
    (hBuild : build render p vars manifests = .ok plan) :
    List.Forall₂
      (fun entry step =>
        buildStep render vars manifests entry = .ok step)
      p.expansion plan.steps := by
  unfold build at hBuild
  cases hSteps : p.expansion.mapM
    (buildStep render vars manifests) with
  | error e => rw [hSteps] at hBuild; cases hBuild
  | ok steps =>
      rw [hSteps] at hBuild
      cases hBuild
      exact forall₂_of_mapM hSteps

/- The error of a plan is that of its first entry without a
   step. -/
theorem build_first_error
    {e : Error}
    (hBuild : build render p vars manifests = .error e) :
    ∃ before entry rest,
      p.expansion = before ++ entry :: rest ∧
        (∀ other ∈ before, ∃ step,
          buildStep render vars manifests other = .ok step) ∧
        buildStep render vars manifests entry = .error e := by
  unfold build at hBuild
  cases hSteps : p.expansion.mapM
    (buildStep render vars manifests) with
  | ok steps => rw [hSteps] at hBuild; cases hBuild
  | error e' =>
      rw [hSteps] at hBuild
      cases hBuild
      exact first_of_mapM hSteps

/- A plan that cannot be built has an entry that cannot. -/
theorem build_error
    {e : Error}
    (hBuild : build render p vars manifests = .error e) :
    ∃ entry ∈ p.expansion,
      buildStep render vars manifests entry = .error e := by
  rcases build_first_error hBuild with
    ⟨before, entry, rest, hEntries, _, hError⟩
  exact ⟨entry, by simp [hEntries], hError⟩

end Build

end Plan

------------------------------------------------------------
-- Valid Catalogs
------------------------------------------------------------

namespace Catalog

/- Every playbook uses known manifests. -/
def Valid (c : Catalog) : Prop :=
  ∀ id p, c.get? id = some p →
    p.validate c.manifests = .ok ()

theorem empty_valid (manifests : Table String) :
    (empty manifests).Valid := by
  intro id p hFound
  cases hFound

/- What is inserted has been validated. -/
theorem insert_valid
    {c d : Catalog}
    {p : Playbook}
    (hValid : c.Valid)
    (hInsert : c.insert p = .ok d) :
    d.Valid := by
  unfold insert at hInsert
  cases hBook : p.validate c.manifests with
  | error e =>
      rw [hBook] at hInsert
      cases hInsert
  | ok u =>
      rw [hBook] at hInsert
      cases hInsert
      intro id q hFound
      change (c.playbooks.insert p.id p).get? id = some q
        at hFound
      rw [Table.get?_insert] at hFound
      split at hFound
      · cases hFound
        exact hBook
      · exact hValid id q hFound

end Catalog

namespace Playbook

variable {p : Playbook} {manifests : Table String}

/- There are tasks, and each of them uses manifests that are
   known. -/
structure Usable (p : Playbook) (manifests : Table String) :
    Prop where
  tasks : p.tasks ≠ []
  uses : ∀ task ∈ p.tasks, task.references ≠ []
  known : ∀ task ∈ p.tasks, ∀ name ∈ task.references,
    manifests.contains name = true

/- A playbook that is accepted can be expanded. -/
theorem usable_of_validate
    (hValid : p.validate manifests = .ok ()) :
    p.Usable manifests := by
  unfold validate at hValid
  split at hValid
  · cases hValid
  · split at hValid
    · cases hValid
    · split at hValid
      · cases hValid
      · rename_i hTasks
        have hEach := ok_of_forM hValid
        refine ⟨by simpa using hTasks, ?_, ?_⟩
        · intro task hTask hNone
          have hOk := hEach task hTask
          simp [validateTask, hNone] at hOk
        · intro task hTask name hUsed
          have hOk := hEach task hTask
          unfold validateTask at hOk
          split at hOk
          · cases hOk
          · split at hOk
            · cases hOk
            · rename_i hFound
              simpa using
                List.find?_eq_none.1 hFound name hUsed

/- The entries of an expansion are what the tasks refer to. -/
theorem mem_references_of_expansion
    {entry : StepKind × String}
    (hEntry : entry ∈ p.expansion) :
    ∃ task ∈ p.tasks, entry.2 ∈ task.references := by
  rcases List.mem_flatMap.1 hEntry with ⟨task, hTask, hUsed⟩
  refine ⟨task, hTask, ?_⟩
  unfold Task.references
  cases hPod : task.podManifest? with
  | some pod =>
      rw [hPod] at hUsed
      simp [List.mem_singleton.1 hUsed]
  | none =>
      rw [hPod] at hUsed
      rcases List.mem_map.1 hUsed with ⟨name, hName, rfl⟩
      exact hName

/- So they are all known. -/
theorem Usable.known_entry
    {manifests : Table String}
    (hUsable : p.Usable manifests)
    {entry : StepKind × String}
    (hEntry : entry ∈ p.expansion) :
    manifests.contains entry.2 = true := by
  rcases mem_references_of_expansion hEntry with
    ⟨task, hTask, hUsed⟩
  exact hUsable.known task hTask _ hUsed

end Playbook

/- The error of a render. -/
def Error.IsRender (e : Error) : Prop :=
  ∃ manifest cause, e = .render manifest cause

/- With all manifests known, only rendering can fail. -/
theorem Plan.build_error_of_valid
    {render : Renderer}
    {p : Playbook}
    {vars manifests : Table String}
    {e : Error}
    (hValid : p.validate manifests = .ok ())
    (hBuild : build render p vars manifests = .error e) :
    e.IsRender := by
  rcases build_error hBuild with ⟨entry, hEntry, hError⟩
  have hKnown :=
    (Playbook.usable_of_validate hValid).known_entry hEntry
  unfold buildStep at hError
  split at hError
  · rename_i hUnknown
    unfold Table.contains at hKnown
    rw [hUnknown] at hKnown
    cases hKnown
  · split at hError
    · cases hError
      exact ⟨_, _, rfl⟩
    · cases hError

end Preview
