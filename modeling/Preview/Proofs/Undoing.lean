import Preview.Proofs.Convergence
import Preview.Proofs.Slots
import Preview.Proofs.Teardown

/-
  What a destroy makes of what a deploy has left.

  The steps of a coherent plan agree on what they want of an
  object.  So an object that a step has brought about is left
  alone by the steps after it, also by one that fails, and a
  destroy finds the objects of all steps that went well.

  Main declarations:
    * `Cluster.calmed` and `Cluster.Troubled`
    * `Advanced` and `Reconcile.deploy_advances`
    * `Plan.Coherent`, `Plan.deploy_keeps`, `Plan.deploy_shows`
    * `Plan.deploy_error_shows` and `Plan.destroyAll_present`
    * `Plan.destroy_undoes`
-/

namespace Preview

open Preview.Action (Handler eval)
open Cluster (InMemory)

------------------------------------------------------------
-- Troubled Clusters
------------------------------------------------------------

namespace Cluster

/- A cluster with other failures prepared. -/
def beset
    (c : Cluster)
    (failures : Registry (Operation × String) ClusterError) :
    Cluster :=
  { c with failures }

/- A cluster without the failures that are prepared. -/
def calmed (c : Cluster) : Cluster :=
  c.beset .empty

/- Where nothing is prepared, nothing is to be calmed. -/
theorem calmed_of_calm
    {c : Cluster}
    (hCalm : c.failures = .empty) :
    c.calmed = c := by
  unfold calmed beset
  rw [← hCalm]

/- Phases change no matter what is prepared. -/
theorem calmed_setPhase
    (c : Cluster)
    (key : Key)
    (phase : Phase) :
    (c.setPhase key phase).1.calmed =
      (c.calmed.setPhase key phase).1 := by
  have hSame : c.calmed.objects.get? key =
      c.objects.get? key := rfl
  unfold setPhase
  rw [hSame]
  cases c.objects.get? key <;> rfl

/- Objects come no matter what is prepared. -/
theorem calmed_added
    (c : Cluster)
    (key : Key)
    (object : Resource)
    (phases : List Phase) :
    (c.added key object phases).calmed =
      c.calmed.added key object phases := by
  unfold added
  generalize hStart : emit _ key _ = d
  have hCalm : emit { c.calmed.record .create key with
      objects := c.calmed.objects.set key object
      serial := c.calmed.serial + 1 } key ⟨.added, object⟩ =
        d.calmed := by
    rw [← hStart]
    rfl
  rw [hCalm]
  clear hStart hCalm
  induction phases generalizing d with
  | nil => rfl
  | cons phase phases ih =>
      rw [List.foldl_cons, List.foldl_cons, ih,
        calmed_setPhase]

theorem calmed_remove (c : Cluster) (key : Key) :
    (c.remove key).calmed = c.calmed.remove key := by
  have hSame : c.calmed.objects.get? key =
      c.objects.get? key := rfl
  unfold remove
  dsimp only
  rw [hSame]
  cases c.objects.get? key <;> rfl

section Calls

variable {c : Cluster} (hPrompt : c.calmed.Prompt)

include hPrompt

/- A read reports a failure that was prepared, or what is
   there. -/
theorem get_calmed (key : Key) :
    (c.get key).1.calmed = c.calmed ∧
      ((∃ e, (c.get key).2 = .error e) ∨
        (c.get key).2 = .ok (c.objects.get? key)) := by
  have hNone : c.terminating.get? key = none := by
    rw [show c.terminating = .empty from hPrompt.hTerminating,
      Registry.get?_empty]
  unfold get
  rcases c.takeFailure_cases .get key.name with
    ⟨e, hTaken⟩ | hTaken
  · rw [hTaken]
    exact ⟨rfl, .inl ⟨e, rfl⟩⟩
  · rw [hTaken]
    dsimp only
    rw [hNone]
    exact ⟨rfl, .inr rfl⟩

/- A creation reports a failure that was prepared, or acts as
   if there were none. -/
theorem create_calmed
    (kind space : String)
    (r : Resource) :
    ((∃ e, (c.create kind space r).2 = .error e) ∧
        (c.create kind space r).1.calmed = c.calmed) ∨
      ((c.create kind space r).1.calmed,
        (c.create kind space r).2) =
          c.calmed.create kind space r := by
  rcases c.takeFailure_cases .create r.name with
    ⟨e, hTaken⟩ | hTaken
  · left
    unfold create
    rw [hTaken]
    exact ⟨⟨e, rfl⟩, rfl⟩
  · right
    rw [create_of_untroubled hTaken, create_eq hPrompt]
    change _ = (if c.objects.contains ⟨kind, space, r.name⟩
      then _ else _)
    split
    · rfl
    · exact congrArg (Prod.mk · _) (calmed_added c _ _ _)

/- So does a deletion. -/
theorem delete_calmed (key : Key) :
    ((∃ e, (c.delete key).2 = .error e) ∧
        (c.delete key).1.calmed = c.calmed) ∨
      ((c.delete key).1.calmed, (c.delete key).2) =
        c.calmed.delete key := by
  rcases c.takeFailure_cases .delete key.name with
    ⟨e, hTaken⟩ | hTaken
  · left
    unfold delete
    rw [hTaken]
    exact ⟨⟨e, rfl⟩, rfl⟩
  · by_cases hThere : c.objects.contains key = true
    · right
      have hLag : c.lagOf key.name = 0 := hPrompt.hLags key.name
      rw [delete_of_untroubled hTaken hThere, hLag,
        delete_eq hPrompt]
      exact (congrArg (Prod.mk · _) (calmed_remove _ key)).trans
        (if_pos hThere).symm
    · left
      unfold delete
      rw [hTaken]
      dsimp only
      rw [if_neg hThere]
      exact ⟨⟨_, rfl⟩, rfl⟩

end Calls

/-
  A state holds a cluster that answers the calls about its
  objects, alone; before each of them, any failures may have
  been prepared.
-/
structure Troubled
    {σ : Type}
    (h : Handler σ)
    (view : σ → Cluster) : Prop where
  asks : ∀ s c, (Preview.Call.cluster c).isObject = true →
    ∃ failures,
      (view (h s (.cluster c)).1, (h s (.cluster c)).2) =
        ((view s).beset failures).perform c

/- A cluster in memory is one, whatever failures it has. -/
theorem InMemory.troubled
    {σ : Type}
    {h : Handler σ}
    {view : σ → Cluster}
    (hMemory : InMemory h view) :
    Troubled h view where
  asks s c hObject := by
    refine ⟨(view s).failures, ?_⟩
    cases c with
    | get key => exact hMemory.gets s key
    | create kind space r => exact hMemory.creates s kind space r
    | update kind space r => exact hMemory.updates s kind space r
    | delete key => exact hMemory.deletes s key
    | watch key => cases hObject

namespace Troubled

variable {σ : Type} {h : Handler σ} {view : σ → Cluster}
variable (hTroubled : Troubled h view)
variable {s : σ} (hPrompt : (view s).calmed.Prompt)

include hTroubled hPrompt

/- A read tells what is there, or fails. -/
theorem gets (key : Key) :
    (view (h s (.cluster (.get key))).1).calmed =
        (view s).calmed ∧
      ((∃ e, (h s (.cluster (.get key))).2 = .error e) ∨
        (h s (.cluster (.get key))).2 =
          .ok ((view s).objects.get? key)) := by
  rcases hTroubled.asks s (.get key) rfl with
    ⟨failures, hAsks⟩
  have hGet :=
    get_calmed (c := (view s).beset failures) hPrompt key
  change _ = ((view s).beset failures).get key at hAsks
  rw [← hAsks] at hGet
  exact hGet

/- A creation does what it would in the calmed cluster, or fails
   and does nothing. -/
theorem creates (kind space : String) (r : Resource) :
    ((∃ e, (h s (.cluster (.create kind space r))).2 =
          .error e) ∧
        (view (h s (.cluster (.create kind space r))).1).calmed =
          (view s).calmed) ∨
      ((view (h s (.cluster (.create kind space r))).1).calmed,
        (h s (.cluster (.create kind space r))).2) =
          (view s).calmed.create kind space r := by
  rcases hTroubled.asks s (.create kind space r) rfl with
    ⟨failures, hAsks⟩
  have hCreate := create_calmed
    (c := (view s).beset failures) hPrompt kind space r
  change _ = ((view s).beset failures).create kind space r
    at hAsks
  rw [← hAsks] at hCreate
  exact hCreate

/- So does a deletion. -/
theorem deletes (key : Key) :
    ((∃ e, (h s (.cluster (.delete key))).2 = .error e) ∧
        (view (h s (.cluster (.delete key))).1).calmed =
          (view s).calmed) ∨
      ((view (h s (.cluster (.delete key))).1).calmed,
        (h s (.cluster (.delete key))).2) =
          (view s).calmed.delete key := by
  rcases hTroubled.asks s (.delete key) rfl with
    ⟨failures, hAsks⟩
  have hDelete :=
    delete_calmed (c := (view s).beset failures) hPrompt key
  change _ = ((view s).beset failures).delete key at hAsks
  rw [← hAsks] at hDelete
  exact hDelete

end Troubled

end Cluster

------------------------------------------------------------
-- Steps
------------------------------------------------------------

/-
  What a deploy of a resource that stays does to a prompt
  cluster: it settles its object if it goes well, leaves it
  alone if it is as desired, and keeps all others.
-/
structure Advanced
    (r : Resource)
    (key : Key)
    (before after : Cluster)
    (result : Except StepError Unit) : Prop where
  hPrompt : after.Prompt
  hOther : ∀ other, other ≠ key →
    after.objects.get? other = before.objects.get? other
  hShown : result = .ok () → Shown r (after.objects.get? key)
  hKept : Shown r (before.objects.get? key) →
    after.objects.get? key = before.objects.get? key

/- A step that fails may have done nothing. -/
theorem Advanced.of_error
    {r : Resource}
    {key : Key}
    {c d : Cluster}
    (hPrompt : c.Prompt)
    (hSame : d = c)
    (e : StepError) :
    Advanced r key c d (.error e) := by
  rw [hSame]
  exact ⟨hPrompt, fun _ _ => rfl, fun h => (nomatch h),
    fun _ => rfl⟩

/- A creation settles an object that is not there. -/
theorem Advanced.of_create
    {ctx : Context}
    {r : Resource}
    {c d : Cluster}
    {reply : Except ClusterError Unit}
    (hPrompt : c.Prompt)
    (hAbsent : c.objects.get? (ctx.key r) = none)
    (hActs : (d, reply) = c.create r.kind ctx.space r) :
    Advanced r (ctx.key r) c d
      (reply.mapError StepError.cluster) := by
  have hCluster : d = (c.create r.kind ctx.space r).1 :=
    congrArg Prod.fst hActs
  have hReply : reply = (c.create r.kind ctx.space r).2 :=
    congrArg Prod.snd hActs
  have hFree : c.objects.contains (ctx.key r) = false := by
    unfold Registry.contains
    rw [hAbsent]
    rfl
  have hOk := (Cluster.objects_create hPrompt hFree).1
  subst hCluster hReply
  constructor
  · exact Cluster.create_prompt hPrompt r.kind ctx.space r
  · intro other hOther
    have hElse : other ≠ (World.subject
        (.create r.kind ctx.space r)).2 := hOther
    exact Cluster.objects_perform_other hPrompt hElse
  · intro _
    exact Cluster.objects_create_of_ok hPrompt hOk
  · rintro ⟨live, hLive, -⟩
    cases hAbsent.symm.trans hLive

/- What is not as desired may be deleted first. -/
theorem Advanced.after_delete
    {r : Resource}
    {key : Key}
    {c d : Cluster}
    {result : Except StepError Unit}
    (hPrompt : c.Prompt)
    (hChanged : ¬ Shown r (c.objects.get? key))
    (hAdvanced : Advanced r key (c.delete key).1 d result) :
    Advanced r key c d result where
  hPrompt := hAdvanced.hPrompt
  hOther := by
    intro other hOther
    rw [hAdvanced.hOther other hOther,
      Cluster.objects_delete hPrompt, if_neg hOther]
  hShown := hAdvanced.hShown
  hKept := fun hShown => absurd hShown hChanged

namespace Reconcile

section Deploys

variable {σ : Type} {h : Handler σ} {view : σ → Cluster}
variable (hTroubled : Cluster.Troubled h view)
variable (ctx : Context) (r : Resource)
variable {s : σ} (hPrompt : (view s).calmed.Prompt)

include hTroubled hPrompt

/- What is read is there, unless the read fails. -/
theorem get_yields :
    (ctx.get r).run.Yields h s fun _ result t =>
      (view t).calmed = (view s).calmed ∧
        ∀ live, result = .ok live →
          live = (view s).objects.get? (ctx.key r) := by
  rcases hTroubled.gets hPrompt (ctx.key r) with
    ⟨hSame, hRead⟩
  refine ⟨hSame, fun live hLive => ?_⟩
  change (h s (.cluster (.get (ctx.key r)))).2.mapError
    StepError.cluster = .ok live at hLive
  rcases hRead with ⟨e, hRead⟩ | hRead
  · rw [hRead] at hLive
    cases hLive
  · rw [hRead] at hLive
    cases hLive
    rfl

/- An object that is not there is created, unless that
   fails. -/
theorem create_advances
    (hAbsent : (view s).objects.get? (ctx.key r) = none) :
    (Context.asked (ctx.create r)).run.Yields h s
      fun _ result t =>
        Advanced r (ctx.key r) (view s).calmed (view t).calmed
          result := by
  change Advanced r (ctx.key r) (view s).calmed
    (view (h s (.cluster (.create r.kind ctx.space r))).1).calmed
    ((h s (.cluster (.create r.kind ctx.space r))).2.mapError
      StepError.cluster)
  rcases hTroubled.creates hPrompt r.kind ctx.space r with
    ⟨⟨e, hReply⟩, hSame⟩ | hActs
  · rw [hReply]
    exact .of_error hPrompt hSame _
  · exact .of_create hPrompt hAbsent hActs

/- Nothing is waited for when nothing is there. -/
theorem awaitGone_yields
    (hAbsent : (view s).objects.get? (ctx.key r) = none)
    (pauses : Nat) :
    (awaitGone ctx r pauses).run.Yields h s fun _ _ t =>
      (view t).calmed = (view s).calmed := by
  have hGet := get_yields hTroubled ctx r hPrompt
  cases pauses with
  | zero =>
      unfold awaitGone
      rw [Attempt.yields_bind]
      apply hGet.mono
      rintro xs (e | live) t ⟨hSame, hLive⟩
      · exact hSame
      · rw [hLive live rfl, hAbsent]
        exact hSame
  | succ pauses =>
      unfold awaitGone
      rw [Attempt.yields_bind]
      apply hGet.mono
      rintro xs (e | live) t ⟨hSame, hLive⟩
      · exact hSame
      · rw [hLive live rfl, hAbsent]
        exact hSame

/- A deletion fails, or its object is gone. -/
theorem delete_yields :
    (Context.asked (ctx.delete r)).run.Yields h s
      fun _ result t =>
        (view t).calmed = (view s).calmed ∧ result ≠ .ok () ∨
          (view t).calmed =
            ((view s).calmed.delete (ctx.key r)).1 := by
  change (view (h s (.cluster (.delete (ctx.key r)))).1).calmed =
      _ ∧ (h s (.cluster (.delete (ctx.key r)))).2.mapError
        StepError.cluster ≠ .ok () ∨ _
  rcases hTroubled.deletes hPrompt (ctx.key r) with
    ⟨⟨e, hReply⟩, hSame⟩ | hActs
  · rw [hReply]
    exact .inl ⟨hSame, fun h => (nomatch h)⟩
  · exact .inr (congrArg Prod.fst hActs)

/- A replacement of what is not as desired, whatever call of
   it fails. -/
theorem replace_advances
    (hChanged : ¬ Shown r
      ((view s).calmed.objects.get? (ctx.key r))) :
    (replace ctx r).run.Yields h s fun _ result t =>
      Advanced r (ctx.key r) (view s).calmed (view t).calmed
        result := by
  have hDeleted := Cluster.delete_prompt hPrompt (ctx.key r)
  unfold replace
  rw [Attempt.yields_bind]
  apply (delete_yields hTroubled ctx r hPrompt).mono
  rintro xs (e | _) t (⟨hKept, hFailed⟩ | hGone)
  · exact .of_error hPrompt hKept e
  · exact .after_delete hPrompt hChanged
      (.of_error hDeleted hGone e)
  · exact absurd rfl hFailed
  have hPrompt' : (view t).calmed.Prompt := hGone ▸ hDeleted
  have hAbsent : (view t).calmed.objects.get? (ctx.key r) =
      none := by
    rw [hGone, Cluster.objects_delete hPrompt, if_pos rfl]
  dsimp only
  rw [Attempt.yields_bind]
  apply (awaitGone_yields hTroubled ctx r hPrompt'
    hAbsent _).mono
  rintro ys (e | _) u hStill
  · exact .after_delete hPrompt hChanged
      (.of_error hDeleted (hStill.trans hGone) e)
  rw [← hStill] at hAbsent
  have hCreate := create_advances hTroubled ctx r
    (s := u) (hStill ▸ hPrompt') hAbsent
  rw [hStill, hGone] at hCreate
  exact hCreate.mono fun _ _ _ hDone =>
    .after_delete hPrompt hChanged hDone

/-
  A deploy of a resource that stays, whatever call of it
  fails.
-/
theorem deploy_advances :
    (deploy ctx r).run.Yields h s fun _ result t =>
      Advanced r (ctx.key r) (view s).calmed (view t).calmed
        result := by
  rw [deploy_eq, Attempt.yields_bind]
  apply (get_yields hTroubled ctx r hPrompt).mono
  rintro xs (e | live) t ⟨hSame, hLive⟩
  · exact .of_error hPrompt hSame e
  have hThere : live =
      (view s).calmed.objects.get? (ctx.key r) := hLive live rfl
  rw [← hSame] at hPrompt hThere ⊢
  cases live with
  | none =>
      exact create_advances hTroubled ctx r hPrompt hThere.symm
  | some live =>
      dsimp only
      by_cases hDesired : live.sameSpec r = true
      · rw [if_pos hDesired]
        exact ⟨hPrompt, fun _ _ => rfl,
          fun _ => ⟨live, hThere.symm, hDesired⟩, fun _ => rfl⟩
      · rw [if_neg hDesired]
        apply replace_advances hTroubled ctx r hPrompt
        rintro ⟨other, hOther, hSpec⟩
        cases hThere.trans hOther
        exact hDesired hSpec

end Deploys

end Reconcile

/- What is as desired, or not about a step, is kept. -/
theorem Advanced.keeps
    {r : Resource}
    {own key : Key}
    {c d : Cluster}
    {result : Except StepError Unit}
    (hAdvanced : Advanced r own c d result)
    (hShown : own = key → Shown r (c.objects.get? key)) :
    d.objects.get? key = c.objects.get? key := by
  by_cases hOwn : own = key
  · subst hOwn
    exact hAdvanced.hKept (hShown rfl)
  · exact hAdvanced.hOther key (Ne.symm hOwn)

------------------------------------------------------------
-- Coherent Plans
------------------------------------------------------------

namespace Plan

/- Steps of one label are about the same object, and want the
   same of it. -/
def Coherent (p : Plan) : Prop :=
  ∀ a ∈ p.steps, ∀ b ∈ p.steps, a.label = b.label →
    a.resource.kind = b.resource.kind ∧
      a.resource.name = b.resource.name ∧
      a.resource.sameSpec b.resource = true

theorem Coherent.mono
    {p q : Plan}
    (hCoherent : p.Coherent)
    (hSub : q.steps ⊆ p.steps) :
    q.Coherent :=
  fun a ha b hb => hCoherent a (hSub ha) b (hSub hb)

section Keys

variable {p : Plan} (hCoherent : p.Coherent) (ctx : Context)

include hCoherent

/- Labels tell apart what keys do. -/
theorem Coherent.label_eq_iff
    {a b : Step}
    (ha : a ∈ p.steps)
    (hb : b ∈ p.steps) :
    a.label = b.label ↔
      ctx.key a.resource = ctx.key b.resource := by
  constructor
  · intro hLabel
    rcases hCoherent a ha b hb hLabel with ⟨hKind, hName, -⟩
    unfold Context.key
    rw [hKind, hName]
  · exact Step.label_of_key ctx

/- Whatever one step has brought about, another one about the
   same object wants. -/
theorem Coherent.shown
    {a b : Step}
    (ha : a ∈ p.steps)
    (hb : b ∈ p.steps)
    (hKey : ctx.key a.resource = ctx.key b.resource)
    {object : Option Resource}
    (hShown : Shown a.resource object) :
    Shown b.resource object := by
  have hLabel := (hCoherent.label_eq_iff ctx ha hb).2 hKey
  rcases hShown with ⟨live, hLive, hSame⟩
  exact ⟨live, hLive,
    Resource.sameSpec_trans hSame
      (hCoherent a ha b hb hLabel).2.2⟩

/- The objects of the distinct steps are those of all steps,
   each once. -/
theorem Coherent.visited_eq :
    p.visited ctx = (p.keys ctx).eraseDups := by
  have hMap := map_distinct (fun s => ctx.key s.resource) []
    p.steps fun a ha b hb =>
      hCoherent.label_eq_iff ctx ha hb
  have hAll : (p.steps.map fun s => ctx.key s.resource).filter
      (fun key => !([] : List Key).contains key) =
        p.keys ctx :=
    List.filter_eq_self.2 fun _ _ => rfl
  unfold visited
  rw [← hAll]
  exact hMap

/- The distinct steps are about objects of their own. -/
theorem Coherent.distinct_keys :
    (distinct [] p.steps).Pairwise fun a b =>
      ctx.key a.resource ≠ ctx.key b.resource := by
  rcases distinct_fresh [] p.steps with ⟨hApart, hPlanned⟩
  refine hApart.imp_of_mem ?_
  intro a b ha hb hLabel hKey
  exact hLabel ((hCoherent.label_eq_iff ctx (hPlanned a ha).1
    (hPlanned b hb).1).2 hKey)

end Keys

------------------------------------------------------------
-- Deployed Plans
------------------------------------------------------------

section Deploying

variable {σ : Type} {h : Handler σ} {view : σ → Cluster}
variable (hTroubled : Cluster.Troubled h view)
variable {ctx : Context} {s t : σ}
variable (hPrompt : (view s).calmed.Prompt)

include hTroubled hPrompt

/- A step advances its object only, whatever comes of it. -/
theorem step_advances
    {step : Step}
    (hKind : step.kind = .resource)
    {result : Except StepError Unit}
    (hRun : eval h (step.deploy ctx).run s = (t, result)) :
    Advanced step.resource (ctx.key step.resource)
      (view s).calmed (view t).calmed result := by
  have hDeploy := Reconcile.deploy_advances hTroubled ctx
    step.resource hPrompt
  unfold Step.deploy at hRun
  rw [hKind] at hRun
  unfold Action.Yields at hDeploy
  rw [hRun] at hDeploy
  exact hDeploy

/-
  However a deploy ends, it keeps an object that all steps
  about it find as they want it.  By induction on the steps.
-/
theorem deploy_keeps
    {steps : List Step}
    (hStays : ∀ step ∈ steps, step.kind = .resource)
    {result : Except Error Unit}
    (hRun : eval h (deploy ctx ⟨steps⟩).run s = (t, result)) :
    (view t).calmed.Prompt ∧
      ∀ key,
        (∀ step ∈ steps, ctx.key step.resource = key →
          Shown step.resource ((view s).objects.get? key)) →
        (view t).objects.get? key =
          (view s).objects.get? key := by
  induction steps generalizing s with
  | nil =>
      cases hRun
      exact ⟨hPrompt, fun _ _ => rfl⟩
  | cons step rest ih =>
      rw [deploy_cons] at hRun
      rcases hStep : eval h (step.deploy ctx).run s with
        ⟨u, cause | ⟨⟩⟩
      · have hAdvanced := step_advances hTroubled hPrompt
          (hStays step (.head _)) hStep
        rw [Attempt.eval_bind_of_error
          (eval_failing_of_error hStep)] at hRun
        cases hRun
        exact ⟨hAdvanced.hPrompt, fun key hShown =>
          hAdvanced.keeps (hShown step (.head _))⟩
      · have hAdvanced := step_advances hTroubled hPrompt
          (hStays step (.head _)) hStep
        rw [Attempt.eval_bind_of_ok (eval_failing_of_ok hStep)]
          at hRun
        rcases ih hAdvanced.hPrompt
          (fun other hOther => hStays other (.tail _ hOther))
          hRun with ⟨hPrompt', hKept⟩
        refine ⟨hPrompt', fun key hShown => ?_⟩
        have hFirst : (view u).objects.get? key =
            (view s).objects.get? key :=
          hAdvanced.keeps (hShown step (.head _))
        refine (hKept key fun other hOther hKey => ?_).trans
          hFirst
        rw [hFirst]
        exact hShown other (.tail _ hOther) hKey

/-
  A deploy that goes well leaves the objects of all its steps
  as these want them.  By induction on the steps: what the
  first one has brought about, the others keep.
-/
theorem deploy_shows
    {steps : List Step}
    (hStays : ∀ step ∈ steps, step.kind = .resource)
    (hCoherent : Coherent ⟨steps⟩)
    (hDone : eval h (deploy ctx ⟨steps⟩).run s = (t, .ok ())) :
    ∀ step ∈ steps,
      Shown step.resource
        ((view t).objects.get? (ctx.key step.resource)) := by
  induction steps generalizing s with
  | nil => simp
  | cons first rest ih =>
      rw [deploy_cons] at hDone
      rcases hStep : eval h (first.deploy ctx).run s with
        ⟨u, cause | ⟨⟩⟩
      · rw [Attempt.eval_bind_of_error
          (eval_failing_of_error hStep)] at hDone
        cases hDone
      · have hAdvanced := step_advances hTroubled hPrompt
          (hStays first (.head _)) hStep
        have hRest : ∀ step ∈ rest, step.kind = .resource :=
          fun step hStep => hStays step (.tail _ hStep)
        rw [Attempt.eval_bind_of_ok (eval_failing_of_ok hStep)]
          at hDone
        have hFirst := hAdvanced.hShown rfl
        have hKept := (deploy_keeps hTroubled hAdvanced.hPrompt
          hRest hDone).2 (ctx.key first.resource)
          fun other hOther hKey =>
            hCoherent.shown ctx (.head _) (.tail _ hOther)
              hKey.symm hFirst
        intro step hMem
        rcases List.mem_cons.1 hMem with rfl | hMem
        · rw [hKept]
          exact hFirst
        · exact ih hAdvanced.hPrompt hRest
            (hCoherent.mono fun _ h => .tail _ h) hDone step hMem

/- A deploy that fails at some step leaves the objects of all
   steps before it as these want them. -/
theorem deploy_error_shows
    {p : Plan}
    (hStays : ∀ step ∈ p.steps, step.kind = .resource)
    (hCoherent : p.Coherent)
    {e : Error}
    (hRun : eval h (p.deploy ctx).run s = (t, .error e)) :
    ∃ before step rest v cause,
      p.steps = before ++ step :: rest ∧
      eval h (deploy ctx ⟨before⟩).run s = (v, .ok ()) ∧
      eval h (step.deploy ctx).run v = (t, .error cause) ∧
      e = .step step.label cause ∧
      ∀ b ∈ before,
        Shown b.resource
          ((view t).objects.get? (ctx.key b.resource)) := by
  rcases deploy_error hRun with
    ⟨before, step, rest, v, cause, hSteps, hBefore, hStep,
      hError⟩
  have hSub : before ⊆ p.steps := by
    rw [hSteps]
    exact List.subset_append_left _ _
  have hMem : step ∈ p.steps := by
    rw [hSteps]
    simp
  have hEarly : ∀ b ∈ before, b.kind = .resource :=
    fun b hb => hStays b (hSub hb)
  have hAdvanced := step_advances hTroubled
    (deploy_keeps hTroubled hPrompt hEarly hBefore).1
    (hStays step hMem) hStep
  refine ⟨before, step, rest, v, cause, hSteps, hBefore, hStep,
    hError, fun b hb => ?_⟩
  have hShown := deploy_shows hTroubled hPrompt hEarly
    (hCoherent.mono hSub) hBefore b hb
  have hSame := hAdvanced.keeps fun hKey =>
    hCoherent.shown ctx (hSub hb) hMem hKey.symm hShown
  change (view t).objects.get? _ =
    (view v).objects.get? _ at hSame
  rw [hSame]
  exact hShown

end Deploying

------------------------------------------------------------
-- Destroyed Plans
------------------------------------------------------------

/- The exchange that removes an object. -/
def removal (key : Key) : Exchange :=
  ⟨.cluster (.delete key), Except.ok ()⟩

section Destroying

variable {σ : Type} {g : Handler σ} {view : σ → Cluster}
variable (hMemory : InMemory g view)
variable (ctx : Context)

include hMemory

/-
  A destroy removes the objects of its first steps if they are
  there, and goes on with the others.  By induction on these
  steps: their objects are distinct.
-/
theorem destroyAll_present
    (steps rest : List Step)
    (hApart : steps.Pairwise fun a b =>
      ctx.key a.resource ≠ ctx.key b.resource)
    {start : σ}
    (hPrompt : (view start).Prompt)
    (hPresent : ∀ step ∈ steps,
      (view start).objects.contains (ctx.key step.resource) =
        true) :
    ((steps ++ rest).forM fun s =>
        failing s (s.destroy ctx)).run.Yields g start
      fun xs r _ => ∃ ys,
        xs = steps.map (fun s =>
          removal (ctx.key s.resource)) ++ ys ∧
        Destroys ctx rest ys r := by
  induction steps generalizing start with
  | nil =>
      apply (destroyAll_runs g ctx rest start).mono
      intro xs r _ hRest
      exact ⟨xs, rfl, hRest⟩
  | cons step steps ih =>
      change (failing step (step.destroy ctx) >>= fun _ =>
        (steps ++ rest).forM fun s =>
          failing s (s.destroy ctx)).run.Yields _ _ _
      rw [Attempt.yields_bind, failing_destroy_run,
        Action.yields_call]
      -- its own object is there and goes; the others have other
      -- keys and stay
      have hThere := hPresent step (.head _)
      have hPrompt' := hMemory.prompt_call hPrompt
        (.cluster (.delete (ctx.key step.resource)))
      have hDelete :=
        hMemory.deletes start (ctx.key step.resource)
      have hReply := congrArg Prod.snd hDelete
      have hView := congrArg Prod.fst hDelete
      have hObjects := Cluster.objects_delete hPrompt
        (ctx.key step.resource)
      rw [← hView] at hObjects
      rw [Cluster.delete_eq hPrompt, if_pos hThere] at hReply
      generalize g start (.cluster (.delete
        (ctx.key step.resource))) = outcome
        at hPrompt' hReply hObjects
      rcases outcome with ⟨t, reply⟩
      cases hReply
      rcases List.pairwise_cons.1 hApart with ⟨hFirst, hApart⟩
      have hRest := ih hApart hPrompt' fun other hOther => by
        unfold Registry.contains
        rw [hObjects, if_neg (hFirst other hOther).symm]
        exact hPresent other (.tail _ hOther)
      rw [Step.removed_ok]
      rcases hRest with ⟨ys, hXs, hDestroys⟩
      exact ⟨ys, congrArg (removal _ :: ·) hXs, hDestroys⟩

/- A destroy removes the objects of all steps that have what
   they want, before it goes on. -/
theorem destroy_finds
    {p : Plan}
    (hCoherent : p.Coherent)
    {before later : List Step}
    (hSub : before ⊆ p.steps)
    (hLater :
      distinct [] before ++ later = distinct [] p.steps)
    {start : σ}
    (hPrompt : (view start).Prompt)
    (hShown : ∀ step ∈ before,
      Shown step.resource
        ((view start).objects.get?
          (ctx.key step.resource))) :
    (p.destroy ctx).run.Yields g start fun xs r _ => ∃ ys,
      xs = (keys ctx ⟨before⟩).eraseDups.map removal ++ ys ∧
        Destroys ctx later ys r := by
  have hBefore : Coherent ⟨before⟩ := hCoherent.mono hSub
  have hPresent : ∀ step ∈ distinct [] before,
      (view start).objects.contains (ctx.key step.resource) =
        true := by
    intro step hStep
    rcases hShown step
      ((distinct_fresh [] before).2 step hStep).1 with
      ⟨live, hLive, -⟩
    unfold Registry.contains
    rw [hLive]
    rfl
  have hRun := destroyAll_present hMemory ctx
    (distinct [] before) later (hBefore.distinct_keys ctx)
    hPrompt hPresent
  rw [hLater] at hRun
  apply hRun.mono
  rintro xs r _ ⟨ys, hXs, hDestroys⟩
  refine ⟨ys, ?_, hDestroys⟩
  rw [hXs, ← hBefore.visited_eq ctx]
  unfold visited
  rw [List.map_map]
  rfl

/- What the plan does not name is kept. -/
theorem destroy_keeps
    (p : Plan)
    {start : σ}
    (hPrompt : (view start).Prompt)
    {key : Key}
    (hOutside : key ∉ p.keys ctx) :
    (p.destroy ctx).run.Yields g start fun _ _ t =>
      (view t).objects.get? key =
        (view start).objects.get? key := by
  have hOther (c : Call)
      (hFor : ∃ own ∈ p.keys ctx, c.IsFor own) :
      ∃ own, c.IsFor own ∧ key ≠ own := by
    rcases hFor with ⟨own, hOwn, hFor⟩
    exact ⟨own, hFor, fun hSame => hOutside (hSame ▸ hOwn)⟩
  have hKept := (hMemory.reporting []).kept_of_leads
    (p.destroy_for ctx) hOther hPrompt
  exact hKept.eq_of_not_mem (List.not_mem_nil)

end Destroying

/- The calls of a destroy are about the objects of the plan, in
   order, each once. -/
theorem Coherent.calls_eq
    {p : Plan}
    (hCoherent : p.Coherent)
    {ctx : Context}
    {xs : List Exchange}
    {r : Except Error Unit}
    (hDestroys : Destroys ctx (distinct [] p.steps) xs r) :
    xs.map Exchange.call =
      ((p.keys ctx).eraseDups.take xs.length).map fun key =>
        .cluster (.delete key) := by
  rw [hDestroys.calls_eq, ← hCoherent.visited_eq ctx]
  unfold visited
  rw [← List.map_take, List.map_map]
  rfl

/-
  A coherent plan of resources that stay is deployed to a
  cluster in which nothing lingers, alone.  Failures may be
  prepared before any call; since a deploy stops with the first
  call that fails, no more than one is met.  Then the plan is
  destroyed, and no failure is left.

  If the deploy went well, the destroy goes well, removes each
  object of the plan once, in the order of the first
  occurrence, and leaves the other objects that were there.  If
  the deploy failed at some step, the destroy first removes the
  objects of all steps before it, each once and in order; its
  calls are about objects of the plan, each at most once, and
  all other objects are as they were.
-/
theorem destroy_undoes
    {σ : Type}
    {h g : Handler σ}
    {view : σ → Cluster}
    (hTroubled : Cluster.Troubled h view)
    (hMemory : InMemory g view)
    {ctx : Context}
    {p : Plan}
    (hStays : ∀ step ∈ p.steps, step.kind = .resource)
    (hCoherent : p.Coherent)
    {s t : σ}
    (hTerminating : (view s).terminating = .empty)
    (hLags : ∀ name, (view s).lagOf name = 0)
    {result : Except Error Unit}
    (hRun : eval h (p.deploy ctx).run s = (t, result))
    (hUnarmed : (view t).failures = .empty) :
    (p.destroy ctx).run.Yields g t fun xs destroyed u =>
      match result with
      | .ok () =>
          destroyed = .ok () ∧
            xs = (p.keys ctx).eraseDups.map removal ∧
            ∀ key, (view u).objects.get? key =
              if key ∈ p.keys ctx then none
              else (view s).objects.get? key
      | .error e =>
          ∃ before step rest v cause,
            p.steps = before ++ step :: rest ∧
            eval h (deploy ctx ⟨before⟩).run s = (v, .ok ()) ∧
            eval h (step.deploy ctx).run v =
              (t, .error cause) ∧
            e = .step step.label cause ∧
            (∃ ys, xs =
              (keys ctx ⟨before⟩).eraseDups.map removal ++
                ys) ∧
            xs.map Exchange.call =
              ((p.keys ctx).eraseDups.take xs.length).map
                (fun key => .cluster (.delete key)) ∧
            ∀ key, key ∉ p.keys ctx →
              (view u).objects.get? key =
                (view s).objects.get? key := by
  have hPrompt : (view s).calmed.Prompt :=
    ⟨rfl, hTerminating, hLags⟩
  rcases deploy_keeps hTroubled hPrompt hStays hRun with
    ⟨hPrompt', hKept⟩
  rw [Cluster.calmed_of_calm hUnarmed] at hPrompt'
  have hOutside (key : Key) (hOutside : key ∉ p.keys ctx) :
      (view t).objects.get? key =
        (view s).objects.get? key := by
    apply hKept
    intro step hStep hKey
    exact absurd (hKey ▸ List.mem_map_of_mem hStep) hOutside
  -- a deploy that went well has left every object there; one
  -- that failed, those of the steps before
  cases result with
  | ok _ =>
      have hRuns := destroy_finds hMemory ctx hCoherent
        (List.Subset.refl _) (List.append_nil _) hPrompt'
        (deploy_shows hTroubled hPrompt hStays hCoherent hRun)
      have hGone := (p.destroy_yields hMemory ctx hPrompt').2
      rcases hRuns with ⟨ys, hXs, hDone⟩
      unfold Action.Yields
      generalize eval g (p.destroy ctx).run t = ended
        at hDone hGone ⊢
      rcases ended with ⟨u, destroyed⟩
      cases hDone
      refine ⟨rfl, by simpa using hXs, fun key => ?_⟩
      rw [hGone rfl key, hCoherent.visited_eq ctx]
      simp only [List.mem_eraseDups]
      by_cases hKey : key ∈ p.keys ctx
      · rw [if_pos hKey, if_pos hKey]
      · rw [if_neg hKey, if_neg hKey]
        exact hOutside key hKey
  | error e =>
      rcases deploy_error_shows hTroubled hPrompt hStays
        hCoherent hRun with
        ⟨before, step, rest, v, cause, hSteps, hBefore, hStep,
          hError, hShown⟩
      have hSub : before ⊆ p.steps := by
        rw [hSteps]
        exact List.subset_append_left _ _
      rcases distinct_prefix [] before (step :: rest) with
        ⟨later, hLater⟩
      rw [← hSteps] at hLater
      rcases destroy_finds hMemory ctx hCoherent hSub hLater
        hPrompt' hShown with ⟨ys, hXs, -⟩
      refine ⟨before, step, rest, v, cause, hSteps, hBefore,
        hStep, hError, ⟨ys, hXs⟩, ?_, fun key hKey => ?_⟩
      · exact hCoherent.calls_eq (p.destroy_runs g ctx t)
      · exact (destroy_keeps hMemory ctx p hPrompt' hKey).trans
          (hOutside key hKey)

/- Two resources that stay, and a world in which the second
   of them cannot be created once. -/
def apps : Plan :=
  ⟨[⟨.resource, .plain "v1" "ConfigMap" "a"⟩,
    ⟨.resource, .plain "v1" "ConfigMap" "b"⟩]⟩

/- One object is there already, and another will not be
   created. -/
def appsWorld : World :=
  { (default : World) with
    cluster :=
      (Cluster.empty.insert "previews"
        (.plain "v1" "ConfigMap" "old")).fail .create "b"
          (.api "refused") }

/- The destroy removes what the first step has created. -/
theorem destroy_undoes_apps :
    ∃ t e,
      eval World.perform (apps.deploy ⟨"previews", {}, 0⟩).run
          appsWorld = (t, .error e) ∧
        (apps.destroy ⟨"previews", {}, 0⟩).run.Yields
          World.perform t fun xs _ u =>
            (∃ ys, xs =
              removal ⟨"ConfigMap", "previews", "a"⟩ :: ys) ∧
            u.cluster.objects.get?
                ⟨"ConfigMap", "previews", "old"⟩ =
              appsWorld.cluster.objects.get?
                ⟨"ConfigMap", "previews", "old"⟩ := by
  have hFails :
      (eval World.perform (apps.deploy ⟨"previews", {}, 0⟩).run
        appsWorld).2.isOk = false := by
    decide +kernel
  have hUsed :
      (eval World.perform (apps.deploy ⟨"previews", {}, 0⟩).run
        appsWorld).1.cluster.failures.size = 0 := by
    decide +kernel
  have hFirst :
      (eval World.perform
        (Step.deploy ⟨"previews", {}, 0⟩
          ⟨.resource, .plain "v1" "ConfigMap" "a"⟩).run
        appsWorld).2.isOk = true := by
    decide +kernel
  have hStays : ∀ step ∈ apps.steps, step.kind = .resource := by
    simp [apps]
  have hCoherent : apps.Coherent := by
    unfold Coherent
    decide +kernel
  rcases hRun : eval World.perform
      (apps.deploy ⟨"previews", {}, 0⟩).run appsWorld with
    ⟨t, e | _⟩
  · rw [hRun] at hUsed
    have hUndoes := destroy_undoes
      World.perform_inMemory.troubled World.perform_inMemory
      hStays hCoherent rfl (fun _ => rfl) hRun
      (List.eq_nil_of_length_eq_zero hUsed)
    refine ⟨t, e, rfl, hUndoes.mono ?_⟩
    rintro xs _ u ⟨before, step, rest, v, cause, hSteps, hBefore,
      hStep, -, ⟨ys, hXs⟩, -, hOutside⟩
    refine ⟨?_, hOutside _ (by decide)⟩
    rcases before with - | ⟨first, before⟩
    · cases hSteps
      cases hBefore
      rw [hStep] at hFirst
      cases hFirst
    · cases (List.cons.inj hSteps).1
      rw [hXs]
      change ∃ zs, ((_ :: _ : List Key).eraseDups.map removal) ++
        ys = _
      rw [List.eraseDups_cons]
      exact ⟨_, rfl⟩
  · rw [hRun] at hFails
    cases hFails

end Plan

end Preview
