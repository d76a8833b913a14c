import Preview.Proofs.Journal
import Preview.Proofs.Undoing

/-
  What a deploy changes, and that a second one changes
  nothing.

  A step creates its object if it is not there, replaces it if
  it asks for something else, and leaves it alone if it is as
  desired; then it is.  Steps that agree on what they want of
  an object find it settled by the first of them, and so does
  every step of a second deploy.

  Main declarations:
    * `Resource.remedy`
    * `Remedied` and `Reconcile.deploy_remedies`
    * `Plan.Agreed`
    * `Plan.deploy_settled`
    * `Plan.deploy_remedies`
    * `Plan.deploy_again`
-/

namespace Preview

open Preview.Action (Handler)
open Cluster (InMemory Journals)

------------------------------------------------------------
-- Steps
------------------------------------------------------------

/- What is to be changed for an object to be as desired. -/
def Resource.remedy (r : Resource) (key : Key) :
    Option Resource → List Mutation
  | none => [⟨.create, key⟩]
  | some live =>
      if live.sameSpec r then []
      else [⟨.delete, key⟩, ⟨.create, key⟩]

/- Nothing is to be changed about what is as desired. -/
theorem Shown.remedy
    {r : Resource}
    {object : Option Resource}
    (hShown : Shown r object)
    (key : Key) :
    r.remedy key object = [] := by
  rcases hShown with ⟨live, rfl, hSame⟩
  exact if_pos hSame

/- All that is to be changed is about one object. -/
theorem Resource.key_of_remedy
    {r : Resource}
    {key : Key}
    {object : Option Resource}
    {m : Mutation}
    (hChange : m ∈ r.remedy key object) :
    m.key = key := by
  unfold remedy at hChange
  split at hChange
  · rw [List.mem_singleton.1 hChange]
  · split at hChange
    · cases hChange
    · rcases List.mem_pair.1 hChange with rfl | rfl <;> rfl

/-
  What a step does to a prompt cluster: it changes what is to
  be changed of its object, which then is as desired, and
  keeps all others.  It does nothing if its object is as
  desired.
-/
structure Remedied
    (r : Resource)
    (key : Key)
    (before after : Cluster)
    (ms : List Mutation) : Prop where
  hPrompt : after.Prompt
  hOther : ∀ other, other ≠ key →
    after.objects.get? other = before.objects.get? other
  hShown : Shown r (after.objects.get? key)
  hChanges : ms = r.remedy key (before.objects.get? key)
  hJournals : Journals before ms after
  hSettled : Shown r (before.objects.get? key) → after = before

namespace Remedied

variable {r : Resource} {key : Key} {c d : Cluster}
variable {ms : List Mutation}

/- Where an object asks for the same, nothing is to be done. -/
theorem of_shown
    (hPrompt : c.Prompt)
    (hShown : Shown r (c.objects.get? key)) :
    Remedied r key c c [] :=
  ⟨hPrompt, fun _ _ => rfl, hShown, (hShown.remedy key).symm,
    .refl c, fun _ => rfl⟩

/- Where no object is, one creation is a remedy. -/
theorem of_create
    {ctx : Context}
    (hPrompt : c.Prompt)
    (hAbsent : c.objects.get? (ctx.key r) = none) :
    (c.create r.kind ctx.space r).2 = .ok () ∧
      Remedied r (ctx.key r) c (c.create r.kind ctx.space r).1
        [⟨.create, ctx.key r⟩] := by
  have hFree : c.objects.contains (ctx.key r) = false := by
    unfold Registry.contains
    rw [hAbsent]
    rfl
  have hOk := (Cluster.objects_create hPrompt hFree).1
  have hJournals := c.create_journals r.kind ctx.space r
  rw [hOk] at hJournals
  refine ⟨hOk, ?_⟩
  constructor
  · exact Cluster.create_prompt hPrompt r.kind ctx.space r
  · intro other hOther
    have hElse : other ≠ (World.subject
        (.create r.kind ctx.space r)).2 := hOther
    exact Cluster.objects_perform_other hPrompt hElse
  · exact Cluster.objects_create_of_ok hPrompt hOk
  · rw [hAbsent]
    rfl
  · exact hJournals
  · rintro ⟨live, hLive, -⟩
    cases hAbsent.symm.trans hLive

/- What asks for something else is deleted first. -/
theorem after_delete
    (hPrompt : c.Prompt)
    {live : Resource}
    (hLive : c.objects.get? key = some live)
    (hOther : live.sameSpec r = false)
    (hRemedied : Remedied r key (c.delete key).1 d
      [⟨.create, key⟩]) :
    Remedied r key c d [⟨.delete, key⟩, ⟨.create, key⟩] := by
  have hThere : c.objects.contains key = true := by
    unfold Registry.contains
    rw [hLive]
    rfl
  have hJournals := c.delete_journals key
  rw [Cluster.delete_eq hPrompt, if_pos hThere] at hJournals
  rw [Cluster.delete_eq hPrompt, if_pos hThere] at hRemedied
  constructor
  · exact hRemedied.hPrompt
  · intro other hElse
    have hKept := Cluster.objects_delete hPrompt key other
    rw [Cluster.delete_eq hPrompt, if_pos hThere,
      if_neg hElse] at hKept
    exact (hRemedied.hOther other hElse).trans hKept
  · exact hRemedied.hShown
  · rw [hLive]
    exact (if_neg (by rw [hOther]; decide)).symm
  · exact hJournals.trans hRemedied.hJournals
  · rintro ⟨other, hFound, hSame⟩
    cases hLive.symm.trans hFound
    rw [hOther] at hSame
    cases hSame

end Remedied

namespace Reconcile

section Deploys

variable {σ : Type} {h : Handler σ} {view : σ → Cluster}
variable (hMemory : InMemory h view)
variable (ctx : Context) (r : Resource)
variable {s : σ} (hPrompt : (view s).Prompt)

include hMemory hPrompt

/- A read changes nothing and tells what is there. -/
theorem get_shows :
    (ctx.get r).run.Yields h s fun xs result t =>
      changes xs = [] ∧
        view t = view s ∧
        result = .ok ((view s).objects.get? (ctx.key r)) := by
  have hGet := hMemory.gets s (ctx.key r)
  rw [Cluster.get_prompt hPrompt] at hGet
  have hReply := congrArg Prod.snd hGet
  refine ⟨rfl, congrArg Prod.fst hGet, ?_⟩
  change (h s (.cluster (.get (ctx.key r)))).2.mapError
    StepError.cluster = _
  rw [hReply]
  rfl

/- Nothing is waited for when nothing is there. -/
theorem awaitGone_finds
    (hAbsent : (view s).objects.get? (ctx.key r) = none)
    (pauses : Nat) :
    (awaitGone ctx r pauses).run.Yields h s fun xs result t =>
      changes xs = [] ∧ view t = view s ∧ result = .ok () := by
  have hGet := get_shows hMemory ctx r hPrompt
  rw [hAbsent] at hGet
  rw [awaitGone_eq, Attempt.yields_bind]
  apply hGet.mono
  rintro xs _ t ⟨hNone, hSame, rfl⟩
  refine ⟨?_, hSame, rfl⟩
  rw [changes_append, hNone]
  rfl

/- Creating what is absent is a remedy. -/
theorem create_remedies
    (hAbsent : (view s).objects.get? (ctx.key r) = none) :
    (Context.asked (ctx.create r)).run.Yields h s
      fun xs result t =>
        changes xs = [⟨.create, ctx.key r⟩] ∧
          result = .ok () ∧
          Remedied r (ctx.key r) (view s) (view t)
            (changes xs) := by
  have hCreate := hMemory.creates s r.kind ctx.space r
  have hDone := Remedied.of_create hPrompt hAbsent
  rw [← hCreate] at hDone
  refine ⟨rfl, ?_, hDone.2⟩
  change (h s (.cluster (.create r.kind ctx.space r))).2.mapError
    StepError.cluster = _
  rw [hDone.1]
  rfl

/- What is there can be deleted. -/
theorem delete_shows
    (hThere : (view s).objects.contains (ctx.key r) = true) :
    (Context.asked (ctx.delete r)).run.Yields h s
      fun xs result t =>
        changes xs = [⟨.delete, ctx.key r⟩] ∧
          result = .ok () ∧
          view t = ((view s).delete (ctx.key r)).1 := by
  have hDelete := hMemory.deletes s (ctx.key r)
  have hReply := congrArg Prod.snd hDelete
  rw [Cluster.delete_eq hPrompt, if_pos hThere] at hReply
  refine ⟨rfl, ?_, congrArg Prod.fst hDelete⟩
  change (h s (.cluster (.delete (ctx.key r)))).2.mapError
    StepError.cluster = _
  rw [hReply]
  rfl

/- What asks for something else is replaced at once. -/
theorem replace_remedies
    {live : Resource}
    (hLive : (view s).objects.get? (ctx.key r) = some live)
    (hOther : live.sameSpec r = false) :
    (replace ctx r).run.Yields h s fun xs result t =>
      result = .ok () ∧
        Remedied r (ctx.key r) (view s) (view t)
          (changes xs) := by
  have hThere : (view s).objects.contains (ctx.key r) =
      true := by
    unfold Registry.contains
    rw [hLive]
    rfl
  have hDeleted := Cluster.delete_prompt hPrompt (ctx.key r)
  have hAbsent := Cluster.objects_delete hPrompt (ctx.key r)
    (ctx.key r)
  rw [if_pos rfl] at hAbsent
  unfold replace
  rw [Attempt.yields_bind]
  apply (delete_shows hMemory ctx r hPrompt hThere).mono
  rintro xs _ t ⟨hFirst, rfl, hView⟩
  rw [← hView] at hDeleted hAbsent
  dsimp only
  rw [Attempt.yields_bind]
  apply (awaitGone_finds hMemory ctx r hDeleted hAbsent _).mono
  rintro ys _ u ⟨hNone, hSame, rfl⟩
  rw [← hSame] at hDeleted hAbsent
  apply (create_remedies hMemory ctx r hDeleted hAbsent).mono
  rintro zs _ v ⟨hLast, rfl, hRemedied⟩
  refine ⟨rfl, ?_⟩
  rw [hSame, hView, hLast] at hRemedied
  rw [changes_append, changes_append, hFirst, hNone, hLast]
  exact .after_delete hPrompt hLive hOther hRemedied

/- A step goes well and settles its object. -/
theorem deploy_remedies :
    (deploy ctx r).run.Yields h s fun xs result t =>
      result = .ok () ∧
        Remedied r (ctx.key r) (view s) (view t)
          (changes xs) := by
  rw [deploy_eq, Attempt.yields_bind]
  apply (get_shows hMemory ctx r hPrompt).mono
  rintro xs _ t ⟨hNone, hSame, rfl⟩
  have hPrompt' : (view t).Prompt := hSame ▸ hPrompt
  have hAll (ys : List Exchange) :
      changes (xs ++ ys) = changes ys := by
    rw [changes_append, hNone]
    rfl
  rw [← hSame]
  dsimp only
  cases hFound : (view t).objects.get? (ctx.key r) with
  | none =>
      apply (create_remedies hMemory ctx r hPrompt'
        hFound).mono
      rintro ys _ u ⟨-, rfl, hRemedied⟩
      rw [hAll]
      exact ⟨rfl, hRemedied⟩
  | some live =>
      dsimp only
      by_cases hDesired : live.sameSpec r = true
      · rw [if_pos hDesired]
        refine ⟨rfl, ?_⟩
        rw [hAll]
        exact .of_shown hPrompt' ⟨live, hFound, hDesired⟩
      · rw [if_neg hDesired]
        apply (replace_remedies hMemory ctx r hPrompt' hFound
          (by simpa using hDesired)).mono
        rintro ys _ u ⟨rfl, hRemedied⟩
        rw [hAll]
        exact ⟨rfl, hRemedied⟩

end Deploys

end Reconcile

------------------------------------------------------------
-- Plans
------------------------------------------------------------

namespace Plan

/- Steps about one object want the same of it. -/
def Agreed (p : Plan) : Prop :=
  ∀ a ∈ p.steps, ∀ b ∈ p.steps,
    a.resource.kind = b.resource.kind →
      a.resource.name = b.resource.name →
        a.resource.sameSpec b.resource = true

/- What is to be changed of an object, as the first step about
   it has it. -/
def remedy
    (p : Plan)
    (ctx : Context)
    (key : Key)
    (object : Option Resource) : List Mutation :=
  match p.steps.find? fun s => ctx.key s.resource = key with
  | some step => step.resource.remedy key object
  | none => []

/- An object is remedied by the first step on it. -/
theorem remedy_cons
    (first : Step)
    (rest : List Step)
    (ctx : Context)
    (key : Key)
    (object : Option Resource) :
    remedy ⟨first :: rest⟩ ctx key object =
      if ctx.key first.resource = key then
        first.resource.remedy key object
      else remedy ⟨rest⟩ ctx key object := by
  unfold remedy
  rw [List.find?_cons]
  by_cases hKey : ctx.key first.resource = key
  · rw [if_pos hKey, decide_eq_true hKey]
  · rw [if_neg hKey, decide_eq_false hKey]

/- What a plan does to a prompt cluster: it changes of every
   object what is to be changed, and then has what it wants. -/
structure Upheld
    (p : Plan)
    (ctx : Context)
    (before after : Cluster)
    (ms : List Mutation) : Prop where
  hPrompt : after.Prompt
  hJournals : Journals before ms after
  hOutside : ∀ key, key ∉ p.keys ctx →
    after.objects.get? key = before.objects.get? key
  hShown : ∀ step ∈ p.steps,
    Shown step.resource
      (after.objects.get? (ctx.key step.resource))
  hChanges : ∀ key,
    ms.filter (fun m => m.key = key) =
      p.remedy ctx key (before.objects.get? key)

section Agreement

variable {p : Plan} (hAgreed : p.Agreed)

include hAgreed

theorem Agreed.tail
    {first : Step}
    {rest : List Step}
    (hSteps : p.steps = first :: rest) :
    Agreed ⟨rest⟩ := by
  intro a ha b hb
  apply hAgreed a _ b
  · rw [hSteps]
    exact .tail _ hb
  · rw [hSteps]
    exact .tail _ ha

variable {ctx : Context} {a b : Step}
variable (ha : a ∈ p.steps) (hb : b ∈ p.steps)
variable (hKey : ctx.key a.resource = ctx.key b.resource)

include ha hb hKey

/- What shows one of two steps on an object shows the other. -/
theorem Agreed.shown
    {object : Option Resource}
    (hShown : Shown a.resource object) :
    Shown b.resource object := by
  rcases Key.mk.inj hKey with ⟨hKind, -, hName⟩
  rcases hShown with ⟨live, hLive, hSame⟩
  exact ⟨live, hLive,
    Resource.sameSpec_trans hSame
      (hAgreed a ha b hb hKind hName)⟩

/- They also agree on what is to be changed of it. -/
theorem Agreed.remedy_eq (object : Option Resource) :
    a.resource.remedy (ctx.key a.resource) object =
      b.resource.remedy (ctx.key b.resource) object := by
  rw [hKey]
  cases object with
  | none => rfl
  | some live =>
      have hIff : live.sameSpec a.resource = true ↔
          live.sameSpec b.resource = true := by
        constructor
        · intro hSame
          rcases hAgreed.shown ha hb hKey ⟨live, rfl, hSame⟩
            with ⟨_, hLive, hSame⟩
          cases hLive
          exact hSame
        · intro hSame
          rcases hAgreed.shown hb ha hKey.symm
            ⟨live, rfl, hSame⟩ with ⟨_, hLive, hSame⟩
          cases hLive
          exact hSame
      unfold Resource.remedy
      simp only [hIff]

end Agreement

section Deploys

variable {σ : Type} {h : Handler σ} {view : σ → Cluster}
variable (hMemory : InMemory h view)
variable {ctx : Context}

include hMemory

/- A step remedies its object and no other. -/
theorem step_remedies
    {step : Step}
    (hStays : step.kind = .resource)
    {s : σ}
    (hPrompt : (view s).Prompt) :
    (failing step (step.deploy ctx)).run.Yields h s
      fun xs result t =>
        result = .ok () ∧
          Remedied step.resource (ctx.key step.resource)
            (view s) (view t) (changes xs) := by
  unfold failing Step.deploy
  rw [Attempt.yields_mapError, hStays]
  apply (Reconcile.deploy_remedies hMemory ctx step.resource
    hPrompt).mono
  rintro xs _ t ⟨rfl, hRemedied⟩
  exact ⟨rfl, hRemedied⟩

/- A plan whose objects are as desired changes nothing.  By
   induction on the steps. -/
theorem deploy_settled
    {steps : List Step}
    (hStays : ∀ step ∈ steps, step.kind = .resource)
    {s : σ}
    (hPrompt : (view s).Prompt)
    (hShown : ∀ step ∈ steps,
      Shown step.resource
        ((view s).objects.get? (ctx.key step.resource))) :
    (deploy ctx ⟨steps⟩).run.Yields h s fun xs result t =>
      result = .ok () ∧ changes xs = [] ∧ view t = view s := by
  induction steps generalizing s with
  | nil => exact ⟨rfl, rfl, rfl⟩
  | cons first rest ih =>
      rw [deploy_cons, Attempt.yields_bind]
      apply (step_remedies hMemory (hStays first (.head _))
        hPrompt).mono
      rintro xs _ t ⟨rfl, hRemedied⟩
      have hSame := hRemedied.hSettled (hShown first (.head _))
      have hNone : changes xs = [] :=
        hRemedied.hChanges.trans
          ((hShown first (.head _)).remedy _)
      rw [← hSame] at hShown
      apply (ih (fun step hStep => hStays step (.tail _ hStep))
        hRemedied.hPrompt
        (fun step hStep => hShown step (.tail _ hStep))).mono
      rintro ys _ u ⟨rfl, hRest, hKept⟩
      refine ⟨rfl, ?_, hKept.trans hSame⟩
      rw [changes_append, hNone, hRest]
      rfl

end Deploys

section Assembly

variable {p : Plan} {ctx : Context} {c d e : Cluster}
variable {ms ns : List Mutation}

/- A step that has what it wants leaves nothing to be changed
   to the others. -/
theorem Agreed.remedy_of_shown
    (hAgreed : p.Agreed)
    {step : Step}
    (hStep : step ∈ p.steps)
    {others : List Step}
    (hSub : others ⊆ p.steps)
    {object : Option Resource}
    (hShown : Shown step.resource object) :
    remedy ⟨others⟩ ctx (ctx.key step.resource) object = [] := by
  unfold remedy
  split
  · rename_i other hFirst
    have hKey : ctx.key other.resource =
        ctx.key step.resource := by
      simpa using List.find?_some hFirst
    have hOther := hSub (List.mem_of_find?_eq_some hFirst)
    exact (hAgreed.shown hStep hOther hKey.symm
      hShown).remedy _
  · rfl

/- What the first step has settled, the others leave alone. -/
theorem Upheld.cons
    {first : Step}
    {rest : List Step}
    (hAgreed : Agreed ⟨first :: rest⟩)
    (hFirst : Remedied first.resource (ctx.key first.resource)
      c d ms)
    (hRest : Upheld ⟨rest⟩ ctx d e ns) :
    Upheld ⟨first :: rest⟩ ctx c e (ms ++ ns) where
  hPrompt := hRest.hPrompt
  hJournals := hFirst.hJournals.trans hRest.hJournals
  hOutside := by
    intro key hOutside
    rcases not_or.1 (hOutside ∘ List.mem_cons.2) with
      ⟨hOther, hLater⟩
    exact (hRest.hOutside key hLater).trans
      (hFirst.hOther key hOther)
  hShown := by
    intro step hStep
    rcases List.mem_cons.1 hStep with rfl | hStep
    -- a later step on the same object asks for the same
    · by_cases hLater :
          ctx.key step.resource ∈ keys ctx ⟨rest⟩
      · rcases List.mem_map.1 hLater with ⟨other, hOther, hKey⟩
        have hShown := hRest.hShown other hOther
        rw [hKey] at hShown
        exact hAgreed.shown (.tail _ hOther) (.head _) hKey
          hShown
      · rw [hRest.hOutside _ hLater]
        exact hFirst.hShown
    · exact hRest.hShown step hStep
  hChanges := by
    intro key
    have hOwn (m : Mutation) (hm : m ∈ ms) :
        m.key = ctx.key first.resource :=
      Resource.key_of_remedy (hFirst.hChanges ▸ hm)
    rw [List.filter_append, hRest.hChanges key]
    by_cases hKey : ctx.key first.resource = key
    · subst hKey
      have hAll : ms.filter
          (fun m => m.key = ctx.key first.resource) = ms :=
        List.filter_eq_self.2 fun m hm =>
          decide_eq_true (hOwn m hm)
      rw [hAll, remedy_cons, if_pos rfl, ← hFirst.hChanges,
        hAgreed.remedy_of_shown (.head _)
          (fun _ hStep => .tail _ hStep) hFirst.hShown,
        List.append_nil]
    · have hNone : ms.filter (fun m => m.key = key) = [] :=
        List.filter_eq_nil_iff.2 fun m hm hSame =>
          hKey ((hOwn m hm).symm.trans
            (of_decide_eq_true hSame))
      rw [hNone, remedy_cons, if_neg hKey,
        hFirst.hOther key (Ne.symm hKey)]
      rfl

end Assembly

/- A plan goes well and has what it wants.  By induction on
   the steps. -/
theorem deploy_upholds
    {σ : Type}
    {h : Handler σ}
    {view : σ → Cluster}
    (hMemory : InMemory h view)
    {ctx : Context}
    {p : Plan}
    (hStays : ∀ step ∈ p.steps, step.kind = .resource)
    (hAgreed : p.Agreed)
    {s : σ}
    (hPrompt : (view s).Prompt) :
    (p.deploy ctx).run.Yields h s fun xs result t =>
      result = .ok () ∧
        p.Upheld ctx (view s) (view t) (changes xs) := by
  rcases p with ⟨steps⟩
  induction steps generalizing s with
  | nil =>
      exact ⟨rfl, hPrompt, .refl _, fun _ _ => rfl, by simp,
        fun _ => rfl⟩
  | cons first rest ih =>
      rw [deploy_cons, Attempt.yields_bind]
      apply (step_remedies hMemory (hStays first (.head _))
        hPrompt).mono
      rintro xs _ t ⟨rfl, hFirst⟩
      apply (ih hFirst.hPrompt
        (fun step hStep => hStays step (.tail _ hStep))
        (hAgreed.tail rfl)).mono
      rintro ys _ u ⟨rfl, hRest⟩
      rw [changes_append]
      exact ⟨rfl, .cons hAgreed hFirst hRest⟩

/-
  A plan of resources that stay is deployed to a cluster in
  which nothing lingers or fails, alone, and then once more.
  Its steps about one object want the same of it.

  The first deploy goes well.  Whatever number of steps is
  about an object, it is created once if it was not there,
  deleted and created once if it asked for something else, and
  else nothing is changed about it; the journal has the same
  changes, and no other object is changed.  The second deploy
  goes well too, makes no call that changes anything, and
  leaves the cluster as it is.
-/
theorem deploy_again
    {σ : Type}
    {h : Handler σ}
    {view : σ → Cluster}
    (hMemory : InMemory h view)
    {ctx : Context}
    {p : Plan}
    (hStays : ∀ step ∈ p.steps, step.kind = .resource)
    (hAgreed : p.Agreed)
    {s : σ}
    (hPrompt : (view s).Prompt) :
    (p.deploy ctx).run.Yields h s fun xs result t =>
      result = .ok () ∧
      (view t).journal = (view s).journal ++ changes xs ∧
      (∀ m ∈ changes xs, m.key ∈ p.keys ctx) ∧
      (∀ step ∈ p.steps,
        (changes xs).filter
            (fun m => m.key = ctx.key step.resource) =
          match (view s).objects.get?
              (ctx.key step.resource) with
          | none => [⟨.create, ctx.key step.resource⟩]
          | some live =>
              if live.sameSpec step.resource then []
              else
                [⟨.delete, ctx.key step.resource⟩,
                  ⟨.create, ctx.key step.resource⟩]) ∧
      (p.deploy ctx).run.Yields h t fun ys again u =>
        again = .ok () ∧ changes ys = [] ∧ view u = view t := by
  apply (deploy_upholds hMemory hStays hAgreed hPrompt).mono
  rintro xs _ t ⟨rfl, hUpheld⟩
  refine ⟨rfl, hUpheld.hJournals.hJournal, ?_, ?_,
    deploy_settled hMemory hStays hUpheld.hPrompt
      hUpheld.hShown⟩
  · intro m hm
    have hOwn : m ∈ (changes xs).filter
        (fun n => n.key = m.key) :=
      List.mem_filter.2 ⟨hm, decide_eq_true rfl⟩
    rw [hUpheld.hChanges] at hOwn
    unfold remedy at hOwn
    split at hOwn
    · rename_i step hFirst
      have hKey : ctx.key step.resource = m.key := by
        simpa using List.find?_some hFirst
      exact hKey ▸ List.mem_map_of_mem
        (List.mem_of_find?_eq_some hFirst)
    · cases hOwn
  · intro step hStep
    rw [hUpheld.hChanges]
    unfold remedy
    cases hFirst : p.steps.find? fun other =>
        ctx.key other.resource = ctx.key step.resource with
    | none =>
        have hNever := List.find?_eq_none.1 hFirst step hStep
        simp at hNever
    | some first =>
        have hKey : ctx.key first.resource =
            ctx.key step.resource := by
          simpa using List.find?_some hFirst
        have hSame := hAgreed.remedy_eq
          (List.mem_of_find?_eq_some hFirst) hStep hKey
          ((view s).objects.get? (ctx.key step.resource))
        rw [hKey] at hSame
        exact hSame

/- A plan that names one of its objects twice, and a world in
   which that object asks for something else. -/
def repeated : Plan :=
  ⟨[⟨.resource, .plain "v1" "ConfigMap" "a"⟩,
    ⟨.resource, .plain "v1" "ConfigMap" "b"⟩,
    ⟨.resource, .plain "v1" "ConfigMap" "b"⟩]⟩

/- One of its objects is there in an older form. -/
def repeatedWorld : World :=
  { (default : World) with
    cluster := Cluster.empty.insert "previews"
      ((Resource.plain "v1" "ConfigMap" "b").withField "data"
        (.string "old")) }

/- Its two steps on one object ask for the same. -/
theorem repeated_agreed : repeated.Agreed := by
  unfold Agreed
  decide +kernel

/- It is replaced once, and then left alone. -/
theorem deploy_again_repeated :
    repeated.Agreed ∧
      repeatedWorld.cluster.Prompt ∧
      (repeated.deploy ⟨"previews", {}, 0⟩).run.Yields
        World.perform repeatedWorld fun xs result t =>
          result = .ok () ∧
          (changes xs).filter
              (fun m => m.key = ⟨"ConfigMap", "previews", "a"⟩) =
            [⟨.create, ⟨"ConfigMap", "previews", "a"⟩⟩] ∧
          (changes xs).filter
              (fun m => m.key = ⟨"ConfigMap", "previews", "b"⟩) =
            [⟨.delete, ⟨"ConfigMap", "previews", "b"⟩⟩,
              ⟨.create, ⟨"ConfigMap", "previews", "b"⟩⟩] ∧
          (repeated.deploy ⟨"previews", {}, 0⟩).run.Yields
            World.perform t fun ys again u =>
              again = .ok () ∧ changes ys = [] ∧
                u.cluster = t.cluster := by
  have hPrompt : repeatedWorld.cluster.Prompt :=
    ⟨rfl, rfl, fun _ => rfl⟩
  have hStays : ∀ step ∈ repeated.steps,
      step.kind = .resource := by
    simp [repeated]
  refine ⟨repeated_agreed, hPrompt, ?_⟩
  apply (deploy_again World.perform_inMemory hStays
    repeated_agreed hPrompt).mono
  rintro xs _ t ⟨rfl, -, -, hChanges, hAgain⟩
  refine ⟨rfl, ?_, ?_, hAgain⟩
  · exact hChanges ⟨.resource, .plain "v1" "ConfigMap" "a"⟩
      (.head _)
  · refine (hChanges ⟨.resource, .plain "v1" "ConfigMap" "b"⟩
      (.tail _ (.head _))).trans ?_
    decide +kernel

end Plan

end Preview
