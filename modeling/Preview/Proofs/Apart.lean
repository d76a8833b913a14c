import Preview.Proofs.Watches

/-
  A subscription by itself.

  Nothing that a cluster does depends on who has subscribed,
  and no subscription is changed by another one.  So as far as
  one subscription goes, all the others can be left out.

  Main declarations:
    * `Cluster.only`
    * `Cluster.perform_only`
    * `Cluster.release_only` and `Cluster.take?_only`
-/

namespace Preview

namespace Cluster

/- The cluster with no subscription but one. -/
def only (c : Cluster) (id : Nat) : Cluster :=
  { c with
    subscriptions :=
      c.subscriptions.filter (fun s => s.id = id) }

section Only

variable (c : Cluster) (id : Nat)

theorem only_only : (c.only id).only id = c.only id := by
  unfold only
  rw [List.filter_filter]
  simp only [Bool.and_self]

/- What keeps the numbers can be done before or after. -/
theorem only_map
    {f : Subscription → Subscription}
    (hId : ∀ s, (f s).id = s.id) :
    ({ c with
        subscriptions := c.subscriptions.map f } :
          Cluster).only id =
      { c with
        subscriptions := (c.only id).subscriptions.map f } := by
  unfold only
  rw [List.filter_map]
  refine congrArg (fun p => ({ c with
    subscriptions := (c.subscriptions.filter p).map f } :
      Cluster)) ?_
  funext s
  rw [Function.comp_apply, hId]

/- The one that is kept is found as before. -/
theorem subscription?_only :
    (c.only id).subscription? id = c.subscription? id := by
  unfold subscription? only
  rw [List.find?_filter]
  refine congrArg (List.find? · _) ?_
  funext s
  simp

/- An event reaches it in the same way. -/
theorem emit_only (own : Key) (event : Event) :
    (c.emit own event).only id =
      (c.only id).emit own event := by
  refine c.only_map id fun s => ?_
  split <;> rfl

/- A phase is told to it whoever else listens. -/
theorem setPhase_only (own : Key) (phase : Phase) :
    (c.setPhase own phase).1.only id =
      ((c.only id).setPhase own phase).1 := by
  have hObjects : (c.only id).objects = c.objects := rfl
  unfold setPhase
  rw [hObjects]
  cases c.objects.get? own with
  | none => rfl
  | some object => exact emit_only _ id own _

theorem phases_only (own : Key) (phases : List Phase) :
    (phases.foldl (fun c p => (c.setPhase own p).1) c).only id =
      phases.foldl (fun c p => (c.setPhase own p).1)
        (c.only id) := by
  induction phases generalizing c with
  | nil => rfl
  | cons phase phases ih =>
      rw [List.foldl_cons, List.foldl_cons, ih, setPhase_only]

/- A new object is told to it whoever else listens. -/
theorem added_only
    (own : Key)
    (object : Resource)
    (phases : List Phase) :
    (c.added own object phases).only id =
      (c.only id).added own object phases := by
  unfold added
  rw [phases_only, emit_only]
  rfl

theorem remove_only (own : Key) :
    (c.remove own).only id = (c.only id).remove own := by
  have hObjects : (c.only id).objects = c.objects := rfl
  unfold remove
  dsimp only
  rw [hObjects]
  cases c.objects.get? own with
  | none => rfl
  | some object => exact emit_only _ id own _

/- Failures come up whoever has subscribed. -/
theorem takeFailure_only (op : Operation) (name : String) :
    (c.only id).takeFailure op name =
      ((c.takeFailure op name).1.only id,
        (c.takeFailure op name).2) := by
  have hFailures : (c.only id).failures = c.failures := rfl
  unfold takeFailure
  rw [hFailures]
  cases c.failures.get? (op, name) <;> rfl

theorem get_only (own : Key) :
    (c.get own).1.only id = ((c.only id).get own).1 := by
  unfold get
  rw [takeFailure_only]
  rcases c.takeFailure .get own.name with ⟨d, - | e⟩
  · have hTerminating :
        (d.only id).terminating = d.terminating := rfl
    dsimp only
    rw [hTerminating]
    rcases d.terminating.get? own with - | - | left
    · rfl
    · exact d.remove_only id own
    · rfl
  · rfl

/- What a creation does is the same with and without the
   others. -/
theorem create_only (kind space : String) (r : Resource) :
    (c.create kind space r).1.only id =
      ((c.only id).create kind space r).1 := by
  have hTaken := c.takeFailure_only id .create r.name
  rcases c.takeFailure_cases .create r.name with
    ⟨e, hFree⟩ | hFree
  · rw [hFree] at hTaken
    unfold create
    rw [hTaken, hFree]
  · rw [hFree] at hTaken
    rw [create_of_untroubled hFree,
      create_of_untroubled hTaken]
    have hObjects : (c.only id).objects = c.objects := rfl
    rw [hObjects]
    split
    · rfl
    · exact c.added_only id _ _ _

/- So is what an update does. -/
theorem update_only (kind space : String) (r : Resource) :
    (c.update kind space r).1.only id =
      ((c.only id).update kind space r).1 := by
  unfold update
  rw [takeFailure_only]
  rcases c.takeFailure .update r.name with ⟨d, - | e⟩
  · have hObjects : (d.only id).objects = d.objects := rfl
    dsimp only
    rw [hObjects]
    cases d.objects.get? ⟨kind, space, r.name⟩ with
    | none => rfl
    | some existing => exact emit_only _ id _ _
  · rfl

/- So is what a deletion does. -/
theorem delete_only (own : Key) :
    (c.delete own).1.only id = ((c.only id).delete own).1 := by
  have hTaken := c.takeFailure_only id .delete own.name
  rcases c.takeFailure_cases .delete own.name with
    ⟨e, hFree⟩ | hFree
  · rw [hFree] at hTaken
    unfold delete
    rw [hTaken, hFree]
  · rw [hFree] at hTaken
    have hObjects : (c.only id).objects = c.objects := rfl
    by_cases hThere : c.objects.contains own = true
    · have hLag : (c.only id).lagOf own.name =
          c.lagOf own.name := rfl
      have hTerminating :
          (c.only id).terminating = c.terminating := rfl
      rw [delete_of_untroubled hFree hThere,
        delete_of_untroubled hTaken hThere, hLag]
      dsimp only
      cases c.lagOf own.name with
      | zero => exact remove_only _ id own
      | succ lag =>
          dsimp only
          rw [hTerminating]
          split <;> rfl
    · unfold delete
      rw [hTaken, hFree]
      dsimp only
      rw [hObjects, if_neg hThere, if_neg hThere]

/- A subscription takes its number from the serial, so that the
   others make no difference to it. -/
theorem subscribe_only
    (follows : Option Key)
    (pending : List Item)
    (ended : Bool) :
    (c.subscribe follows pending ended).1.only id =
      ((c.only id).subscribe follows pending ended).1.only
        id := by
  unfold subscribe only
  simp only [List.filter_append, List.filter_filter,
    Bool.and_self]

/- A watch may open the one that is kept, or another. -/
theorem watch_only (own : Key) :
    (c.watch own).1.only id =
      ((c.only id).watch own).1.only id := by
  unfold watch
  rw [takeFailure_only]
  rcases c.takeFailure .watch own.name with ⟨d, - | e⟩
  · exact d.subscribe_only id _ _ _
  · exact (d.only_only id).symm

/- A call does the same with and without other subscriptions.
   What it opens itself may be another one. -/
theorem perform_only (call : Call) :
    (c.perform call).1.only id =
      ((c.only id).perform call).1.only id := by
  have hOnce {act : Cluster → Cluster}
      (hAct : ∀ c : Cluster,
        (act c).only id = act (c.only id)) :
      (act c).only id = (act (c.only id)).only id := by
    rw [hAct, hAct, only_only]
  cases call with
  | get own => exact hOnce fun c => c.get_only id own
  | create kind space r =>
      exact hOnce fun c => c.create_only id kind space r
  | update kind space r =>
      exact hOnce fun c => c.update_only id kind space r
  | delete own => exact hOnce fun c => c.delete_only id own
  | watch own => exact c.watch_only id own

/- A release may close the one that is kept, or another. -/
theorem release_only (own : Nat) :
    (c.release own).only id =
      ((c.only id).release own).only id := by
  unfold release only
  dsimp only
  rw [List.filter_filter, List.filter_filter,
    List.filter_filter]
  refine congrArg (fun p => ({ c with
    subscriptions := c.subscriptions.filter p } : Cluster)) ?_
  funext s
  cases decide (s.id = id) <;> simp

/- A subscription does not depend on another one. -/
theorem release_only_other {own : Nat} (hOther : own ≠ id) :
    (c.release own).only id = c.only id := by
  unfold release only
  dsimp only
  rw [List.filter_filter]
  refine congrArg (fun p => ({ c with
    subscriptions := c.subscriptions.filter p } : Cluster)) ?_
  funext s
  by_cases hOwn : s.id = id
  · simp [hOwn, hOther.symm]
  · simp [hOwn]

/- A change of another subscription does not show. -/
theorem adjust_only_other
    {own : Nat}
    (hOther : own ≠ id)
    {f : Subscription → Subscription}
    (hId : ∀ s, (f s).id = s.id) :
    (c.adjust own f).only id = c.only id := by
  refine (c.only_map id ?_).trans ?_
  · intro s
    split
    · exact hId s
    · rfl
  · unfold only
    dsimp only
    congr 1
    rw [List.map_congr_left, List.map_id']
    intro s hs
    have hOwn : s.id = id := by
      simpa using (List.mem_filter.1 hs).2
    exact if_neg (hOwn ▸ hOther.symm)

/- What is taken from it does not depend on the others. -/
theorem take?_only :
    (c.only id).take? id =
      (c.take? id).map fun t => (t.1.only id, t.2) := by
  unfold take?
  rw [subscription?_only]
  split
  · rename_i item rest hPending
    have hMap := c.only_map id
      (f := fun s =>
        if s.id = id then { s with pending := rest } else s)
      fun s => by split <;> rfl
    exact congrArg (fun d => some (d, item)) hMap.symm
  · rfl

end Only

end Cluster

end Preview
