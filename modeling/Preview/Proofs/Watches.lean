import Preview.Proofs.Reports
import Preview.Proofs.Slots

/-
  Which subscriptions are live.

  A watch that goes well opens a subscription, and a release
  closes one.  No other call opens or closes any.  So what is
  live after a program is known from its exchanges.

  Main declarations:
    * `Cluster.ids`
    * `Cluster.deliver`, `Cluster.hangUp`, `Cluster.Brings` and
      `Cluster.Awaits`
    * `Exchange.holding` and `watching`
    * `Cluster.Holds`, `Holds.watching` and
      `World.perform_holds`
-/

namespace Preview

open Preview.Action (Handler)

------------------------------------------------------------
-- Subscriptions of a Cluster
------------------------------------------------------------

namespace Cluster

/- The subscriptions that are live. -/
def ids (c : Cluster) : List Nat :=
  c.subscriptions.map Subscription.id

section Operations

variable (c : Cluster)

/- An event reaches subscriptions and opens none. -/
theorem ids_emit (key : Key) (event : Event) :
    (c.emit key event).ids = c.ids := by
  unfold ids emit
  rw [List.map_map]
  refine List.map_congr_left fun s _ => ?_
  rw [Function.comp_apply]
  split <;> rfl

/- A change of phase is told, and opens nothing. -/
theorem ids_setPhase (key : Key) (phase : Phase) :
    (c.setPhase key phase).1.ids = c.ids := by
  unfold setPhase
  split
  · rfl
  · exact ids_emit _ _ _

theorem ids_report (es : List Report) :
    (c.report es).ids = c.ids := by
  induction es generalizing c with
  | nil => rfl
  | cons e es ih =>
      exact (ih _).trans (c.ids_setPhase e.key e.phase)

theorem ids_remove (key : Key) :
    (c.remove key).ids = c.ids := by
  unfold remove
  dsimp only
  split
  · rfl
  · exact ids_emit _ _ _

/- A failure that comes up leaves the subscriptions. -/
theorem ids_takeFailure (op : Operation) (name : String) :
    (c.takeFailure op name).1.ids = c.ids := by
  unfold takeFailure
  split <;> rfl

theorem ids_get (key : Key) : (c.get key).1.ids = c.ids := by
  have hTaken := c.ids_takeFailure .get key.name
  unfold get
  generalize c.takeFailure .get key.name = taken at hTaken ⊢
  rcases taken with ⟨d, - | e⟩
  · dsimp only at hTaken ⊢
    split
    · exact (d.ids_remove key).trans hTaken
    · exact hTaken
    · exact hTaken
  · exact hTaken

/- A new object is told with all its phases. -/
theorem ids_added
    (key : Key)
    (object : Resource)
    (phases : List Phase) :
    (c.added key object phases).ids = c.ids := by
  rw [added_eq, ids_report]
  exact ids_emit _ _ _

/- Creating an object opens no subscription. -/
theorem ids_create (kind space : String) (r : Resource) :
    (c.create kind space r).1.ids = c.ids := by
  rcases c.takeFailure_cases .create r.name with
    ⟨e, hTaken⟩ | hTaken
  · unfold create
    rw [hTaken]
    rfl
  · rw [create_of_untroubled hTaken]
    split
    · rfl
    · exact c.ids_added _ _ _

theorem ids_update (kind space : String) (r : Resource) :
    (c.update kind space r).1.ids = c.ids := by
  have hTaken := c.ids_takeFailure .update r.name
  unfold update
  generalize c.takeFailure .update r.name = taken at hTaken ⊢
  rcases taken with ⟨d, - | e⟩
  · dsimp only at hTaken ⊢
    split
    · exact hTaken
    · exact (ids_emit _ _ _).trans hTaken
  · exact hTaken

theorem ids_delete (key : Key) :
    (c.delete key).1.ids = c.ids := by
  have hTaken := c.ids_takeFailure .delete key.name
  unfold delete
  generalize c.takeFailure .delete key.name = taken at hTaken ⊢
  rcases taken with ⟨d, - | e⟩
  · dsimp only at hTaken ⊢
    split
    · split
      · exact (ids_remove _ key).trans hTaken
      · split <;> exact hTaken
    · exact hTaken
  · exact hTaken

/- What is opened comes last. -/
theorem ids_subscribe
    (key : Option Key)
    (pending : List Item)
    (ended : Bool) :
    (c.subscribe key pending ended).1.ids =
      c.ids ++ [(c.subscribe key pending ended).2] :=
  List.map_append

/- Taking an item leaves the subscription open. -/
theorem ids_take
    {c d : Cluster}
    {id : Nat}
    {item : Item}
    (hTaken : c.take? id = some (d, item)) :
    d.ids = c.ids := by
  unfold take? at hTaken
  split at hTaken <;> cases hTaken
  unfold ids
  rw [List.map_map]
  refine List.map_congr_left fun s _ => ?_
  rw [Function.comp_apply]
  split <;> rfl

/- A release closes what has this number, and no more. -/
theorem ids_release (id : Nat) :
    (c.release id).ids = c.ids.filter (· ≠ id) := by
  unfold ids release
  rw [List.filter_map]
  rfl

end Operations

end Cluster

------------------------------------------------------------
-- Arrivals
------------------------------------------------------------

namespace Cluster

/- Change one subscription. -/
def adjust
    (c : Cluster)
    (id : Nat)
    (f : Subscription → Subscription) : Cluster :=
  { c with
    subscriptions := c.subscriptions.map fun s =>
      if s.id = id then f s else s }

/- An item arrives in a subscription. -/
def deliver (c : Cluster) (id : Nat) (item : Item) : Cluster :=
  c.adjust id fun s => { s with pending := s.pending ++ [item] }

/- Nothing more arrives in a subscription. -/
def hangUp (c : Cluster) (id : Nat) : Cluster :=
  c.adjust id fun s => { s with ended := true }

/- A change of a subscription is seen in it. -/
theorem subscription?_adjust
    (c : Cluster)
    (id : Nat)
    {f : Subscription → Subscription}
    (hId : ∀ s, (f s).id = s.id) :
    (c.adjust id f).subscription? id =
      (c.subscription? id).map f := by
  unfold subscription? adjust
  dsimp only
  induction c.subscriptions with
  | nil => rfl
  | cons s rest ih =>
      rw [List.map_cons, List.find?_cons, List.find?_cons]
      by_cases hSame : s.id = id
      · simp [hSame, hId]
      · rw [if_neg hSame]
        simp only [hSame, decide_false]
        exact ih

section Found

variable {c : Cluster} {id : Nat} {s : Subscription}
variable (hFound : c.subscription? id = some s)

include hFound

/- What arrives waits behind the rest. -/
theorem subscription?_deliver (item : Item) :
    (c.deliver id item).subscription? id =
      some { s with pending := s.pending ++ [item] } := by
  unfold deliver
  rw [subscription?_adjust, hFound]
  · rfl
  · exact fun _ => rfl

theorem subscription?_hangUp :
    (c.hangUp id).subscription? id =
      some { s with ended := true } := by
  unfold hangUp
  rw [subscription?_adjust, hFound]
  · rfl
  · exact fun _ => rfl

end Found

/- A subscription has brought something that decides. -/
def Brings (c : Cluster) (id : Nat) (v : Verdict) : Prop :=
  ∃ s, c.subscription? id = some s ∧
    s.pending.findSome? Verdict.ofItem? = some v

/- A subscription is open and has brought nothing that
   decides. -/
def Awaits (c : Cluster) (id : Nat) : Prop :=
  ∃ s, c.subscription? id = some s ∧ s.ended = false ∧
    s.pending.findSome? Verdict.ofItem? = none

section Arrivals

variable {c : Cluster} {id : Nat} {v : Verdict}

/- What has been brought is told. -/
theorem Brings.verdict (hBrings : c.Brings id v) :
    c.verdict? id = some v := by
  rcases hBrings with ⟨s, hFound, hFirst⟩
  unfold verdict? Verdict.ofItems?
  rw [hFound]
  dsimp only
  rw [hFirst]
  rfl

/- As long as nothing decides, nothing is told. -/
theorem Awaits.verdict (hAwaits : c.Awaits id) :
    c.verdict? id = none := by
  rcases hAwaits with ⟨s, hFound, hOpen, hNone⟩
  unfold verdict? Verdict.ofItems?
  rw [hFound]
  dsimp only
  rw [hNone, hOpen]
  rfl

/- What has been decided stays so. -/
theorem Brings.deliver
    (hBrings : c.Brings id v)
    (item : Item) :
    (c.deliver id item).Brings id v := by
  rcases hBrings with ⟨s, hFound, hFirst⟩
  refine ⟨_, subscription?_deliver hFound item, ?_⟩
  dsimp only
  rw [List.findSome?_append, hFirst]
  rfl

/- A verdict outlasts the end of its subscription. -/
theorem Brings.hangUp (hBrings : c.Brings id v) :
    (c.hangUp id).Brings id v := by
  rcases hBrings with ⟨s, hFound, hFirst⟩
  exact ⟨_, subscription?_hangUp hFound, hFirst⟩

/- An item that decides nothing leaves things open. -/
theorem Awaits.deliver
    (hAwaits : c.Awaits id)
    {item : Item}
    (hIdle : Verdict.ofItem? item = none) :
    (c.deliver id item).Awaits id := by
  rcases hAwaits with ⟨s, hFound, hOpen, hNone⟩
  refine ⟨_, subscription?_deliver hFound item, hOpen, ?_⟩
  dsimp only
  rw [List.findSome?_append, hNone, List.findSome?_cons, hIdle]
  rfl

/- The first item that decides is the verdict. -/
theorem Awaits.brings
    (hAwaits : c.Awaits id)
    {item : Item}
    (hDecides : Verdict.ofItem? item = some v) :
    (c.deliver id item).Brings id v := by
  rcases hAwaits with ⟨s, hFound, hOpen, hNone⟩
  refine ⟨_, subscription?_deliver hFound item, ?_⟩
  dsimp only
  rw [List.findSome?_append, hNone, List.findSome?_cons,
    hDecides]
  rfl

/- An end without a verdict is told as such. -/
theorem Awaits.closed (hAwaits : c.Awaits id) :
    (c.hangUp id).verdict? id = some .closed := by
  rcases hAwaits with ⟨s, hFound, hOpen, hNone⟩
  unfold verdict? Verdict.ofItems?
  rw [subscription?_hangUp hFound]
  dsimp only
  rw [hNone]
  rfl

end Arrivals

end Cluster

------------------------------------------------------------
-- Subscriptions of a Program
------------------------------------------------------------

/- The subscriptions that are live after an exchange. -/
def Exchange.holding (held : List Nat) : Exchange → List Nat
  | ⟨.cluster (.watch _), .ok id⟩ => held ++ [id]
  | ⟨.release id, _⟩ => held.filter (· ≠ id)
  | _ => held

/- The subscriptions that are live after some exchanges, when
   some were before. -/
def watching (held : List Nat) (xs : List Exchange) : List Nat :=
  xs.foldl Exchange.holding held

/- What is live can be followed piece by piece. -/
theorem watching_append
    (held : List Nat)
    (xs ys : List Exchange) :
    watching held (xs ++ ys) =
      watching (watching held xs) ys :=
  List.foldl_append

/- A subscription that is opened and released is gone. -/
theorem released_subset (held : List Nat) (id : Nat) :
    (held ++ [id]).filter (· ≠ id) ⊆ held := by
  intro other hOther
  rcases List.mem_filter.1 hOther with ⟨hMem, hNe⟩
  rcases List.mem_append.1 hMem with hHeld | hNew
  · exact hHeld
  · simp_all

namespace Cluster

/- What is live in a state changes as the exchanges say. -/
def Holds
    {σ : Type}
    (h : Handler σ)
    (live : σ → List Nat) : Prop :=
  ∀ s c, live (h s c).1 =
    Exchange.holding (live s) ⟨c, (h s c).2⟩

/- What is live after a program is what its exchanges tell, by
   induction on the program. -/
theorem Holds.watching
    {σ α : Type}
    {h : Handler σ}
    {live : σ → List Nat}
    (hHolds : Holds h live)
    (m : Action α)
    (s : σ) :
    m.Yields h s fun xs _ t =>
      live t = Preview.watching (live s) xs := by
  induction m generalizing s with
  | finish a => exact rfl
  | call c next ih =>
      rw [Action.yields_call]
      apply (ih (h s c).2 (h s c).1).mono
      intro xs _ t hLive
      rw [hLive, hHolds s c]
      rfl

end Cluster

/- A watch that goes well adds its own subscription; one that
   fails adds none. -/
theorem World.ids_openWatch (w : World) (key : Key) :
    (w.openWatch key).1.cluster.ids =
      Exchange.holding w.cluster.ids
        ⟨.cluster (.watch key), (w.openWatch key).2⟩ := by
  unfold openWatch
  split
  · exact w.cluster.ids_subscribe none _ _
  · have hTaken := w.cluster.ids_takeFailure .watch key.name
    unfold Cluster.watch
    generalize w.cluster.takeFailure .watch key.name = taken
      at hTaken ⊢
    rcases taken with ⟨d, - | e⟩
    · exact (d.ids_subscribe (some key) [] false).trans
        (congrArg (· ++ _) hTaken)
    · exact hTaken

/- A world holds the subscriptions of its cluster. -/
theorem World.perform_holds :
    Cluster.Holds World.perform fun w => w.cluster.ids := by
  intro w c
  cases c with
  | store c =>
      exact congrArg Cluster.ids (w.cluster_performStore c)
  | cluster c =>
      cases c with
      | get key => exact w.cluster.ids_get key
      | create kind space r =>
          exact w.cluster.ids_create kind space r
      | update kind space r =>
          exact w.cluster.ids_update kind space r
      | delete key => exact w.cluster.ids_delete key
      | watch key => exact w.ids_openWatch key
  | release id => exact w.cluster.ids_release id
  | settle token id ms =>
      simp only [perform]
      split <;> rfl
  | receive id ms =>
      simp only [perform]
      cases hTaken : w.cluster.take? id with
      | none => rfl
      | some taken => exact Cluster.ids_take hTaken
  | send n =>
      simp only [perform]
      split <;> rfl
  | _ => rfl

end Preview
