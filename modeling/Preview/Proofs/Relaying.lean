import Preview.Proofs.Watches

/-
  What an operation tells the watches of an object.

  An event turns what is stored of an object into something
  else.  Every operation that changes an object reports events
  that do just that, in order, to each subscription that
  follows it, and nothing to the others.  Subscriptions are
  numbered, and no number is given twice.

  Main declarations:
    * `Replays`
    * `Cluster.Numbers` and `Cluster.Conveys`
    * `Cluster.Relays`
    * `Cluster.perform_relays`
-/

namespace Preview

------------------------------------------------------------
-- Events
------------------------------------------------------------

/- Some events turn what is stored of an object into something
   else, one after the other.  Only what is not stored is
   added, and only what is stored is modified or deleted; what
   is deleted is what was stored last. -/
inductive Replays :
    Option Resource → List Event → Option Resource → Prop where
  | done (stored : Option Resource) : Replays stored [] stored
  | added
      {object : Resource}
      {es : List Event}
      {final : Option Resource}
      (hRest : Replays (some object) es final) :
      Replays none (⟨.added, object⟩ :: es) final
  | modified
      {before object : Resource}
      {es : List Event}
      {final : Option Resource}
      (hRest : Replays (some object) es final) :
      Replays (some before) (⟨.modified, object⟩ :: es) final
  | deleted
      {object : Resource}
      {es : List Event}
      {final : Option Resource}
      (hRest : Replays none es final) :
      Replays (some object) (⟨.deleted, object⟩ :: es) final

/- Histories of an object are joined where it is the same. -/
theorem Replays.trans
    {first second third : Option Resource}
    {es fs : List Event}
    (hFirst : Replays first es second)
    (hThen : Replays second fs third) :
    Replays first (es ++ fs) third := by
  induction hFirst with
  | done stored => exact hThen
  | added hRest ih => exact .added (ih hThen)
  | modified hRest ih => exact .modified (ih hThen)
  | deleted hRest ih => exact .deleted (ih hThen)

namespace Cluster

------------------------------------------------------------
-- Subscriptions
------------------------------------------------------------

section Found

variable (c : Cluster) (id : Nat)

/- What keeps the numbers finds the same subscription. -/
theorem subscription?_map
    {f : Subscription → Subscription}
    (hId : ∀ s, (f s).id = s.id) :
    ({ c with
        subscriptions := c.subscriptions.map f } :
          Cluster).subscription? id =
      (c.subscription? id).map f := by
  unfold subscription?
  rw [List.find?_map]
  refine congrArg (Option.map f <| List.find? · _) ?_
  funext s
  rw [Function.comp_apply, hId]

/- An event arrives where the object is followed. -/
theorem subscription?_emit (own : Key) (event : Event) :
    (c.emit own event).subscription? id =
      (c.subscription? id).map fun s =>
        if s.key = some own then
          { s with pending := s.pending ++ [.ok event] }
        else s := by
  apply subscription?_map
  intro s
  split <;> rfl

/- A new subscription is found under its number, after any that
   has the number already. -/
theorem subscription?_subscribe
    (key : Option Key)
    (pending : List Item)
    (ended : Bool) :
    (c.subscribe key pending ended).1.subscription? id =
      (c.subscription? id).or
        (if c.serial = id then
          some ⟨c.serial, key, pending, ended⟩
        else none) := by
  refine List.find?_append.trans (congrArg (Option.or _) ?_)
  by_cases hOwn : c.serial = id
  · rw [if_pos hOwn]
    exact List.find?_cons_of_pos (decide_eq_true hOwn)
  · rw [if_neg hOwn, List.find?_cons_of_neg]
    · rfl
    · simpa using hOwn

/- What is released is not found again; the others are. -/
theorem subscription?_release (other : Nat) :
    (c.release other).subscription? id =
      if id = other then none else c.subscription? id := by
  unfold subscription? release
  rw [List.find?_filter]
  split
  · rename_i hSame
    rw [List.find?_eq_none]
    rintro s - hBoth
    simp_all
  · rename_i hOther
    refine congrArg (List.find? · _) ?_
    funext s
    by_cases hOwn : s.id = id
    · simp [hOwn, hOther]
    · simp [hOwn]

/- A change to one subscription is none to another one. -/
theorem subscription?_adjust_other
    {own : Nat}
    (hOther : own ≠ id)
    {f : Subscription → Subscription}
    (hId : ∀ s, (f s).id = s.id) :
    (c.adjust own f).subscription? id =
      c.subscription? id := by
  refine (c.subscription?_map id ?_).trans ?_
  · intro s
    split
    · exact hId s
    · rfl
  · cases hFound : c.subscription? id with
    | none => rfl
    | some s =>
        have hOwn : s.id = id := by
          simpa using List.find?_some hFound
        rw [Option.map_some, if_neg (hOwn ▸ hOther.symm)]

/- What is taken is the first item that waits. -/
theorem take?_of_found
    {s : Subscription}
    (hFound : c.subscription? id = some s) :
    match s.pending with
    | [] => c.take? id = none
    | item :: rest =>
        ∃ d, c.take? id = some (d, item) ∧
          d.subscription? id =
            some { s with pending := rest } := by
  unfold take?
  rw [hFound, Option.map_some]
  cases hPending : s.pending with
  | nil => rfl
  | cons item rest =>
      refine ⟨_, rfl, ?_⟩
      have hTaken := c.subscription?_adjust id
        (f := fun s => { s with pending := rest })
        fun _ => rfl
      rw [hFound] at hTaken
      exact hTaken

end Found

------------------------------------------------------------
-- Numbers
------------------------------------------------------------

/- No subscription is opened under a number but the next one,
   so that each is given once. -/
structure Numbers (id : Nat) (c d : Cluster) : Prop where
  hSerial : c.serial ≤ d.serial
  hAbsent : c.subscription? id = none →
    id < c.serial ∨ d.serial ≤ id → d.subscription? id = none

namespace Numbers

variable {id : Nat} {c d e : Cluster}

/- As long as no number is given, none is found anew. -/
theorem of_same
    (hSerial : d.serial = c.serial)
    (hFound : c.subscription? id = none →
      d.subscription? id = none) :
    Numbers id c d where
  hSerial := Nat.le_of_eq hSerial.symm
  hAbsent hNone _ := hFound hNone

/- A number given in one part is past in the next. -/
theorem trans
    (hFirst : Numbers id c d)
    (hThen : Numbers id d e) :
    Numbers id c e where
  hSerial := Nat.le_trans hFirst.hSerial hThen.hSerial
  hAbsent hNone hOutside := by
    rcases hOutside with hGiven | hNew
    · exact hThen.hAbsent (hFirst.hAbsent hNone (.inl hGiven))
        (.inl (Nat.lt_of_lt_of_le hGiven hFirst.hSerial))
    · exact hThen.hAbsent
        (hFirst.hAbsent hNone
          (.inr (Nat.le_trans hThen.hSerial hNew)))
        (.inr hNew)

end Numbers

------------------------------------------------------------
-- Relayed Changes
------------------------------------------------------------

/- Some events tell how an object has changed, and have come to
   a subscription if it follows the object. -/
structure Conveys
    (key : Key)
    (id : Nat)
    (c : Cluster)
    (es : List Event)
    (d : Cluster) : Prop
    extends Numbers id c d where
  hObject : Replays (c.objects.get? key) es (d.objects.get? key)
  hPending : ∀ s, c.subscription? id = some s →
    s.key = some key →
      d.subscription? id =
        some { s with pending := s.pending ++ es.map .ok }

namespace Conveys

variable {key : Key} {id : Nat} {c d e : Cluster}

/- Where object and subscription stay, nothing is told. -/
theorem of_same
    (hObject : d.objects.get? key = c.objects.get? key)
    (hFound : d.subscription? id = c.subscription? id)
    (hSerial : d.serial = c.serial) :
    Conveys key id c [] d where
  toNumbers := .of_same hSerial hFound.trans
  hObject := hObject ▸ .done _
  hPending s hSome _ := by
    rw [hFound, hSome, List.map_nil, List.append_nil]

/- Two histories are told one after the other. -/
theorem trans
    {es fs : List Event}
    (hFirst : Conveys key id c es d)
    (hThen : Conveys key id d fs e) :
    Conveys key id c (es ++ fs) e where
  toNumbers := hFirst.toNumbers.trans hThen.toNumbers
  hObject := hFirst.hObject.trans hThen.hObject
  hPending s hSome hKey := by
    rw [hThen.hPending _ (hFirst.hPending s hSome hKey) hKey,
      List.map_append, List.append_assoc]

end Conveys

/- What happened to one object is conveyed, and if it is
   another object than the one that is followed, there is
   nothing to convey. -/
def Relays
    (key : Key)
    (id : Nat)
    (own : Key)
    (c d : Cluster) : Prop :=
  ∃ es, Conveys key id c es d ∧ (key ≠ own → es = [])

namespace Relays

variable {key own : Key} {id : Nat} {c d e : Cluster}

/- What touches neither is relayed by no event. -/
theorem of_same
    (hObject : d.objects.get? key = c.objects.get? key)
    (hFound : d.subscription? id = c.subscription? id)
    (hSerial : d.serial = c.serial) :
    Relays key id own c d :=
  ⟨[], .of_same hObject hFound hSerial, fun _ => rfl⟩

theorem refl (c : Cluster) : Relays key id own c c :=
  .of_same rfl rfl rfl

/- An object that no part concerns has no event in either. -/
theorem trans
    (hFirst : Relays key id own c d)
    (hThen : Relays key id own d e) :
    Relays key id own c e := by
  rcases hFirst with ⟨es, hes, hNone⟩
  rcases hThen with ⟨fs, hfs, hNone'⟩
  refine ⟨es ++ fs, hes.trans hfs, fun hOther => ?_⟩
  rw [hNone hOther, hNone' hOther]
  rfl

theorem numbers
    (hRelays : Relays key id own c d) :
    Numbers id c d := by
  rcases hRelays with ⟨es, hConveys, -⟩
  exact hConveys.toNumbers

/- An object is changed, and one event says how. -/
theorem of_emit
    {event : Event}
    (hSame : d.subscriptions = c.subscriptions)
    (hSerial : c.serial ≤ d.serial)
    (hOwn : Replays (c.objects.get? own) [event]
      (d.objects.get? own))
    (hOther : key ≠ own →
      d.objects.get? key = c.objects.get? key) :
    Relays key id own c (d.emit own event) := by
  have hFound : (d.emit own event).subscription? id =
      (c.subscription? id).map fun s =>
        if s.key = some own then
          { s with pending := s.pending ++ [.ok event] }
        else s := by
    rw [subscription?_emit]
    unfold subscription?
    rw [hSame]
  have hNumbers : Numbers id c (d.emit own event) := by
    refine ⟨hSerial, fun hNone _ => ?_⟩
    rw [hFound, hNone]
    rfl
  by_cases hKey : key = own
  · subst hKey
    refine ⟨[event], ⟨hNumbers, hOwn, ?_⟩, absurd rfl⟩
    intro s hSome hFollows
    rw [hFound, hSome, Option.map_some, if_pos hFollows]
    rfl
  · refine ⟨[], ⟨hNumbers, ?_, ?_⟩, fun _ => rfl⟩
    · exact hOther hKey ▸ .done _
    · intro s hSome hFollows
      have hElse : ¬ s.key = some own := by
        rw [hFollows]
        simpa using hKey
      rw [hFound, hSome, Option.map_some, if_neg hElse,
        List.map_nil, List.append_nil]

end Relays

section Operations

variable {key : Key} {id : Nat} (c : Cluster)

/- A failure that comes up is no event. -/
theorem takeFailure_relays
    (own : Key)
    (op : Operation)
    (name : String) :
    Relays key id own c (c.takeFailure op name).1 := by
  rcases c.takeFailure_cases op name with ⟨e, hTaken⟩ | hTaken
  · rw [hTaken]
    exact .of_same rfl rfl rfl
  · rw [hTaken]
    exact .refl c

/- A phase is reported as a modification. -/
theorem setPhase_relays (own : Key) (phase : Phase) :
    Relays key id own c (c.setPhase own phase).1 := by
  unfold setPhase
  split
  · exact .refl c
  · rename_i object hFound
    refine Relays.of_emit rfl (Nat.le_refl _) ?_ ?_
    · rw [hFound, Registry.get?_set, if_pos rfl]
      exact .modified (.done _)
    · intro hOther
      exact (Registry.get?_set ..).trans (if_neg hOther)

/- Each phase of a new object is an event. -/
theorem phases_relays (own : Key) (phases : List Phase) :
    Relays key id own c
      (phases.foldl (fun c p => (c.setPhase own p).1) c) := by
  induction phases generalizing c with
  | nil => exact .refl c
  | cons phase phases ih =>
      exact (c.setPhase_relays own phase).trans (ih _)

/- What is not there is removed unnoticed. -/
theorem remove_relays (own : Key) :
    Relays key id own c (c.remove own) := by
  unfold remove
  dsimp only
  split
  · exact .of_same rfl rfl rfl
  · rename_i object hFound
    refine Relays.of_emit rfl (Nat.le_refl _) ?_ ?_
    · rw [hFound, Registry.get?_drop, if_pos rfl]
      exact .deleted (.done _)
    · intro hOther
      exact (Registry.get?_drop ..).trans (if_neg hOther)

/- An object is added before its phases are reported. -/
theorem added_relays
    {own : Key}
    (hAbsent : c.objects.get? own = none)
    (object : Resource)
    (phases : List Phase) :
    Relays key id own c (c.added own object phases) := by
  refine Relays.trans ?_ (phases_relays _ own phases)
  refine Relays.of_emit rfl (Nat.le_succ _) ?_ ?_
  · rw [hAbsent, Registry.get?_set, if_pos rfl]
    exact .added (.done _)
  · intro hOther
    exact (Registry.get?_set ..).trans (if_neg hOther)

/- A read may end an object, and tells so. -/
theorem get_relays (own : Key) :
    Relays key id own c (c.get own).1 := by
  have hTaken : Relays key id own c
      (c.takeFailure .get own.name).1 :=
    c.takeFailure_relays own .get own.name
  unfold get
  generalize c.takeFailure .get own.name = taken at hTaken ⊢
  rcases taken with ⟨d, - | e⟩
  · dsimp only at hTaken ⊢
    split
    · exact hTaken.trans (d.remove_relays own)
    · exact hTaken.trans (.of_same rfl rfl rfl)
    · exact hTaken
  · exact hTaken

/- A creation tells of the object and of all its phases. -/
theorem create_relays (kind space : String) (r : Resource) :
    Relays key id ⟨kind, space, r.name⟩ c
      (c.create kind space r).1 := by
  rcases c.takeFailure_cases .create r.name with
    ⟨e, hTaken⟩ | hTaken
  · unfold create
    rw [hTaken]
    exact .of_same rfl rfl rfl
  · rw [create_of_untroubled hTaken]
    split
    · exact .refl c
    · rename_i hAbsent
      apply added_relays
      simpa [Registry.contains] using hAbsent

/- An update tells of the object it has left. -/
theorem update_relays (kind space : String) (r : Resource) :
    Relays key id ⟨kind, space, r.name⟩ c
      (c.update kind space r).1 := by
  unfold update
  rcases c.takeFailure_cases .update r.name with
    ⟨e, hTaken⟩ | hTaken
  · rw [hTaken]
    exact .of_same rfl rfl rfl
  · rw [hTaken]
    dsimp only
    split
    · exact .refl c
    · rename_i existing hFound
      refine Relays.of_emit rfl (Nat.le_refl _) ?_ ?_
      · rw [hFound, Registry.get?_set, if_pos rfl]
        exact .modified (.done _)
      · intro hOther
        exact (Registry.get?_set ..).trans (if_neg hOther)

/- A deletion tells of the end if it is immediate. -/
theorem delete_relays (own : Key) :
    Relays key id own c (c.delete own).1 := by
  rcases c.takeFailure_cases .delete own.name with
    ⟨e, hTaken⟩ | hTaken
  · unfold delete
    rw [hTaken]
    exact .of_same rfl rfl rfl
  · have hRecord :
        Relays key id own c (c.record .delete own) :=
      .of_same rfl rfl rfl
    by_cases hThere : c.objects.contains own = true
    · rw [delete_of_untroubled hTaken hThere]
      dsimp only
      split
      · exact hRecord.trans (remove_relays _ own)
      · split
        · exact hRecord
        · exact .of_same rfl rfl rfl
    · unfold delete
      rw [hTaken]
      dsimp only
      rw [if_neg hThere]
      exact .refl c

/- A new subscription disturbs no other one. -/
theorem subscribe_conveys
    (follows : Option Key)
    (pending : List Item)
    (ended : Bool) :
    Conveys key id c []
      (c.subscribe follows pending ended).1 := by
  refine ⟨⟨Nat.le_succ _, ?_⟩, .done _, ?_⟩
  · intro hNone hOutside
    have hOther : ¬ c.serial = id := by
      rintro rfl
      rcases hOutside with hGiven | hNew
      · exact absurd hGiven (Nat.lt_irrefl _)
      · exact absurd hNew (Nat.not_succ_le_self _)
    rw [subscription?_subscribe, hNone, if_neg hOther]
    rfl
  · intro s hSome hFollows
    rw [subscription?_subscribe, hSome, Option.some_or,
      List.map_nil, List.append_nil]

/- Opening a watch on an object changes none. -/
theorem watch_relays (own : Key) :
    Relays key id own c (c.watch own).1 := by
  have hTaken : Relays key id own c
      (c.takeFailure .watch own.name).1 :=
    c.takeFailure_relays own .watch own.name
  unfold watch
  generalize c.takeFailure .watch own.name = taken at hTaken ⊢
  rcases taken with ⟨d, - | e⟩
  · exact hTaken.trans
      ⟨[], d.subscribe_conveys _ _ _, fun _ => rfl⟩
  · exact hTaken

/- Whatever a call does is relayed. -/
theorem perform_relays (call : Call) :
    Relays key id (World.subject call).2 c
      (c.perform call).1 := by
  cases call with
  | get own => exact c.get_relays own
  | create kind space r => exact c.create_relays kind space r
  | update kind space r => exact c.update_relays kind space r
  | delete own => exact c.delete_relays own
  | watch own => exact c.watch_relays own

/- A watch that goes well has a number of its own, and nothing
   has come to it. -/
theorem watch_of_ok
    {c d : Cluster}
    (hFree : c.subscription? c.serial = none)
    {own : Key}
    (hWatch : c.watch own = (d, .ok id)) :
    d.objects = c.objects ∧ id < d.serial ∧
      d.subscription? id = some ⟨id, some own, [], false⟩ := by
  unfold watch at hWatch
  rcases c.takeFailure_cases .watch own.name with
    ⟨e, hTaken⟩ | hTaken
  · rw [hTaken] at hWatch
    cases hWatch
  · rw [hTaken] at hWatch
    cases hWatch
    refine ⟨rfl, Nat.lt_succ_self _, ?_⟩
    have hFound := c.subscription?_subscribe c.serial
      (some own) [] false
    rw [hFree, if_pos rfl] at hFound
    exact hFound

end Operations

end Cluster

end Preview
