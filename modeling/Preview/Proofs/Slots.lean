import Preview.Proofs.Objects

/-
  What a cluster keeps under a key.

  A slot is an object together with the number of reads that
  still show it, if it was deleted.  A failure that was
  prepared changes no slot; a call that does not fail changes
  its own slot only, and in one way.

  Main declarations:
    * `Slot`, `Slot.shown`, `Slot.read` and `Slot.deleted`
    * `Shown`
    * `Cluster.get_cases`
    * `Cluster.create_cases`
    * `Cluster.update_cases`
    * `Cluster.delete_cases`
    * `Cluster.slot_perform_other`
-/

namespace Preview

------------------------------------------------------------
-- Slots
------------------------------------------------------------

/- An object, and how many more reads show it, if it was
   deleted. -/
structure Slot where
  object : Option Resource
  left : Option Nat

namespace Slot

/- A slot without an object. -/
def empty : Slot :=
  ⟨none, none⟩

/- What a read shows. -/
def shown : Slot → Option Resource
  | ⟨_, some 0⟩ => none
  | ⟨object, _⟩ => object

/- What a read leaves. -/
def read : Slot → Slot
  | ⟨_, some 0⟩ => empty
  | ⟨object, some (left + 1)⟩ => ⟨object, some left⟩
  | ⟨object, none⟩ => ⟨object, none⟩

/- What a deletion leaves, with some lag. -/
def deleted : Nat → Slot → Slot
  | 0, _ => empty
  | lag, ⟨object, left⟩ => ⟨object, some (left.getD lag)⟩

end Slot

/- An object is there that asks for the same as another. -/
def Shown (r : Resource) (object : Option Resource) : Prop :=
  ∃ live, object = some live ∧ live.sameSpec r = true

/- No report changes whether an object is shown. -/
theorem Shown.map_onto
    {r : Resource}
    {object : Option Resource}
    (hShown : Shown r object)
    (es : List Report)
    (key : Key) :
    Shown r (object.map (Report.onto es key)) := by
  rcases hShown with ⟨live, rfl, hSame⟩
  refine ⟨_, rfl, ?_⟩
  rw [Report.sameSpec_onto]
  exact hSame

namespace Cluster

/- The slot of a key. -/
def slot (c : Cluster) (key : Key) : Slot :=
  ⟨c.objects.get? key, c.terminating.get? key⟩

/- How long a deleted object of a name stays visible. -/
def lagOf (c : Cluster) (name : String) : Nat :=
  (c.lags.get? name).getD 0

------------------------------------------------------------
-- Failures
------------------------------------------------------------

/- A failure that was prepared is reported, and no slot is
   changed; or there is none. -/
theorem takeFailure_cases
    (c : Cluster)
    (op : Operation)
    (name : String) :
    (∃ e, c.takeFailure op name =
        ({ c with failures := c.failures.drop (op, name) },
          some e)) ∨
      c.takeFailure op name = (c, none) := by
  unfold takeFailure
  cases c.failures.get? (op, name) with
  | some e => exact .inl ⟨e, rfl⟩
  | none => exact .inr rfl

------------------------------------------------------------
-- Changes
------------------------------------------------------------

/- A removal empties its own slot. -/
theorem slot_remove (c : Cluster) (key other : Key) :
    (c.remove key).slot other =
      if other = key then .empty else c.slot other := by
  have hDrop := Registry.get?_drop c.terminating key other
  unfold remove
  dsimp only
  cases hFound : c.objects.get? key with
  | none =>
      by_cases hSame : other = key
      · rw [if_pos hSame, slot, hDrop, if_pos hSame, hSame,
          hFound]
        rfl
      · rw [if_neg hSame, slot, hDrop, if_neg hSame]
        rfl
  | some object =>
      have hObjects := Registry.get?_drop c.objects key other
      unfold slot
      simp only [emit, hObjects, hDrop]
      by_cases hSame : other = key
      · rw [if_pos hSame, if_pos hSame, if_pos hSame]
        rfl
      · rw [if_neg hSame, if_neg hSame, if_neg hSame]

theorem terminating_setPhase
    (c : Cluster)
    (key : Key)
    (phase : Phase) :
    (c.setPhase key phase).1.terminating = c.terminating := by
  unfold setPhase
  split <;> rfl

/- A change of phase changes the object of its slot, and not how
   long it is left. -/
theorem slot_setPhase
    (c : Cluster)
    (e : Report)
    (key : Key) :
    (c.setPhase e.key e.phase).1.slot key =
      ⟨(c.slot key).object.map (Report.onto [e] key),
        (c.slot key).left⟩ := by
  have hObject :
      (c.setPhase e.key e.phase).1.objects.get? key =
        (c.objects.get? key).map (Report.onto [e] key) :=
    objects_report c [e] key
  unfold slot
  rw [hObject, terminating_setPhase]

theorem terminating_added
    (c : Cluster)
    (key : Key)
    (object : Resource)
    (phases : List Phase) :
    (c.added key object phases).terminating =
      c.terminating := by
  rw [added_eq]
  generalize phases.map (Report.mk key) = es
  unfold report
  generalize hStart : c.added key object [] = d
  have hSame : d.terminating = c.terminating := by
    rw [← hStart]
    rfl
  clear hStart
  induction es generalizing d with
  | nil => exact hSame
  | cons e es ih =>
      exact ih (d.setPhase e.key e.phase).1
        ((terminating_setPhase d e.key e.phase).trans hSame)

------------------------------------------------------------
-- Calls
------------------------------------------------------------

/- A read fails, or it shows its slot. -/
theorem get_cases (c : Cluster) (key : Key) :
    (∃ e, (c.get key).2 = .error e ∧
        ∀ other, (c.get key).1.slot other = c.slot other) ∨
      ((c.get key).2 = .ok (c.slot key).shown ∧
        ∀ other, (c.get key).1.slot other =
          if other = key then (c.slot key).read
          else c.slot other) := by
  unfold get
  rcases c.takeFailure_cases .get key.name with
    ⟨e, hTaken⟩ | hTaken
  · rw [hTaken]
    exact .inl ⟨e, rfl, fun other => rfl⟩
  · right
    rw [hTaken]
    dsimp only
    cases hLeft : c.terminating.get? key with
    | none =>
        dsimp only
        refine ⟨by simp [slot, hLeft, Slot.shown], ?_⟩
        intro other
        by_cases hSame : other = key
        · simp [hSame, slot, hLeft, Slot.read]
        · rw [if_neg hSame]
    | some left =>
        cases left with
        | zero =>
            dsimp only
            refine ⟨by simp [slot, hLeft, Slot.shown], ?_⟩
            intro other
            rw [slot_remove]
            simp [slot, hLeft, Slot.read]
        | succ left =>
            dsimp only
            refine ⟨by simp [slot, hLeft, Slot.shown], ?_⟩
            intro other
            have hSet :=
              Registry.get?_set c.terminating key other left
            by_cases hSame : other = key
            · simp [hSame, slot, hLeft, Slot.read,
                Registry.get?_set]
            · rw [if_neg hSame]
              simp [slot, hSet, hSame]

/- A creation fails, or there is no object and then one that
   asks for what was created. -/
theorem create_cases
    (c : Cluster)
    (kind space : String)
    (r : Resource) :
    (∃ e, (c.create kind space r).2 = .error e ∧
        ∀ key, (c.create kind space r).1.slot key =
          c.slot key) ∨
      ((c.create kind space r).2 = .ok () ∧
        (c.slot ⟨kind, space, r.name⟩).object = none ∧
        ∃ live, live.sameSpec r = true ∧
          ∀ key, (c.create kind space r).1.slot key =
            if key = ⟨kind, space, r.name⟩ then
              ⟨some live, (c.slot key).left⟩
            else c.slot key) := by
  rcases c.takeFailure_cases .create r.name with
    ⟨e, hTaken⟩ | hTaken
  · left
    unfold create
    rw [hTaken]
    exact ⟨e, rfl, fun key => rfl⟩
  · rw [create_of_untroubled hTaken]
    by_cases hThere :
        c.objects.contains ⟨kind, space, r.name⟩ = true
    · left
      rw [if_pos hThere]
      exact ⟨_, rfl, fun key => rfl⟩
    · right
      rw [if_neg hThere]
      have hAbsent :
          c.objects.get? ⟨kind, space, r.name⟩ = none := by
        simpa [Registry.contains] using hThere
      refine ⟨rfl, hAbsent,
        Report.onto
          (((c.scripts.get? r.name).getD []).map
            (⟨⟨kind, space, r.name⟩, ·⟩))
          ⟨kind, space, r.name⟩ (c.stamped space r), ?_, ?_⟩
      · rw [Report.sameSpec_onto]
        exact Resource.sameSpec_stamped c space r
      · intro key
        unfold slot
        dsimp only
        rw [objects_added, terminating_added]
        split <;> rfl

/- An update fails, or there is an object that is replaced. -/
theorem update_cases
    (c : Cluster)
    (kind space : String)
    (r : Resource) :
    (∃ e, (c.update kind space r).2 = .error e ∧
        ∀ key, (c.update kind space r).1.slot key =
          c.slot key) ∨
      ((c.update kind space r).2 = .ok () ∧
        (c.slot ⟨kind, space, r.name⟩).object.isSome = true ∧
        ∃ live, ∀ key, (c.update kind space r).1.slot key =
          if key = ⟨kind, space, r.name⟩ then
            ⟨some live, (c.slot key).left⟩
          else c.slot key) := by
  unfold update
  rcases c.takeFailure_cases .update r.name with
    ⟨e, hTaken⟩ | hTaken
  · rw [hTaken]
    exact .inl ⟨e, rfl, fun key => rfl⟩
  · rw [hTaken]
    dsimp only
    cases hFound : c.objects.get? ⟨kind, space, r.name⟩ with
    | none => exact .inl ⟨_, rfl, fun key => rfl⟩
    | some existing =>
        let live : Resource :=
          { r with
            metadata :=
              { r.metadata with
                space := some space
                extra := existing.metadata.extra }
            status := existing.status }
        refine .inr ⟨rfl, by simp [slot, hFound], live, ?_⟩
        intro key
        have hSet := Registry.get?_set c.objects
          ⟨kind, space, r.name⟩ key live
        refine (congrArg (Slot.mk · _) hSet).trans ?_
        split <;> rfl

/- A deleted object goes, or begins to terminate unless it has
   begun. -/
theorem delete_of_untroubled
    {c : Cluster}
    {key : Key}
    (hFree : c.takeFailure .delete key.name = (c, none))
    (hThere : c.objects.contains key = true) :
    c.delete key =
      (match c.lagOf key.name with
        | 0 => (c.record .delete key).remove key
        | lag + 1 =>
            if c.terminating.contains key then
              c.record .delete key
            else
              { c.record .delete key with
                terminating := c.terminating.set key (lag + 1) },
        .ok ()) := by
  have hLag : ((c.record .delete key).lags.get?
      key.name).getD 0 = c.lagOf key.name := rfl
  have hSame : (c.record .delete key).terminating =
      c.terminating := rfl
  unfold delete
  rw [hFree]
  dsimp only
  rw [if_pos hThere, hLag]
  cases c.lagOf key.name with
  | zero => rfl
  | succ lag =>
      change (if (c.record .delete key).terminating.contains key
        then _ else _ : Cluster × Except ClusterError Unit) = _
      rw [hSame]
      split <;> rfl

/- A deletion fails, or there is an object that goes or begins
   to terminate. -/
theorem delete_cases (c : Cluster) (key : Key) :
    (∃ e, (c.delete key).2 = .error e ∧
        ∀ other, (c.delete key).1.slot other = c.slot other) ∨
      ((c.delete key).2 = .ok () ∧
        (c.slot key).object.isSome = true ∧
        ∀ other, (c.delete key).1.slot other =
          if other = key then
            (c.slot key).deleted (c.lagOf key.name)
          else c.slot other) := by
  rcases c.takeFailure_cases .delete key.name with
    ⟨e, hTaken⟩ | hTaken
  · left
    unfold delete
    rw [hTaken]
    exact ⟨e, rfl, fun other => rfl⟩
  · by_cases hThere : c.objects.contains key = true
    · right
      rw [delete_of_untroubled hTaken hThere]
      refine ⟨rfl, hThere, ?_⟩
      intro other
      dsimp only
      cases c.lagOf key.name with
      | zero => exact slot_remove (c.record .delete key) key other
      | succ lag =>
          dsimp only
          cases hLeft : c.terminating.get? key with
          | some left =>
              have hBegun :
                  c.terminating.contains key = true := by
                simp [Registry.contains, hLeft]
              rw [if_pos hBegun]
              by_cases hSame : other = key
              · simp [hSame, slot, record, hLeft, Slot.deleted]
              · rw [if_neg hSame]
                rfl
          | none =>
              have hFresh :
                  ¬ c.terminating.contains key = true := by
                simp [Registry.contains, hLeft]
              rw [if_neg hFresh]
              by_cases hSame : other = key
              · simp [hSame, slot, record, hLeft, Slot.deleted,
                  Registry.get?_set]
              · simp [hSame, slot, record, Registry.get?_set]
    · left
      unfold delete
      rw [hTaken]
      dsimp only
      rw [if_neg hThere]
      exact ⟨_, rfl, fun other => rfl⟩

theorem slot_watch (c : Cluster) (own key : Key) :
    (c.watch own).1.slot key = c.slot key := by
  unfold watch
  rcases c.takeFailure_cases .watch own.name with
    ⟨e, hTaken⟩ | hTaken
  · rw [hTaken]
    rfl
  · rw [hTaken]
    rfl

/- No other slot is changed by a call. -/
theorem slot_perform_other
    (c : Cluster)
    {call : Call}
    {key : Key}
    (hOther : key ≠ (World.subject call).2) :
    (c.perform call).1.slot key = c.slot key := by
  cases call with
  | get own =>
      rcases c.get_cases own with ⟨e, -, hSlots⟩ | ⟨-, hSlots⟩
      · exact hSlots key
      · exact (hSlots key).trans (if_neg hOther)
  | create kind space r =>
      rcases c.create_cases kind space r with
        ⟨e, -, hSlots⟩ | ⟨-, -, live, -, hSlots⟩
      · exact hSlots key
      · exact (hSlots key).trans (if_neg hOther)
  | update kind space r =>
      rcases c.update_cases kind space r with
        ⟨e, -, hSlots⟩ | ⟨-, -, live, hSlots⟩
      · exact hSlots key
      · exact (hSlots key).trans (if_neg hOther)
  | delete own =>
      rcases c.delete_cases own with
        ⟨e, -, hSlots⟩ | ⟨-, -, hSlots⟩
      · exact hSlots key
      · exact (hSlots key).trans (if_neg hOther)
  | watch own => exact slot_watch c own key

end Cluster

end Preview
