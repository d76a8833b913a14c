import Preview.Proofs.Convergence
import Preview.Proofs.Slots

/-
  How long a deployed object stays.

  A deploy finds no object, the right one or a wrong one.  A
  wrong one is replaced when it is gone; the right one is left
  alone, also when it was deleted and goes on being shown for
  some reads.  So a deployed object stays until somebody acts
  on it, unless it was being deleted already.

  Main declarations:
    * `Deed`, `Deed.Disturbs` and `Deed.slot_act`
    * `Cluster.after` and `Cluster.answers`
    * `Slot.Lasts`
    * `Slot.Lingers`
    * `Reconcile.deploy_endures`
-/

namespace Preview

open Preview.Action (Handler eval)
open Cluster (InMemory)

------------------------------------------------------------
-- Deeds
------------------------------------------------------------

/- What can be done to a cluster: its calls, and what others
   prepare, report and follow. -/
inductive Deed where
  | call (c : Cluster.Call)
  | insert (space : String) (r : Resource)
  | report (e : Report)
  | script (name : String) (phases : List Phase)
  | lag (name : String) (reads : Nat)
  | fail (op : Operation) (name : String) (e : ClusterError)
  | clearJournal
  | subscribe (key : Option Key) (pending : List Item)
    (ended : Bool)
  | release (subscription : Nat)
  | take (subscription : Nat)

namespace Deed

/- The cluster after a deed. -/
def act (c : Cluster) : Deed → Cluster
  | call asked => (c.perform asked).1
  | insert space r => c.insert space r
  | report e => (c.setPhase e.key e.phase).1
  | script name phases => c.script name phases
  | lag name reads => c.lag name reads
  | fail op name e => c.fail op name e
  | clearJournal => c.clearJournal
  | subscribe key pending ended =>
      (c.subscribe key pending ended).1
  | release id => c.release id
  | take id => ((c.take? id).map (·.1)).getD c

/- A deed creates, updates, deletes or seeds an object. -/
def Disturbs (key : Key) : Deed → Prop
  | call (.create kind space r) => ⟨kind, space, r.name⟩ = key
  | call (.update kind space r) => ⟨kind, space, r.name⟩ = key
  | call (.delete own) => own = key
  | insert space r => ⟨r.kind, space, r.name⟩ = key
  | _ => False

/- What a deed is told of an object, if it has read it and no
   failure was reported instead. -/
def answer? (key : Key) (c : Cluster) :
    Deed → Option (Option Resource)
  | call (.get own) =>
      if own = key then (c.get own).2.toOption else none
  | _ => none

/- A deed that does not disturb an object reads it, or only
   reports on it. -/
theorem slot_act
    {key : Key}
    {d : Deed}
    (hCalm : ¬ d.Disturbs key)
    (c : Cluster) :
    match d.answer? key c with
    | some shown =>
        shown = (c.slot key).shown ∧
          (d.act c).slot key = (c.slot key).read
    | none =>
        ∃ es, (d.act c).slot key =
          ⟨(c.slot key).object.map (Report.onto es key),
            (c.slot key).left⟩ := by
  -- a slot that stays the same is one with no reports
  have hKept {e : Cluster} (hSame : e.slot key = c.slot key) :
      ∃ es, e.slot key =
        ⟨(c.slot key).object.map (Report.onto es key),
          (c.slot key).left⟩ := by
    refine ⟨[], ?_⟩
    rw [hSame, Report.map_onto_of_other (by simp)]
  cases d with
  | call asked =>
      cases asked with
      | get own =>
          by_cases hOwn : own = key
          · subst hOwn
            rw [show (call (.get own)).answer? own c =
              (c.get own).2.toOption from if_pos rfl]
            rcases c.get_cases own with
              ⟨e, hReply, hSlots⟩ | ⟨hReply, hSlots⟩
            · rw [hReply]
              exact hKept (hSlots own)
            · rw [hReply]
              exact ⟨rfl, (hSlots own).trans (if_pos rfl)⟩
          · rw [show (call (.get own)).answer? key c = none
              from if_neg hOwn]
            exact hKept (c.slot_perform_other (Ne.symm hOwn))
      | watch own => exact hKept (c.slot_watch own key)
      | _ =>
          exact hKept (c.slot_perform_other (Ne.symm hCalm))
  | insert space r =>
      apply hKept
      have hOther : key ≠ ⟨r.kind, space, r.name⟩ :=
        Ne.symm hCalm
      exact congrArg (Slot.mk · _)
        ((Registry.get?_set c.objects _ key r).trans
          (if_neg hOther))
  | report e => exact ⟨[e], c.slot_setPhase e key⟩
  | take id =>
      apply hKept
      change (((c.take? id).map (·.1)).getD c).slot key = _
      unfold Cluster.take?
      split <;> rfl
  | _ => exact hKept rfl

end Deed

/- The cluster after some deeds, one after the other. -/
def Cluster.after (c : Cluster) (ds : List Deed) : Cluster :=
  ds.foldl Deed.act c

/- What the reads of an object show, one deed after the
   other. -/
def Cluster.answers (key : Key) :
    Cluster → List Deed → List (Option Resource)
  | _, [] => []
  | c, d :: rest =>
      (d.answer? key c).toList ++ answers key (d.act c) rest

------------------------------------------------------------
-- Undisturbed Slots
------------------------------------------------------------

namespace Slot

/- An object that is shown, for some more reads if it was
   deleted. -/
def Lasts (r : Resource) (left : Option Nat) (s : Slot) :
    Prop :=
  s.left = left ∧ Shown r s.object

theorem Lasts.reported
    {r : Resource}
    {left : Option Nat}
    {s : Slot}
    (hLasts : s.Lasts r left)
    (es : List Report)
    (key : Key) :
    Lasts r left
      ⟨s.object.map (Report.onto es key), s.left⟩ :=
  ⟨hLasts.1, hLasts.2.map_onto es key⟩

/- An object that was not deleted is shown by every read. -/
theorem Lasts.read
    {r : Resource}
    {s : Slot}
    (hLasts : s.Lasts r none) :
    Shown r s.shown ∧ s.read.Lasts r none := by
  rcases s with ⟨object, left⟩
  rcases hLasts with ⟨hLeft, hShown⟩
  cases hLeft
  exact ⟨hShown, rfl, hShown⟩

/- An object that was deleted is shown once less. -/
theorem Lasts.read_succ
    {r : Resource}
    {left : Nat}
    {s : Slot}
    (hLasts : s.Lasts r (some (left + 1))) :
    Shown r s.shown ∧ s.read.Lasts r (some left) := by
  rcases s with ⟨object, left'⟩
  rcases hLasts with ⟨hLeft, hShown⟩
  cases hLeft
  exact ⟨hShown, rfl, hShown⟩

/- After its last read an object is gone. -/
theorem Lasts.read_zero
    {r : Resource}
    {s : Slot}
    (hLasts : s.Lasts r (some 0)) :
    s.shown = none ∧ s.read.object = none := by
  rcases s with ⟨object, left⟩
  rcases hLasts with ⟨hLeft, hShown⟩
  cases hLeft
  exact ⟨rfl, rfl⟩

/- There is nothing to see where no object is. -/
theorem read_of_absent
    {s : Slot}
    (hAbsent : s.object = none) :
    s.shown = none ∧ s.read.object = none := by
  rcases s with ⟨object, left⟩
  cases hAbsent
  rcases left with - | - | left <;> exact ⟨rfl, rfl⟩

end Slot

namespace Cluster

section Answers

variable {c : Cluster} {key : Key} {r : Resource}
variable {ds : List Deed}

/- By induction on the deeds: an object that was not deleted
   is not by them. -/
theorem answers_of_stands
    (hStands : (c.slot key).Lasts r none)
    (hCalm : ∀ d ∈ ds, ¬ d.Disturbs key) :
    ∀ o ∈ answers key c ds, Shown r o := by
  induction ds generalizing c with
  | nil => simp [answers]
  | cons d ds ih =>
      have hAct := Deed.slot_act (hCalm d (.head _)) c
      have hLater : ∀ d ∈ ds, ¬ d.Disturbs key :=
        fun d hd => hCalm d (.tail _ hd)
      unfold answers
      cases hAnswer : d.answer? key c with
      | none =>
          rw [hAnswer] at hAct
          rcases hAct with ⟨es, hSlot⟩
          apply ih _ hLater
          rw [hSlot]
          exact hStands.reported es key
      | some shown =>
          rw [hAnswer] at hAct
          rcases hAct with ⟨rfl, hSlot⟩
          intro o ho
          rcases List.mem_cons.1 ho with rfl | ho
          · exact hStands.read.1
          · apply ih _ hLater o ho
            rw [hSlot]
            exact hStands.read.2

/- What is gone does not come back by itself. -/
theorem answers_of_absent
    (hAbsent : (c.slot key).object = none)
    (hCalm : ∀ d ∈ ds, ¬ d.Disturbs key) :
    ∀ o ∈ answers key c ds, o = none := by
  induction ds generalizing c with
  | nil => simp [answers]
  | cons d ds ih =>
      have hAct := Deed.slot_act (hCalm d (.head _)) c
      have hLater : ∀ d ∈ ds, ¬ d.Disturbs key :=
        fun d hd => hCalm d (.tail _ hd)
      have hRead := Slot.read_of_absent hAbsent
      unfold answers
      cases hAnswer : d.answer? key c with
      | none =>
          rw [hAnswer] at hAct
          rcases hAct with ⟨es, hSlot⟩
          apply ih _ hLater
          rw [hSlot, hAbsent]
          rfl
      | some shown =>
          rw [hAnswer] at hAct
          rcases hAct with ⟨rfl, hSlot⟩
          intro o ho
          rcases List.mem_cons.1 ho with rfl | ho
          · exact hRead.1
          · apply ih _ hLater o ho
            rw [hSlot]
            exact hRead.2

/- An object that was deleted is shown by as many reads as are
   left, and by none after them. -/
theorem answers_of_fades
    {left : Nat}
    (hFades : (c.slot key).Lasts r (some left))
    (hCalm : ∀ d ∈ ds, ¬ d.Disturbs key)
    {k : Nat}
    {o : Option Resource}
    (hAnswer : (answers key c ds)[k]? = some o) :
    (k < left → Shown r o) ∧ (left ≤ k → o = none) := by
  induction ds generalizing c left k with
  | nil => simp [answers] at hAnswer
  | cons d ds ih =>
      have hAct := Deed.slot_act (hCalm d (.head _)) c
      have hLater : ∀ d ∈ ds, ¬ d.Disturbs key :=
        fun d hd => hCalm d (.tail _ hd)
      unfold answers at hAnswer
      cases hFirst : d.answer? key c with
      | none =>
          rw [hFirst] at hAct hAnswer
          rcases hAct with ⟨es, hSlot⟩
          refine ih ?_ hLater hAnswer
          rw [hSlot]
          exact hFades.reported es key
      | some shown =>
          rw [hFirst] at hAct hAnswer
          rcases hAct with ⟨rfl, hSlot⟩
          cases left with
          | zero =>
              have hGone := hFades.read_zero
              refine ⟨by omega, fun _ => ?_⟩
              rcases List.mem_cons.1
                (List.mem_of_getElem? hAnswer) with rfl | ho
              · exact hGone.1
              · apply answers_of_absent _ hLater o ho
                rw [hSlot]
                exact hGone.2
          | succ left =>
              have hNext := hFades.read_succ
              cases k with
              | zero =>
                  cases hAnswer
                  exact ⟨fun _ => hNext.1, by omega⟩
              | succ k =>
                  have hRest := ih (hSlot ▸ hNext.2) hLater
                    (k := k) hAnswer
                  exact ⟨fun h => hRest.1 (by omega),
                    fun h => hRest.2 (by omega)⟩

end Answers

------------------------------------------------------------
-- Deployed Objects
------------------------------------------------------------

/- A state holds a cluster, and waiting leaves it alone. -/
structure Patient
    {σ : Type}
    (h : Handler σ)
    (view : σ → Cluster) : Prop
    extends InMemory h view where
  pauses : ∀ s token ms,
    view (h s (.pause token ms)).1 = view s

end Cluster

namespace Slot

/-
  An object was deleted, and asks for what is desired if it is
  still there.  A read shows it, and as many more reads as are
  left.
-/
def Lingers (r : Resource) (left : Nat) (s : Slot) : Prop :=
  s.left = some (left + 1) ∧
    ∀ live, s.object = some live → live.sameSpec r = true

/- What is shown is there. -/
theorem object_of_shown
    {s : Slot}
    {live : Resource}
    (hShown : s.shown = some live) :
    s.object = some live := by
  rcases s with ⟨object, left⟩
  rcases left with - | - | left
  · exact hShown
  · cases hShown
  · exact hShown

/- What a read shows as desired lasts as long as it would have
   without the read. -/
theorem lasts_of_shown
    {s : Slot}
    {r live : Resource}
    (hShown : s.shown = some live)
    (hSame : live.sameSpec r = true) :
    (∃ left, s.Lingers r left ∧ s.read.Lasts r (some left)) ∨
      (∀ left, ¬ s.Lingers r left) ∧ s.read.Lasts r none := by
  have hObject := object_of_shown hShown
  rcases s with ⟨object, left⟩
  rcases left with - | - | left
  · exact .inr ⟨fun _ hLingers => (nomatch hLingers.1),
      rfl, live, hObject, hSame⟩
  · cases hShown
  · left
    refine ⟨left, ⟨rfl, ?_⟩, rfl, live, hObject, hSame⟩
    intro other hOther
    cases hObject.symm.trans hOther
    exact hSame

/- What is created where a read shows nothing is not being
   deleted, unless nothing was there and is being deleted. -/
theorem lasts_of_hidden
    {s : Slot}
    {r live : Resource}
    (hHidden : s.shown = none)
    (hSame : live.sameSpec r = true) :
    (∃ left, s.Lingers r left ∧
        Lasts r (some left) ⟨some live, s.read.left⟩) ∨
      (∀ left, ¬ s.Lingers r left) ∧
        Lasts r none ⟨some live, s.read.left⟩ := by
  rcases s with ⟨object, left⟩
  rcases left with - | - | left
  · exact .inr ⟨fun _ hLingers => (nomatch hLingers.1),
      rfl, live, rfl, hSame⟩
  · exact .inr ⟨fun _ hLingers => (nomatch hLingers.1),
      rfl, live, rfl, hSame⟩
  · left
    refine ⟨left, ⟨rfl, ?_⟩, rfl, live, rfl, hSame⟩
    intro other hOther
    cases hHidden.symm.trans hOther

/- Only what is there can be about to go. -/
def Sound (s : Slot) : Prop :=
  s.object = none → s.left = none

/- A sound slot stays sound when it is read. -/
theorem Sound.read
    {s : Slot}
    (hSound : s.Sound) :
    s.read.Sound := by
  rcases s with ⟨object, left⟩
  intro hAbsent
  rcases left with - | - | left
  · rfl
  · rfl
  · cases hSound hAbsent

/- A slot that shows nothing is empty after the read. -/
theorem Sound.read_of_hidden
    {s : Slot}
    (hSound : s.Sound)
    (hHidden : s.shown = none) :
    s.read = empty := by
  rcases s with ⟨object, left⟩
  rcases left with - | - | left
  · cases hHidden
    rfl
  · rfl
  · cases hSound hHidden

/- A deletion leaves a slot sound, whatever the lag. -/
theorem Sound.deleted
    {s : Slot}
    (hThere : s.object.isSome = true)
    (lag : Nat) :
    (s.deleted lag).Sound := by
  intro hAbsent
  cases lag with
  | zero => rfl
  | succ lag =>
      rw [show s.object = none from hAbsent] at hThere
      cases hThere

end Slot

namespace Reconcile

section Deploys

variable {σ : Type} {h : Handler σ} {view : σ → Cluster}
variable (hPatient : Cluster.Patient h view)
variable {ctx : Context} {r : Resource} {s t : σ}

include hPatient

/- A read that goes well has told what the slot showed. -/
theorem slot_of_get
    {live : Option Resource}
    (hEval : eval h (ctx.get r).run s = (t, .ok live)) :
    live = ((view s).slot (ctx.key r)).shown ∧
      (view t).slot (ctx.key r) =
        ((view s).slot (ctx.key r)).read := by
  have hDone : h s (.cluster (.get (ctx.key r))) =
      (t, .ok live) := Context.eval_of_asked hEval
  have hGet := hPatient.gets s (ctx.key r)
  rw [hDone] at hGet
  rcases (view s).get_cases (ctx.key r) with
    ⟨e, hReply, -⟩ | ⟨hReply, hSlots⟩
  · rw [← hGet] at hReply
    cases hReply
  · rw [← hGet] at hReply hSlots
    exact ⟨Except.ok.inj hReply,
      (hSlots _).trans (if_pos rfl)⟩

/- A creation that goes well fills the slot, and what is left of
   an earlier object is left. -/
theorem slot_of_create
    (hEval : eval h (Context.asked (ctx.create r)).run s =
      (t, .ok ())) :
    ∃ live, live.sameSpec r = true ∧
      (view t).slot (ctx.key r) =
        ⟨some live, ((view s).slot (ctx.key r)).left⟩ := by
  have hDone : h s (.cluster (.create r.kind ctx.space r)) =
      (t, .ok ()) := Context.eval_of_asked hEval
  have hCreate := hPatient.creates s r.kind ctx.space r
  rw [hDone] at hCreate
  rcases (view s).create_cases r.kind ctx.space r with
    ⟨e, hReply, -⟩ | ⟨-, -, live, hSame, hSlots⟩
  · rw [← hCreate] at hReply
    cases hReply
  · rw [← hCreate] at hSlots
    exact ⟨live, hSame, (hSlots _).trans (if_pos rfl)⟩

/- A deletion that goes well leaves a sound slot. -/
theorem sound_of_delete
    (hEval : eval h (Context.asked (ctx.delete r)).run s =
      (t, .ok ())) :
    ((view t).slot (ctx.key r)).Sound := by
  have hDone : h s (.cluster (.delete (ctx.key r))) =
      (t, .ok ()) := Context.eval_of_asked hEval
  have hDelete := hPatient.deletes s (ctx.key r)
  rw [hDone] at hDelete
  rcases (view s).delete_cases (ctx.key r) with
    ⟨e, hReply, -⟩ | ⟨-, hThere, hSlots⟩
  · rw [← hDelete] at hReply
    cases hReply
  · rw [← hDelete] at hSlots
    rw [hSlots, if_pos rfl]
    exact .deleted hThere _

/- A pause changes nothing in the cluster. -/
theorem view_of_pause
    {ms : Nat}
    {result : Except StepError Unit}
    (hEval : eval h (ctx.pause ms r).run s = (t, result)) :
    view t = view s := by
  have hState : (eval h (ctx.pause ms r).run s).1 =
      (h s (.pause ctx.token ms)).1 := by
    unfold Context.pause
    rw [Attempt.run_lift_bind, Action.eval_bind]
    split <;> rfl
  rw [hEval] at hState
  rw [← hPatient.pauses s ctx.token ms, ← hState]

/- By induction on the pauses: a wait that goes well has seen
   that the object is gone. -/
theorem slot_of_awaitGone
    {pauses : Nat}
    (hSound : ((view s).slot (ctx.key r)).Sound)
    (hEval : eval h (awaitGone ctx r pauses).run s =
      (t, .ok ())) :
    (view t).slot (ctx.key r) = .empty := by
  induction pauses generalizing s with
  | zero =>
      unfold awaitGone at hEval
      rcases hGet : eval h (ctx.get r).run s with ⟨u, e | live⟩
      · rw [Attempt.eval_bind_of_error hGet] at hEval
        cases hEval
      · rw [Attempt.eval_bind_of_ok hGet] at hEval
        have hSlot := slot_of_get hPatient hGet
        cases live with
        | some live => cases hEval
        | none =>
            cases hEval
            rw [hSlot.2]
            exact hSound.read_of_hidden hSlot.1.symm
  | succ pauses ih =>
      unfold awaitGone at hEval
      rcases hGet : eval h (ctx.get r).run s with ⟨u, e | live⟩
      · rw [Attempt.eval_bind_of_error hGet] at hEval
        cases hEval
      · rw [Attempt.eval_bind_of_ok hGet] at hEval
        have hSlot := slot_of_get hPatient hGet
        cases live with
        | none =>
            cases hEval
            rw [hSlot.2]
            exact hSound.read_of_hidden hSlot.1.symm
        | some live =>
            dsimp only at hEval
            rcases hPause : eval h (ctx.pause
                ctx.timings.scaleDownPollMs r).run u with
              ⟨v, e | ⟨⟩⟩
            · rw [Attempt.eval_bind_of_error hPause] at hEval
              cases hEval
            -- after the pause one read less is left
            · rw [Attempt.eval_bind_of_ok hPause] at hEval
              apply ih _ hEval
              rw [view_of_pause hPatient hPause, hSlot.2]
              exact hSound.read

/- What is replaced is not being deleted. -/
theorem slot_of_replace
    (hEval : eval h (replace ctx r).run s = (t, .ok ())) :
    ((view t).slot (ctx.key r)).Lasts r none := by
  unfold replace at hEval
  rcases hDelete : eval h (Context.asked (ctx.delete r)).run s
    with ⟨u, e | ⟨⟩⟩
  · rw [Attempt.eval_bind_of_error hDelete] at hEval
    cases hEval
  rw [Attempt.eval_bind_of_ok hDelete] at hEval
  rcases hAwait : eval h (awaitGone ctx r
      ctx.timings.scaleDownAttempts).run u with ⟨v, e | ⟨⟩⟩
  · rw [Attempt.eval_bind_of_error hAwait] at hEval
    cases hEval
  rw [Attempt.eval_bind_of_ok hAwait] at hEval
  have hEmpty := slot_of_awaitGone hPatient
    (sound_of_delete hPatient hDelete) hAwait
  rcases slot_of_create hPatient hEval with
    ⟨live, hSame, hSlot⟩
  rw [hSlot, hEmpty]
  exact ⟨rfl, live, rfl, hSame⟩

/-
  A deploy that goes well leaves an object as desired.  It was
  deleted before, and still is, or it is not being deleted.
-/
theorem deploy_slot
    (hEval : eval h (deploy ctx r).run s = (t, .ok ())) :
    (∃ left, ((view s).slot (ctx.key r)).Lingers r left ∧
        ((view t).slot (ctx.key r)).Lasts r (some left)) ∨
      ((∀ left,
          ¬ ((view s).slot (ctx.key r)).Lingers r left) ∧
        ((view t).slot (ctx.key r)).Lasts r none) := by
  rw [deploy_eq] at hEval
  rcases hGet : eval h (ctx.get r).run s with ⟨u, e | live⟩
  · rw [Attempt.eval_bind_of_error hGet] at hEval
    cases hEval
  rw [Attempt.eval_bind_of_ok hGet] at hEval
  rcases slot_of_get hPatient hGet with ⟨hShown, hRead⟩
  generalize (view s).slot (ctx.key r) = before
    at hShown hRead ⊢
  cases live with
  | none =>
      rcases slot_of_create hPatient hEval with
        ⟨live, hSame, hSlot⟩
      rw [hSlot, hRead]
      exact Slot.lasts_of_hidden hShown.symm hSame
  | some live =>
      dsimp only at hEval
      by_cases hSame : live.sameSpec r = true
      · rw [if_pos hSame] at hEval
        cases hEval
        rw [hRead]
        exact Slot.lasts_of_shown hShown.symm hSame
      · rw [if_neg hSame] at hEval
        refine .inr ⟨fun left hLingers => hSame ?_,
          slot_of_replace hPatient hEval⟩
        exact hLingers.2 live
          (Slot.object_of_shown hShown.symm)

end Deploys

end Reconcile

/- Nothing happens to a world while a program pauses. -/
theorem World.perform_patient :
    Cluster.Patient World.perform World.cluster where
  toInMemory := World.perform_inMemory
  pauses _ _ _ := rfl

/-
  Whatever is done after a deploy that went well, as long as
  nobody creates, updates, deletes or seeds the object: if it
  was being deleted when the deploy found it as desired, it is
  shown by as many reads as were left then, and by none after
  them; and if not, by every read.
-/
theorem Reconcile.deploy_endures
    {σ : Type}
    {h : Handler σ}
    {view : σ → Cluster}
    (hPatient : Cluster.Patient h view)
    {ctx : Context}
    {r : Resource}
    {s t : σ}
    (hDone : eval h (deploy ctx r).run s = (t, .ok ()))
    {ds : List Deed}
    (hCalm : ∀ d ∈ ds, ¬ d.Disturbs (ctx.key r)) :
    (∀ left, ((view s).slot (ctx.key r)).Lingers r left →
      ∀ k o, ((view t).answers (ctx.key r) ds)[k]? = some o →
        (k < left → Shown r o) ∧ (left ≤ k → o = none)) ∧
    ((∀ left, ¬ ((view s).slot (ctx.key r)).Lingers r left) →
      ∀ o ∈ (view t).answers (ctx.key r) ds, Shown r o) := by
  rcases deploy_slot hPatient hDone with
    ⟨left, hLingers, hFades⟩ | ⟨hNever, hStands⟩
  · constructor
    · intro other hOther k o hAnswer
      have hLeft : left = other := by
        have hSame := hLingers.1.symm.trans hOther.1
        simpa using hSame
      rw [← hLeft]
      exact Cluster.answers_of_fades hFades hCalm hAnswer
    · intro hNever
      exact absurd hLingers (hNever left)
  · constructor
    · intro left hLingers
      exact absurd hLingers (hNever left)
    · intro _
      exact Cluster.answers_of_stands hStands hCalm

namespace World

/- A resource that stays, and a world in which it was deployed
   and is being deleted, with two reads left. -/
def app : Resource :=
  .plain "v1" "ConfigMap" "app"

/- A world whose object was deleted and shows for two more
   reads. -/
def departing : World :=
  { (default : World) with
    cluster :=
      (((Cluster.empty.create "ConfigMap" "previews" app).1.lag
        "app" 2).delete ⟨"ConfigMap", "previews", "app"⟩).1 }

/- Two reads of it. -/
def appReads : List Deed :=
  [.call (.get ⟨"ConfigMap", "previews", "app"⟩),
    .call (.get ⟨"ConfigMap", "previews", "app"⟩)]

/- The reads do not disturb the object. -/
theorem appReads_calm :
    ∀ d ∈ appReads,
      ¬ d.Disturbs ⟨"ConfigMap", "previews", "app"⟩ := by
  simp [appReads, Deed.Disturbs]

end World

/- A new form of an object that is being deleted replaces it
   and stays. -/
theorem Reconcile.deploy_endures_departing :
    ∃ t,
      eval World.perform
          (deploy ⟨"previews", {}, 0⟩
            (World.app.withField "data" (.string "new"))).run
          World.departing = (t, .ok ()) ∧
        ∀ o ∈ t.cluster.answers
          ⟨"ConfigMap", "previews", "app"⟩ World.appReads,
          Shown (World.app.withField "data" (.string "new"))
            o := by
  have hOk :
      (eval World.perform
        (deploy ⟨"previews", {}, 0⟩
          (World.app.withField "data" (.string "new"))).run
        World.departing).2.isOk = true := by
    decide +kernel
  rcases hRun : eval World.perform
      (deploy ⟨"previews", {}, 0⟩
        (World.app.withField "data" (.string "new"))).run
      World.departing with ⟨t, e | ⟨⟩⟩
  · rw [hRun] at hOk
    cases hOk
  · refine ⟨t, rfl, ?_⟩
    apply (Reconcile.deploy_endures World.perform_patient hRun
      World.appReads_calm).2
    intro left hLingers
    have hOther : ((World.departing.cluster.slot
        ⟨"ConfigMap", "previews", "app"⟩).object.any fun live =>
          !live.sameSpec
            (World.app.withField "data" (.string "new"))) =
          true := by
      decide +kernel
    have hSame := hLingers.2
    change ∀ live, (World.departing.cluster.slot
      ⟨"ConfigMap", "previews", "app"⟩).object = some live →
        _ at hSame
    cases hObject : (World.departing.cluster.slot
        ⟨"ConfigMap", "previews", "app"⟩).object with
    | none =>
        rw [hObject] at hOther
        cases hOther
    | some live =>
        rw [hObject, Option.any_some, hSame live hObject]
          at hOther
        cases hOther

/-
  An object that is being deleted is left alone when it is as
  desired.  The deploy goes well, its read shows the object,
  the next one too, and then it is gone.
-/
theorem Reconcile.deploy_fades :
    ¬ ∀ (w t : World) (ctx : Context) (r : Resource)
      (ds : List Deed),
      eval World.perform (deploy ctx r).run w = (t, .ok ()) →
      (∀ d ∈ ds, ¬ d.Disturbs (ctx.key r)) →
      ∀ o ∈ t.cluster.answers (ctx.key r) ds, Shown r o := by
  intro hEndures
  have hOk :
      (eval World.perform
        (deploy ⟨"previews", {}, 0⟩ World.app).run
        World.departing).2.isOk = true := by
    decide +kernel
  have hShown :
      ((eval World.perform
        (deploy ⟨"previews", {}, 0⟩ World.app).run
        World.departing).1.cluster.answers
          ⟨"ConfigMap", "previews", "app"⟩
          World.appReads).map Option.isSome = [true, false] := by
    decide +kernel
  rcases hRun : eval World.perform
      (deploy ⟨"previews", {}, 0⟩ World.app).run
      World.departing with ⟨t, e | ⟨⟩⟩
  · rw [hRun] at hOk
    cases hOk
  · rw [hRun] at hShown
    have hFalse : false ∈ (t.cluster.answers
        ⟨"ConfigMap", "previews", "app"⟩
        World.appReads).map Option.isSome := by
      rw [hShown]
      simp
    rcases List.mem_map.1 hFalse with ⟨o, ho, hNone⟩
    rcases hEndures _ t _ World.app World.appReads hRun
      World.appReads_calm o ho with ⟨live, rfl, -⟩
    cases hNone

end Preview
