import Preview.Proofs.Apart
import Preview.Proofs.Lingering
import Preview.Proofs.Relaying

/-
  Following an object by the events of a watch.

  Whatever is done to a cluster while a subscription is open,
  its events turn the object that was there when it was opened
  into the one that is there now.  What happens to other
  objects, and to other subscriptions, makes no difference to
  it, and nothing comes after it was stopped.

  Main declarations:
    * `Deed.taken?` and `Cluster.delivered`
    * `Deed.Seeds`, `Deed.Touches` and `Deed.numbers_act`
    * `Cluster.Follows` and `Deed.follows_act`
    * `Deed.act_only` and `Cluster.delivered_filter`
    * `Cluster.watch_replays`
-/

namespace Preview

------------------------------------------------------------
-- Delivered Items
------------------------------------------------------------

/- What a deed takes from a subscription. -/
def Deed.taken? (id : Nat) (c : Cluster) : Deed → Option Item
  | take own =>
      if own = id then (c.take? id).map (·.2) else none
  | _ => none

namespace Cluster

/- What is taken from a subscription by some deeds. -/
def taken (id : Nat) : Cluster → List Deed → List Item
  | _, [] => []
  | c, d :: ds => (d.taken? id c).toList ++ taken id (d.act c) ds

/- What waits in a subscription. -/
def waiting (c : Cluster) (id : Nat) : List Item :=
  ((c.subscription? id).map Subscription.pending).getD []

/- What has come to a subscription after some deeds: it was
   taken, or it waits. -/
def delivered
    (c : Cluster)
    (id : Nat)
    (ds : List Deed) : List Item :=
  c.taken id ds ++ (c.after ds).waiting id

theorem after_concat (c : Cluster) (ds : List Deed) (d : Deed) :
    c.after (ds ++ [d]) = d.act (c.after ds) := by
  unfold after
  rw [List.foldl_append]
  rfl

/- What is taken last comes last. -/
theorem taken_concat
    (c : Cluster)
    (id : Nat)
    (ds : List Deed)
    (d : Deed) :
    c.taken id (ds ++ [d]) =
      c.taken id ds ++ (d.taken? id (c.after ds)).toList := by
  induction ds generalizing c with
  | nil => exact List.append_nil _
  | cons first ds ih =>
      rw [List.cons_append, taken, taken, ih, List.append_assoc]
      rfl

/- What is taken first comes first. -/
theorem delivered_cons
    (c : Cluster)
    (id : Nat)
    (d : Deed)
    (ds : List Deed) :
    c.delivered id (d :: ds) =
      (d.taken? id c).toList ++ (d.act c).delivered id ds :=
  List.append_assoc ..

end Cluster

------------------------------------------------------------
-- Deeds on a Subscription
------------------------------------------------------------

namespace Deed

variable {c : Cluster} {key : Key} {id : Nat}

/- A deed puts an object into the cluster unnoticed. -/
def Seeds (key : Key) : Deed → Prop
  | insert space r => ⟨r.kind, space, r.name⟩ = key
  | _ => False

/- A deed asks for an object, reports on it or seeds it. -/
def Touches (key : Key) : Deed → Prop
  | call asked => (World.subject asked).2 = key
  | insert space r => ⟨r.kind, space, r.name⟩ = key
  | report e => e.key = key
  | _ => False

/- Seeding an object touches it. -/
theorem touches_of_seeds
    {d : Deed}
    (hSeeds : d.Seeds key) :
    d.Touches key := by
  cases d with
  | insert space r => exact hSeeds
  | _ => cases hSeeds

/- What is taken is missing in its own subscription only. -/
theorem act_take (own : Nat) (c : Cluster) :
    ∃ f : Subscription → Subscription,
      (∀ s, (f s).id = s.id) ∧
        (take own).act c = c.adjust own f := by
  change ∃ f : Subscription → Subscription,
    _ ∧ ((c.take? own).map (·.1)).getD c = _
  unfold Cluster.take?
  split
  · rename_i item rest _
    exact ⟨fun s => { s with pending := rest },
      fun _ => rfl, rfl⟩
  · refine ⟨fun s => s, fun _ => rfl, ?_⟩
    unfold Cluster.adjust
    simp only [ite_self, List.map_id']
    rfl

/- No deed gives a number twice. -/
theorem numbers_act (d : Deed) (c : Cluster) (id : Nat) :
    Cluster.Numbers id c (d.act c) := by
  cases d with
  | call asked =>
      have hRelays : Cluster.Relays default id
          (World.subject asked).2 c (c.perform asked).1 :=
        c.perform_relays asked
      exact hRelays.numbers
  | report e =>
      have hRelays : Cluster.Relays default id e.key c
          (c.setPhase e.key e.phase).1 :=
        c.setPhase_relays e.key e.phase
      exact hRelays.numbers
  | subscribe follows pending ended =>
      have hConveys : Cluster.Conveys default id c []
          (c.subscribe follows pending ended).1 :=
        c.subscribe_conveys follows pending ended
      exact hConveys.toNumbers
  | release own =>
      refine .of_same rfl fun hNone => ?_
      exact (c.subscription?_release id own).trans
        ((congrArg _ hNone).trans (ite_self _))
  | take own =>
      rcases act_take own c with ⟨f, hId, hAct⟩
      rw [hAct]
      refine .of_same rfl fun hNone => ?_
      by_cases hOwn : own = id
      · subst hOwn
        rw [c.subscription?_adjust own hId, hNone]
        rfl
      · exact (c.subscription?_adjust_other id hOwn hId).trans
          hNone
  | _ => exact .of_same rfl fun hNone => hNone

/- Whatever is done, but for seeding the object and taking from
   or stopping the subscription: it is conveyed. -/
theorem conveys_act
    {d : Deed}
    (hUnseeded : ¬ d.Seeds key)
    (hOpen : d ≠ .release id)
    (hLeft : d ≠ .take id)
    (c : Cluster) :
    ∃ es, Cluster.Conveys key id c es (d.act c) ∧
      (¬ d.Touches key → es = []) := by
  have hSame {e : Cluster}
      (hObject : e.objects.get? key = c.objects.get? key)
      (hFound : e.subscription? id = c.subscription? id)
      (hSerial : e.serial = c.serial) :
      ∃ es, Cluster.Conveys key id c es e ∧
        (¬ d.Touches key → es = []) :=
    ⟨[], .of_same hObject hFound hSerial, fun _ => rfl⟩
  cases d with
  | call asked =>
      rcases c.perform_relays asked with ⟨es, hConveys, hNone⟩
      exact ⟨es, hConveys, fun hOther =>
        hNone (Ne.symm hOther)⟩
  | insert space r =>
      refine hSame ?_ rfl rfl
      exact (Registry.get?_set ..).trans
        (if_neg (Ne.symm hUnseeded))
  | report e =>
      rcases c.setPhase_relays e.key e.phase with
        ⟨es, hConveys, hNone⟩
      exact ⟨es, hConveys, fun hOther =>
        hNone (Ne.symm hOther)⟩
  | subscribe follows pending ended =>
      exact ⟨[], c.subscribe_conveys follows pending ended,
        fun _ => rfl⟩
  | release own =>
      refine hSame rfl ?_ rfl
      refine (c.subscription?_release id own).trans (if_neg ?_)
      rintro rfl
      exact hOpen rfl
  | take own =>
      have hOwn : own ≠ id := by
        rintro rfl
        exact hLeft rfl
      rcases act_take own c with ⟨f, hId, hAct⟩
      rw [hAct]
      exact hSame rfl
        (c.subscription?_adjust_other id hOwn hId) rfl
  | _ => exact hSame rfl rfl rfl

/- Nothing is taken under a number that is not open. -/
theorem taken?_of_absent
    (hNone : c.subscription? id = none)
    (d : Deed) :
    d.taken? id c = none := by
  cases d with
  | take own =>
      change (if own = id then (c.take? id).map (·.2)
        else none) = none
      unfold Cluster.take?
      rw [hNone]
      exact ite_self _
  | _ => rfl

end Deed

namespace Cluster

/-
  Between two clusters a subscription that follows an object
  was open.  Some events tell how the object has changed; they
  have come to the subscription behind what waited there, and
  some items were taken.
-/
structure Follows
    (key : Key)
    (id : Nat)
    (c : Cluster)
    (items : List Item)
    (es : List Event)
    (d : Cluster) : Prop where
  hObject : Replays (c.objects.get? key) es (d.objects.get? key)
  hPending : ∀ s, c.subscription? id = some s →
    s.key = some key →
      ∃ rest, items ++ rest = s.pending ++ es.map .ok ∧
        d.subscription? id = some { s with pending := rest }

namespace Follows

variable {key : Key} {id : Nat} {c d e : Cluster}

theorem refl (key : Key) (id : Nat) (c : Cluster) :
    Follows key id c [] [] c where
  hObject := .done _
  hPending s hFound _ :=
    ⟨s.pending, (List.append_nil _).symm, hFound⟩

/- Two parts of a history are followed in turn. -/
theorem trans
    {items more : List Item}
    {es fs : List Event}
    (hFirst : Follows key id c items es d)
    (hThen : Follows key id d more fs e) :
    Follows key id c (items ++ more) (es ++ fs) e where
  hObject := hFirst.hObject.trans hThen.hObject
  hPending s hFound hKey := by
    rcases hFirst.hPending s hFound hKey with
      ⟨rest, hItems, hLater⟩
    rcases hThen.hPending _ hLater hKey with
      ⟨rest', hMore, hLast⟩
    refine ⟨rest', ?_, hLast⟩
    rw [List.append_assoc, hMore, ← List.append_assoc, hItems,
      List.map_append, List.append_assoc]

/- What is conveyed waits to be taken. -/
theorem of_conveys
    {es : List Event}
    (hConveys : Conveys key id c es d) :
    Follows key id c [] es d where
  hObject := hConveys.hObject
  hPending s hFound hKey :=
    ⟨_, rfl, hConveys.hPending s hFound hKey⟩

end Follows

end Cluster

namespace Deed

variable {key : Key} {id : Nat}

/- Taking changes no object, and takes what came first. -/
theorem follows_take (c : Cluster) :
    Cluster.Follows key id c ((take id).taken? id c).toList []
      ((take id).act c) where
  hObject := by
    rcases act_take id c with ⟨f, -, hAct⟩
    rw [hAct]
    exact .done _
  hPending s hFound _ := by
    have hTake := c.take?_of_found id hFound
    change ∃ rest,
      (if id = id then (c.take? id).map (·.2)
        else none).toList ++ rest = _ ∧
      (((c.take? id).map (·.1)).getD c).subscription? id = _
    rw [if_pos rfl]
    cases hPending : s.pending with
    | nil =>
        rw [hPending] at hTake
        rw [hTake]
        refine ⟨[], rfl, ?_⟩
        rw [← hPending]
        exact hFound
    | cons item rest =>
        rw [hPending] at hTake
        rcases hTake with ⟨d, hTake, hLater⟩
        rw [hTake]
        exact ⟨rest, (List.append_nil _).symm, hLater⟩

/- Whatever is done, but for seeding the object and stopping
   the subscription: the object is followed.  What is not about
   the object brings nothing. -/
theorem follows_act
    {d : Deed}
    (hUnseeded : ¬ d.Seeds key)
    (hOpen : d ≠ .release id)
    (c : Cluster) :
    ∃ es,
      Cluster.Follows key id c (d.taken? id c).toList es
          (d.act c) ∧
        (¬ d.Touches key → es = []) := by
  by_cases hTake : d = .take id
  · rw [hTake]
    exact ⟨[], follows_take c, fun _ => rfl⟩
  · rcases conveys_act hUnseeded hOpen hTake c with
      ⟨es, hConveys, hNone⟩
    have hNothing : d.taken? id c = none := by
      cases d with
      | take own =>
          refine if_neg ?_
          rintro rfl
          exact hTake rfl
      | _ => rfl
    rw [hNothing]
    exact ⟨es, .of_conveys hConveys, hNone⟩

end Deed

namespace Cluster

section Runs

variable {key : Key} {id : Nat} {ds : List Deed}

/- By induction on the deeds. -/
theorem follows_after
    (hUnseeded : ∀ d ∈ ds, ¬ d.Seeds key)
    (hOpen : ∀ d ∈ ds, d ≠ .release id)
    (c : Cluster) :
    ∃ es, Follows key id c (c.taken id ds) es
      (c.after ds) := by
  induction ds generalizing c with
  | nil => exact ⟨[], .refl key id c⟩
  | cons d ds ih =>
      rcases Deed.follows_act (hUnseeded d (.head _))
        (hOpen d (.head _)) c with ⟨es, hFirst, -⟩
      rcases ih (fun d hd => hUnseeded d (.tail _ hd))
        (fun d hd => hOpen d (.tail _ hd)) (d.act c) with
        ⟨fs, hThen⟩
      exact ⟨es ++ fs, hFirst.trans hThen⟩

/- Whatever is done, each number is given once. -/
theorem numbers_after
    (c : Cluster)
    (id : Nat)
    (ds : List Deed) :
    Numbers id c (c.after ds) := by
  induction ds generalizing c with
  | nil => exact .of_same rfl fun hNone => hNone
  | cons d ds ih => exact (d.numbers_act c id).trans (ih _)

/- Nothing ever comes to a subscription that was stopped, since
   its number is not given again. -/
theorem delivered_of_stopped
    {c : Cluster}
    (hNone : c.subscription? id = none)
    (hGiven : id < c.serial)
    (ds : List Deed) :
    c.delivered id ds = [] := by
  induction ds generalizing c with
  | nil =>
      unfold delivered waiting
      change [] ++ ((c.subscription? id).map _).getD [] = []
      rw [hNone]
      rfl
  | cons d ds ih =>
      have hNumbers := d.numbers_act c id
      rw [delivered_cons, Deed.taken?_of_absent hNone,
        ih (hNumbers.hAbsent hNone (.inl hGiven))
          (Nat.lt_of_lt_of_le hGiven hNumbers.hSerial)]
      rfl

end Runs

end Cluster

------------------------------------------------------------
-- Other Subscriptions
------------------------------------------------------------

namespace Deed

variable (d : Deed) (c : Cluster) (id : Nat)

/- What is taken from a subscription is the same without the
   others. -/
theorem taken?_only :
    d.taken? id (c.only id) = d.taken? id c := by
  cases d with
  | take own =>
      change (if own = id then ((c.only id).take? id).map (·.2)
        else none) =
          if own = id then (c.take? id).map (·.2) else none
      rw [c.take?_only, Option.map_map]
      rfl
  | _ => rfl

/- What a deed makes of a subscription and of everything else
   does not depend on other subscriptions. -/
theorem act_only :
    (d.act c).only id = (d.act (c.only id)).only id := by
  cases d with
  | call asked => exact c.perform_only id asked
  | insert space r =>
      exact ((c.insert space r).only_only id).symm
  | report e =>
      change (c.setPhase e.key e.phase).1.only id =
        ((c.only id).setPhase e.key e.phase).1.only id
      rw [c.setPhase_only, ← c.setPhase_only,
        Cluster.only_only]
  | script name phases =>
      exact ((c.script name phases).only_only id).symm
  | lag name reads =>
      exact ((c.lag name reads).only_only id).symm
  | fail op name e =>
      exact ((c.fail op name e).only_only id).symm
  | clearJournal => exact (c.clearJournal.only_only id).symm
  | subscribe follows pending ended =>
      exact c.subscribe_only id follows pending ended
  | release own => exact c.release_only id own
  | take own =>
      by_cases hOwn : own = id
      · subst hOwn
        change (((c.take? own).map (·.1)).getD c).only own =
          ((((c.only own).take? own).map (·.1)).getD
            (c.only own)).only own
        rw [c.take?_only]
        cases c.take? own with
        | none => exact (c.only_only own).symm
        | some t => exact (t.1.only_only own).symm
      · rcases act_take own c with ⟨f, hId, hAct⟩
        rcases act_take own (c.only id) with ⟨g, hId', hAct'⟩
        rw [hAct, hAct', c.adjust_only_other id hOwn hId,
          Cluster.adjust_only_other _ id hOwn hId', c.only_only]

/- A deed stops a subscription. -/
def isRelease : Deed → Bool
  | release _ => true
  | _ => false

end Deed

namespace Cluster

section Others

variable {id : Nat}

/- Two clusters that agree on one subscription deliver the same
   to it. -/
theorem delivered_of_only
    {c e : Cluster}
    (hOnly : c.only id = e.only id)
    (ds : List Deed) :
    c.delivered id ds = e.delivered id ds := by
  induction ds generalizing c e with
  | nil =>
      change [] ++ ((c.subscription? id).map _).getD [] =
        [] ++ ((e.subscription? id).map _).getD []
      rw [← c.subscription?_only, hOnly, e.subscription?_only]
  | cons d ds ih =>
      have hTaken : d.taken? id c = d.taken? id e := by
        rw [← d.taken?_only c, hOnly, d.taken?_only e]
      have hAct : (d.act c).only id = (d.act e).only id := by
        rw [d.act_only c, hOnly, ← d.act_only e]
      rw [delivered_cons, delivered_cons, hTaken, ih hAct]

/- It makes no difference to a subscription whether others are
   stopped. -/
theorem delivered_filter
    {ds : List Deed}
    (hOpen : ∀ d ∈ ds, d ≠ .release id)
    (c : Cluster) :
    c.delivered id (ds.filter (!·.isRelease)) =
      c.delivered id ds := by
  induction ds generalizing c with
  | nil => rfl
  | cons d ds ih =>
      have hLater : ∀ d ∈ ds, d ≠ .release id :=
        fun d hd => hOpen d (.tail _ hd)
      by_cases hStops : d.isRelease = true
      · rw [List.filter_cons_of_neg (by simp [hStops]),
          ih hLater]
        cases d with
        | release own =>
            have hOther : own ≠ id := by
              rintro rfl
              exact hOpen _ (.head _) rfl
            rw [delivered_cons]
            exact delivered_of_only
              (c.release_only_other id hOther).symm ds
        | _ => cases hStops
      · rw [List.filter_cons_of_pos (by simp [hStops]),
          delivered_cons, delivered_cons, ih hLater]

end Others

------------------------------------------------------------
-- Watches
------------------------------------------------------------

/- What is not about the object brings nothing to a
   subscription that follows it. -/
theorem delivered_concat
    {key : Key}
    {c : Cluster}
    {id : Nat}
    {ds : List Deed}
    {s : Subscription}
    (hFound : (c.after ds).subscription? id = some s)
    (hKey : s.key = some key)
    {d : Deed}
    (hOther : ¬ d.Touches key)
    (hOpen : d ≠ .release id) :
    c.delivered id (ds ++ [d]) = c.delivered id ds := by
  have hUnseeded : ¬ d.Seeds key := fun hSeeds =>
    hOther (Deed.touches_of_seeds hSeeds)
  rcases Deed.follows_act hUnseeded hOpen (c.after ds) with
    ⟨es, hFollows, hNone⟩
  rcases hFollows.hPending s hFound hKey with
    ⟨rest, hItems, hLater⟩
  rw [hNone hOther, List.map_nil, List.append_nil] at hItems
  unfold delivered waiting
  rw [after_concat, taken_concat, hLater, hFound,
    List.append_assoc]
  exact congrArg (_ ++ ·) hItems

/- Nothing comes to a subscription once it was stopped. -/
theorem delivered_release
    {c : Cluster}
    {id : Nat}
    (hGiven : id < c.serial)
    (later : List Deed) :
    (c.release id).delivered id later = [] ∧
      ((c.release id).after later).isClosed id = true := by
  have hNone : (c.release id).subscription? id = none :=
    (c.subscription?_release id id).trans (if_pos rfl)
  constructor
  · exact delivered_of_stopped hNone hGiven later
  · have hStays := (numbers_after _ id later).hAbsent hNone
      (.inl hGiven)
    unfold isClosed
    rw [hStays]

/-
  An object is watched, in any cluster that was empty once,
  and then anything is done but for seeding the object and
  stopping the watch.  The watch is still open, and the events
  that have come to it turn the object that was stored then
  into the one that is stored now.  What is not about the
  object brings nothing, and whether other watches are stopped
  makes no difference.  Once it is stopped, nothing comes any
  more.
-/
theorem watch_replays
    (before : List Deed)
    {key : Key}
    {c : Cluster}
    {id : Nat}
    (hWatch : (empty.after before).watch key = (c, .ok id))
    {ds : List Deed}
    (hUnseeded : ∀ d ∈ ds, ¬ d.Seeds key)
    (hOpen : ∀ d ∈ ds, d ≠ .release id) :
    (∃ es : List Event,
      c.delivered id ds = es.map .ok ∧
        Replays ((empty.after before).objects.get? key) es
          ((c.after ds).objects.get? key)) ∧
      (c.after ds).isClosed id = false ∧
      (∀ d : Deed, ¬ d.Touches key → d ≠ .release id →
        c.delivered id (ds ++ [d]) = c.delivered id ds) ∧
      c.delivered id (ds.filter (!·.isRelease)) =
        c.delivered id ds ∧
      ∀ later : List Deed,
        ((c.after ds).release id).delivered id later = [] ∧
          (((c.after ds).release id).after later).isClosed id =
            true := by
  have hFree : (empty.after before).subscription?
      (empty.after before).serial = none :=
    (numbers_after empty _ before).hAbsent rfl
      (.inr (Nat.le_refl _))
  rcases watch_of_ok hFree hWatch with
    ⟨hObjects, hGiven, hFound⟩
  rcases follows_after hUnseeded hOpen c with ⟨es, hFollows⟩
  rcases hFollows.hPending _ hFound rfl with
    ⟨rest, hItems, hLater⟩
  constructor
  · refine ⟨es, ?_, hObjects ▸ hFollows.hObject⟩
    unfold delivered waiting
    rw [hLater]
    exact hItems
  constructor
  · unfold isClosed
    rw [hLater]
    rfl
  constructor
  · intro d hOther hKept
    exact delivered_concat hLater rfl hOther hKept
  constructor
  · exact delivered_filter hOpen c
  · exact delivered_release
      (Nat.lt_of_lt_of_le hGiven (numbers_after c id ds).hSerial)

/- Another watch of an object, and a script for it. -/
def awaited : List Deed :=
  [.script "app" [.running],
    .call (.watch ⟨"ConfigMap", "previews", "app"⟩)]

/- The object is created, the other watch is stopped, and the
   object is deleted with some lag and read until it is gone.
   An item is taken while this goes on. -/
def passing : List Deed :=
  [.call (.create "ConfigMap" "previews" World.app),
    .release 0, .take 1, .lag "app" 1,
    .call (.delete ⟨"ConfigMap", "previews", "app"⟩),
    .call (.get ⟨"ConfigMap", "previews", "app"⟩),
    .call (.get ⟨"ConfigMap", "previews", "app"⟩)]

/- The second watch sees it all, the report of the script and
   the removal by the last read as well. -/
theorem watch_replays_passing :
    ∃ c es,
      (empty.after awaited).watch
          ⟨"ConfigMap", "previews", "app"⟩ = (c, .ok 1) ∧
        c.delivered 1 passing = es.map .ok ∧
        es.map Event.change = [.added, .modified, .deleted] ∧
        Replays none es none ∧
        c.delivered 1 (passing.filter (!·.isRelease)) =
          es.map .ok := by
  have hOpened : ((empty.after awaited).watch
      ⟨"ConfigMap", "previews", "app"⟩).2.toOption = some 1 := by
    decide +kernel
  have hChanges : (((empty.after awaited).watch
      ⟨"ConfigMap", "previews", "app"⟩).1.delivered 1
        passing).map (fun i => i.toOption.map Event.change) =
          [some .added, some .modified, some .deleted] := by
    decide +kernel
  have hGone : (((empty.after awaited).watch
      ⟨"ConfigMap", "previews", "app"⟩).1.after
        passing).objects.contains
          ⟨"ConfigMap", "previews", "app"⟩ = false := by
    decide +kernel
  have hUnseeded : ∀ d ∈ passing,
      ¬ d.Seeds ⟨"ConfigMap", "previews", "app"⟩ := by
    simp [passing, Deed.Seeds]
  have hOpen : ∀ d ∈ passing, d ≠ .release 1 := by
    simp [passing]
  rcases hWatch : (empty.after awaited).watch
      ⟨"ConfigMap", "previews", "app"⟩ with ⟨c, e | id⟩
  · rw [hWatch] at hOpened
    cases hOpened
  · rw [hWatch] at hOpened hChanges hGone
    cases hOpened
    rcases watch_replays awaited hWatch hUnseeded hOpen with
      ⟨⟨es, hDelivered, hReplays⟩, -, -, hFiltered, -⟩
    refine ⟨c, es, rfl, hDelivered, ?_, ?_, ?_⟩
    · rw [hDelivered, List.map_map] at hChanges
      have hSome := congrArg (List.map (Option.getD · .added))
        hChanges
      rw [List.map_map] at hSome
      exact hSome
    · have hAfter : (c.after passing).objects.get?
          ⟨"ConfigMap", "previews", "app"⟩ = none := by
        simpa [Registry.contains] using hGone
      rw [hAfter] at hReplays
      exact hReplays
    · rw [hFiltered, hDelivered]

end Cluster

end Preview
