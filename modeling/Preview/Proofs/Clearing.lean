import Preview.Proofs.Anatomy
import Preview.Proofs.Departure
import Preview.Proofs.Passes

/-
  What a sweep that runs alone leaves of the store.

  A delete run changes no other record than that of its
  instance, which it removes if it goes well.  Where every
  record that can be read lies under the key of its own
  instance, the delete runs of a sweep are upon different
  records, so each of them leaves what the end of the sweep
  finds there, and nothing else is touched.

  Main declarations:
    * `Repository.Spares` and `Action.Leads.spares`
    * `Job.delete_upon`
    * `Remainder` and `Service.delete_remainder`
    * `Service.Visits.leave`
    * `Store.Reads` and `Repository.Tidy`
    * `Repository.pick?` and `Repository.listed_values`
    * `Service.Cleared`
    * `Service.sweep_visits`
-/

namespace Preview

open Preview.Action (Handler eval exchanges)

------------------------------------------------------------
-- Frames
------------------------------------------------------------

/- What is put at a key shows there only. -/
theorem Store.get?_put
    (s : Store)
    (k : String)
    (left : Option String)
    (other : String) :
    (s.put k left).entries.get? other =
      if other = k then left else s.entries.get? other := by
  cases left with
  | none => exact Table.get?_erase s.entries k other
  | some text => exact Table.get?_insert s.entries k other text

/- A store has the same entries as another one, but for those
   under the keys of some instances. -/
def Repository.Spares
    (r : Repository)
    (is : List Instance)
    (s t : Store) : Prop :=
  ∀ k, (∀ i ∈ is, Store.key (r.path i.identity) ≠ .ok k) →
    t.entries.get? k = s.entries.get? k

namespace Repository.Spares

variable {r : Repository}
variable {is js : List Instance}
variable {s t u : Store}

theorem refl
    (r : Repository)
    (is : List Instance)
    (s : Store) :
    r.Spares is s s :=
  fun _ _ => rfl

theorem trans
    (hFirst : r.Spares is s t)
    (hRest : r.Spares is t u) :
    r.Spares is s u :=
  fun k hOther => (hRest k hOther).trans (hFirst k hOther)

/- The fewer instances are touched, the more is spared. -/
theorem mono
    (hSpares : r.Spares is s t)
    (hMore : is ⊆ js) :
    r.Spares js s t :=
  fun k hOther => hSpares k fun i hi => hOther i (hMore hi)

/- What a path with another key names is the same. -/
theorem content
    (hSpares : r.Spares is s t)
    {path : String}
    (hOther : ∀ i ∈ is,
      Store.key (r.path i.identity) ≠ Store.key path) :
    t.content? path = s.content? path := by
  unfold Store.content?
  cases hKey : Store.key path with
  | error e => rfl
  | ok k => exact hSpares k fun i hi => hKey ▸ hOther i hi

end Repository.Spares

/- A call of a store that is only to change the records of some
   instances touches no other entries. -/
theorem Store.perform_spares
    {r : Repository}
    {is : List Instance}
    {c : Call}
    (hUpon : (Preview.Call.store c).Upon r is)
    (s : Store) :
    r.Spares is s (s.perform c).1 := by
  cases hWrote : (Preview.Call.store c).wrote
      (s.perform c).2 with
  | false =>
      rw [(Answers.store c).of_not_wrote hWrote]
      exact .refl r is s
  | true =>
      rcases perform_of_wrote hWrote with
        ⟨path, k, left, hChange, hKey, hPut⟩
      rcases hUpon path left hChange with ⟨i, hi, rfl⟩
      intro other hOther
      rw [hPut, get?_put, if_neg]
      rintro rfl
      exact hOther i hi hKey

section Unsteady

variable {σ : Type} {h : Handler σ} {view : σ → Store}
variable (hStore : Store.Unsteady h view)

include hStore

/- It does not matter if the call fails. -/
theorem Store.Unsteady.spares
    {r : Repository}
    {is : List Instance}
    {c : Preview.Call}
    (hUpon : c.Upon r is)
    (s : σ) :
    r.Spares is (view s) (view (h s c).1) := by
  cases hKind : c.isStore with
  | false =>
      rw [hStore.stays s c hKind]
      exact .refl r is _
  | true =>
      cases c with
      | store c =>
          rcases hStore.acts s c with hActs | ⟨hSame, _⟩
          · have hAfter : view (h s (.store c)).1 =
                ((view s).perform c).1 := congrArg Prod.fst hActs
            rw [hAfter]
            exact perform_spares hUpon (view s)
          · rw [hSame]
            exact .refl r is _
      | _ => cases hKind

/- A program of such calls leaves the other entries alone. -/
theorem Action.Leads.spares
    {α : Type}
    {r : Repository}
    {is : List Instance}
    {m : Action α}
    (hUpon : m.Leads (Call.Upon r is) fun _ => True)
    (start : σ) :
    m.Yields h start fun _ _ t =>
      r.Spares is (view start) (view t) := by
  apply (hUpon.yields h
    (I := fun t => r.Spares is (view start) (view t))
    (fun t c hCall hSpares =>
      hSpares.trans (hStore.spares hCall t))
    (.refl r is _)).mono
  exact fun _ _ _ hEnd => hEnd.2.2

/- A scan that succeeds lists what is stored. -/
theorem Store.Unsteady.scan
    {s : σ}
    {path : String}
    (hOk : (h s (.store (.values path))).2.isOk = true) :
    view (h s (.store (.values path))).1 = view s ∧
      (h s (.store (.values path))).2 =
        .ok ((view s).values path) := by
  rcases hStore.acts s (.values path) with
    hActs | ⟨-, e, hFailed⟩
  · exact ⟨congrArg Prod.fst hActs, congrArg Prod.snd hActs⟩
  · rw [hFailed] at hOk
    cases hOk

end Unsteady

------------------------------------------------------------
-- One Run
------------------------------------------------------------

/- What a delete run leaves of the record of its instance:
   none if it goes well, or else what was there, its claim or
   its error. -/
inductive Remainder (i : Instance) (before : Option String) :
    Except Error Unit → Option String → Prop where
  | removed : Remainder i before (.ok ()) none
  | kept (e : Error) : Remainder i before (.error e) before
  | claimed (e : Error) :
      Remainder i before (.error e)
        (some (Job.delete.claimRecord i))
  | failed (e : Error) :
      Remainder i before (.error e)
        (some { i with status := .error : Instance }.record)

theorem Remainder.gone
    {i : Instance}
    {before after : Option String}
    (hRemainder : Remainder i before (.ok ()) after) :
    after = none := by
  cases hRemainder
  rfl

/- Before its end a run touches its own record only. -/
theorem Job.Preliminary.upon
    {s : Service}
    {i : Instance}
    {job : Job}
    {c : Call}
    (hCall : job.Preliminary s i c) :
    c.Upon s.repository [i] := by
  intro path left hChange
  cases hCall with
  | read => cases hChange
  | swap seen =>
      have hPath := (Prod.mk.inj (Option.some.inj hChange)).1
      exact ⟨i, List.mem_singleton_self i, hPath.symm⟩
  | aside hAside =>
      rw [Call.change?_of_not_isStore hAside.1] at hChange
      cases hChange

/- A delete run is only to change the record of its instance. -/
theorem Job.delete_upon (s : Service) (i : Instance) :
    (delete.program s i).Leads (Call.Upon s.repository [i])
      (fun _ => True) := by
  have hUpon (c : Call) (hSettles : c.Settles s.repository i) :
      c.Upon s.repository [i] :=
    fun path left hChange =>
      ⟨i, List.mem_singleton_self i,
        hSettles.2 path left hChange⟩
  refine program_induction
    (fun _ m => m.Leads (Call.Upon s.repository [i])
      (fun _ => True))
    ?_ ?_ ?_ ?_
  · exact fun _ _ _ _ hCall hNext => ⟨hCall.upon, hNext⟩
  · exact fun _ e _ =>
      (refuse_settles .delete e).mono hUpon fun _ => id
  · exact fun _ e _ =>
      (failing_settles .delete e).mono hUpon fun _ => id
  · exact fun _ _ _ _ =>
      removing_settles.mono hUpon fun _ => id

/- Before a delete run ends, the record of its instance is as it
   was when it began, or claimed. -/
def Instance.Held
    (i : Instance)
    (before now : Option String) : Prop :=
  now = before ∨ now = some (Job.delete.claimRecord i)

/- A run that fails here leaves what is there. -/
theorem Instance.Held.remainder
    {i : Instance}
    {before now : Option String}
    (hHeld : i.Held before now)
    (e : Error) :
    Remainder i before (.error e) now := by
  rcases hHeld with rfl | rfl
  · exact .kept e
  · exact .claimed e

section Runs

variable {σ : Type} {h : Handler σ} {view : σ → Store}
variable (hStore : Store.Unsteady h view)
variable {s : Service}
variable {i : Instance}
variable {before : Option String}
variable {t : σ}

include hStore

/- A preliminary call leaves the record, or claims it. -/
theorem Instance.Held.call
    (hHeld : i.Held before
      ((view t).content? (s.repository.path i.identity)))
    {c : Call}
    (hCall : Job.delete.Preliminary s i c) :
    i.Held before
      ((view (h t c).1).content?
        (s.repository.path i.identity)) := by
  cases hCall with
  | read =>
      rw [(hStore.value_cases t _).1]
      exact hHeld
  | swap seen =>
      rcases hStore.swap_cases t
        (s.repository.path i.identity) seen
        (Job.delete.claimRecord i) with
        ⟨-, hContent⟩ | ⟨hSame, -⟩
      · exact .inr hContent
      · rw [hSame]
        exact hHeld
  | aside hAside =>
      rw [hStore.stays t c hAside.1]
      exact hHeld

/- A failed run stores its error, or leaves what there is. -/
theorem failing_remainder
    (hHeld : i.Held before
      ((view t).content? (s.repository.path i.identity)))
    (e : Error) :
    (Job.delete.failing s i e).Yields h t fun _ result u =>
      Remainder i before result
        ((view u).content? (s.repository.path i.identity)) := by
  apply (lapsing_yields hStore s i .delete t e).mono
  intro xs result u hEnd
  cases hEnd.2 with
  | stored hLast hContent =>
      rw [hContent]
      exact .failed e
  | lost cause hLast hSame =>
      rw [hSame]
      exact hHeld.remainder _

/- Once the work is done the record is removed, or an error is
   stored in its place, or even that fails. -/
theorem removing_remainder
    (hHeld : i.Held before
      ((view t).content? (s.repository.path i.identity))) :
    (Job.removing s i).Yields h t fun _ result u =>
      Remainder i before result
        ((view u).content? (s.repository.path i.identity)) := by
  unfold Job.removing
  rw [Action.yields_call]
  rcases hStore.erase_cases t
    (s.repository.path i.identity) with
    ⟨removed, hReply, hGone⟩ | ⟨hSame, cause, hReply⟩
  · rw [hReply, Action.yields_call]
    change Remainder i before (.ok ())
      ((view (h _ (.send _)).1).content? _)
    rw [view_send hStore, hGone]
    exact .removed
  · rw [hReply]
    refine failing_remainder hStore ?_ (.store cause)
    rw [hSame]
    exact hHeld

/- Whatever a delete run is replied, its result tells what it
   leaves of its record. -/
theorem Service.delete_remainder
    (s : Service)
    (i : Instance)
    (start : σ) :
    (s.delete i).run.Yields h start fun _ result t =>
      Remainder i
        ((view start).content? (s.repository.path i.identity))
        result
        ((view t).content?
          (s.repository.path i.identity)) := by
  -- the induction is on the run from any state in which the
  -- record is still held
  suffices hRun : ∀ t,
      i.Held
        ((view start).content? (s.repository.path i.identity))
        ((view t).content? (s.repository.path i.identity)) →
      (Job.delete.program s i).Yields h t fun _ result u =>
        Remainder i
          ((view start).content?
            (s.repository.path i.identity))
          result
          ((view u).content?
            (s.repository.path i.identity)) from
    hRun start (.inl rfl)
  refine Job.program_induction
    (fun _ m => ∀ t,
      i.Held _
        ((view t).content? (s.repository.path i.identity)) →
      m.Yields h t fun _ result u =>
        Remainder i _ result
          ((view u).content? (s.repository.path i.identity)))
    ?_ ?_ ?_ ?_
  · intro past c next _ hCall hNext t hHeld
    exact hNext (h t c).2 (h t c).1 (hHeld.call hStore hCall)
  · intro past e _ t hHeld
    change Remainder i _ (.error e)
      ((view (h t (.send _)).1).content? _)
    rw [view_send hStore]
    exact hHeld.remainder e
  · intro past e _ t hHeld
    exact failing_remainder hStore hHeld e
  · intro past p _ _ t hHeld
    exact removing_remainder hStore hHeld

end Runs

------------------------------------------------------------
-- Many Runs
------------------------------------------------------------

/-
  Delete runs upon different records: what each of them leaves
  of its record is what there is in the end, and what it finds
  is what there was at first.
-/
theorem Service.Visits.leave
    {σ : Type}
    {h : Handler σ}
    {view : σ → Store}
    (hStore : Store.Unsteady h view)
    {s : Service}
    {Own : Instance → Option String → Except Error Unit →
      Option String → Prop}
    (hEach : ∀ i t,
      (s.delete i).run.Yields h t fun _ result u =>
        Own i
          ((view t).content? (s.repository.path i.identity))
          result
          ((view u).content? (s.repository.path i.identity)))
    {t u : σ}
    {visits : List Visit}
    (hVisits : s.Visits h t visits u)
    (hDistinct : (visits.map Visit.copy).Pairwise fun i j =>
      Store.key (s.repository.path i.identity) ≠
        Store.key (s.repository.path j.identity)) :
    s.repository.Spares (visits.map Visit.copy) (view t)
        (view u) ∧
      ∀ v ∈ visits,
        Own v.copy
          ((view t).content?
            (s.repository.path v.copy.identity))
          v.result
          ((view u).content?
            (s.repository.path v.copy.identity)) := by
  induction hVisits with
  | done t => exact ⟨.refl _ _ _, fun _ hv => (nomatch hv)⟩
  | @next t u visits i _ ih =>
      rw [List.map_cons, List.pairwise_cons] at hDistinct
      have hOwn := hEach i t
      have hRest : s.repository.Spares [i] (view t)
          (view (eval h (s.delete i).run t).1) :=
        (Job.delete_upon s i).spares hStore t
      rcases ih hDistinct.2 with ⟨hLater, hOwns⟩
      constructor
      · exact (hRest.mono (List.cons_subset_cons i
            (List.nil_subset _))).trans
          (hLater.mono (List.subset_cons_self i _))
      · intro v hv
        rcases List.mem_cons.1 hv with rfl | hv
        · rw [hLater.content fun j hj hSame =>
            hDistinct.1 j hj hSame.symm]
          exact hOwn
        · have hOther := hDistinct.1 v.copy
            (List.mem_map_of_mem hv)
          have hSame := hRest.content fun j hj =>
            List.mem_singleton.1 hj ▸ hOther
          rw [← hSame]
          exact hOwns v hv

------------------------------------------------------------
-- Tidy Stores
------------------------------------------------------------

/- Whatever can be read from a store is as is said of it and of
   its key. -/
def Store.Reads (s : Store) (P : String → Instance → Prop) :
    Prop :=
  ∀ k text i,
    s.entries.get? k = some text →
      Instance.ofRecord? text = some i → P k i

namespace Store.Reads

variable {s : Store}
variable {P : String → Instance → Prop}

theorem empty (P : String → Instance → Prop) :
    Store.empty.Reads P :=
  fun _ _ _ hEntry => (nomatch hEntry)

/- A text that is put has only to be right for its own key. -/
theorem put
    (hReads : s.Reads P)
    {k text : String}
    (hOwn : ∀ i, Instance.ofRecord? text = some i → P k i) :
    (s.put k (some text)).Reads P := by
  intro other found i hEntry hRead
  rw [Store.get?_put] at hEntry
  split at hEntry
  · rename_i hSame
    rw [← Option.some.inj hEntry] at hRead
    exact hSame ▸ hOwn i hRead
  · exact hReads other found i hEntry hRead

/- A record that is put into the store. -/
theorem put_record
    (hReads : s.Reads P)
    {k : String}
    {i : Instance}
    (hOwn : P k i) :
    (s.put k (some i.record)).Reads P := by
  refine hReads.put fun j hRead => ?_
  rw [Instance.ofRecord?_record] at hRead
  exact Option.some.inj hRead ▸ hOwn

end Store.Reads

namespace Repository

/- Every record that can be read lies under the key of its own
   instance. -/
def Tidy (r : Repository) (s : Store) : Prop :=
  s.Reads fun k i => Store.key (r.path i.identity) = .ok k

/- The instance of a record, if a sweep is to delete it. -/
def overdue? (asOf : Instant) (text : String) :
    Option Instance :=
  (Instance.ofRecord? text).filter (isSwept asOf)

/- A listing is read entry by entry. -/
theorem listed_eq
    (asOf : Instant)
    (listing : List (String × String)) :
    listed asOf listing =
      listing.filterMap fun e => overdue? asOf e.2 :=
  List.filter_filterMap

/- The instance of an entry, if a sweep is to delete it. -/
def pick? (r : Repository) (asOf : Instant) (k text : String) :
    Option Instance :=
  (Path.relative (Path.scope r.instancesPath) k).bind
    fun _ => overdue? asOf text

/- What a sweep takes from a store. -/
theorem listed_values
    (r : Repository)
    (asOf : Instant)
    (s : Store) :
    listed asOf (s.values r.instancesPath) =
      s.entries.entries.filterMap fun e =>
        r.pick? asOf e.1 e.2 := by
  rw [listed_eq, Store.values_eq_filterMap,
    List.filterMap_filterMap]
  refine congrArg (List.filterMap · _) (funext fun e => ?_)
  unfold pick?
  cases Path.relative (Path.scope r.instancesPath) e.1 <;> rfl

section Tidy

variable {r : Repository}
variable {s : Store}
variable (hTidy : r.Tidy s)

include hTidy

/- In a tidy store every listed record is filed. -/
theorem Tidy.filed : r.Filed (s.values r.instancesPath) :=
  fun e he i hRead =>
    hTidy _ e.2 i (Store.get?_of_mem_values he) hRead

/- If the instances are plain, they are all below the path that
   a sweep scans. -/
theorem Tidy.listed_entries
    (hPlain : s.Reads fun _ i => i.identity.Plain)
    (asOf : Instant) :
    listed asOf (s.values r.instancesPath) =
      listed asOf s.entries.entries := by
  rw [Repository.listed_values, listed_eq]
  refine List.filterMap_congr fun e he => ?_
  have hGet := (Entries.mem_iff_lookup s.entries.sorted).1 he
  unfold pick? overdue?
  cases hRead : Instance.ofRecord? e.2 with
  | none => simp
  | some i =>
      have hKey : Store.key (r.path i.identity) = .ok e.1 :=
        hTidy e.1 e.2 i hGet hRead
      have hOwn : i.identity.Plain :=
        hPlain e.1 e.2 i hGet hRead
      have hRooted := rooted_of_key hKey
      rw [key_path hRooted hOwn] at hKey
      rw [← Except.ok.inj hKey,
        relative_instancesPath hRooted hOwn]
      rfl

end Tidy

end Repository

------------------------------------------------------------
-- Sweeps
------------------------------------------------------------

/-
  What the delete runs of a sweep are, what they leave of a
  store, and what the report says:
    * they are made for the deployed instances which have
      expired, in the order of their keys
    * the labels of the report are those of these instances,
      each of them once and in the same order
    * the records of the removed instances are gone, and those
      of the others are what a failed run leaves
    * all other entries are as they were
-/
structure Service.Cleared
    (s : Service)
    (asOf : Instant)
    (before after : Store)
    (visits : List Visit)
    (report : SweepReport) : Prop where
  copies :
    visits.map Visit.copy =
      Repository.listed asOf before.entries.entries
  distinct : (visits.map (·.copy.label)).Nodup
  removed :
    report.removed.Sublist (visits.map (·.copy.label))
  failed :
    (report.failed.map (·.1)).Sublist
      (visits.map (·.copy.label))
  all :
    (report.removed ++ report.failed.map (·.1)).Perm
      (visits.map (·.copy.label))
  gone : ∀ v ∈ visits, v.copy.label ∈ report.removed →
    after.content? (s.repository.path v.copy.identity) = none
  left : ∀ v ∈ visits,
    Remainder v.copy
      (before.content? (s.repository.path v.copy.identity))
      v.result
      (after.content? (s.repository.path v.copy.identity))
  rest :
    s.repository.Spares (visits.map Visit.copy) before after

namespace Visit

variable (visits : List Visit)

/- The labels of removed instances are in the order of the
   visits. -/
theorem removed_sublist :
    (report visits).removed.Sublist
      (visits.map (·.copy.label)) := by
  rw [removed_report]
  exact List.filter_sublist.map _

theorem failed_sublist :
    ((report visits).failed.map (·.1)).Sublist
      (visits.map (·.copy.label)) := by
  rw [labels_failed_report]
  exact List.filter_sublist.map _

/- Every run is in the report, as removed or as failed. -/
theorem report_perm :
    ((report visits).removed ++
        (report visits).failed.map (·.1)).Perm
      (visits.map (·.copy.label)) := by
  rw [removed_report, labels_failed_report, ← List.map_append]
  exact (List.filter_append_perm _ visits).map _

/- Of runs with different labels, those that are reported as
   removed have gone well. -/
theorem ok_of_removed
    (hDistinct : (visits.map (·.copy.label)).Nodup)
    {v : Visit}
    (hv : v ∈ visits)
    (hRemoved : v.copy.label ∈ (report visits).removed) :
    v.result = .ok () := by
  rw [removed_report] at hRemoved
  rcases List.mem_map.1 hRemoved with ⟨w, hw, hLabel⟩
  rcases List.mem_filter.1 hw with ⟨hw, hOk⟩
  cases List.inj_on_of_nodup_map hDistinct hw hv hLabel
  rcases exists_of_isOk hOk with ⟨_, hResult⟩
  exact hResult

end Visit

/- Plain instances with different keys have different labels. -/
theorem Repository.labels_nodup
    {r : Repository}
    {is : List Instance}
    (hPlain : ∀ i ∈ is, i.identity.Plain)
    (hDistinct : is.Pairwise fun i j =>
      Store.key (r.path i.identity) ≠
        Store.key (r.path j.identity)) :
    (is.map Instance.label).Nodup := by
  refine List.pairwise_map.2
    (hDistinct.imp_of_mem fun {i j} hi hj hNe hLabel => hNe ?_)
  rw [Identity.label_injective (hPlain i hi) (hPlain j hj)
    hLabel]

section Sweeps

variable {σ : Type} {h : Handler σ} {view : σ → Store}
variable (hStore : Store.Unsteady h view)
variable {s : Service}
variable {asOf : Instant}

include hStore

/- The delete runs on what a sweep lists do not get into each
   other's way. -/
theorem Service.Visits.cleared
    {t u : σ}
    {visits : List Visit}
    (hVisits : s.Visits h t visits u)
    (hTidy : s.repository.Tidy (view t))
    (hPlain : (view t).Reads fun _ i => i.identity.Plain)
    (hCopies : visits.map Visit.copy =
      Repository.listed asOf
        ((view t).values s.repository.instancesPath)) :
    s.Cleared asOf (view t) (view u) visits
      (Visit.report visits) := by
  have hDistinct : (Repository.listed asOf _).Pairwise _ :=
    hTidy.filed.listed_distinct (Store.values_distinct _ _)
  have hPlains : ∀ i ∈ visits.map Visit.copy,
      i.identity.Plain := by
    intro i hi
    rw [hCopies] at hi
    rcases (Repository.mem_listed.1 hi).2 with ⟨e, he, hRead⟩
    exact hPlain _ _ i (Store.get?_of_mem_values he) hRead
  rw [← hCopies] at hDistinct
  have hLabels := Repository.labels_nodup hPlains hDistinct
  rw [List.map_map] at hLabels
  rcases hVisits.leave hStore (s.delete_remainder hStore)
    hDistinct with ⟨hRest, hOwn⟩
  have hGone (v : Visit) (hv : v ∈ visits)
      (hRemoved : v.copy.label ∈ (Visit.report visits).removed) :
      (view u).content?
        (s.repository.path v.copy.identity) = none := by
    have hLeft := hOwn v hv
    rw [Visit.ok_of_removed visits hLabels hv hRemoved] at hLeft
    exact hLeft.gone
  exact
    { copies := hCopies.trans (hTidy.listed_entries hPlain asOf)
      distinct := hLabels
      removed := Visit.removed_sublist visits
      failed := Visit.failed_sublist visits
      all := Visit.report_perm visits
      gone := hGone
      left := hOwn
      rest := hRest }

end Sweeps

------------------------------------------------------------
-- A Store with a Torn Record
------------------------------------------------------------

/- A store with an entry that cannot be read, and the record of
   an instance that has expired. -/
def Store.littered : Store :=
  (empty.put "previews/instances/web/torn" (some "?")).put
    (Service.lone.repository.path Instance.overdue.identity)
    (some Instance.overdue.record)

/- Of all the texts in it only one can be read. -/
theorem Store.reads_littered
    {P : String → Instance → Prop}
    (hOwn : P
      (Service.lone.repository.path Instance.overdue.identity)
      .overdue) :
    littered.Reads P := by
  have hTorn : Instance.ofRecord? "?" = none := rfl
  refine Reads.put_record (.put (.empty P) ?_) hOwn
  intro i hRead
  rw [hTorn] at hRead
  cases hRead

theorem Service.lone_tidy :
    lone.repository.Tidy .littered :=
  Store.reads_littered lone_key

/- That record is listed. -/
theorem Store.overdue_mem_littered :
    .overdue ∈
      Repository.listed default littered.entries.entries := by
  refine Repository.mem_listed.2 ⟨by decide, ?_⟩
  refine ⟨(Service.lone.repository.path
    Instance.overdue.identity, Instance.overdue.record), ?_,
    Instance.ofRecord?_record _⟩
  apply (Entries.mem_iff_lookup littered.entries.sorted).2
  exact (get?_put ..).trans (if_pos rfl)

------------------------------------------------------------
-- The Visits of a Sweep
------------------------------------------------------------

/-
  A sweep whose scan succeeds, on a store that may fail from
  then on and in which every record that can be read lies under
  the key of its own plain instance.  It has a report, makes one
  delete run for each deployed instance which has expired, in
  the order of the keys, and touches nothing else.
-/
theorem Service.sweep_visits
    {σ : Type}
    {h : Handler σ}
    {view : σ → Store}
    (hStore : Store.Unsteady h view)
    (s : Service)
    (asOf : Instant)
    {start : σ}
    (hTidy : s.repository.Tidy (view start))
    (hPlain : (view start).Reads fun _ i => i.identity.Plain)
    (hScan :
      (h start (.store (.values
        s.repository.instancesPath))).2.isOk = true) :
    (s.sweep asOf).run.Yields h start fun xs result t =>
      ∃ visits,
        result = .ok (Visit.report visits) ∧
          s.Visits h
            (h start (.store (.values
              s.repository.instancesPath))).1
            visits t ∧
          xs =
            ⟨.store (.values s.repository.instancesPath),
              .ok ((view start).values
                s.repository.instancesPath)⟩ ::
              visits.flatMap Visit.exchanges ∧
          s.Cleared asOf (view start) (view t) visits
            (Visit.report visits) := by
  rcases hStore.scan hScan with ⟨hSame, hListing⟩
  apply (s.sweep_yields h asOf start).mono
  intro xs result t hSweeps
  cases hSweeps with
  | unscanned hFailed =>
      rw [hFailed] at hScan
      cases hScan
  | @scanned listing visits _ hReply hVisits hCopies =>
      have hListed := Except.ok.inj (hReply.symm.trans hListing)
      subst hListed
      rw [← hSame] at hTidy hPlain hCopies
      have hCleared :=
        hVisits.cleared hStore hTidy hPlain hCopies
      rw [hSame] at hCleared
      exact ⟨visits, rfl, hVisits, rfl, hCleared⟩

/- The instance that has expired is visited, and the store fails
   to remove its record. -/
theorem Service.sweep_visits_littered :
    Store.Unsteady Store.flaky Prod.fst ∧
      lone.repository.Tidy .littered ∧
      (Store.littered.Reads fun _ i => i.identity.Plain) ∧
      (lone.sweep default).run.Yields Store.flaky
        (.littered, [false, false, false, true])
        fun _ result t =>
          ∃ visits,
            result = .ok (Visit.report visits) ∧
              .overdue ∈ visits.map Visit.copy ∧
              lone.Cleared default .littered t.1 visits
                (Visit.report visits) := by
  have hPlain := Store.reads_littered (P := fun _ i =>
    i.identity.Plain) Instance.overdue_plain
  have hScan : (Store.flaky
      (.littered, [false, false, false, true])
      (.store (.values
        lone.repository.instancesPath))).2.isOk = true := rfl
  refine ⟨Store.flaky_unsteady, lone_tidy, hPlain, ?_⟩
  apply (sweep_visits Store.flaky_unsteady lone default lone_tidy
    hPlain hScan).mono
  intro xs result t hVisits
  rcases hVisits with ⟨visits, hResult, -, -, hCleared⟩
  have hVisited := hCleared.copies ▸ Store.overdue_mem_littered
  exact ⟨visits, hResult, hVisited, hCleared⟩

end Preview
