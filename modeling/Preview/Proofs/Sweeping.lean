import Preview.Proofs.Claiming
import Preview.Proofs.Histories
import Preview.Proofs.Mirrors

/-
  What a sweep claims among other writers.

  A sweep scans the records once and then runs a delete run on
  the copy of each listed instance, which is kept from its
  claim by a record that is being deleted and by no other one.

  Main declarations:
    * `Overdue`
    * `Repository.listed` and `Repository.Filed`
    * `Mirrors.filed`
    * `Service.sweep_run`
    * `Service.ClaimsListed` and `Service.sweep_course`
    * `Service.scan_turn` and `Service.claim_turns`
    * `Service.sweep_claims`
-/

namespace Preview

open Pool

------------------------------------------------------------
-- Listings
------------------------------------------------------------

/- The record of a path is that of a deployed instance which
   has expired. -/
def Overdue (asOf : Instant) (stored : Option String) : Prop :=
  ∃ text i,
    stored = some text ∧
      Instance.ofRecord? text = some i ∧
      Repository.isSwept asOf i = true

namespace Repository

/- The instances that a sweep takes from what it has scanned. -/
def listed (asOf : Instant) (listing : List (String × String)) :
    List Instance :=
  (listing.filterMap fun e =>
    Instance.ofRecord? e.2).filter (isSwept asOf)

/- The instances of a listing lie under their own paths. -/
def Filed (r : Repository) (listing : List (String × String)) :
    Prop :=
  ∀ e ∈ listing, ∀ i, Instance.ofRecord? e.2 = some i →
    Store.key (r.path i.identity) =
      .ok (Path.scope r.instancesPath ++ e.1)

end Repository

/- What is listed below a path is there. -/
theorem Store.get?_of_mem_values
    {s : Store}
    {path : String}
    {e : String × String}
    (hListed : e ∈ s.values path) :
    s.entries.get? (Path.scope path ++ e.1) = some e.2 := by
  rw [values_eq_filterMap] at hListed
  rcases List.mem_filterMap.1 hListed with ⟨⟨k, x⟩, hEntry, hRest⟩
  rcases Option.map_eq_some_iff.1 hRest with ⟨_, hRelative, rfl⟩
  rw [Path.append_of_relative hRelative]
  exact (Entries.mem_iff_lookup s.entries.sorted).1 hEntry

/- No entry is listed twice. -/
theorem Store.values_distinct (s : Store) (path : String) :
    (s.values path).Pairwise fun a b => a.1 ≠ b.1 := by
  rw [values_eq_filterMap, List.pairwise_filterMap]
  refine s.entries.sorted.imp fun {a b} hLess => ?_
  intro c hc d hd hSame
  rcases Option.map_eq_some_iff.1 hc with ⟨_, hFirst, rfl⟩
  rcases Option.map_eq_some_iff.1 hd with ⟨_, hSecond, rfl⟩
  cases hSame
  rw [← Path.append_of_relative hFirst,
    ← Path.append_of_relative hSecond] at hLess
  exact String.lt_irrefl _ hLess

namespace Repository

variable {r : Repository}
variable {asOf : Instant}
variable {listing : List (String × String)}
variable {i : Instance}

/- Whatever is listed has been read from some entry. -/
theorem mem_listed :
    i ∈ listed asOf listing ↔
      isSwept asOf i = true ∧
        ∃ e ∈ listing, Instance.ofRecord? e.2 = some i := by
  unfold listed
  rw [List.mem_filter, List.mem_filterMap, and_comm]

/- Instances that lie under their own paths are listed under
   different keys. -/
theorem Filed.listed_distinct
    (hFiled : r.Filed listing)
    (hDistinct : listing.Pairwise fun a b => a.1 ≠ b.1) :
    (listed asOf listing).Pairwise fun i j =>
      Store.key (r.path i.identity) ≠
        Store.key (r.path j.identity) := by
  unfold listed
  refine List.Pairwise.filter _ (List.pairwise_filterMap.2
    (hDistinct.imp_of_mem fun {a b} ha hb hNe => ?_))
  intro i hi j hj hSame
  rw [hFiled a ha i hi, hFiled b hb j hj] at hSame
  have hChars := congrArg String.toList (Except.ok.inj hSame)
  rw [String.toList_append, String.toList_append,
    List.append_cancel_left_eq, String.toList_inj] at hChars
  exact hNe hChars

/- The record of a listed instance is overdue at the scan. -/
theorem Filed.overdue
    {s : Store}
    (hFiled : r.Filed (s.values r.instancesPath))
    (hListed : i ∈ listed asOf (s.values r.instancesPath)) :
    Overdue asOf (s.content? (r.path i.identity)) := by
  rcases mem_listed.1 hListed with ⟨hSwept, e, he, hRead⟩
  refine ⟨e.2, i, ?_, hRead, hSwept⟩
  unfold Store.content?
  rw [hFiled e he i hRead]
  exact Store.get?_of_mem_values he

end Repository

/- The entries of a store that mirrors a directory lie under
   their own paths. -/
theorem Mirrors.filed
    {r : Repository}
    {s : Store}
    {m : Directory}
    (hMirrors : Mirrors r s m)
    (hRooted : r.Rooted) :
    r.Filed (s.values r.instancesPath) := by
  intro e he i hRead
  rcases (hMirrors.stored _ _).1
    (Store.get?_of_mem_values he) with ⟨j, hj, hPath, hText⟩
  rw [hText, Instance.ofRecord?_record] at hRead
  cases hRead
  rw [hPath]
  exact Repository.key_path hRooted (hMirrors.own _ _ hj).2

------------------------------------------------------------
-- Courses of a Sweep
------------------------------------------------------------

/- A call is to change no other records than those of some
   instances. -/
def Call.Upon
    (r : Repository)
    (is : List Instance)
    (c : Call) : Prop :=
  ∀ path left, c.change? = some (path, left) →
    ∃ i ∈ is, path = r.path i.identity

/- What a sweep has done: it has scanned, and changed no other
   records than those of some instances. -/
def Service.Swept
    (s : Service)
    (listing : List (String × String))
    (is : List Instance)
    (past : List Exchange) : Prop :=
  ∃ done,
    past = ⟨.store (.values s.repository.instancesPath),
        .ok listing⟩ :: done ∧
      ∀ x ∈ done, x.call.Upon s.repository is

/- A sweep claims with the copy of a listed instance, what it
   has read is no objection to that, and it has changed no
   records but those of the instances listed before. -/
def Service.ClaimsListed
    (s : Service)
    (asOf : Instant)
    (past : List Exchange)
    (c : Call) : Prop :=
  ∀ path seen record,
    c = .store (.swap path seen record) →
      ∃ listing before copy after,
        Repository.listed asOf listing = before ++ copy :: after ∧
          s.Swept listing before past ∧
          path = s.repository.path copy.identity ∧
          record = Job.delete.claimRecord copy ∧
          Job.delete.objection? s.repository copy.identity
            seen = none

section Courses

variable {s : Service}
variable {asOf : Instant}
variable {listing : List (String × String)}
variable {is before after : List Instance}
variable {past : List Exchange}
variable {i : Instance}

/- Calls upon the same instances leave it so. -/
theorem Service.Swept.step
    {c : Call}
    (hSwept : s.Swept listing is past)
    (hUpon : c.Upon s.repository is)
    (reply : c.Reply) :
    s.Swept listing is (past ++ [⟨c, reply⟩]) := by
  rcases hSwept with ⟨done, rfl, hDone⟩
  refine ⟨done ++ [⟨c, reply⟩], rfl, fun x hx => ?_⟩
  rcases List.mem_append.1 hx with hx | hx
  · exact hDone x hx
  · cases List.mem_singleton.1 hx
    exact hUpon

/- More instances may be touched than were. -/
theorem Service.Swept.snoc
    (hSwept : s.Swept listing is past)
    (i : Instance) :
    s.Swept listing (is ++ [i]) past := by
  rcases hSwept with ⟨done, hPast, hDone⟩
  refine ⟨done, hPast, fun x hx path left hChange => ?_⟩
  rcases hDone x hx path left hChange with ⟨j, hj, hPath⟩
  exact ⟨j, List.mem_append_left _ hj, hPath⟩

/- A call is not made to claim, and is to change at most the
   record of one instance. -/
def Call.Settles (r : Repository) (i : Instance) (c : Call) :
    Prop :=
  c.isForClaim = false ∧
    ∀ path left, c.change? = some (path, left) →
      path = r.path i.identity

/- Only a call of the store could claim or change. -/
theorem Call.Settles.of_not_isStore
    {r : Repository}
    {c : Call}
    (hStore : c.isStore = false) :
    c.Settles r i := by
  refine ⟨not_isForClaim_of_not_isStore hStore, ?_⟩
  intro path left hChange
  rw [change?_of_not_isStore hStore] at hChange
  cases hChange

theorem Job.refuse_settles (job : Job) (e : Error) :
    (job.refuse i e).Leads (Call.Settles s.repository i)
      (fun _ => True) :=
  ⟨.of_not_isStore rfl, fun _ => trivial⟩

/- A failing run may store that, and claims nothing. -/
theorem Job.failing_settles (job : Job) (e : Error) :
    (job.failing s i e).Leads (Call.Settles s.repository i)
      (fun _ => True) := by
  refine ⟨⟨rfl, ?_⟩, fun saved => ⟨.of_not_isStore rfl, ?_⟩⟩
  · intro path left hChange
    exact (Prod.mk.inj (Option.some.inj hChange)).1.symm
  · intro _
    rcases saved with cause | ⟨⟩ <;> trivial

/- A removal touches the record of its instance only. -/
theorem Job.removing_settles :
    (removing s i).Leads (Call.Settles s.repository i)
      (fun _ => True) := by
  refine ⟨⟨rfl, ?_⟩, fun removed => ?_⟩
  · intro path left hChange
    exact (Prod.mk.inj (Option.some.inj hChange)).1.symm
  · rcases removed with cause | gone
    · exact failing_settles .delete _
    · exact ⟨.of_not_isStore rfl, fun _ => trivial⟩

/- A delete run that goes on with its claim does not claim
   again, and leaves the other records alone. -/
theorem Job.start_settles (p : Playbook) :
    (delete.start s p i).Leads (Call.Settles s.repository i)
      (fun _ => True) := by
  rw [start_delete]
  cases Plan.build s.render p i.vars s.catalog.manifests with
  | error e => exact failing_settles .delete e
  | ok plan =>
      refine (Action.leads_bind _ _ _).2
        ((plan.destroy_within s.context).mono
          (fun c => .of_not_isStore) fun outcome _ => ?_)
      cases outcome with
      | error e => exact failing_settles .delete e
      | ok _ => exact removing_settles

/- After its swap a run claims nothing again. -/
theorem Job.afterSwap_settles
    (p : Playbook)
    (reply : Except StoreError Bool) :
    (delete.afterSwap s p i reply).Leads
      (Call.Settles s.repository i) (fun _ => True) := by
  rcases reply with e | stored
  · exact start_settles p
  · cases stored with
    | false => exact refuse_settles .delete _
    | true => exact start_settles p

/- Calls that only settle one instance add it to those whose
   records may have changed. -/
theorem Service.course_of_settles
    {m : Action (Except Error Unit)}
    (hSettles : m.Leads (Call.Settles s.repository i)
      (fun _ => True))
    (hPast : s.Swept listing (before ++ [i]) past) :
    m.Course (s.ClaimsListed asOf)
      (fun past _ => s.Swept listing (before ++ [i]) past)
      past := by
  refine hSettles.course (fun past c hPast hCall => ⟨?_, ?_⟩)
    hPast
  · rintro path seen record rfl
    cases hCall.1
  · refine hPast.step (fun path left hChange => ?_)
    exact ⟨i, by simp, hCall.2 path left hChange⟩

/- The delete run on a listed instance claims with its copy. -/
theorem Service.delete_course
    (hListed :
      Repository.listed asOf listing = before ++ i :: after)
    (hPast : s.Swept listing before past) :
    (Job.delete.program s i).Course (s.ClaimsListed asOf)
      (fun past _ => s.Swept listing (before ++ [i]) past)
      past := by
  cases hBook : s.playbook i.identity.playbook with
  | error e =>
      rw [Job.program_of_unknown s i .delete hBook]
      exact course_of_settles (Job.refuse_settles _ e)
        (hPast.snoc i)
  | ok p =>
      by_cases hBusy : i.status ∈ Job.delete.busy
      · rw [Job.program_of_busy s i .delete hBook hBusy]
        exact course_of_settles (Job.refuse_settles _ _)
          (hPast.snoc i)
      · rw [Job.program_of_free s i .delete hBook hBusy]
        refine ⟨fun _ _ _ h => (nomatch h), fun reply => ?_⟩
        have hRead := hPast.step
          (c := .store (.value (s.repository.path i.identity)))
          (fun _ _ hChange => (nomatch hChange)) reply
        rcases reply with e | seen
        · exact course_of_settles (Job.start_settles p)
            (hRead.snoc i)
        · rw [Job.afterValue_read]
          cases hSeen : Job.delete.objection? s.repository
              i.identity seen with
          | some e =>
              rw [Job.proceed_of_objection hSeen]
              exact course_of_settles (Job.refuse_settles _ e)
                (hRead.snoc i)
          | none =>
              rw [Job.proceed_of_free hSeen]
              refine ⟨?_, fun swapped => ?_⟩
              · intro path seen record hCall
                rcases Store.Call.swap.inj
                  (Call.store.inj hCall) with ⟨rfl, rfl, rfl⟩
                exact ⟨listing, before, i, after, hListed,
                  hRead, rfl, rfl, hSeen⟩
              · refine course_of_settles
                  (Job.afterSwap_settles p swapped)
                  ((hRead.snoc i).step (fun path left h => ?_) _)
                exact ⟨i, by simp,
                  (Prod.mk.inj (Option.some.inj h)).1.symm⟩

/- What is known before a visit is that the instances before it
   were visited; the induction is on those that follow. -/
theorem Service.deleteAll_course
    (report : SweepReport)
    (hListed : Repository.listed asOf listing = before ++ is)
    (hPast : s.Swept listing before past) :
    (s.deleteAll is report).Course (s.ClaimsListed asOf)
      (fun _ _ => True) past := by
  induction is generalizing before report past with
  | nil => trivial
  | cons i is ih =>
      have hMore : Repository.listed asOf listing =
          before ++ [i] ++ is := by
        rw [hListed, List.append_assoc]
        rfl
      refine (Action.course_bind (Job.delete.program s i)
        (fun outcome =>
          s.deleteAll is (report.add i.label outcome)) _ _).2
        ((delete_course hListed hPast).mono
          fun past outcome hDone => ?_)
      exact ih _ hMore hDone

/- A sweep scans, and deletes what it takes from that. -/
theorem Service.sweep_run (s : Service) (asOf : Instant) :
    (s.sweep asOf).run =
      .call (.store (.values s.repository.instancesPath))
        fun reply =>
          match reply with
          | .ok listing =>
              (s.deleteAll (Repository.listed asOf listing)
                .empty).bind fun report => .finish (.ok report)
          | .error e => .finish (.error (.store e)) := by
  refine congrArg (Action.call _) (funext ?_)
  intro reply
  cases reply <;> rfl

/- Every claim of a sweep is one on what it has listed. -/
theorem Service.sweep_course (s : Service) (asOf : Instant) :
    (s.sweep asOf).run.Course (s.ClaimsListed asOf)
      (fun _ _ => True) [] := by
  rw [sweep_run]
  refine ⟨fun _ _ _ h => (nomatch h), fun reply => ?_⟩
  rcases reply with e | listing
  · trivial
  · refine (Action.course_bind _ _ _ _).2 ?_
    have hStart : s.Swept listing []
        [⟨.store (.values s.repository.instancesPath),
          .ok listing⟩] :=
      ⟨[], rfl, fun _ h => (nomatch h)⟩
    exact deleteAll_course .empty (List.nil_append _).symm hStart

end Courses

------------------------------------------------------------
-- Records of Others
------------------------------------------------------------

/- What does not keep a delete run from its claim is absent, or
   the record of an instance that is not being deleted. -/
theorem Job.status_of_free
    {r : Repository}
    {identity : Identity}
    {text : String}
    (hFree : delete.objection? r identity (some text) = none) :
    ∃ i,
      Instance.ofRecord? text = some i ∧
        i.status ≠ .deleting := by
  unfold objection? at hFree
  dsimp only at hFree
  cases hRead : Instance.ofRecord? text with
  | none =>
      rw [hRead] at hFree
      cases hFree
  | some i =>
      rw [hRead] at hFree
      dsimp only at hFree
      refine ⟨i, rfl, fun hBusy => ?_⟩
      rw [hBusy] at hFree
      cases hFree

/- The scan of a sweep lists what is stored, and changes
   nothing. -/
theorem Pool.Step.of_values
    {ι α : Type}
    [DecidableEq ι]
    {p q : Pool ι α}
    {who : ι}
    {path : String}
    {listing : List (String × String)}
    (hStep : Step p
      (who, ⟨.store (.values path), .ok listing⟩) q) :
    p.store.values path = listing ∧ q.store = p.store := by
  cases hStep with
  | turn _ _ _ _ _ _ hAnswers =>
      cases hAnswers.of_store
      exact ⟨rfl, rfl⟩

/- The records that a sweep has changed before it claims a
   listed instance are other ones. -/
theorem Call.Upon.not_leaves
    {s : Service}
    {asOf : Instant}
    {listing : List (String × String)}
    {before after : List Instance}
    {copy : Instance}
    {x : Exchange}
    {left : Option String}
    (hUpon : x.call.Upon s.repository before)
    (hListed :
      Repository.listed asOf listing = before ++ copy :: after)
    (hDistinct : (Repository.listed asOf listing).Pairwise
      fun i j => Store.key (s.repository.path i.identity) ≠
        Store.key (s.repository.path j.identity)) :
    ¬ x.Leaves (s.repository.path copy.identity) left := by
  rintro ⟨-, other, hChange, hSame⟩
  rcases hUpon other left hChange with ⟨i, hi, rfl⟩
  rw [hListed, List.pairwise_append] at hDistinct
  exact hDistinct.2.2 i hi copy (List.mem_cons_self ..) hSame

------------------------------------------------------------
-- Turns of a Sweep
------------------------------------------------------------

/- A program reads the record of an instance, and claims with
   a copy unless what it reads is an objection. -/
def Service.Claiming
    {α : Type}
    (s : Service)
    (copy : Instance)
    (m : Action α) : Prop :=
  ∃ next,
    m = .call
        (.store (.value (s.repository.path copy.identity)))
        next ∧
      ∀ seen,
        Job.delete.objection? s.repository copy.identity seen =
            none →
          ∃ last,
            next (.ok seen) =
              .call
                (.store
                  (.swap (s.repository.path copy.identity) seen
                    (Job.delete.claimRecord copy)))
                last

section Turns

variable {ι α : Type} [DecidableEq ι]
variable {s : Service}
variable {asOf : Instant}
variable {f : Except Error SweepReport → α}
variable {p : Pool ι α}
variable {who : ι}
variable {copy : Instance}

/- After its scan a sweep is on its way to claim the first
   listed instance. -/
theorem Service.scan_turn
    {book : Playbook}
    {rest : List Instance}
    (hSweep : p.programs who = f <$> (s.sweep asOf).run)
    (hListed : Repository.listed asOf
      (p.store.values s.repository.instancesPath) = copy :: rest)
    (hBook : s.playbook copy.identity.playbook = .ok book) :
    ∃ q,
      Pool.Step p
          (who, ⟨.store (.values s.repository.instancesPath),
            .ok (p.store.values s.repository.instancesPath)⟩)
          q ∧
        s.Claiming copy (q.programs who) ∧
        q.store = p.store ∧
        ∀ j, j ≠ who → q.programs j = p.programs j := by
  have hDeployed : copy.status = .deployed := by
    have hSwept := (Repository.mem_listed.1
      (hListed ▸ List.mem_cons_self ..)).1
    exact of_decide_eq_true (Bool.and_eq_true_iff.1 hSwept).1
  have hFree : copy.status ∉ Job.delete.busy := by
    rw [hDeployed]
    decide
  rcases runs_turn
    (hSweep.trans (congrArg (f <$> ·) (s.sweep_run asOf)))
    (.store (.values s.repository.instancesPath)) with
    ⟨q, hStep, hNext, hStore, hOthers⟩
  refine ⟨q, hStep, ?_, hStore, hOthers⟩
  have hDelete := Job.program_of_free s copy .delete hBook hFree
  have hProgram : q.programs who =
      f <$> ((Job.delete.program s copy).bind fun outcome =>
        s.deleteAll rest
          (SweepReport.empty.add copy.label outcome)).bind
            fun report => .finish (.ok report) := by
    rw [hNext]
    change f <$> (s.deleteAll (Repository.listed asOf
      (p.store.values s.repository.instancesPath)) .empty).bind
        _ = _
    rw [hListed]
    rfl
  rw [hProgram, hDelete]
  refine ⟨_, rfl, fun seen hSeen => ?_⟩
  dsimp only
  rw [Job.afterValue_read, Job.proceed_of_free hSeen]
  exact ⟨_, rfl⟩

/- A program that is on its way to claim an instance does so,
   unless there is an objection. -/
theorem Service.claim_turns
    {seen : Option String}
    (hClaiming : s.Claiming copy (p.programs who))
    (hKey :
      (Store.key (s.repository.path copy.identity)).isOk = true)
    (hSeen :
      p.store.content? (s.repository.path copy.identity) = seen)
    (hFree : Job.delete.objection? s.repository copy.identity
      seen = none) :
    ∃ q r,
      Pool.Step p
          (who,
            ⟨.store (.value (s.repository.path copy.identity)),
              .ok seen⟩) q ∧
        Pool.Step q
          (who,
            ⟨.store
              (.swap (s.repository.path copy.identity) seen
                (Job.delete.claimRecord copy)),
              .ok true⟩) r := by
  rcases hClaiming with ⟨next, hRead, hNext⟩
  rcases hNext seen hFree with ⟨last, hSwap⟩
  have hValue := Answers.value hKey p.store
  rw [hSeen] at hValue
  rcases runs_turn hRead hValue with
    ⟨q, hStep, hProgram, hStore, _⟩
  rcases Answers.swap hKey q.store
    (Job.delete.claimRecord copy) with ⟨t, hAnswers, _⟩
  rw [hStore, hSeen, ← hStore] at hAnswers
  rcases runs_turn (hProgram.trans hSwap) hAnswers with
    ⟨r, hLast, _⟩
  exact ⟨q, r, hStep, hLast⟩

end Turns

------------------------------------------------------------
-- A Sweep and a Save
------------------------------------------------------------

/- A deployed instance that has expired. -/
def Instance.overdue : Instance :=
  { ofBranch "main" with status := .deployed }

/- The same instance, which expires a day later. -/
def Instance.extended : Instance :=
  { overdue with expiresAt := ⟨1, 0, 0, by decide⟩ }

/- A service that knows their playbook. -/
abbrev Service.lone : Service :=
  single (plainManifest "app")

/- A sweep shares a store with a save that extends the
   instance. -/
def Service.extending (store : Store) : Pool Bool Unit where
  store
  programs
    | true => (fun _ => ()) <$> (lone.sweep default).run
    | false =>
        (fun _ => ()) <$> (lone.repository.save .extended).run

/- A store with the record of the instance, under the path of
   some identity. -/
def Store.lapsing (identity : Identity) : Store :=
  empty.put (Service.lone.repository.path identity)
    (some Instance.overdue.record)

/- From one record a sweep takes one instance, if it is one to
   be swept. -/
theorem Repository.listed_record
    {asOf : Instant}
    {i : Instance}
    (hSwept : isSwept asOf i = true)
    (label : String) :
    listed asOf [(label, i.record)] = [i] := by
  unfold listed
  simp only [List.filterMap_cons, Instance.ofRecord?_record,
    List.filterMap_nil]
  rw [List.filter_cons_of_pos hSwept, List.filter_nil]

theorem Service.lone_rooted : lone.repository.Rooted :=
  .inr (by unfold Path.Clean; decide)

theorem Instance.overdue_plain :
    Instance.overdue.identity.Plain :=
  ⟨by decide, by decide⟩

theorem Service.lone_key :
    Store.key
        (lone.repository.path Instance.overdue.identity) =
      .ok (lone.repository.path Instance.overdue.identity) :=
  Repository.key_path lone_rooted Instance.overdue_plain

/- The one record of this store is listed. -/
theorem Store.values_lapsing
    {identity : Identity}
    (hPlain : identity.Plain) :
    (lapsing identity).values
        Service.lone.repository.instancesPath =
      [(identity.label, Instance.overdue.record)] := by
  rw [values_eq_filterMap]
  change List.filterMap _ [(_, Instance.overdue.record)] = _
  simp [Repository.relative_instancesPath Service.lone_rooted
    hPlain]

/- The sweep scans the store, and is on its way to claim. -/
theorem Service.extending_scan
    {identity : Identity}
    (hPlain : identity.Plain) :
    ∃ listing q,
      listing = (Store.lapsing identity).values
          lone.repository.instancesPath ∧
        Pool.Step (extending (.lapsing identity))
          (true,
            ⟨.store (.values lone.repository.instancesPath),
              .ok listing⟩) q ∧
        lone.Claiming .overdue (q.programs true) ∧
        q.store = .lapsing identity ∧
        q.programs false =
          (fun _ => ()) <$>
            (lone.repository.save .extended).run := by
  have hListed : Repository.listed default
      ((extending (.lapsing identity)).store.values
        lone.repository.instancesPath) = [.overdue] :=
    (congrArg (Repository.listed default)
      (Store.values_lapsing hPlain)).trans
        (Repository.listed_record (by decide) identity.label)
  have hSweep : (extending (.lapsing identity)).programs true =
      (fun _ => ()) <$> (lone.sweep default).run := rfl
  rcases scan_turn hSweep hListed rfl with
    ⟨q, hStep, hClaiming, hStore, hOthers⟩
  exact ⟨_, q, rfl, hStep, hClaiming, hStore,
    hOthers false (by decide)⟩

------------------------------------------------------------
-- Claims of a Sweep
------------------------------------------------------------

/-
  One sweep and any other programs share a reliable store.
  Whenever a delete run of the sweep claims, it puts the copy
  of a listed instance, which was deployed and had expired at
  the scan, in the place of what it has found: nothing, or a
  record that can be read and is not being deleted.  If the
  listed instances lay under their own paths at the scan, that
  record is still one of a deployed instance which has expired,
  unless since the scan another program has left under its key
  what is no such record.
-/
theorem Service.sweep_claims
    {ι α : Type}
    [DecidableEq ι]
    (s : Service)
    (asOf : Instant)
    (f : Except Error SweepReport → α)
    {start p q : Pool ι α}
    {who : ι}
    {trace : List (ι × Exchange)}
    {path record : String}
    {seen : Option String}
    (hSweep : start.programs who = f <$> (s.sweep asOf).run)
    (hRuns : Runs start trace p)
    (hClaim : Pool.Step p
      (who, ⟨.store (.swap path seen record), .ok true⟩) q) :
    ∃ early listing late copy,
      trace = early ++
        (who, ⟨.store (.values s.repository.instancesPath),
          .ok listing⟩) :: late ∧
      copy ∈ Repository.listed asOf listing ∧
      path = s.repository.path copy.identity ∧
      record = Job.delete.claimRecord copy ∧
      p.store.content? path = seen ∧
      (∀ text, seen = some text →
        ∃ i, Instance.ofRecord? text = some i ∧
          i.status ≠ .deleting) ∧
      (s.repository.Filed listing →
        Overdue asOf seen ∨
          ∃ y ∈ late, y.1 ≠ who ∧
            ∃ left, y.2.Leaves path left ∧
              ¬ Overdue asOf left) := by
  have hCourse :
      (start.programs who).Course (s.ClaimsListed asOf)
        (fun _ _ => True) [] := by
    rw [hSweep]
    exact (Action.course_bind _ _ _ _).2
      (s.sweep_course asOf)
  rcases hRuns.course_step hCourse hClaim path seen record rfl
    with ⟨listing, before, copy, after, hListed,
      ⟨done, hOwn, hDone⟩, rfl, rfl, hFree⟩
  rcases own_eq_cons hOwn with ⟨early, late, rfl, hLate⟩
  have hFound : p.store.content?
      (s.repository.path copy.identity) = seen := by
    cases hClaim with
    | turn _ _ _ _ _ _ hAnswers => exact hAnswers.of_swap
  have hCopy : copy ∈ Repository.listed asOf listing := by
    rw [hListed]
    simp
  refine ⟨early, listing, late, copy, rfl, hCopy, rfl, rfl,
    hFound, ?_, fun hFiled => ?_⟩
  · rintro text rfl
    exact Job.status_of_free hFree
  · rcases hRuns.split with ⟨m, n, _, hScan, hRest⟩
    rcases hScan.of_values with ⟨rfl, hSame⟩
    have hThen : Overdue asOf (n.store.content?
        (s.repository.path copy.identity)) := by
      rw [hSame]
      exact hFiled.overdue hCopy
    rw [← hFound]
    refine (hRest.keeps hThen).imp_right ?_
    rintro ⟨⟨i, x⟩, hx, left, hLeaves, hLeft⟩
    refine ⟨(i, x), hx, ?_, left, hLeaves, hLeft⟩
    rintro rfl
    have hUpon := hDone x (hLate ▸ mem_own.2 hx)
    exact hUpon.not_leaves hListed
      (hFiled.listed_distinct (Store.values_distinct _ _))
      hLeaves

/- Where no one else writes, the sweep claims the record that
   it has listed. -/
theorem Service.sweep_claims_alone :
    ∃ trace p q path seen record,
      Runs (extending (.lapsing ⟨"web", "demo"⟩)) trace p ∧
        Pool.Step p
          (true,
            ⟨.store (.swap path seen record), .ok true⟩) q ∧
        Overdue default seen := by
  have hFiled := ((Mirrors.empty lone.repository).set
    Instance.overdue_plain).filed lone_rooted
  have hSeen : (Store.lapsing ⟨"web", "demo"⟩).content?
      (lone.repository.path Instance.overdue.identity) =
        some Instance.overdue.record :=
    (Store.content?_put ..).trans (if_pos lone_key)
  rcases extending_scan Instance.overdue_plain with
    ⟨_, m, hListing, hScan, hClaiming, hStore, _⟩
  rcases claim_turns hClaiming (by rw [lone_key]; rfl)
    (hStore ▸ hSeen)
    (Job.objection?_record_of_free _ _ (by decide)) with
    ⟨p, q, hRead, hClaim⟩
  have hRuns := Runs.step (.step .none hScan) hRead
  refine ⟨_, p, q, _, _, _, hRuns, hClaim, ?_⟩
  rcases sweep_claims lone default (fun _ => ()) rfl hRuns
    hClaim with
    ⟨early, listing, late, copy, hTrace, _, _, _, _, _, hRest⟩
  rcases early with _ | ⟨first, _ | ⟨second, early⟩⟩
  · cases hTrace
    refine (hRest (hListing ▸ hFiled)).resolve_right ?_
    rintro ⟨y, hy, hOther, _⟩
    cases List.mem_singleton.1 hy
    exact hOther rfl
  · cases hTrace
  · have hLength := congrArg List.length hTrace
    simp at hLength

/- An instance that is extended between the scan and the claim
   is claimed all the same. -/
theorem Service.extending_claims_extended :
    ∃ trace p q path text record i,
      Runs (extending (.lapsing ⟨"web", "demo"⟩)) trace p ∧
        Pool.Step p
          (true,
            ⟨.store (.swap path (some text) record),
              .ok true⟩) q ∧
        Instance.ofRecord? text = some i ∧
        i.status = .deployed ∧
        i.isExpired default = false := by
  rcases extending_scan Instance.overdue_plain with
    ⟨_, m, _, hScan, hClaiming, _, hSave⟩
  -- the save extends the instance after the scan
  rcases Answers.set (by rw [lone_key]; rfl) m.store
    Instance.extended.record with ⟨t, hAnswers, hRecord⟩
  rcases runs_turn hSave hAnswers with
    ⟨n, hExtend, _, hStore, hOthers⟩
  rw [← hOthers true (by decide)] at hClaiming
  rcases claim_turns hClaiming (by rw [lone_key]; rfl)
    (hStore ▸ hRecord)
    (Job.objection?_record_of_free _ _ (by decide)) with
    ⟨p, q, hRead, hClaim⟩
  exact ⟨_, p, q, _, _, _, _,
    .step (.step (.step .none hScan) hExtend) hRead, hClaim,
    Instance.ofRecord?_record _, rfl, by decide⟩

/- An instance whose record lies under another path is claimed
   where nothing is. -/
theorem Service.extending_claims_misfiled :
    ∃ trace p q path record,
      Runs (extending (.lapsing ⟨"web", "other"⟩)) trace p ∧
        Pool.Step p
          (true,
            ⟨.store (.swap path none record), .ok true⟩) q := by
  have hPlain : Identity.Plain ⟨"web", "other"⟩ :=
    ⟨by decide, by decide⟩
  have hAbsent : (Store.lapsing ⟨"web", "other"⟩).content?
      (lone.repository.path Instance.overdue.identity) =
        none := by
    unfold Store.lapsing
    rw [Store.content?_put, lone_key, if_neg ?_]
    · exact Store.content?_empty _
    · intro hPath
      have hSame := Repository.path_injective
        Instance.overdue_plain hPlain (Except.ok.inj hPath)
      exact absurd (congrArg Identity.id hSame) (by decide)
  rcases extending_scan hPlain with
    ⟨_, m, _, hScan, hClaiming, hStore, _⟩
  rcases claim_turns hClaiming (by rw [lone_key]; rfl)
    (hStore ▸ hAbsent) rfl with
    ⟨p, q, hRead, hClaim⟩
  exact ⟨_, p, q, _, _, .step (.step .none hScan) hRead, hClaim⟩

/-
  A sweep does not look again: what it claims need not be a
  record of a deployed instance that has expired, when a save
  has extended the instance since the scan, and when the record
  that it has listed lies under another path.
-/
theorem Service.sweep_claims_extended :
    (∃ trace p q path text record i,
      Runs (extending (.lapsing ⟨"web", "demo"⟩)) trace p ∧
        Pool.Step p
          (true,
            ⟨.store (.swap path (some text) record),
              .ok true⟩) q ∧
        Instance.ofRecord? text = some i ∧
        i.status = .deployed ∧
        i.isExpired default = false) ∧
    ∃ trace p q path record,
      Runs (extending (.lapsing ⟨"web", "other"⟩)) trace p ∧
        Pool.Step p
          (true,
            ⟨.store (.swap path none record), .ok true⟩) q :=
  ⟨extending_claims_extended, extending_claims_misfiled⟩

end Preview
