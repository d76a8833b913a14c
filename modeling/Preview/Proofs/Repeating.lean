import Preview.Proofs.Clearing

/-
  Sweeps that follow each other on a store that does not fail.

  A delete run on a listed instance removes its record or
  stores that it is in error, so that no sweep lists it again.
  The exception is a run that does not start since the catalog
  lacks the playbook of the instance: it leaves the record as
  it is.  The next sweep lists these instances and no others,
  and is refused for all of them.

  Main declarations:
    * `Entries.filterMap_eq_of_lookup`
    * `Store.Steady`
    * `Instance.Ended` and `Service.delete_ends`
    * `Service.Prunes` and `Service.delete_prunes`
    * `Service.listed_pruned`
    * `Service.sweep_refused`
    * `Service.sweep_settles`
-/

namespace Preview

open Preview.Action (Handler eval exchanges)

------------------------------------------------------------
-- Entries
------------------------------------------------------------

namespace Entries

variable {α β : Type}
variable {es fs : List (String × α)}
variable {f g : String → α → Option β}

/- The entries that are kept of a list, with what they are kept
   as. -/
def keep
    (f : String → α → Option β)
    (es : List (String × α)) : List (String × β) :=
  es.filterMap fun e => (f e.1 e.2).map (e.1, ·)

theorem sorted_keep
    (f : String → α → Option β)
    (hSorted : Sorted es) :
    Sorted (keep f es) := by
  refine List.pairwise_filterMap.2 (hSorted.imp ?_)
  intro a b hLess c hc d hd
  rcases Option.map_eq_some_iff.1 hc with ⟨_, _, rfl⟩
  rcases Option.map_eq_some_iff.1 hd with ⟨_, _, rfl⟩
  exact hLess

/- What is kept under a key is what its entry is kept as. -/
theorem lookup_keep
    (f : String → α → Option β)
    (hSorted : Sorted es)
    (k : String) :
    (keep f es).lookup k = (es.lookup k).bind (f k) := by
  unfold keep
  induction es with
  | nil => rfl
  | cons e es ih =>
      rcases e with ⟨k', x⟩
      rcases List.pairwise_cons.1 hSorted with ⟨hLess, hRest⟩
      have hTail := ih hRest
      rw [List.filterMap_cons, lookup_cons]
      by_cases hSame : k = k'
      · subst hSame
        have hNone := lookup_eq_none_of_lt hLess
        rw [hNone] at hTail
        cases hKept : f k x with
        | none => simpa [hKept] using hTail
        | some y =>
            simp only [Option.map_some]
            rw [lookup_cons]
            simp [hKept]
      · cases hKept : f k' x with
        | none => simpa [hKept, hSame] using hTail
        | some y =>
            simp only [Option.map_some]
            rw [lookup_cons, if_neg hSame, hTail, if_neg hSame]

/- Two tables have the same things kept if this is so under
   every key. -/
theorem filterMap_eq_of_lookup
    (hFirst : Sorted es)
    (hSecond : Sorted fs)
    (hEach : ∀ k,
      (es.lookup k).bind (f k) = (fs.lookup k).bind (g k)) :
    (es.filterMap fun e => f e.1 e.2) =
      fs.filterMap fun e => g e.1 e.2 := by
  have hKeep : keep f es = keep g fs := by
    refine ext_lookup (sorted_keep f hFirst)
      (sorted_keep g hSecond) fun k => ?_
    rw [lookup_keep f hFirst, lookup_keep g hSecond]
    exact hEach k
  have hValues (f : String → α → Option β)
      (es : List (String × α)) :
      (keep f es).map (·.2) =
        es.filterMap fun e => f e.1 e.2 := by
    unfold keep
    rw [List.map_filterMap]
    refine congrArg (List.filterMap · es) (funext fun e => ?_)
    cases f e.1 e.2 <;> rfl
  rw [← hValues, ← hValues, hKeep]

end Entries

------------------------------------------------------------
-- Stores That Do Not Fail
------------------------------------------------------------

namespace Store

variable {σ : Type}

/- A state holds a store whose calls take effect.  Other calls
   leave it as it is. -/
structure Steady (h : Handler σ) (view : σ → Store) : Prop where
  acts : ∀ s (c : Call),
    (view (h s (.store c)).1, (h s (.store c)).2) =
      (view s).perform c
  stays : ∀ s (c : Preview.Call), c.isStore = false →
    view (h s c).1 = view s

namespace Steady

variable {h : Handler σ} {view : σ → Store}
variable (hSteady : Steady h view)

include hSteady

/- A steady store is an unsteady one that never fails. -/
theorem unsteady : Unsteady h view :=
  ⟨fun s c => .inl (hSteady.acts s c), hSteady.stays⟩

theorem reply (s : σ) (c : Call) :
    (h s (.store c)).2 = ((view s).perform c).2 :=
  congrArg Prod.snd (hSteady.acts s c)

theorem after (s : σ) (c : Call) :
    view (h s (.store c)).1 = ((view s).perform c).1 :=
  congrArg Prod.fst (hSteady.acts s c)

end Steady

/- A store in an environment where all else succeeds. -/
def alone : Handler Store
  | s, .store c => s.perform c
  | s, c => (s, c.calm)

theorem alone_steady : Steady alone id where
  acts s c := rfl
  stays := by
    intro s c hOutside
    cases c with
    | store c => cases hOutside
    | _ => rfl

end Store

------------------------------------------------------------
-- Runs on Listed Instances
------------------------------------------------------------

/- What a run that has not been refused leaves of a record: it
   is gone, or that of an instance in error. -/
def Instance.Spent
    (i : Instance)
    (stored : Option String) : Prop :=
  stored = none ∨
    stored = some { i with status := .error : Instance }.record

/- What a run on a store that does not fail ends with, and what
   it leaves of the record: none, or that of its error. -/
inductive Instance.Ended
    (i : Instance)
    (cause : Error → Prop) :
    Except Error Unit → Option String → Prop
  | removed : Ended i cause (.ok ()) none
  | failed
      {e : Error}
      (hCause : cause e) :
      Ended i cause (.error e)
        (some { i with status := .error : Instance }.record)

/- After a run that has begun, the record is spent. -/
theorem Instance.Ended.spent
    {i : Instance}
    {cause : Error → Prop}
    {result : Except Error Unit}
    {stored : Option String}
    (hEnded : i.Ended cause result stored) :
    i.Spent stored := by
  cases hEnded with
  | removed => exact .inl rfl
  | failed _ => exact .inr rfl

namespace Service

/- The catalog lacks the playbook of an instance. -/
def strands (s : Service) (i : Instance) : Bool :=
  !(s.playbook i.identity.playbook).isOk

/- For such an instance the playbook is unknown. -/
theorem playbook_of_strands
    {s : Service}
    {i : Instance}
    (hStrands : s.strands i = true) :
    s.playbook i.identity.playbook =
      .error (.unknownPlaybook i.identity.playbook) := by
  unfold strands playbook at *
  cases hBook : s.catalog.get? i.identity.playbook with
  | none => rfl
  | some p =>
      rw [hBook] at hStrands
      cases hStrands

/- Any other instance has its playbook. -/
theorem playbook_of_not_strands
    {s : Service}
    {i : Instance}
    (hKnown : s.strands i = false) :
    ∃ p, s.playbook i.identity.playbook = .ok p := by
  unfold strands at hKnown
  exact exists_of_isOk (by simpa using hKnown)

/- What a sweep on a store that does not fail makes of the
   record of a listed instance: it is kept if the catalog lacks
   the playbook, and spent if not. -/
def Prunes
    (s : Service)
    (i : Instance)
    (before after : Option String) : Prop :=
  if s.strands i then after = before else i.Spent after

/- A delete run does so if it finds the record of its copy, and
   the copy is deployed. -/
def PrunesFound
    (s : Service)
    (i : Instance)
    (before : Option String)
    (_ : Except Error Unit)
    (after : Option String) : Prop :=
  ∀ text,
    before = some text →
      Instance.ofRecord? text = some i →
        i.status = .deployed → s.Prunes i before after

/- How a run that the catalog does not allow is reported. -/
def refusal (i : Instance) : Notification :=
  ⟨.failure,
    failureText "delete" i
      (.unknownPlaybook i.identity.playbook)⟩

/- The run of a stranded instance only reports that. -/
theorem delete_of_strands
    {s : Service}
    {i : Instance}
    (hStrands : s.strands i = true) :
    (s.delete i).run =
      .call (.send (refusal i)) fun _ =>
        .finish (.error
          (.unknownPlaybook i.identity.playbook)) :=
  Job.program_of_unknown s i .delete
    (playbook_of_strands hStrands)

end Service

section Runs

variable {σ : Type} {h : Handler σ} {view : σ → Store}
variable (hSteady : Store.Steady h view)
variable (s : Service) (i : Instance)

include hSteady

section Keyed

variable (hKey :
  (Store.key (s.repository.path i.identity)).isOk = true)

include hKey

/- A run that fails stores that. -/
theorem failing_ends
    {cause : Error → Prop}
    (t : σ)
    {e : Error}
    (hCause : cause e) :
    (Job.delete.failing s i e).Yields h t fun _ result u =>
      i.Ended cause result
        ((view u).content? (s.repository.path i.identity)) := by
  rcases Store.perform_set hKey (view t)
    { i with status := .error : Instance }.record with
    ⟨now, hPerform, hContent⟩
  unfold Job.failing
  rw [Action.yields_call, hSteady.reply, hPerform,
    Action.yields_call]
  change i.Ended cause (.error e)
    ((view (h _ (.send _)).1).content? _)
  rw [view_send hSteady.unsteady, hSteady.after, hPerform,
    hContent]
  exact .failed hCause

/- A run that has destroyed its plan removes the record. -/
theorem removing_ends (cause : Error → Prop) (t : σ) :
    (Job.removing s i).Yields h t fun _ result u =>
      i.Ended cause result
        ((view u).content? (s.repository.path i.identity)) := by
  rcases Store.perform_erase hKey (view t) with
    ⟨now, hPerform, hContent⟩
  unfold Job.removing
  rw [Action.yields_call, hSteady.reply, hPerform,
    Action.yields_call]
  change i.Ended cause (.ok ())
    ((view (h _ (.send _)).1).content? _)
  rw [view_send hSteady.unsteady, hSteady.after, hPerform,
    hContent]
  exact .removed

/- A run whose claim is decided comes to one of these ends; it
   fails with the error of its plan or of a step. -/
theorem start_ends (p : Playbook) (t : σ) :
    (Job.delete.start s p i).Yields h t fun _ result u =>
      i.Ended (fun e =>
          Plan.build s.render p i.vars s.catalog.manifests =
            .error e ∨ e.IsStep)
        result
        ((view u).content? (s.repository.path i.identity)) := by
  rw [Job.start_delete]
  cases Plan.build s.render p i.vars s.catalog.manifests with
  | error e => exact failing_ends hSteady s i hKey t (.inl rfl)
  | ok plan =>
      refine (Action.yields_bind _ _ _ _ _).2 ?_
      have hDestroyed :=
        Action.Leads.yields (plan.destroy_within s.context) h
          (I := fun _ => True) (fun _ _ _ _ => trivial)
          (s := t) trivial
      apply hDestroyed.mono
      intro xs outcome u hOutcome
      cases outcome with
      | error e =>
          exact failing_ends hSteady s i hKey u
            (.inr hOutcome.2.1)
      | ok _ => exact removing_ends hSteady s i hKey _ u

/- A run of a known playbook on a copy that is not busy, which
   the stored record does not keep from its claim, comes to one
   of these ends. -/
theorem delete_ends
    {p : Playbook}
    (hBook : s.playbook i.identity.playbook = .ok p)
    (hFree : i.status ∉ Job.delete.busy)
    {start : σ}
    (hSeen : Job.delete.objection? s.repository i.identity
      ((view start).content? (s.repository.path i.identity)) =
        none) :
    (s.delete i).run.Yields h start fun _ result t =>
      i.Ended (fun e =>
          Plan.build s.render p i.vars s.catalog.manifests =
            .error e ∨ e.IsStep)
        result
        ((view t).content? (s.repository.path i.identity)) := by
  rw [show (s.delete i).run = _ from
      Job.program_of_free s i .delete hBook hFree,
    Action.yields_call, hSteady.reply,
    Store.perform_value hKey, Job.afterValue_read,
    Job.proceed_of_free hSeen, Action.yields_call,
    hSteady.reply, hSteady.after, Store.perform_value hKey]
  rcases Store.perform_swap_of_eq hKey (view start)
    (Job.delete.claimRecord i) with ⟨now, hPerform, _⟩
  rw [hPerform, Job.afterSwap_stored]
  exact start_ends hSteady s i hKey p _

end Keyed

/-
  A delete run that finds the record of its deployed copy claims
  it, and then nothing keeps it from its end; it is refused only
  if the catalog lacks the playbook.
-/
theorem Service.delete_prunes
    {start : σ}
    {text : String}
    (hStored :
      (view start).content? (s.repository.path i.identity) =
        some text)
    (hRead : Instance.ofRecord? text = some i)
    (hDeployed : i.status = .deployed) :
    (s.delete i).run.Yields h start fun _ _ t =>
      s.Prunes i
        ((view start).content? (s.repository.path i.identity))
        ((view t).content? (s.repository.path i.identity)) := by
  have hKey :
      (Store.key (s.repository.path i.identity)).isOk = true := by
    unfold Store.content? at hStored
    cases hKey : Store.key (s.repository.path i.identity) with
    | ok k => rfl
    | error e =>
        rw [hKey] at hStored
        cases hStored
  have hFree : i.status ∉ Job.delete.busy := by
    rw [hDeployed]
    decide
  have hSeen : Job.delete.objection? s.repository i.identity
      (some text) = none := by
    unfold Job.objection?
    simp only [hRead]
    exact if_neg (by simpa using hFree)
  unfold Prunes
  cases hStrands : s.strands i with
  | true =>
      rw [delete_of_strands hStrands, Action.yields_call]
      exact congrArg (Store.content? · _)
        (view_send hSteady.unsteady start _)
  | false =>
      rcases playbook_of_not_strands hStrands with ⟨p, hBook⟩
      rw [← hStored] at hSeen
      apply (delete_ends hSteady s i hKey hBook hFree
        hSeen).mono
      intro _ _ _ hEnded
      exact hEnded.spent

end Runs

------------------------------------------------------------
-- Listings
------------------------------------------------------------

namespace Repository

variable {r : Repository}
variable {asOf : Instant}
variable {k text : String}
variable {i : Instance}

/- What is picked has been read from the entry, is deployed and
   has expired. -/
theorem read_of_pick
    (hPick : r.pick? asOf k text = some i) :
    Instance.ofRecord? text = some i ∧
      isSwept asOf i = true := by
  unfold pick? overdue? at hPick
  rcases Option.bind_eq_some_iff.1 hPick with ⟨_, _, hOverdue⟩
  exact Option.filter_eq_some_iff.1 hOverdue

theorem deployed_of_swept
    (hSwept : isSwept asOf i = true) :
    i.status = .deployed :=
  of_decide_eq_true (Bool.and_eq_true_iff.1 hSwept).1

/- The record of an instance in error is not picked. -/
theorem pick?_error (i : Instance) :
    r.pick? asOf k
      { i with status := .error : Instance }.record = none := by
  cases hPick : r.pick? asOf k
      { i with status := .error : Instance }.record with
  | none => rfl
  | some j =>
      rcases read_of_pick hPick with ⟨hRead, hSwept⟩
      rw [Instance.ofRecord?_record] at hRead
      have hStatus := deployed_of_swept hSwept
      rw [← Option.some.inj hRead] at hStatus
      cases hStatus

/- From a tidy store the instances of the entries are taken that
   are picked, and these lie under their own keys. -/
theorem Tidy.mem_listed
    {s : Store}
    (hTidy : r.Tidy s) :
    i ∈ listed asOf (s.values r.instancesPath) ↔
      ∃ k text,
        Store.key (r.path i.identity) = .ok k ∧
          s.entries.get? k = some text ∧
          r.pick? asOf k text = some i := by
  rw [Repository.listed_values, List.mem_filterMap]
  constructor
  · rintro ⟨⟨k, text⟩, he, hPick⟩
    have hGet := (Entries.mem_iff_lookup s.entries.sorted).1 he
    exact ⟨k, text, hTidy k text i hGet (read_of_pick hPick).1,
      hGet, hPick⟩
  · rintro ⟨k, text, -, hGet, hPick⟩
    exact ⟨(k, text),
      (Entries.mem_iff_lookup s.entries.sorted).2 hGet, hPick⟩

end Repository

/- What lies under a path lies under its key. -/
theorem Store.content?_of_key
    {s : Store}
    {path k : String}
    (hKey : key path = .ok k) :
    s.content? path = s.entries.get? k := by
  unfold content?
  rw [hKey]

/-
  A sweep has dealt with everything that it has listed.  Key by
  key, what the next sweep picks is what this one has picked
  and could not start with.
-/
theorem Service.listed_pruned
    {s : Service}
    {asOf : Instant}
    {before after : Store}
    (hTidy : s.repository.Tidy before)
    (hRest : s.repository.Spares
      (Repository.listed asOf
        (before.values s.repository.instancesPath))
      before after)
    (hPruned : ∀ i ∈ Repository.listed asOf
        (before.values s.repository.instancesPath),
      s.Prunes i
        (before.content? (s.repository.path i.identity))
        (after.content? (s.repository.path i.identity))) :
    Repository.listed asOf
        (after.values s.repository.instancesPath) =
      (Repository.listed asOf
        (before.values s.repository.instancesPath)).filter
        s.strands := by
  rw [Repository.listed_values, Repository.listed_values,
    List.filter_filterMap]
  refine Entries.filterMap_eq_of_lookup
    (f := fun k text => s.repository.pick? asOf k text)
    (g := fun k text =>
      (s.repository.pick? asOf k text).filter s.strands)
    after.entries.sorted before.entries.sorted fun k => ?_
  change (after.entries.get? k).bind
      (s.repository.pick? asOf k) =
    (before.entries.get? k).bind fun text =>
      (s.repository.pick? asOf k text).filter s.strands
  -- any key that the sweep has not visited holds what it held,
  -- and was not picked before
  by_cases hVisited : ∃ i ∈ Repository.listed asOf
      (before.values s.repository.instancesPath),
      Store.key (s.repository.path i.identity) = .ok k
  · rcases hVisited with ⟨i, hi, hKey⟩
    have hLeft := hPruned i hi
    rcases hTidy.mem_listed.1 hi with
      ⟨k', text, hKey', hGet, hPick⟩
    cases hKey.symm.trans hKey'
    rw [Store.content?_of_key hKey, Store.content?_of_key hKey,
      hGet] at hLeft
    rw [hGet, Option.bind_some, hPick]
    unfold Prunes at hLeft
    cases hStrands : s.strands i with
    | true =>
        rw [hStrands, if_pos rfl] at hLeft
        rw [hLeft, Option.bind_some, hPick,
          Option.filter_some, if_pos hStrands]
    | false =>
        rw [hStrands, if_neg (by simp)] at hLeft
        rw [Option.filter_some, if_neg (by simp [hStrands])]
        rcases hLeft with hGone | hError
        · rw [hGone, Option.bind_none]
        · rw [hError, Option.bind_some, Repository.pick?_error]
  · -- an entry that no run was upon is not picked at all
    rw [hRest k fun i hi hKey => hVisited ⟨i, hi, hKey⟩]
    cases hGet : before.entries.get? k with
    | none => rw [Option.bind_none, Option.bind_none]
    | some text =>
        rw [Option.bind_some, Option.bind_some]
        cases hPick : s.repository.pick? asOf k text with
        | none => rw [Option.filter_none]
        | some i =>
            have hKey := hTidy k text i hGet
              (Repository.read_of_pick hPick).1
            exact absurd ⟨i, hTidy.mem_listed.2
              ⟨k, text, hKey, hGet, hPick⟩, hKey⟩ hVisited

------------------------------------------------------------
-- Refused Sweeps
------------------------------------------------------------

/- How a sweep that is refused for some instances reports it. -/
def Service.refusals (is : List Instance) : SweepReport :=
  ⟨[], is.map fun i =>
    (i.label, .unknownPlaybook i.identity.playbook)⟩

/- A report has nothing but such refusals. -/
theorem Visit.report_refused
    {visits : List Visit}
    (hRefused : ∀ v ∈ visits, v.result =
      .error (.unknownPlaybook v.copy.identity.playbook)) :
    report visits = Service.refusals (visits.map Visit.copy) := by
  have hFailed : visits.filterMap failure? =
      visits.map fun v => (v.copy.label,
        Error.unknownPlaybook v.copy.identity.playbook) := by
    rw [← List.filterMap_eq_map]
    refine List.filterMap_congr fun v hv => ?_
    unfold failure?
    rw [hRefused v hv]
    rfl
  have hRemoved : visits.filter (·.result.isOk) = [] := by
    refine List.filter_eq_nil_iff.2 fun v hv => ?_
    rw [hRefused v hv]
    simp [Except.isOk, Except.toBool]
  unfold report Service.refusals
  rw [foldl_add, hFailed, hRemoved, List.map_map]
  rfl

section Refusals

variable {σ : Type} {h : Handler σ} {view : σ → Store}
variable (hSteady : Store.Steady h view)
variable {s : Service}
variable {asOf : Instant}

include hSteady

/- Delete runs on instances whose playbooks the catalog lacks
   report that, and do nothing else. -/
theorem Service.Visits.refused
    {t u : σ}
    {visits : List Visit}
    (hVisits : s.Visits h t visits u)
    (hStrands : ∀ i ∈ visits.map Visit.copy,
      s.strands i = true) :
    view u = view t ∧
      (visits.flatMap Visit.exchanges).map Exchange.call =
        (visits.map Visit.copy).map
          (fun i => .send (refusal i)) ∧
      ∀ v ∈ visits, v.result =
        .error (.unknownPlaybook v.copy.identity.playbook) := by
  induction hVisits with
  | done => exact ⟨rfl, rfl, fun _ h => (nomatch h)⟩
  | @next t u visits i hRest ih =>
      rcases List.forall_mem_cons.1 hStrands with
        ⟨hFirst, hLater⟩
      rcases ih hLater with ⟨hSame, hCalls, hResults⟩
      have hRun := delete_of_strands hFirst
      refine ⟨?_, ?_, ?_⟩
      · rw [hSame, hRun]
        exact view_send hSteady.unsteady t _
      · rw [List.flatMap_cons, List.map_append, hCalls, hRun]
        rfl
      · intro v hv
        rcases List.mem_cons.1 hv with rfl | hv
        · rw [hRun]
          rfl
        · exact hResults v hv

/- A sweep that lists only such instances changes nothing, and
   all that it does after its scan is to report refusals. -/
theorem Service.sweep_refused
    {start : σ}
    (hStrands : ∀ i ∈ Repository.listed asOf
        ((view start).values s.repository.instancesPath),
      s.strands i = true) :
    (s.sweep asOf).run.Yields h start fun xs result t =>
      result = .ok (refusals (Repository.listed asOf
          ((view start).values s.repository.instancesPath))) ∧
        xs.map Exchange.call =
          .store (.values s.repository.instancesPath) ::
            (Repository.listed asOf ((view start).values
              s.repository.instancesPath)).map
              (fun i => .send (refusal i)) ∧
        view t = view start := by
  have hReply := hSteady.reply start
    (.values s.repository.instancesPath)
  have hAfter := hSteady.after start
    (.values s.repository.instancesPath)
  apply (s.sweep_yields h asOf start).mono
  intro xs result t hSweeps
  cases hSweeps with
  | unscanned hFailed =>
      cases hFailed.symm.trans hReply
  | scanned hScan hVisits hCopies =>
      have hListed := Except.ok.inj (hScan.symm.trans hReply)
      rw [hListed] at hCopies
      rcases hVisits.refused hSteady (hCopies ▸ hStrands) with
        ⟨hSame, hCalls, hResults⟩
      rw [Visit.report_refused hResults, hCopies]
      rw [hCopies] at hCalls
      exact ⟨rfl, congrArg (_ :: ·) hCalls, hSame.trans hAfter⟩

end Refusals

------------------------------------------------------------
-- Two Sweeps
------------------------------------------------------------

section Sweeps

variable {σ : Type} {h : Handler σ} {view : σ → Store}
variable (hSteady : Store.Steady h view)
variable {s : Service}
variable {asOf : Instant}

include hSteady

/- The delete runs on what a sweep lists deal with all of it,
   and leave the rest alone. -/
theorem Service.Visits.prune
    {t u : σ}
    {visits : List Visit}
    (hVisits : s.Visits h t visits u)
    (hTidy : s.repository.Tidy (view t))
    (hCopies : visits.map Visit.copy =
      Repository.listed asOf
        ((view t).values s.repository.instancesPath)) :
    s.repository.Spares (visits.map Visit.copy) (view t)
        (view u) ∧
      ∀ i ∈ visits.map Visit.copy,
        s.Prunes i
          ((view t).content? (s.repository.path i.identity))
          ((view u).content?
            (s.repository.path i.identity)) := by
  have hDistinct : (Repository.listed asOf _).Pairwise _ :=
    hTidy.filed.listed_distinct (Store.values_distinct _ _)
  rw [← hCopies] at hDistinct
  have hEach (i : Instance) (t : σ) :
      (s.delete i).run.Yields h t fun _ result u =>
        s.PrunesFound i
          ((view t).content? (s.repository.path i.identity))
          result
          ((view u).content? (s.repository.path i.identity)) :=
    fun _ hStored hRead hDeployed =>
      s.delete_prunes hSteady i hStored hRead hDeployed
  rcases hVisits.leave hSteady.unsteady hEach hDistinct with
    ⟨hRest, hOwn⟩
  refine ⟨hRest, fun i hi => ?_⟩
  rcases List.mem_map.1 hi with ⟨v, hv, rfl⟩
  rw [hCopies] at hi
  rcases hTidy.mem_listed.1 hi with ⟨k, text, hKey, hGet, hPick⟩
  rcases Repository.read_of_pick hPick with ⟨hRead, hSwept⟩
  exact hOwn v hv text
    ((Store.content?_of_key hKey).trans hGet) hRead
    (Repository.deployed_of_swept hSwept)

end Sweeps

/-
  On a store that does not fail a sweep removes every instance
  that it lists or stores that it is in error, unless the
  catalog lacks its playbook.  A sweep that comes next lists
  just the instances of which this is so: it removes nothing,
  fails for all of them with that reason and reports each of
  these failures, and does not touch the store again.
-/
theorem Service.sweep_settles
    {σ : Type}
    {h : Handler σ}
    {view : σ → Store}
    (hSteady : Store.Steady h view)
    (s : Service)
    (asOf : Instant)
    {start : σ}
    (hTidy : s.repository.Tidy (view start)) :
    (s.sweep asOf).run.Yields h start fun _ first t =>
      (∃ report, first = .ok report) ∧
      (∀ i ∈ Repository.listed asOf
          ((view start).values s.repository.instancesPath),
        s.Prunes i
          ((view start).content?
            (s.repository.path i.identity))
          ((view t).content?
            (s.repository.path i.identity))) ∧
      ∀ later, view later = view t →
        (s.sweep asOf).run.Yields h later fun xs second u =>
          second = .ok (refusals
            ((Repository.listed asOf ((view start).values
              s.repository.instancesPath)).filter s.strands)) ∧
          xs.map Exchange.call =
            .store (.values s.repository.instancesPath) ::
              ((Repository.listed asOf ((view start).values
                s.repository.instancesPath)).filter
                s.strands).map (fun i => .send (refusal i)) ∧
          view u = view t := by
  have hReply := hSteady.reply start
    (.values s.repository.instancesPath)
  have hAfter : view (h start (.store (.values
      s.repository.instancesPath))).1 = view start :=
    hSteady.after start (.values s.repository.instancesPath)
  apply (s.sweep_yields h asOf start).mono
  intro _ first t hSweeps
  cases hSweeps with
  | unscanned hFailed => cases hFailed.symm.trans hReply
  | scanned hScan hVisits hCopies =>
      have hListed := Except.ok.inj (hScan.symm.trans hReply)
      have hCopied : _ = Repository.listed asOf ((view start).values
          s.repository.instancesPath) := hListed ▸ hCopies
      rw [← hAfter] at hTidy hCopied
      rcases hVisits.prune hSteady hTidy hCopied with
        ⟨hRest, hPruned⟩
      rw [hCopied] at hRest hPruned
      rw [hAfter] at hTidy hRest hPruned
      refine ⟨⟨_, rfl⟩, hPruned, fun later hLater => ?_⟩
      have hNext := listed_pruned hTidy hRest hPruned
      rw [← hLater] at hNext
      rw [← hNext, ← hLater]
      refine sweep_refused hSteady fun i hi => ?_
      rw [hNext] at hi
      exact (List.mem_filter.1 hi).2

/- Of a store with the one record of an instance that has
   expired, that instance is listed. -/
theorem Service.lone_listed :
    Repository.listed default
      ((Store.lapsing ⟨"web", "demo"⟩).values
        lone.repository.instancesPath) = [.overdue] :=
  (congrArg (Repository.listed default)
    (Store.values_lapsing Instance.overdue_plain)).trans
      (Repository.listed_record (by decide) _)

theorem Service.lapsing_tidy :
    lone.repository.Tidy (.lapsing ⟨"web", "demo"⟩) :=
  .put_record (.empty _) lone_key

/- The instance is removed, and the next sweep finds nothing. -/
theorem Service.sweep_settles_lapsing :
    Store.Steady Store.alone id ∧
      lone.repository.Tidy (.lapsing ⟨"web", "demo"⟩) ∧
      (lone.sweep default).run.Yields Store.alone
        (.lapsing ⟨"web", "demo"⟩) fun _ first t =>
          (∃ report, first = .ok report) ∧
            (lone.sweep default).run.Yields Store.alone t
              fun xs second u =>
                second = .ok .empty ∧
                  xs.map Exchange.call =
                    [.store (.values
                      lone.repository.instancesPath)] ∧
                  u = t := by
  have hTidy : lone.repository.Tidy
      (id (Store.lapsing ⟨"web", "demo"⟩)) := lapsing_tidy
  refine ⟨Store.alone_steady, lapsing_tidy, ?_⟩
  apply (sweep_settles Store.alone_steady lone default
    hTidy).mono
  intro _ first t hFirst
  rcases hFirst with ⟨hReport, -, hNext⟩
  have hSecond := hNext t rfl
  rw [id_eq, lone_listed] at hSecond
  exact ⟨hReport, hSecond⟩

/- A service that has dropped the playbook of the instance. -/
def Service.bare : Service :=
  { lone with
    catalog := { lone.catalog with playbooks := Table.empty } }

/- A second sweep fails for the instance of a dropped playbook
   just as the first one did, and says so again. -/
theorem Service.sweep_repeats :
    Store.Steady Store.alone id ∧
      bare.repository.Tidy (.lapsing ⟨"web", "demo"⟩) ∧
      (bare.sweep default).run.Yields Store.alone
        (.lapsing ⟨"web", "demo"⟩) fun _ first t =>
          first = .ok (refusals [.overdue]) ∧
            t = .lapsing ⟨"web", "demo"⟩ ∧
            (bare.sweep default).run.Yields Store.alone t
              fun xs second _ =>
                second = .ok
                    ⟨[], [("web/demo",
                      .unknownPlaybook "web")]⟩ ∧
                  ∃ x ∈ xs, x.call.isMessage = true := by
  refine ⟨Store.alone_steady, lapsing_tidy, ?_⟩
  have hListed : Repository.listed default
      ((id (Store.lapsing ⟨"web", "demo"⟩)).values
        bare.repository.instancesPath) = [.overdue] :=
    lone_listed
  have hStrands : ∀ i ∈ Repository.listed default
      ((id (Store.lapsing ⟨"web", "demo"⟩)).values
        bare.repository.instancesPath),
      bare.strands i = true := by
    intro i hi
    rw [hListed] at hi
    cases List.mem_singleton.1 hi
    rfl
  have hSweep := sweep_refused Store.alone_steady hStrands
  rw [hListed] at hSweep
  apply hSweep.mono
  intro _ first t hFirst
  rcases hFirst with ⟨hFailed, -, hSame⟩
  have hKept : t = .lapsing ⟨"web", "demo"⟩ := hSame
  subst hKept
  refine ⟨hFailed, rfl, ?_⟩
  apply hSweep.mono
  intro xs second u hSecond
  rcases hSecond with ⟨hAgain, hCalls, -⟩
  refine ⟨hAgain, ?_⟩
  have hSent : Call.send (refusal .overdue) ∈
      xs.map Exchange.call := by
    rw [hCalls]
    simp
  rcases List.mem_map.1 hSent with ⟨x, hx, hCall⟩
  exact ⟨x, hx, by rw [hCall]; rfl⟩

end Preview
