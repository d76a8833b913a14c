import Preview.Proofs.Repeating

/-
  Deleting an instance that is not stored.

  A delete run claims an instance without a record as well:
  it stores its claim where there was nothing.  If the run
  succeeds, the record is removed again; if its plan cannot be
  made or a step fails, the record of the instance in error
  stays.

  Main declarations:
    * `Service.Revives`
    * `Service.delete_revives`
    * `Service.delete_recreates`
-/

namespace Preview

open Preview.Action (Handler eval)

/- A path that is no key has no record at any time. -/
theorem Store.content?_of_unkeyed
    {path : String}
    (hKey : (Store.key path).isOk = false)
    (t : Store) :
    t.content? path = none := by
  unfold content?
  cases hFound : Store.key path with
  | error e => rfl
  | ok k =>
      rw [hFound] at hKey
      cases hKey

namespace Service

/- How a delete run on an instance without a record ends, and
   which record there is then. -/
inductive Revives (s : Service) (i : Instance) :
    Except Error Unit → Option String → Prop
  | removed : Revives s i (.ok ()) none
  | busy
      (hBusy : i.status ∈ Job.delete.busy) :
      Revives s i
        (.error (.conflict i.identity (.already i.status))) none
  | failed
      {e : Error}
      (hCause : e.IsRender ∨ e.IsStep) :
      Revives s i (.error e)
        (some { i with status := .error : Instance }.record)
  | unkeyed
      {e : Error}
      (hKey : (Store.key
        (s.repository.path i.identity)).isOk = false) :
      Revives s i (.error e) none

section Deleting

variable {σ : Type} {h : Handler σ} {view : σ → Store}

/-
  What a delete run leaves of an instance that is not stored.

  Only a copy that is being deleted, or a path that is no key,
  keeps the run from storing its claim.  From there on the
  run has to remove the record itself, which it does only if
  all its steps are destroyed.
-/
theorem delete_revives
    (hSteady : Store.Steady h view)
    (s : Service)
    (hCatalog : s.catalog.Valid)
    (i : Instance)
    {p : Playbook}
    (hBook : s.playbook i.identity.playbook = .ok p)
    {start : σ}
    (hAbsent :
      (view start).content? (s.repository.path i.identity) =
        none) :
    (s.delete i).run.Yields h start fun _ result t =>
      s.Revives i result
        ((view t).content?
          (s.repository.path i.identity)) := by
  by_cases hBusy : i.status ∈ Job.delete.busy
  · rw [show (s.delete i).run = _ from
        Job.program_of_busy s i .delete hBook hBusy]
    change s.Revives i (.error _)
      ((view (h start (.send _)).1).content? _)
    rw [view_send hSteady.unsteady, hAbsent]
    exact .busy hBusy
  · cases hKey : (Store.key
        (s.repository.path i.identity)).isOk with
    | false =>
        unfold Action.Yields
        dsimp only
        rw [Store.content?_of_unkeyed hKey]
        cases (eval h (s.delete i).run start).2 with
        | ok _ => exact .removed
        | error e => exact .unkeyed hKey
    | true =>
        have hSeen : Job.delete.objection? s.repository
            i.identity ((view start).content?
              (s.repository.path i.identity)) = none := by
          rw [hAbsent]
          rfl
        apply (delete_ends hSteady s i hKey hBook hBusy
          hSeen).mono
        intro xs result t hEnded
        revert hEnded
        generalize (view t).content? _ = stored
        intro hEnded
        cases hEnded with
        | removed => exact .removed
        | failed hCause =>
            refine .failed (hCause.imp_left ?_)
            exact Plan.build_error_of_valid
              (playbook_valid hCatalog hBook)

end Deleting

/- A store beside a cluster in memory, where all else
   succeeds. -/
def besides : Handler (Store × Cluster)
  | (s, c), .store call =>
      (((s.perform call).1, c), (s.perform call).2)
  | (s, c), .cluster call =>
      ((s, (c.perform call).1), (c.perform call).2)
  | s, call => (s, call.calm)

/- The store is steady whatever the cluster does. -/
theorem besides_steady : Store.Steady besides Prod.fst where
  acts s c := rfl
  stays := by
    intro s c hOutside
    cases c with
    | store c => cases hOutside
    | _ => rfl

/- A run whose first step does not find its object. -/
theorem delete_revives_empty :
    Store.Steady besides Prod.fst ∧
      (single (plainManifest "app")).catalog.Valid ∧
      ((single (plainManifest "app")).delete
        (.ofBranch "main")).run.Yields besides
          (Store.empty, Cluster.empty) fun _ result t =>
            (single (plainManifest "app")).Revives
              (.ofBranch "main") result
              (t.1.content?
                ((single
                  (plainManifest "app")).repository.path
                    ⟨"web", "demo"⟩)) :=
  ⟨besides_steady, single_valid _,
    delete_revives besides_steady _ (single_valid _)
      (.ofBranch "main") (p := ⟨"web", "Web", ["branch"],
        [⟨"app", ["app"], none⟩], none⟩) rfl
      (Store.content?_empty _)⟩

/- That run leaves a record where there was none. -/
theorem delete_recreates :
    Store.empty.content?
        ((single (plainManifest "app")).repository.path
          ⟨"web", "demo"⟩) = none ∧
      (eval besides
        ((single (plainManifest "app")).delete
          (.ofBranch "main")).run
        (Store.empty, Cluster.empty)).1.1.content?
          ((single (plainManifest "app")).repository.path
            ⟨"web", "demo"⟩) =
        some { Instance.ofBranch "main" with
          status := .error }.record := by
  refine ⟨Store.content?_empty _, ?_⟩
  decide +kernel

end Service

end Preview
