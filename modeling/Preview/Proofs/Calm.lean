import Preview.Proofs.Claiming
import Preview.Proofs.Objects

/-
  Runs in a world where nothing fails.

  Reads find what is stored, writes take effect, and objects
  are created and removed at once.  So runs whose plan has
  one step succeed, and leave what they are meant to leave.

  Main declarations:
    * `World.Calm`
    * `find_calm` and `setVariable_calm`
    * `deploy_calm` and `delete_calm`
-/

namespace Preview

open Preview.Action (eval exchanges)

------------------------------------------------------------
-- Worlds Without Faults
------------------------------------------------------------

/- Nothing fails in a calm world, and nothing lingers. -/
structure World.Calm (w : World) : Prop where
  hFaults : w.faults = .none
  hPrompt : w.cluster.Prompt

namespace World

variable {w : World} (hCalm : w.Calm)

include hCalm

theorem perform_store (c : Store.Call) :
    w.perform (.store c) =
      ({ w with store := (w.store.perform c).1 },
        (w.store.perform c).2) :=
  w.performStore_faultless hCalm.hFaults c

/- A read in a calm world changes nothing, and tells what is
   there. -/
theorem get_calm (key : Key) :
    w.perform (.cluster (.get key)) =
      (w, .ok (w.cluster.objects.get? key)) := by
  change (({ w with cluster := (w.cluster.get key).1 } : World),
    (w.cluster.get key).2) = _
  rw [Cluster.get_prompt hCalm.hPrompt]

/- A creation adds the object, and no other one. -/
theorem create_calm
    {kind space : String}
    {r : Resource}
    (hAbsent :
      w.cluster.objects.contains ⟨kind, space, r.name⟩ =
        false) :
    ∃ v,
      w.perform (.cluster (.create kind space r)) =
        (v, .ok ()) ∧
      v.Calm ∧
      v.store = w.store ∧
      ∀ key, v.cluster.objects.contains key =
        (decide (key = ⟨kind, space, r.name⟩) ||
          w.cluster.objects.contains key) := by
  have hCreate :=
    Cluster.objects_create hCalm.hPrompt hAbsent
  refine ⟨{ w with
      cluster := (w.cluster.create kind space r).1 }, ?_,
    ⟨hCalm.hFaults,
      Cluster.create_prompt hCalm.hPrompt kind space r⟩,
    rfl, hCreate.2⟩
  rw [← hCreate.1]
  rfl

/- An object that is there can be deleted. -/
theorem delete_calm
    {key : Key}
    (hThere : w.cluster.objects.contains key = true) :
    ∃ v,
      w.perform (.cluster (.delete key)) = (v, .ok ()) ∧
      v.Calm ∧
      v.store = w.store := by
  have hDelete : (w.cluster.delete key).2 = .ok () := by
    rw [Cluster.delete_eq hCalm.hPrompt, if_pos hThere]
  refine ⟨{ w with cluster := (w.cluster.delete key).1 }, ?_,
    ⟨hCalm.hFaults,
      Cluster.delete_prompt hCalm.hPrompt key⟩, rfl⟩
  rw [← hDelete]
  rfl

/- Messages touch neither the store nor the cluster. -/
theorem send_calm (n : Notification) :
    (w.perform (.send n)).1.Calm ∧
      (w.perform (.send n)).1.store = w.store ∧
      (w.perform (.send n)).1.cluster = w.cluster := by
  simp only [perform]
  split <;>
    exact ⟨⟨hCalm.hFaults, hCalm.hPrompt⟩, rfl, rfl⟩

end World

section Worlds

variable (s : Service) (i : Instance)
variable (hKey :
  (Store.key (s.repository.path i.identity)).isOk = true)
variable {w : World} (hCalm : w.Calm)
variable (hRecord :
  w.store.content? (s.repository.path i.identity) =
    some i.record)

include hKey hCalm hRecord

theorem read_calm :
    w.perform (.store
        (.value (s.repository.path i.identity))) =
      (w, .ok (some i.record)) := by
  rw [World.perform_store hCalm, Store.perform_value hKey,
    hRecord]

/- The instance is found as it was stored. -/
theorem find_calm :
    eval World.perform (s.repository.find i.identity).run w =
      (w, .ok i) := by
  change eval World.perform
    (.call (.store (.value (s.repository.path i.identity)))
      _) w = _
  rw [eval, read_calm s i hKey hCalm hRecord]
  change (w, Repository.decode _ i.record) = _
  unfold Repository.decode
  rw [Instance.ofRecord?_record]

omit hRecord in
/- A write replaces the record and touches no object. -/
theorem set_calm (record : String) :
    ∃ v,
      w.perform (.store
          (.set (s.repository.path i.identity) record)) =
        (v, .ok ()) ∧
      v.Calm ∧
      v.cluster = w.cluster ∧
      v.store.content? (s.repository.path i.identity) =
        some record := by
  rcases Store.perform_set hKey w.store record with
    ⟨t, hSet, hContent⟩
  rw [World.perform_store hCalm, hSet]
  exact ⟨_, rfl, ⟨hCalm.hFaults, hCalm.hPrompt⟩, rfl,
    hContent⟩

/- A swap of the record that was read goes well. -/
theorem swap_calm (record : String) :
    ∃ v,
      w.perform (.store
          (.swap (s.repository.path i.identity)
            (some i.record) record)) =
        (v, .ok true) ∧
      v.Calm ∧
      v.cluster = w.cluster ∧
      v.store.content? (s.repository.path i.identity) =
        some record := by
  rcases Store.perform_swap_of_eq hKey w.store record with
    ⟨t, hSwap, hContent⟩
  rw [World.perform_store hCalm, ← hRecord, hSwap]
  exact ⟨_, rfl, ⟨hCalm.hFaults, hCalm.hPrompt⟩, rfl,
    hContent⟩

/- An update stores the instance that it returns. -/
theorem setVariable_calm
    {p : Playbook}
    (hBook : s.playbook i.identity.playbook = .ok p)
    {key : String}
    (hDeclared : p.declares key = true)
    (value : String) :
    ∃ v,
      eval World.perform
          (s.setVariable i.identity key value).run w =
        (v, .ok (i.setVar key value)) ∧
      v.Calm ∧
      v.cluster = w.cluster ∧
      v.store.content? (s.repository.path i.identity) =
        some (i.setVar key value).record := by
  have hRun :
      (s.setVariable i.identity key value).run =
        (do
          let found ← s.repository.find i.identity
          s.repository.save (found.setVar key value)
          return found.setVar key value :
            Attempt Error Instance).run := by
    unfold Service.setVariable
    rw [hBook]
    change (if p.declares key = true then _ else _ :
      Attempt Error Instance).run = _
    rw [if_pos hDeclared]
  rcases set_calm s i hKey hCalm (i.setVar key value).record
    with ⟨v, hSet, hThen⟩
  refine ⟨v, ?_, hThen⟩
  rw [hRun]
  change eval World.perform
    (Action.bind (s.repository.find i.identity).run _) w = _
  rw [Action.eval_bind, find_calm s i hKey hCalm hRecord]
  change eval World.perform
    (.call (.store (.set (s.repository.path i.identity)
      (i.setVar key value).record)) _) w = _
  rw [eval, hSet]
  rfl

section Single

variable {p : Playbook}
variable (hBook : s.playbook i.identity.playbook = .ok p)
variable {resource : Resource}
variable (hPlan :
  Plan.build s.render p i.vars s.catalog.manifests =
    .ok ⟨[⟨.resource, resource⟩]⟩)

include hBook hPlan

/- A deploy run with one step creates the object that is not
   there yet. -/
theorem deploy_calm
    (hFree : i.status ∉ Job.deploy.busy)
    (hAbsent : w.cluster.objects.contains
      (s.context.key resource) = false) :
    ∃ v,
      eval World.perform (s.deploy i).run w = (v, .ok ()) ∧
      (∃ x ∈ exchanges World.perform (s.deploy i).run w,
        x.created? = some (s.context.key resource)) ∧
      v.Calm ∧
      v.store.content? (s.repository.path i.identity) =
        some { i with status := .deployed :
          Instance }.record ∧
      ∀ key, v.cluster.objects.contains key =
        (decide (key = s.context.key resource) ||
          w.cluster.objects.contains key) := by
  suffices hYields :
      (Job.deploy.program s i).Yields World.perform w
        fun xs result v =>
          result = .ok () ∧
          (∃ x ∈ xs,
            x.created? = some (s.context.key resource)) ∧
          v.Calm ∧
          v.store.content? (s.repository.path i.identity) =
            some { i with status := .deployed :
              Instance }.record ∧
          ∀ key, v.cluster.objects.contains key =
            (decide (key = s.context.key resource) ||
              w.cluster.objects.contains key) from
    ⟨_, Prod.ext rfl hYields.1, hYields.2⟩
  -- the claim: the record is read, and swapped for the claim
  rw [Job.program_of_free s i .deploy hBook hFree,
    Action.yields_call, read_calm s i hKey hCalm hRecord]
  dsimp only
  rw [Job.afterValue_read, Job.proceed_of_free
    (Job.objection?_record_of_free _ _ hFree)]
  rcases swap_calm s i hKey hCalm hRecord
    (Job.deploy.claimRecord i) with
    ⟨claimed, hSwap, hCalm', hCluster, -⟩
  rw [Action.yields_call, hSwap]
  dsimp only
  rw [Job.afterSwap_stored]
  rcases Job.start_deploy_single s i hPlan with
    ⟨afterGet, afterCreate, afterSave, n, afterSend, hGet,
      hCreate, hSave, hSend, hDone⟩
  rw [← hCluster] at hAbsent
  have hNone :
      claimed.cluster.objects.get? (s.context.key resource) =
        none := by
    unfold Registry.contains at hAbsent
    simpa using hAbsent
  -- the work: the object is not there and is created
  rw [hGet, Action.yields_call, World.get_calm hCalm', hNone,
    hCreate, Action.yields_call]
  rcases World.create_calm hCalm' hAbsent with
    ⟨created, hCreated, hCalm'', -, hObjects⟩
  rw [hCreated, hSave, Action.yields_call]
  -- the end: the status is saved and the message sent
  rcases set_calm s i hKey hCalm''
    { i with status := .deployed : Instance }.record with
    ⟨saved, hSaved, hSavedCalm, hSavedCluster, hContent⟩
  rw [hSaved, hSend, Action.yields_call]
  have hSent := World.send_calm hSavedCalm n
  rw [hDone]
  refine ⟨rfl, ?_, hSent.1, ?_, fun key => ?_⟩
  · exact ⟨⟨.cluster (.create _ _ _), Except.ok ()⟩,
      by simp, rfl⟩
  · exact (congrArg (Store.content? · _) hSent.2.1).trans
      hContent
  · apply (congrArg (fun c => c.objects.contains key)
      (hSent.2.2.trans hSavedCluster)).trans
    rw [hObjects key, hCluster]
    rfl

/- A delete run with one step succeeds on an object that is
   there. -/
theorem delete_calm
    (hFree : i.status ∉ Job.delete.busy)
    (hThere : w.cluster.objects.contains
      (s.context.key resource) = true) :
    (eval World.perform (s.delete i).run w).2 = .ok () := by
  change (Job.delete.program s i).Yields World.perform w
    fun _ result _ => result = .ok ()
  rw [Job.program_of_free s i .delete hBook hFree,
    Action.yields_call, read_calm s i hKey hCalm hRecord]
  dsimp only
  rw [Job.afterValue_read, Job.proceed_of_free
    (Job.objection?_record_of_free _ _ hFree)]
  rcases swap_calm s i hKey hCalm hRecord
    (Job.delete.claimRecord i) with
    ⟨claimed, hSwap, hCalm', hCluster, hContent⟩
  rw [Action.yields_call, hSwap]
  dsimp only
  rw [Job.afterSwap_stored]
  rcases Job.start_delete_single s i hPlan with
    ⟨afterDelete, afterErase, n, afterSend, hDelete, hErase,
      hSend, hDone⟩
  rw [← hCluster] at hThere
  rcases World.delete_calm hCalm' hThere with
    ⟨deleted, hDeleted, hCalm'', hStore⟩
  rw [hDelete, Action.yields_call, hDeleted, hErase,
    Action.yields_call]
  rw [← hStore] at hContent
  have hErased : (deleted.perform (.store
      (.erase (s.repository.path i.identity)))).2 =
        .ok true := by
    rw [World.perform_store hCalm'',
      Store.perform_erase_reply hKey, hContent]
    rfl
  rw [hErased, hSend, Action.yields_call, hDone]
  rfl

end Single

end Worlds

end Preview
