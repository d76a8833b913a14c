import Preview.Proofs.Updating

/-
  What an update may overwrite.

  An update writes the record that it has read with one field
  changed.  If nothing was written in between, that changes
  one field of the stored record, which is there.  A write in
  between is lost with everything that it changed: another
  update, the claim of a run, and the removal of the record.

  Main declarations:
    * `Service.update_writes`
    * `Crowd.crossing`
    * `Service.update_overwrites`
-/

namespace Preview

open Pool

/-
  What an update writes is made of the record that it has
  read by a change of its own field; if nothing was written
  since, that record is the stored one.
-/
theorem Service.update_writes
    {ι : Type}
    [DecidableEq ι]
    (s : Service)
    (identity : Identity)
    (part : ι → Part)
    (store : Store)
    (hCopy : ∀ i job copy,
      part i = .run job copy → copy.identity = identity)
    (hKey :
      (Store.key (s.repository.path identity)).isOk = true)
    (hOwned : ∀ text i,
      store.content? (s.repository.path identity) = some text →
        Instance.ofRecord? text = some i →
          i.identity = identity)
    {trace : List (ι × Exchange)}
    {p q : Pool ι (Except Error Unit)}
    {i : ι}
    {u : Update}
    {x : Exchange}
    (hRuns : Runs
      ⟨store, fun i => (part i).program s identity⟩ trace p)
    (hUpdate : part i = .update u)
    (hStep : Pool.Step p (i, x) q)
    (hWrote : x.wrote = true) :
    ∃ text old new early late,
      trace = early ++
          (i, ⟨.store (.value (s.repository.path identity)),
            .ok (some text)⟩) :: late ∧
        Instance.ofRecord? text = some old ∧
        u.amend? old = some new ∧
        q.store.content? (s.repository.path identity) =
          some new.record ∧
        ((∀ y ∈ late, y.2.wrote = false) →
          p.store.content? (s.repository.path identity) =
            some text) := by
  let c : Crowd ι := ⟨s, identity, part, hCopy, hKey⟩
  have hSound : c.Sound trace p := Crowd.sound hOwned hRuns
  have hPart : c.part i = .update u := hUpdate
  cases (hSound.turn hStep).2 hWrote with
  | saved job copy status hRun =>
      rw [hPart] at hRun
      cases hRun
  | removed copy hRun =>
      rw [hPart] at hRun
      cases hRun
  | updated v text old new early late hSame hOld hNew _ hTrace
      _ hKept _ hRecord =>
      rw [hPart] at hSame
      cases hSame
      exact ⟨text, old, new, early, late, hTrace, hOld, hNew,
        hRecord, hKept⟩

------------------------------------------------------------
-- Updates That Cross Other Writes
------------------------------------------------------------

namespace Crowd

/- A delete run and four updates on one instance. -/
def crossing : Crowd (Fin 5) where
  service := .single (plainManifest "app")
  identity := ⟨"web", "demo"⟩
  part := fun
    | 0 => .run .delete (.ofBranch "main")
    | 1 => .update (.set "branch" "dev")
    | 2 => .update .lock
    | 3 => .update (.set "branch" "late")
    | 4 => .update .lock
  hCopy := by
    intro i job copy hPart
    match i with
    | 0 => cases hPart; rfl
    | 1 | 2 | 3 | 4 => cases hPart
  hKey := Service.single_key

/- The delete run of the crowd. -/
abbrev crossingRun : Group (Fin 5) :=
  group (show crossing.part 0 =
    .run .delete (.ofBranch "main") from rfl)

/- What the updates of the crowd are to write. -/
def crossingNew : Fin 5 → Instance
  | 0 => .ofBranch "main"
  | 1 => .ofBranch "dev"
  | 2 => (Instance.ofBranch "main").lock
  | 3 => .ofBranch "late"
  | 4 => (Instance.ofBranch "main").lock

/- All updates of the crowd read the same record. -/
theorem crossing_reads :
    ∃ trace p,
      Runs (crossing.start (crossing.holding (.ofBranch "main")))
          trace p ∧
        (∀ i ∈ [1, 2, 3, 4], p.programs i =
          .call
            (.store
              (.set crossing.path (crossingNew i).record))
            Update.afterWrite) ∧
        p.programs 0 =
          Job.delete.program crossing.service
            (.ofBranch "main") := by
  have hUpdates : ∀ i ∈ ([1, 2, 3, 4] : List (Fin 5)), ∃ u,
      crossing.part i = .update u ∧
        u.refusal? crossing.service crossing.identity = none ∧
        u.amend? (.ofBranch "main") = some (crossingNew i) := by
    intro i hi
    match i with
    | 0 => exact absurd hi (by decide)
    | 1 =>
        exact ⟨_, rfl, Update.refusal?_single _ _,
          congrArg some (Instance.setVar_ofBranch _ _)⟩
    | 2 => exact ⟨_, rfl, rfl, rfl⟩
    | 3 =>
        exact ⟨_, rfl, Update.refusal?_single _ _,
          congrArg some (Instance.setVar_ofBranch _ _)⟩
    | 4 => exact ⟨_, rfl, rfl, rfl⟩
  rcases reads_turns (c := crossing)
    (p := crossing.start (crossing.holding (.ofBranch "main")))
    (show (Instance.ofBranch "main").identity =
      crossing.identity from rfl)
    [1, 2, 3, 4] (by decide) hUpdates (fun _ _ => rfl)
    (crossing.record?_holding _) with
    ⟨trace, p, hRuns, _, hEach, hOthers⟩
  exact ⟨trace, p, hRuns, hEach, hOthers 0 (by decide)⟩

end Crowd

/-
  An update does not spare what was written since its read.
  All four updates read the record of a new instance, and one
  sets the variable.  The first lock takes that back, another
  update replaces the claim of the delete run by the status
  that it has read, and when the delete run has removed the
  record, the second lock brings it back.
-/
theorem Service.update_overwrites :
    ∃ before early late x y z a b c d e f,
      Runs (Crowd.crossing.start
          (Crowd.crossing.holding (.ofBranch "main")))
          before a ∧
        Crowd.crossing.record? a.store =
          some (Instance.ofBranch "dev").record ∧
        Pool.Step a (2, x) b ∧
        Crowd.crossing.record? b.store =
          some (Instance.ofBranch "main").lock.record ∧
        Runs b early c ∧
        Crowd.crossing.record? c.store =
          some { Instance.ofBranch "main" with
            status := .deleting }.record ∧
        Pool.Step c (3, y) d ∧
        Crowd.crossing.record? d.store =
          some (Instance.ofBranch "late").record ∧
        Runs d late e ∧
        e.programs 0 = .finish (.ok ()) ∧
        Crowd.crossing.record? e.store = none ∧
        Pool.Step e (4, z) f ∧
        Crowd.crossing.record? f.store =
          some (Instance.ofBranch "main").lock.record := by
  obtain ⟨resource, hRender⟩ : ∃ resource,
      renderResource Template.render (plainManifest "app")
        (Instance.ofBranch "main").vars = .ok resource :=
    exists_of_isOk (by decide +kernel)
  rcases build_single hRender with ⟨book, hBook, hPlan⟩
  rcases Job.start_delete_single Crowd.crossing.service
    (.ofBranch "main") hPlan with
      ⟨afterDelete, afterErase, message, afterSend, hRemove,
        hErase, hSend, hDone⟩
  -- all updates read, and the first two write
  rcases Crowd.crossing_reads with
    ⟨before, p, hReads, hWriting, hDelete⟩
  rcases Crowd.write_turn (hWriting 1 (by decide)) with
    ⟨a, hStepA, _, hRecordA, hOthersA⟩
  rcases Crowd.write_turn
    ((hOthersA 2 (by decide)).trans (hWriting 2 (by decide)))
    with ⟨b, hStepB, _, hRecordB, hOthersB⟩
  -- the delete run claims
  rcases Crowd.crossingRun.read_turn (p := b) (i := 0) hBook
    (by decide)
    ((hOthersB 0 (by decide)).trans
      ((hOthersA 0 (by decide)).trans hDelete)) with
      ⟨m, hStepM, hNextM, hStoreM, hOthersM⟩
  have hFree : Crowd.crossingRun.objection? 0
      (Crowd.crossingRun.record? m.store) = none := by
    rw [hStoreM, show Crowd.crossingRun.record? b.store = _
      from hRecordB]
    exact Job.objection?_record_of_free _ _ (by decide)
  rw [← hStoreM] at hNextM
  rcases Crowd.crossingRun.swap_turn hNextM hFree with
    ⟨c, hStepC, hNextC, hRecordC, _, hOthersC⟩
  have hLater (i : Fin 5) (h0 : i ≠ 0) (h1 : i ≠ 1)
      (h2 : i ≠ 2) : c.programs i = p.programs i := by
    rw [hOthersC i h0, hOthersM i h0, hOthersB i h2,
      hOthersA i h1]
  -- an update replaces the claim
  rcases Crowd.write_turn
    ((hLater 3 (by decide) (by decide) (by decide)).trans
      (hWriting 3 (by decide))) with
    ⟨d, hStepD, _, hRecordD, hOthersD⟩
  -- the delete run removes the object and the record
  rcases runs_turn
    ((hOthersD 0 (by decide)).trans (hNextC.trans hRemove))
    (.other (.cluster (.delete _)) (Except.ok ()) rfl) with
      ⟨k, hStepK, hNextK, hStoreK, hOthersK⟩
  have hPresent :
      (Crowd.crossing.record? k.store).isSome = true := by
    rw [hStoreK]
    exact congrArg Option.isSome hRecordD
  rcases Answers.erase Crowd.crossing.hKey k.store with
      ⟨removed, hErased, hRemoved⟩
  rw [hPresent] at hErased
  rcases runs_turn (hNextK.trans hErase) hErased with
      ⟨l, hStepL, hNextL, hStoreL, hOthersL⟩
  rcases runs_turn (hNextL.trans hSend)
    (.other (.send _) true rfl) with
      ⟨e, hStepE, hNextE, hStoreE, hOthersE⟩
  have hAbsent : Crowd.crossing.record? e.store = none := by
    rw [hStoreE, hStoreL]
    exact hRemoved
  -- the last update brings the record back
  have hLast : e.programs 4 = p.programs 4 := by
    rw [hOthersE 4 (by decide), hOthersL 4 (by decide),
      hOthersK 4 (by decide), hOthersD 4 (by decide),
      hLater 4 (by decide) (by decide) (by decide)]
  rcases Crowd.write_turn
    (hLast.trans (hWriting 4 (by decide))) with
    ⟨f, hStepF, _, hRecordF, _⟩
  exact ⟨_, _, _, _, _, _, a, b, c, d, e, f,
    .step hReads hStepA, hRecordA, hStepB, hRecordB,
    .step (.step .none hStepM) hStepC, hRecordC, hStepD,
    hRecordD, .step (.step (.step .none hStepK) hStepL) hStepE,
    hNextE.trans (hDone true), hAbsent, hStepF, hRecordF⟩

/- The update that sets the variable, once all have read. -/
theorem Service.update_writes_crossing :
    ∃ trace x p q text old new early late,
      Runs (Crowd.crossing.start
          (Crowd.crossing.holding (.ofBranch "main")))
          trace p ∧
        Pool.Step p (1, x) q ∧
        x.wrote = true ∧
        trace = early ++
          (1, Crowd.crossing.readOf (some text)) :: late ∧
        Instance.ofRecord? text = some old ∧
        (Update.set "branch" "dev").amend? old = some new ∧
        Crowd.crossing.record? q.store = some new.record ∧
        ((∀ y ∈ late, y.2.wrote = false) →
          Crowd.crossing.record? p.store = some text) := by
  rcases Crowd.crossing_reads with ⟨trace, p, hReads, hWriting, _⟩
  rcases Crowd.write_turn (hWriting 1 (by decide)) with
    ⟨q, hStep, _, _, _⟩
  have hOwned : Crowd.crossing.Owned
      (Crowd.crossing.holding (.ofBranch "main")) :=
    Crowd.owned_holding rfl
  rcases Service.update_writes Crowd.crossing.service
    Crowd.crossing.identity Crowd.crossing.part _
    Crowd.crossing.hCopy Crowd.crossing.hKey hOwned hReads rfl
    hStep rfl with
    ⟨text, old, new, early, late, hRest⟩
  exact ⟨trace, _, p, q, text, old, new, early, late, hReads,
    hStep, rfl, hRest⟩

end Preview
