import Mathlib.Data.List.Induction
import Preview.Proofs.Updating

/-
  What becomes of the terms of an instance during a deploy.

  The terms are what a record says besides identity and
  status.  A deploy run stores the terms of its own copy, at
  its claim and at its last write; an update stores its
  change of the terms that it has read.  So the stored terms
  are those of a ledger that is kept along the trace, and as
  long as the run only finds the terms of its copy, they are
  what the updates have made of the first ones.

  Main declarations:
    * `Terms` and `Update.amend`
    * `Ledger` and `Ledger.after`
    * `Serial` and `acknowledged`
    * `Service.deploy_run_terms`
    * `Service.deploy_run_undoes`
-/

namespace Preview

open Pool

------------------------------------------------------------
-- Terms
------------------------------------------------------------

/- What a record says besides identity and status. -/
structure Terms where
  createdAt : Instant
  expiresAt : Instant
  vars : Table String
  locked : Bool
deriving DecidableEq

/- The terms of an instance. -/
def Instance.terms (i : Instance) : Terms :=
  ⟨i.createdAt, i.expiresAt, i.vars, i.locked⟩

/- What an update makes of terms. -/
def Update.amend (t : Terms) : Update → Terms
  | lock => { t with locked := true }
  | unlock => { t with locked := false }
  | set key value => { t with vars := t.vars.insert key value }

/- An update amends the terms as it amends the instance. -/
theorem Update.terms_amend?
    {u : Update}
    {old new : Instance}
    (hNew : u.amend? old = some new) :
    new.terms = u.amend old.terms := by
  cases u with
  | lock =>
      cases hNew
      rfl
  | unlock =>
      simp only [amend?, Instance.unlock?] at hNew
      split at hNew <;> cases hNew
      rfl
  | set key value =>
      cases hNew
      rfl

/- The terms of the record under a path, if it can be read. -/
def Store.terms? (s : Store) (path : String) : Option Terms :=
  ((s.content? path).bind Instance.ofRecord?).map
    Instance.terms

/- The terms of a record are those of its instance. -/
theorem Store.terms?_of_record
    {s : Store}
    {path : String}
    {i : Instance}
    (hRecord : s.content? path = some i.record) :
    s.terms? path = some i.terms := by
  unfold terms?
  rw [hRecord, Option.bind_some, Instance.ofRecord?_record]
  rfl

/- A status is none of the terms. -/
theorem Store.terms?_of_status
    {s : Store}
    {path : String}
    {i : Instance}
    {status : Status}
    (hRecord : s.content? path =
      some { i with status := status : Instance }.record) :
    s.terms? path = some i.terms := by
  rw [terms?_of_record hRecord]
  rfl

------------------------------------------------------------
-- Ledgers
------------------------------------------------------------

/- The stored terms, and those that an update has read
   last. -/
structure Ledger where
  stored : Option Terms
  seen : Option Terms

section Ledgers

variable {κ : Type}

/- The updates that have written, in that order. -/
def acknowledged
    (trace : List (Option κ × Exchange)) : List κ :=
  trace.filterMap fun y => if y.2.wrote then y.1 else none

/- No update makes a call between two calls of another one;
   a run does not count. -/
def Serial (trace : List (Option κ × Exchange)) : Prop :=
  ∀ k j, j ≠ k →
    ¬ [some k, some j, some k].Sublist (trace.map (·.1))

/- The terms after some updates of the first ones. -/
def Update.amendAll
    (update : κ → Update)
    (first : Option Terms)
    (ks : List κ) : Option Terms :=
  ks.foldl (fun t k => t.map fun t => (update k).amend t) first

variable (copy : Terms) (update : κ → Update)

/-
  Keep a ledger.  A write of the run stores the terms of its
  copy, a write of an update stores its change of what it has
  read, and any other call of an update is its read.
-/
def Ledger.note (l : Ledger) :
    Option κ × Exchange → Ledger
  | (none, x) =>
      if x.wrote then { l with stored := some copy } else l
  | (some k, x) =>
      if x.wrote then
        { l with
          stored := l.seen.map fun t => (update k).amend t }
      else { l with seen := l.stored }

/- The ledger after a trace. -/
def Ledger.after
    (first : Option Terms)
    (trace : List (Option κ × Exchange)) : Ledger :=
  trace.foldl (note copy update) ⟨first, none⟩

/- Every write of the run replaces the terms of its copy. -/
def Agreeing
    (first : Option Terms)
    (trace : List (Option κ × Exchange)) : Prop :=
  ∀ early x late,
    trace = early ++ (none, x) :: late →
      x.wrote = true →
        (Ledger.after copy update first early).stored =
          some copy

variable {copy update}
variable {first : Option Terms}
variable {trace more : List (Option κ × Exchange)}

section Notes

variable {l : Ledger}
variable {x : Exchange}

/- What writes nothing leaves the stored terms. -/
theorem Ledger.stored_note_of_silent
    (hSilent : x.wrote = false)
    (w : Option κ) :
    (l.note copy update (w, x)).stored = l.stored := by
  cases w <;> simp [note, hSilent]

/- A write of the run stores the terms of its copy. -/
theorem Ledger.stored_note_run (hWrote : x.wrote = true) :
    (l.note copy update (none, x)).stored = some copy := by
  simp [note, hWrote]

/- A write of an update stores what it makes of the terms that
   it has read. -/
theorem Ledger.stored_note_update
    (hWrote : x.wrote = true)
    (k : κ) :
    (l.note copy update (some k, x)).stored =
      l.seen.map fun t => (update k).amend t := by
  simp [note, hWrote]

theorem Ledger.seen_note_run :
    (l.note copy update (none, x)).seen = l.seen := by
  unfold note
  dsimp only
  split <;> rfl

/- A read sees what is stored. -/
theorem Ledger.seen_note_read
    (hSilent : x.wrote = false)
    (k : κ) :
    (l.note copy update (some k, x)).seen = l.stored := by
  simp [note, hSilent]

end Notes

theorem Ledger.after_nil :
    Ledger.after copy update first [] = ⟨first, none⟩ :=
  rfl

theorem Ledger.after_concat (y : Option κ × Exchange) :
    Ledger.after copy update first (trace ++ [y]) =
      (Ledger.after copy update first trace).note copy update
        y := by
  unfold Ledger.after
  rw [List.foldl_append]
  rfl

theorem acknowledged_append :
    acknowledged (trace ++ more) =
      acknowledged trace ++ acknowledged more :=
  List.filterMap_append

theorem acknowledged_concat (y : Option κ × Exchange) :
    acknowledged (trace ++ [y]) =
      acknowledged trace ++
        (if y.2.wrote then y.1 else none).toList := by
  rw [acknowledged_append]
  refine congrArg (_ ++ ·) ?_
  unfold acknowledged
  cases h : (if y.2.wrote then y.1 else none) <;>
    simp [h]

/- The updates that count are those that have written. -/
theorem mem_acknowledged {k : κ} :
    k ∈ acknowledged trace ↔ Written trace (some k) := by
  unfold acknowledged Written
  rw [List.mem_filterMap]
  constructor
  · rintro ⟨⟨w, x⟩, hx, hk⟩
    dsimp only at hk
    split at hk
    · rename_i hWrote
      subst hk
      exact ⟨x, hx, hWrote⟩
    · cases hk
  · rintro ⟨x, hx, hWrote⟩
    exact ⟨(some k, x), hx, by simp [hWrote]⟩

/- A trace is serial as far as it goes. -/
theorem Serial.of_append (hSerial : Serial (trace ++ more)) :
    Serial trace := by
  intro k j hOther hSub
  refine hSerial k j hOther (hSub.trans ?_)
  rw [List.map_append]
  exact List.sublist_append_left _ _

/- A trace that agrees does so as far as it goes. -/
theorem Agreeing.of_append
    (hAgreeing : Agreeing copy update first (trace ++ more)) :
    Agreeing copy update first trace := by
  intro early x late hTrace hWrote
  refine hAgreeing early x (late ++ more) ?_ hWrote
  rw [hTrace]
  simp

/- A run that writes nothing more agrees as before. -/
theorem Agreeing.append_of_silent
    (hAgreeing : Agreeing copy update first trace)
    (hSilent : ∀ z, (none, z) ∈ more → z.wrote = false) :
    Agreeing copy update first (trace ++ more) := by
  intro early x late hTrace hWrote
  have hNew : (none, x) ∉ more := by
    intro hx
    rw [hSilent x hx] at hWrote
    cases hWrote
  rcases List.append_eq_append_iff.1 hTrace with
    ⟨part, _, hMore⟩ | ⟨part, hEarly, hRest⟩
  · exact absurd (by rw [hMore]; simp) hNew
  · cases part with
    | nil =>
        rw [List.nil_append] at hRest
        exact absurd (by rw [← hRest]; simp) hNew
    | cons y part =>
        cases (List.cons.inj hRest).1
        exact hAgreeing early x part hEarly hWrote

/- A write that replaces the terms of the copy agrees. -/
theorem Agreeing.concat
    {x : Exchange}
    (hAgreeing : Agreeing copy update first trace)
    (hFound : (Ledger.after copy update first trace).stored =
      some copy) :
    Agreeing copy update first (trace ++ [(none, x)]) := by
  intro early y late hTrace hWrote
  rcases List.eq_nil_or_concat late with rfl | ⟨late, z, rfl⟩
  · rw [← (List.append_inj' hTrace rfl).1]
    exact hFound
  · rw [List.concat_eq_append, ← List.cons_append,
      ← List.append_assoc] at hTrace
    exact hAgreeing early y late
      (List.append_inj' hTrace rfl).1 hWrote

/- Between two calls of an update only the run makes calls,
   if the update makes none itself. -/
theorem Serial.between
    {early late : List (Option κ × Exchange)}
    {k : κ}
    {x y : Exchange}
    (hSerial : Serial
      (early ++ (some k, x) :: late ++ [(some k, y)]))
    (hOnce : ∀ z, (some k, z) ∉ late) :
    ∀ z ∈ late, z.1 = none := by
  rintro ⟨w, z⟩ hz
  cases w with
  | none => rfl
  | some j =>
      by_cases hSame : j = k
      · subst hSame
        exact absurd hz (hOnce z)
      · refine absurd ?_ (hSerial k j hSame)
        have hMiddle : [some j].Sublist (late.map (·.1)) := by
          rw [List.singleton_sublist]
          exact List.mem_map_of_mem (f := (·.1)) hz
        have hEnds := hMiddle.append
          (List.Sublist.refl [some k])
        simp only [List.map_append, List.map_cons,
          List.map_nil, List.append_assoc, List.cons_append]
        exact (hEnds.cons_cons (some k)).trans
          (List.sublist_append_right _ _)

/- While only the run makes calls, what was read last stays,
   and it stays what is stored if the run agrees. -/
theorem Ledger.after_read
    {early late : List (Option κ × Exchange)}
    {k : κ}
    {x : Exchange}
    (hRead : x.wrote = false)
    (hRun : ∀ z ∈ late, z.1 = none) :
    (after copy update first
        (early ++ (some k, x) :: late)).seen =
        (after copy update first early).stored ∧
      (Agreeing copy update first
          (early ++ (some k, x) :: late) →
        (after copy update first
            (early ++ (some k, x) :: late)).stored =
          (after copy update first early).stored) := by
  induction late using List.reverseRecOn with
  | nil =>
      rw [after_concat]
      exact ⟨seen_note_read hRead k,
        fun _ => stored_note_of_silent hRead _⟩
  | append_singleton late z ih =>
      rcases z with ⟨w, z⟩
      have hWho : w = none := hRun (w, z) (by simp)
      subst hWho
      rcases ih fun z hz => hRun z (List.mem_append_left _ hz)
        with ⟨hSeen, hStored⟩
      rw [← List.cons_append, ← List.append_assoc, after_concat]
      refine ⟨seen_note_run.trans hSeen, fun hAgreeing => ?_⟩
      have hBefore := hStored hAgreeing.of_append
      cases hWrote : z.wrote with
      | false =>
          exact (stored_note_of_silent hWrote _).trans hBefore
      | true =>
          rw [stored_note_run hWrote, ← hBefore]
          exact (hAgreeing _ z [] rfl hWrote).symm

end Ledgers

------------------------------------------------------------
-- A Run Among Updates
------------------------------------------------------------

section Around

variable {κ : Type}

/- A deploy run on a copy, and updates. -/
def Part.around (copy : Instance) (update : κ → Update) :
    Option κ → Part
  | none => .run .deploy copy
  | some k => .update (update k)

/- These as a crowd. -/
def Crowd.around
    (s : Service)
    {identity : Identity}
    {copy : Instance}
    (update : κ → Update)
    (hCopy : copy.identity = identity)
    (hKey :
      (Store.key (s.repository.path identity)).isOk = true) :
    Crowd (Option κ) where
  service := s
  identity
  part := Part.around copy update
  hCopy i job copy' hPart := by
    cases i with
    | none =>
        cases hPart
        exact hCopy
    | some k => cases hPart
  hKey

variable [DecidableEq κ]
variable {s : Service} {identity : Identity}
variable {copy : Instance} {update : κ → Update}
variable {hCopy : copy.identity = identity}
variable {hKey :
  (Store.key (s.repository.path identity)).isOk = true}
variable {store : Store}
variable {trace : List (Option κ × Exchange)}
variable {p q : Pool (Option κ) (Except Error Unit)}
variable {w : Option κ} {x : Exchange}

/- A write of the run stores its copy with a status. -/
theorem run_write
    (hSound : (Crowd.around s update hCopy hKey).Sound trace p)
    (hStep : Pool.Step p (none, x) q)
    (hWrote : x.wrote = true) :
    ∃ status,
      q.store.content? (s.repository.path identity) =
        some { copy with status := status : Instance }.record := by
  cases (hSound.turn hStep).2 hWrote with
  | saved job copy' status hPart hRecord =>
      cases hPart
      exact ⟨status, hRecord⟩
  | removed copy' hPart => cases hPart
  | updated u _ _ _ _ _ hPart => cases hPart

/- A write of an update stores its change of what it has
   read, and only the run has made calls since. -/
theorem update_write
    {k : κ}
    (hSound : (Crowd.around s update hCopy hKey).Sound trace p)
    (hSerial : Serial (trace ++ [(some k, x)]))
    (hStep : Pool.Step p (some k, x) q)
    (hWrote : x.wrote = true) :
    ∃ text old early late,
      trace = early ++
          (some k,
            ⟨.store (.value (s.repository.path identity)),
              .ok (some text)⟩) :: late ∧
        (∀ z ∈ late, z.1 = none) ∧
        Instance.ofRecord? text = some old ∧
        q.store.terms? (s.repository.path identity) =
          some ((update k).amend old.terms) := by
  cases (hSound.turn hStep).2 hWrote with
  | saved job copy' status hPart => cases hPart
  | removed copy' hPart => cases hPart
  | updated u text old new early late hPart hOld hNew _ hTrace
      hOnce _ _ hRecord =>
      cases hPart
      rw [hTrace] at hSerial
      refine ⟨text, old, early, late, hTrace,
        hSerial.between fun z => (hOnce z).2, hOld, ?_⟩
      exact (Store.terms?_of_record hRecord).trans
        (congrArg some (Update.terms_amend? hNew))

/- What an update has read is what the record was then. -/
def Recalled
    (path : String)
    (seen : Option Terms)
    (trace : List (Option κ × Exchange)) : Prop :=
  ∀ early late k text,
    trace = early ++
        (some k, ⟨.store (.value path), .ok (some text)⟩) ::
          late →
      (∀ z ∈ late, z.1 = none) →
        seen = (Instance.ofRecord? text).map Instance.terms

/- A turn keeps that, if the ledger is right about the
   store. -/
theorem recalled_turn
    {l : Ledger}
    (hKey :
      (Store.key (s.repository.path identity)).isOk = true)
    (hRecalled : Recalled (s.repository.path identity) l.seen
      trace)
    (hStored : p.store.terms? (s.repository.path identity) =
      l.stored)
    (hStep : Pool.Step p (w, x) q) :
    Recalled (s.repository.path identity)
      (l.note copy.terms update (w, x)).seen
      (trace ++ [(w, x)]) := by
  intro early late k text hTrace hRun
  rcases List.eq_nil_or_concat late with rfl | ⟨late, z, rfl⟩
  · -- the turn is the read itself
    cases (List.append_inj' hTrace rfl).2
    have hSeen : p.store.content? (s.repository.path identity) =
        some text := by
      cases hStep with
      | turn _ c next reply store _ hAnswers =>
          have hPerform := hAnswers.of_store
          rw [Store.perform_value hKey] at hPerform
          exact Except.ok.inj (congrArg Prod.snd hPerform)
    have hTerms : p.store.terms? (s.repository.path identity) =
        (Instance.ofRecord? text).map Instance.terms := by
      unfold Store.terms?
      rw [hSeen, Option.bind_some]
    rw [hTerms] at hStored
    exact (Ledger.seen_note_read rfl k).trans hStored.symm
  · rw [List.concat_eq_append] at hTrace hRun
    rw [← List.cons_append, ← List.append_assoc] at hTrace
    rcases List.append_inj' hTrace rfl with ⟨hBefore, hLast⟩
    cases hLast
    have hWho : w = none := hRun (w, x) (by simp)
    subst hWho
    rw [Ledger.seen_note_run]
    exact hRecalled early late k text hBefore fun z hz =>
      hRun z (List.mem_append_left _ hz)

/- The ledger is right about the store. -/
theorem ledger_of_runs
    (hOwned : (Crowd.around s update hCopy hKey).Owned store)
    (hRuns : Runs
      ((Crowd.around s update hCopy hKey).start store) trace p)
    (hSerial : Serial trace) :
    p.store.terms? (s.repository.path identity) =
        (Ledger.after copy.terms update
          (store.terms? (s.repository.path identity))
          trace).stored ∧
      Recalled (s.repository.path identity)
        (Ledger.after copy.terms update
          (store.terms? (s.repository.path identity))
          trace).seen trace := by
  induction hRuns with
  | none =>
      rw [Ledger.after_nil, Crowd.start_store]
      constructor
      · dsimp only
      · intro early late k text hTrace
        simp at hTrace
  | @step trace p q y hRuns hStep ih =>
      rcases y with ⟨w, x⟩
      rcases ih hSerial.of_append with ⟨hStored, hRecalled⟩
      have hSound := Crowd.sound hOwned hRuns
      rw [Ledger.after_concat]
      refine ⟨?_, recalled_turn hKey hRecalled hStored hStep⟩
      -- only a write is noted, that of the run with its copy
      -- and that of an update with what it had read
      cases hWrote : x.wrote with
      | false =>
          rw [hStep.store_of_not_wrote hWrote,
            Ledger.stored_note_of_silent hWrote]
          exact hStored
      | true =>
          cases w with
          | none =>
              rcases run_write hSound hStep hWrote with
                ⟨status, hRecord⟩
              rw [Ledger.stored_note_run hWrote]
              exact Store.terms?_of_status hRecord
          | some k =>
              rcases update_write hSound hSerial hStep hWrote
                with
                  ⟨text, old, early, late, hTrace, hRun, hOld,
                    hTerms⟩
              have hSeen := hRecalled early late k text hTrace
                hRun
              rw [hTerms, Ledger.stored_note_update hWrote, hSeen,
                hOld]
              rfl

/- As long as the run agrees, the ledger has what the updates
   have made of the first terms. -/
theorem ledger_of_agreeing
    (hOwned : (Crowd.around s update hCopy hKey).Owned store)
    (hRuns : Runs
      ((Crowd.around s update hCopy hKey).start store) trace p)
    (hSerial : Serial trace)
    {first : Option Terms}
    (hAgreeing : Agreeing copy.terms update first trace) :
    (Ledger.after copy.terms update first trace).stored =
      Update.amendAll update first (acknowledged trace) := by
  induction hRuns with
  | none => exact congrArg Ledger.stored Ledger.after_nil
  | @step trace p q y hRuns hStep ih =>
      rcases y with ⟨w, x⟩
      have hBefore := ih hSerial.of_append hAgreeing.of_append
      have hSound := Crowd.sound hOwned hRuns
      rw [Ledger.after_concat, acknowledged_concat]
      cases hWrote : x.wrote with
      | false =>
          rw [Ledger.stored_note_of_silent hWrote, hBefore]
          simp
      | true =>
          cases w with
          | none =>
              rw [Ledger.stored_note_run hWrote,
                ← hAgreeing trace x [] rfl hWrote, hBefore]
              simp
          | some k =>
              rcases update_write hSound hSerial hStep hWrote
                with ⟨text, old, early, late, hTrace, hRun, _⟩
              have hRead : Exchange.wrote
                  ⟨.store (.value (s.repository.path identity)),
                    .ok (some text)⟩ = false := rfl
              rw [Ledger.stored_note_update hWrote]
              -- what the update has read is still stored
              have hSame :
                  (Ledger.after copy.terms update first
                    trace).seen =
                  (Ledger.after copy.terms update first
                    trace).stored := by
                have hAgreed := hAgreeing.of_append
                rw [hTrace] at hAgreed ⊢
                rcases Ledger.after_read hRead hRun with
                  ⟨hSeen, hStored⟩
                exact hSeen.trans (hStored hAgreed).symm
              rw [hSame, hBefore]
              simp [Update.amendAll]

end Around

/-
  A deploy run and updates on one instance, where no update
  makes a call between the read and the write of another one.
  The run writes its copy with some status.  An update has
  succeeded when it has written.  The stored terms are those
  of the ledger, and while the run has only replaced the
  terms of its copy, they are what the successful updates
  have made of the first ones, in their order.
-/
theorem Service.deploy_run_terms
    {κ : Type}
    [DecidableEq κ]
    (s : Service)
    (identity : Identity)
    (copy : Instance)
    (update : κ → Update)
    (store : Store)
    (hCopy : copy.identity = identity)
    (hKey :
      (Store.key (s.repository.path identity)).isOk = true)
    (hOwned : ∀ text i,
      store.content? (s.repository.path identity) = some text →
        Instance.ofRecord? text = some i →
          i.identity = identity)
    {trace : List (Option κ × Exchange)}
    {p : Pool (Option κ) (Except Error Unit)}
    (hRuns : Runs
      ⟨store, fun i =>
        (Part.around copy update i).program s identity⟩
      trace p)
    (hSerial : Serial trace) :
    (∀ x q, Pool.Step p (none, x) q → x.wrote = true →
      ∃ status,
        q.store.content? (s.repository.path identity) =
          some { copy with
            status := status : Instance }.record) ∧
    (∀ k, p.programs (some k) = .finish (.ok ()) ↔
      k ∈ acknowledged trace) ∧
    p.store.terms? (s.repository.path identity) =
      (Ledger.after copy.terms update
        (store.terms? (s.repository.path identity))
        trace).stored ∧
    (Agreeing copy.terms update
        (store.terms? (s.repository.path identity)) trace →
      p.store.terms? (s.repository.path identity) =
        Update.amendAll update
          (store.terms? (s.repository.path identity))
          (acknowledged trace)) := by
  have hCrowd : Runs
      ((Crowd.around s update hCopy hKey).start store)
      trace p := hRuns
  have hOwn : (Crowd.around s update hCopy hKey).Owned store :=
    hOwned
  have hSound := Crowd.sound hOwn hCrowd
  have hLedger := (ledger_of_runs hOwn hCrowd hSerial).1
  refine ⟨fun x q hStep hWrote =>
      run_write hSound hStep hWrote,
    fun k => ?_, hLedger, fun hAgreeing => ?_⟩
  · rw [mem_acknowledged]
    exact (hSound.stage (some k) (update k) rfl).written_iff
  · rw [hLedger]
    exact ledger_of_agreeing hOwn hCrowd hSerial hAgreeing

------------------------------------------------------------
-- A Run That Is Overtaken
------------------------------------------------------------

namespace Crowd

/- Two updates of one variable. -/
def overtakenUpdate (k : Fin 2) : Update :=
  .set "branch" (if k = 0 then "dev" else "late")

/- A deploy run on a copy, an update before its claim and one
   before its last write. -/
def overtaken (branch : String) : Crowd (Option (Fin 2)) :=
  around (.single (plainManifest "app")) overtakenUpdate
    (show (Instance.ofBranch branch).identity =
      ⟨"web", "demo"⟩ from rfl)
    Service.single_key

/- The run of the crowd. -/
abbrev overtakenRun (branch : String) : Group (Option (Fin 2)) :=
  group (show (overtaken branch).part none =
    .run .deploy (.ofBranch branch) from rfl)

/- The course of the crowd: the first update, the claim, the
   second update, and the rest of the run. -/
theorem overtaken_course
    (branch : String)
    (hRender : (renderResource Template.render
      (plainManifest "app")
      (Instance.ofBranch branch).vars).isOk = true) :
    ∃ early x middle late a b c d,
      Runs ((overtaken branch).start
          ((overtaken branch).holding (.ofBranch "main")))
          early a ∧
        early.map (·.1) = [some 0, some 0, none] ∧
        acknowledged early = [0] ∧
        (∀ z, (none, z) ∈ early → z.wrote = false) ∧
        (overtaken branch).record? a.store =
          some (Instance.ofBranch "dev").record ∧
        Pool.Step a (none, x) b ∧
        x.wrote = true ∧
        (overtaken branch).record? b.store =
          some { Instance.ofBranch branch with
            status := .deploying }.record ∧
        Runs b middle c ∧
        middle.map (·.1) = [some 1, some 1] ∧
        acknowledged middle = [1] ∧
        (overtaken branch).record? c.store =
          some { Instance.ofBranch "late" with
            status := .deploying }.record ∧
        Runs c late d ∧
        late.map (·.1) = [none, none, none, none] ∧
        acknowledged late = [] ∧
        (overtaken branch).record? d.store =
          some { Instance.ofBranch branch with
            status := .deployed }.record ∧
        d.programs none = .finish (.ok ()) := by
  rcases exists_of_isOk hRender with ⟨resource, hResource⟩
  rcases Service.build_single hResource with
    ⟨book, hBook, hPlan⟩
  rcases Job.start_deploy_single (overtaken branch).service
    (.ofBranch branch) hPlan with
      ⟨afterGet, afterCreate, afterSave, message, afterSend,
        hGet, hCreate, hSave, hSend, hDone⟩
  have hAllowed (value : String) :
      (Update.set "branch" value).refusal?
        (overtaken branch).service (overtaken branch).identity =
          none :=
    Update.refusal?_single _ _
  -- the first update
  have hFirst : (overtaken branch).part (some 0) =
      .update (.set "branch" "dev") := rfl
  have hDev : (Update.set "branch" "dev").amend?
      (.ofBranch "main") = some (.ofBranch "dev") :=
    congrArg some (Instance.setVar_ofBranch _ _)
  have hHeld : (overtaken branch).record?
      ((overtaken branch).start
        ((overtaken branch).holding (.ofBranch "main"))).store =
        some (Instance.ofBranch "main").record := by
    rw [start_store]
    exact (overtaken branch).record?_holding _
  rcases read_turn hFirst (hAllowed _) (start_programs _ _ _)
    hHeld rfl hDev with
      ⟨k, hStepK, hNextK, hStoreK, hOthersK⟩
  rcases write_turn hNextK with
    ⟨l, hStepL, _, hRecordL, hOthersL⟩
  -- the run reads and claims
  have hFreeCopy :
      (Instance.ofBranch branch).status ∉ Job.deploy.busy :=
    show Status.new ∉ Job.deploy.busy by decide
  rcases (overtakenRun branch).read_turn (p := l) (i := none)
    hBook hFreeCopy
    ((hOthersL none (by decide)).trans
      (hOthersK none (by decide))) with
      ⟨a, hStepA, hNextA, hStoreA, hOthersA⟩
  have hRecordA : (overtaken branch).record? a.store =
      some (Instance.ofBranch "dev").record := by
    rw [hStoreA]
    exact hRecordL
  have hFree : (overtakenRun branch).objection? none
      ((overtakenRun branch).record? a.store) = none := by
    rw [show (overtakenRun branch).record? a.store = _
      from hRecordA]
    exact Job.objection?_record_of_free _ _
      (show Status.new ∉ Job.deploy.busy by decide)
  rw [← hStoreA] at hNextA
  rcases (overtakenRun branch).swap_turn hNextA hFree with
    ⟨b, hStepB, hNextB, hRecordB, _, hOthersB⟩
  have hClaim : (overtaken branch).record? b.store =
      some { Instance.ofBranch branch with
        status := .deploying }.record := hRecordB
  -- the second update
  have hSecond : (overtaken branch).part (some 1) =
      .update (.set "branch" "late") := rfl
  have hLate : (Update.set "branch" "late").amend?
      { Instance.ofBranch branch with status := .deploying } =
        some { Instance.ofBranch "late" with
          status := .deploying } := by
    rw [← Instance.setVar_ofBranch branch "late"]
    rfl
  rcases read_turn hSecond (hAllowed _)
    ((hOthersB (some 1) (by decide)).trans
      ((hOthersA (some 1) (by decide)).trans
        ((hOthersL (some 1) (by decide)).trans
          (hOthersK (some 1) (by decide)))))
    hClaim rfl hLate with
      ⟨m, hStepM, hNextM, hStoreM, hOthersM⟩
  rcases write_turn hNextM with
    ⟨c, hStepC, _, hRecordC, hOthersC⟩
  -- the run deploys its object and writes
  have hStarted := (hOthersC none (by decide)).trans
    ((hOthersM none (by decide)).trans hNextB)
  rcases runs_turn (hStarted.trans hGet)
    (.other (.cluster (.get _)) (Except.ok none) rfl) with
      ⟨e, hStepE, hNextE, hStoreE, _⟩
  rcases runs_turn (hNextE.trans hCreate)
    (.other (.cluster (.create _ _ _)) (Except.ok ()) rfl) with
      ⟨f, hStepF, hNextF, hStoreF, _⟩
  rcases Answers.set (overtaken branch).hKey f.store
    { Instance.ofBranch branch with status := .deployed }.record
    with ⟨saved, hSet, hSaved⟩
  rcases runs_turn (hNextF.trans hSave) hSet with
    ⟨g, hStepG, hNextG, hStoreG, _⟩
  rcases runs_turn (hNextG.trans hSend)
    (.other (.send _) true rfl) with
      ⟨d, hStepD, hNextD, hStoreD, _⟩
  have hRecordD : (overtaken branch).record? d.store =
      some { Instance.ofBranch branch with
        status := .deployed }.record := by
    rw [hStoreD, hStoreG]
    exact hSaved
  refine ⟨_, _, _, _, a, b, c, d,
    .step (.step (.step .none hStepK) hStepL) hStepA, rfl, rfl,
    ?_, hRecordA, hStepB, rfl, hClaim,
    .step (.step .none hStepM) hStepC, rfl, rfl, hRecordC,
    .step (.step (.step (.step .none hStepE) hStepF) hStepG)
      hStepD, rfl, rfl, hRecordD, hNextD.trans (hDone true)⟩
  intro z hz
  simp only [List.nil_append, List.cons_append,
    List.mem_cons, List.not_mem_nil, or_false] at hz
  rcases hz with hz | hz | hz
  · cases hz
  · cases hz
  · cases hz
    rfl

/- What the updates make of the first terms. -/
theorem overtaken_amendAll :
    Update.amendAll overtakenUpdate
        (some (Instance.ofBranch "main").terms) [0] =
        some (Instance.ofBranch "dev").terms ∧
      Update.amendAll overtakenUpdate
        (some (Instance.ofBranch "main").terms) [0, 1] =
        some (Instance.ofBranch "late").terms := by
  have hAmend (old new : String) :
      (Update.set "branch" new).amend
          (Instance.ofBranch old).terms =
        (Instance.ofBranch new).terms := by
    rw [← Instance.setVar_ofBranch old new]
    rfl
  constructor
  · exact congrArg some (hAmend "main" "dev")
  · refine congrArg some ?_
    refine Eq.trans ?_ (hAmend "dev" "late")
    exact congrArg (Update.set "branch" "late").amend
      (hAmend "main" "dev")

end Crowd

/- The terms of a branch tell its name. -/
theorem Instance.terms_ofBranch_injective
    {b b' : String}
    (hTerms : (ofBranch b).terms = (ofBranch b').terms) :
    b = b' := by
  have hVar := congrArg
    (fun t : Terms => t.vars.get? "branch") hTerms
  simpa [terms, ofBranch, Table.get?_insert] using hVar

/-
  A deploy run on a copy that is not the stored record undoes
  with its claim the update that was made before it, and with
  its last write the update that was made in between.
-/
theorem Service.deploy_run_undoes :
    ∃ early x middle late a b c d,
      Runs ((Crowd.overtaken "main").start
          ((Crowd.overtaken "main").holding (.ofBranch "main")))
          early a ∧
        acknowledged early = [0] ∧
        a.store.terms? (Crowd.overtaken "main").path =
          some (Instance.ofBranch "dev").terms ∧
        Pool.Step a (none, x) b ∧
        acknowledged (early ++ [(none, x)]) = [0] ∧
        b.store.terms? (Crowd.overtaken "main").path =
          some (Instance.ofBranch "main").terms ∧
        Runs b middle c ∧
        c.store.terms? (Crowd.overtaken "main").path =
          some (Instance.ofBranch "late").terms ∧
        Runs c late d ∧
        d.programs none = .finish (.ok ()) ∧
        Serial (early ++ [(none, x)] ++ middle ++ late) ∧
        acknowledged (early ++ [(none, x)] ++ middle ++ late) =
          [0, 1] ∧
        d.store.terms? (Crowd.overtaken "main").path =
          some (Instance.ofBranch "main").terms ∧
        ∀ ks ∈ [[0], [0, 1]],
          Update.amendAll Crowd.overtakenUpdate
              (some (Instance.ofBranch "main").terms) ks ≠
            some (Instance.ofBranch "main").terms := by
  rcases Crowd.overtaken_course "main" (by decide +kernel) with
      ⟨early, x, middle, late, a, b, c, d, hEarly, hEarlyWho,
        hEarlyDone, _, hRecordA, hClaim, _, hRecordB, hMiddle,
        hMiddleWho, hMiddleDone, hRecordC, hLate, hLateWho,
        hLateDone, hRecordD, hEnd⟩
  have hClaimDone : acknowledged [((none : Option (Fin 2)), x)] =
      [] := by
    simp [acknowledged]
  refine ⟨early, x, middle, late, a, b, c, d, hEarly,
    hEarlyDone, Store.terms?_of_record hRecordA, hClaim, ?_,
    Store.terms?_of_status hRecordB, hMiddle,
    Store.terms?_of_status hRecordC, hLate, hEnd, ?_, ?_,
    Store.terms?_of_status hRecordD, ?_⟩
  · rw [acknowledged_append, hEarlyDone, hClaimDone]
    rfl
  · unfold Serial
    simp only [List.map_append, List.map_cons, List.map_nil,
      hEarlyWho, hMiddleWho, hLateWho]
    decide
  · rw [acknowledged_append, acknowledged_append,
      acknowledged_append, hEarlyDone, hClaimDone, hMiddleDone,
      hLateDone]
    rfl
  · intro ks hks hSame
    rcases List.mem_cons.1 hks with rfl | hks
    · rw [Crowd.overtaken_amendAll.1] at hSame
      have hBranch := Instance.terms_ofBranch_injective
        (Option.some.inj hSame)
      exact absurd hBranch (by decide)
    · rw [List.mem_singleton.1 hks,
        Crowd.overtaken_amendAll.2] at hSame
      have hBranch := Instance.terms_ofBranch_injective
        (Option.some.inj hSame)
      exact absurd hBranch (by decide)

/- A deploy run that claims with the terms that are stored:
   up to its last write both updates are kept. -/
theorem Service.deploy_run_terms_overtaken :
    ∃ trace p,
      Runs ((Crowd.overtaken "dev").start
          ((Crowd.overtaken "dev").holding (.ofBranch "main")))
          trace p ∧
        Serial trace ∧
        Agreeing (Instance.ofBranch "dev").terms
          Crowd.overtakenUpdate
          (some (Instance.ofBranch "main").terms) trace ∧
        p.programs (some 1) = .finish (.ok ()) ∧
        p.store.terms? (Crowd.overtaken "dev").path =
          Update.amendAll Crowd.overtakenUpdate
            (some (Instance.ofBranch "main").terms) [0, 1] := by
  rcases Crowd.overtaken_course "dev" (by decide +kernel) with
      ⟨early, x, middle, _, a, b, c, _, hEarly, hEarlyWho,
        hEarlyDone, hQuiet, hRecordA, hClaim, _, hRecordB,
        hMiddle, hMiddleWho, hMiddleDone, _⟩
  let g : Crowd (Option (Fin 2)) := Crowd.overtaken "dev"
  have hSerial :
      Serial (early ++ [(none, x)] ++ middle) := by
    unfold Serial
    simp only [List.map_append, List.map_cons, List.map_nil,
      hEarlyWho, hMiddleWho]
    decide
  have hFirst : (g.holding (.ofBranch "main")).terms? g.path =
      some (Instance.ofBranch "main").terms :=
    Store.terms?_of_record (g.record?_holding _)
  have hOwned : g.Owned (g.holding (.ofBranch "main")) :=
    Crowd.owned_holding rfl
  have hNone : Agreeing (Instance.ofBranch "dev").terms
      Crowd.overtakenUpdate
      ((g.holding (.ofBranch "main")).terms? g.path) [] := by
    intro e y l hTrace
    simp at hTrace
  have hBefore := hNone.append_of_silent hQuiet
  rw [List.nil_append] at hBefore
  -- the claim finds what the first update has stored
  have hFound := (Service.deploy_run_terms g.service g.identity
    (.ofBranch "dev") Crowd.overtakenUpdate _ rfl g.hKey hOwned
    hEarly hSerial.of_append.of_append).2.2.1
  rw [show a.store.terms? _ = some _ from
    Store.terms?_of_record hRecordA] at hFound
  have hSilent (z : Exchange) (hz : (none, z) ∈ middle) :
      z.wrote = false := by
    have hWho := List.mem_map_of_mem (f := (·.1)) hz
    rw [hMiddleWho] at hWho
    simp at hWho
  have hAgreeing := (hBefore.concat (x := x)
    hFound.symm).append_of_silent hSilent
  have hAll := Service.deploy_run_terms g.service g.identity
    (.ofBranch "dev") Crowd.overtakenUpdate _ rfl g.hKey hOwned
    (Runs.append (.step hEarly hClaim) hMiddle) hSerial
  have hDone : acknowledged
      (early ++ [((none : Option (Fin 2)), x)] ++ middle) =
        [0, 1] := by
    rw [acknowledged_append, acknowledged_append, hEarlyDone,
      hMiddleDone]
    simp [acknowledged]
  have hTerms := hAll.2.2.2 hAgreeing
  have hLast := (hAll.2.1 1).2 (by rw [hDone]; decide)
  rw [hFirst] at hAgreeing hTerms
  rw [hDone] at hTerms
  exact ⟨_, c, Runs.append (.step hEarly hClaim) hMiddle,
    hSerial, hAgreeing, hLast, hTerms⟩

end Preview
