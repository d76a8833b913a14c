import Preview.Proofs.Execution
import Preview.Proofs.Mirrors

/-
  A repository as a map from identities to instances.

  What the operations of a repository on a store do is told
  without paths and records: they look up, set and drop the
  instances of a map, and list some of them in order.  The
  store mirrors that map, and every operation keeps it so and
  has the result of the map.

  Main declarations:
    * `Request` and `Request.attempt`
    * `Directory.answer`
    * `Repository.serve` and `Directory.serve`
    * `Served`
    * `Repository.serve_eq`
-/

namespace Preview

open Preview.Action (eval)

------------------------------------------------------------
-- Requests
------------------------------------------------------------

/- What can be asked of a repository. -/
inductive Request where
  | create (identity : Identity) (vars : Table String)
  | save (i : Instance)
  | find (identity : Identity)
  | findAll (playbook : String)
  | delete (identity : Identity)
  | lock (identity : Identity)
  | unlock (identity : Identity)
  | transition
    (i : Instance)
    (target : Status)
    (busy : List Status)
  | expired (asOf : Instant)

/- What a request that does not fail brings. -/
inductive Answer where
  | done
  | one (i : Instance)
  | many (is : List Instance)
deriving DecidableEq

namespace Request

/- The operation of a repository. -/
def attempt (r : Repository) : Request → Attempt Error Answer
  | create identity vars =>
      return .one (← r.create identity vars)
  | save i => do
      r.save i
      return .done
  | find identity => return .one (← r.find identity)
  | findAll playbook => return .many (← r.findAll playbook)
  | delete identity => do
      r.delete identity
      return .done
  | lock identity => return .one (← r.lock identity)
  | unlock identity => return .one (← r.unlock identity)
  | transition i target busy =>
      return .one (← r.transition i target busy)
  | expired asOf => return .many (← r.expired asOf)

/- All names that a request mentions are single segments. -/
def Plain : Request → Prop
  | create identity _ => identity.Plain
  | save i => i.identity.Plain
  | find identity => identity.Plain
  | findAll playbook => Path.isSegment playbook = true
  | delete identity => identity.Plain
  | lock identity => identity.Plain
  | unlock identity => identity.Plain
  | transition i _ _ => i.identity.Plain
  | expired _ => True

end Request

/- Requests one after the other, each at a time, and what they
   bring. -/
def Repository.serve (r : Repository) :
    List (Instant × Request) → World →
      List (Except Error Answer)
  | [], _ => []
  | (now, q) :: rest, w =>
      let (w, result) :=
        eval World.perform (q.attempt r).run
          { w with today := now }
      result :: r.serve rest w

------------------------------------------------------------
-- Answers of a Directory
------------------------------------------------------------

namespace Directory

/- What a request makes of a directory, and what it brings. -/
def answer (days : Nat) (now : Instant) (m : Directory) :
    Request → Directory × Except Error Answer
  | .create identity vars =>
      match Instance.create? identity vars now days with
      | none => (m, .error .beyondCalendar)
      | some i =>
          if m.contains identity then
            (m, .error (.invalid (.taken identity.label)))
          else (m.set identity i, .ok (.one i))
  | .save i => (m.set i.identity i, .ok .done)
  | .find identity =>
      match m.get? identity with
      | none => (m, .error (.noInstance identity))
      | some i => (m, .ok (.one i))
  | .findAll playbook =>
      match m.listed (·.identity.playbook = playbook)
          (·.identity.id) with
      | [] => (m, .error (.noInstances playbook))
      | is => (m, .ok (.many is))
  | .delete identity =>
      if m.contains identity then (m.drop identity, .ok .done)
      else (m, .error (.noInstance identity))
  | .lock identity =>
      match m.get? identity with
      | none => (m, .error (.noInstance identity))
      | some i => (m.set identity i.lock, .ok (.one i.lock))
  | .unlock identity =>
      match m.get? identity with
      | none => (m, .error (.noInstance identity))
      | some i =>
          match i.unlock? with
          | none => (m, .error (.notLocked identity))
          | some i => (m.set identity i, .ok (.one i))
  | .transition i target busy =>
      let stored := (m.get? i.identity).map (·.status)
      match (i.status :: stored.toList).find? busy.contains with
      | some s => (m, .error (.conflict i.identity (.already s)))
      | none =>
          let next := { i with status := target }
          (m.set i.identity next, .ok (.one next))
  | .expired asOf =>
      (m, .ok (.many
        (m.listed
          (fun i => i.status = .deployed && i.isExpired asOf)
          (·.label))))

/- Requests one after the other on a directory. -/
def serve (days : Nat) :
    List (Instant × Request) → Directory →
      List (Except Error Answer)
  | [], _ => []
  | (now, q) :: rest, m =>
      let (m, result) := m.answer days now q
      result :: serve days rest m

end Directory

------------------------------------------------------------
-- Operations
------------------------------------------------------------

section Calls

variable {w : World} (hFaults : w.faults = .none)
variable {path : String} (hKey : Store.key path = .ok path)

/- A call of the store that goes well. -/
theorem eval_stored
    {α : Type}
    {m : Action (Except StoreError α)}
    {w' : World}
    {a : α}
    (hCall : eval World.perform m w = (w', .ok a)) :
    eval World.perform (Repository.stored m).run w =
      (w', .ok a) := by
  have hRun : (Repository.stored m).run =
      m.bind fun result => .finish (result.mapError .store) :=
    rfl
  rw [hRun, Action.eval_bind, hCall]
  rfl

include hFaults

theorem eval_values (path : String) :
    eval World.perform (Repository.values path).run w =
      (w, .ok (w.store.values path)) :=
  eval_stored (w.performStore_faultless hFaults (.values path))

include hKey

/- A read on a path that is a key looks the key up. -/
theorem eval_value :
    eval World.perform (Repository.value path).run w =
      (w, .ok (w.store.entries.get? path)) := by
  have hCall := w.performStore_faultless hFaults (.value path)
  simp only [Store.perform, Store.value, hKey] at hCall
  exact eval_stored hCall

/- A write puts the text under the key. -/
theorem eval_set (text : String) :
    eval World.perform (Repository.set path text).run w =
      ({ w with store := ⟨w.store.entries.insert path text⟩ },
        .ok ()) := by
  have hCall :=
    w.performStore_faultless hFaults (.set path text)
  simp only [Store.perform, Store.set, hKey] at hCall
  exact eval_stored hCall

/- A removal tells whether there was a text. -/
theorem eval_erase :
    eval World.perform (Repository.erase path).run w =
      ({ w with store := ⟨w.store.entries.erase path⟩ },
        .ok (w.store.entries.contains path)) := by
  have hCall := w.performStore_faultless hFaults (.erase path)
  simp only [Store.perform, Store.erase, hKey] at hCall
  exact eval_stored hCall

/- A swap that finds what it expects writes the text. -/
theorem eval_swap_of_eq
    {expected : Option String}
    (hSame : w.store.entries.get? path = expected)
    (text : String) :
    eval World.perform
        (Repository.swap path expected text).run w =
      ({ w with store := ⟨w.store.entries.insert path text⟩ },
        .ok true) := by
  have hSwap : w.store.swap path expected text =
      .ok (⟨w.store.entries.insert path text⟩, true) := by
    unfold Store.swap
    rw [hKey]
    exact if_pos hSame
  have hCall :=
    w.performStore_faultless hFaults (.swap path expected text)
  simp only [Store.perform, hSwap] at hCall
  exact eval_stored hCall

/- A swap that finds something else changes nothing. -/
theorem eval_swap_of_ne
    {expected : Option String}
    (hOther : w.store.entries.get? path ≠ expected)
    (text : String) :
    eval World.perform
        (Repository.swap path expected text).run w =
      (w, .ok false) := by
  have hSwap : w.store.swap path expected text =
      .ok (w.store, false) := by
    unfold Store.swap
    rw [hKey]
    exact if_neg hOther
  have hCall :=
    w.performStore_faultless hFaults (.swap path expected text)
  simp only [Store.perform, hSwap] at hCall
  exact eval_stored hCall

end Calls

/- Records that are read where they are kept. -/
theorem mapM_decode
    (base : String)
    (name : Instance → String)
    (is : List Instance) :
    (is.map fun i => (name i, i.record)).mapM
        (fun (rest, record) =>
          Repository.decode (Path.join [base, rest]) record) =
      .ok is := by
  induction is with
  | nil => rfl
  | cons i is ih =>
      rw [List.map_cons, List.mapM_cons, ih]
      dsimp only
      rw [Repository.decode_record]
      rfl

/- A request has the result of the directory, and the store
   mirrors what the directory has become. -/
def Served (r : Repository) (w : World) (m : Directory)
    (q : Request) : Prop :=
  ∃ s,
    eval World.perform (q.attempt r).run w =
        ({ w with store := s }, (m.answer r.days w.today q).2) ∧
      Mirrors r s (m.answer r.days w.today q).1

section Served

variable {r : Repository} {w : World} {m : Directory}

/- What the directory answers is what is to be shown of the
   program. -/
theorem Served.intro
    {q : Request}
    {m' : Directory}
    {s : Store}
    {result : Except Error Answer}
    (hAnswer : m.answer r.days w.today q = (m', result))
    (hEval : eval World.perform (q.attempt r).run w =
      ({ w with store := s }, result))
    (hMirrors : Mirrors r s m') :
    Served r w m q := by
  unfold Served
  rw [hAnswer]
  exact ⟨s, hEval, hMirrors⟩

variable (hRooted : r.Rooted)
variable (hFaults : w.faults = .none)
variable (hMirrors : Mirrors r w.store m)
variable {identity : Identity}
variable {i : Instance}

include hRooted hFaults

/- A save writes the record under the path of its instance. -/
theorem eval_save (hPlain : i.identity.Plain) :
    eval World.perform (r.save i).run w =
      ({ w with
        store := ⟨w.store.entries.insert (r.path i.identity)
          i.record⟩ }, .ok ()) :=
  eval_set hFaults (Repository.key_path hRooted hPlain) _

include hMirrors

/- Under the path of an identity is the record of what the
   directory has there. -/
theorem eval_value_path (hPlain : identity.Plain) :
    eval World.perform
        (Repository.value (r.path identity)).run w =
      (w, .ok ((m.get? identity).map Instance.record)) := by
  rw [eval_value hFaults (Repository.key_path hRooted hPlain),
    hMirrors.content hPlain]

/- What the directory does not have is not found. -/
theorem eval_find_of_none
    (hPlain : identity.Plain)
    (hGet : m.get? identity = none) :
    eval World.perform (r.find identity).run w =
      (w, .error (.noInstance identity)) := by
  have hValue :=
    eval_value_path hRooted hFaults hMirrors hPlain
  rw [hGet] at hValue
  unfold Repository.find
  rw [Attempt.eval_bind_of_ok hValue]
  rfl

/- What the directory has is found as it is. -/
theorem eval_find_of_some
    (hPlain : identity.Plain)
    (hGet : m.get? identity = some i) :
    eval World.perform (r.find identity).run w = (w, .ok i) := by
  have hValue :=
    eval_value_path hRooted hFaults hMirrors hPlain
  rw [hGet] at hValue
  unfold Repository.find
  rw [Attempt.eval_bind_of_ok hValue]
  change (w, Repository.decode _ i.record) = _
  rw [Repository.decode_record]

/- A creation is refused, or adds a new instance, as in the
   directory. -/
theorem served_create
    (vars : Table String)
    (hPlain : identity.Plain) :
    Served r w m (.create identity vars) := by
  have hCheck : Repository.checkSegments identity = .ok () := by
    unfold Repository.checkSegments
    rw [if_neg (by simp [hPlain.1]), if_neg (by simp [hPlain.2])]
  -- a faultless clock tells the day, and what is left to do
  -- depends on it alone
  have hClock : eval World.perform
      (r.create identity vars).run w =
        eval World.perform
          (match Instance.create? identity vars w.today
              r.days with
            | none => throw .beyondCalendar
            | some i => do
                if ← Repository.swap (r.path identity) none
                    i.record then
                  return i
                else
                  throw (.invalid (.taken identity.label)) :
            Attempt Error Instance).run w := by
    unfold Repository.create
    rw [hCheck]
    rfl
  cases hNew :
      Instance.create? identity vars w.today r.days with
  | none =>
      rw [hNew] at hClock
      have hAnswer :
          m.answer r.days w.today (.create identity vars) =
            (m, .error .beyondCalendar) := by
        simp only [Directory.answer, hNew]
      exact .intro hAnswer
        (Attempt.eval_bind_of_error hClock _) hMirrors
  | some i =>
      rw [hNew] at hClock
      have hIdentity := Instance.identity_of_create? hNew
      subst hIdentity
      have hKey := Repository.key_path hRooted hPlain
      have hContent := hMirrors.content hPlain
      cases hGet : m.get? i.identity with
      | none =>
          rw [hGet, Option.map_none] at hContent
          have hSwap :=
            eval_swap_of_eq hFaults hKey hContent i.record
          have hCreate :=
            hClock.trans (Attempt.eval_bind_of_ok hSwap _)
          have hAnswer :
              m.answer r.days w.today
                  (.create i.identity vars) =
                (m.set i.identity i, .ok (.one i)) := by
            simp [Directory.answer, hNew, Registry.contains,
              hGet]
          exact .intro hAnswer
            (Attempt.eval_bind_of_ok hCreate _)
            (hMirrors.set hPlain)
      | some j =>
          -- the path is taken by a record, so the swap misses
          have hTaken :
              w.store.entries.get? (r.path i.identity) ≠
                none := by
            rw [hContent, hGet]
            simp
          have hSwap :=
            eval_swap_of_ne hFaults hKey hTaken i.record
          have hCreate :=
            hClock.trans (Attempt.eval_bind_of_ok hSwap _)
          have hAnswer :
              m.answer r.days w.today
                  (.create i.identity vars) =
                (m, .error
                  (.invalid (.taken i.identity.label))) := by
            simp [Directory.answer, hNew, Registry.contains,
              hGet]
          exact .intro hAnswer
            (Attempt.eval_bind_of_error hCreate _) hMirrors

theorem served_save (hPlain : i.identity.Plain) :
    Served r w m (.save i) := by
  refine .intro rfl ?_ (hMirrors.set hPlain)
  exact Attempt.eval_bind_of_ok
    (eval_save hRooted hFaults hPlain) _

theorem served_find (hPlain : identity.Plain) :
    Served r w m (.find identity) := by
  cases hGet : m.get? identity with
  | none =>
      have hFind :=
        eval_find_of_none hRooted hFaults hMirrors hPlain hGet
      have hAnswer :
          m.answer r.days w.today (.find identity) =
            (m, .error (.noInstance identity)) := by
        simp only [Directory.answer, hGet]
      exact .intro hAnswer
        (Attempt.eval_bind_of_error hFind _) hMirrors
  | some i =>
      have hFind :=
        eval_find_of_some hRooted hFaults hMirrors hPlain hGet
      have hAnswer :
          m.answer r.days w.today (.find identity) =
            (m, .ok (.one i)) := by
        simp only [Directory.answer, hGet]
      exact .intro hAnswer
        (Attempt.eval_bind_of_ok hFind _) hMirrors

/- A listing is that of one playbook in the order of its ids;
   without any there is an error. -/
theorem served_findAll
    {playbook : String}
    (hSegment : Path.isSegment playbook = true) :
    Served r w m (.findAll playbook) := by
  have hValues :=
    eval_values hFaults (r.playbookPath playbook)
  rw [hMirrors.values_playbookPath hRooted hSegment] at hValues
  cases hListed : m.listed (·.identity.playbook = playbook)
      (·.identity.id) with
  | nil =>
      rw [hListed] at hValues
      have hAll : eval World.perform
          (r.findAll playbook).run w = _ :=
        Attempt.eval_bind_of_ok hValues _
      have hAnswer :
          m.answer r.days w.today (.findAll playbook) =
            (m, .error (.noInstances playbook)) := by
        simp only [Directory.answer, hListed]
      exact .intro hAnswer
        (Attempt.eval_bind_of_error hAll _) hMirrors
  | cons i is =>
      rw [hListed] at hValues
      have hDecode :=
        mapM_decode (r.playbookPath playbook)
          (·.identity.id) (i :: is)
      have hAll : eval World.perform
          (r.findAll playbook).run w = (w, .ok (i :: is)) := by
        refine (Attempt.eval_bind_of_ok hValues _).trans ?_
        rw [hDecode]
        rfl
      have hAnswer :
          m.answer r.days w.today (.findAll playbook) =
            (m, .ok (.many (i :: is))) := by
        simp only [Directory.answer, hListed]
      exact .intro hAnswer
        (Attempt.eval_bind_of_ok hAll _) hMirrors

/- A removal fails when there is nothing to remove. -/
theorem served_delete (hPlain : identity.Plain) :
    Served r w m (.delete identity) := by
  have hErase := eval_erase hFaults
    (Repository.key_path hRooted hPlain)
  have hThere : w.store.entries.contains (r.path identity) =
      m.contains identity := by
    unfold Table.contains Registry.contains
    rw [hMirrors.content hPlain, Option.isSome_map]
  rw [hThere] at hErase
  cases hKnown : m.contains identity with
  | true =>
      rw [hKnown] at hErase
      have hDelete : eval World.perform
          (r.delete identity).run w = _ :=
        Attempt.eval_bind_of_ok hErase _
      have hAnswer :
          m.answer r.days w.today (.delete identity) =
            (m.drop identity, .ok .done) := by
        simp only [Directory.answer, hKnown, if_true]
      exact .intro hAnswer
        (Attempt.eval_bind_of_ok hDelete _)
        (hMirrors.drop hPlain)
  | false =>
      rw [hKnown] at hErase
      have hDelete : eval World.perform
          (r.delete identity).run w = _ :=
        Attempt.eval_bind_of_ok hErase _
      have hAnswer :
          m.answer r.days w.today (.delete identity) =
            (m, .error (.noInstance identity)) := by
        simp [Directory.answer, hKnown]
      refine .intro hAnswer
        (Attempt.eval_bind_of_error hDelete _) ?_
      rw [Table.erase_of_absent (hThere.trans hKnown)]
      exact hMirrors

theorem served_lock (hPlain : identity.Plain) :
    Served r w m (.lock identity) := by
  cases hGet : m.get? identity with
  | none =>
      have hFind :=
        eval_find_of_none hRooted hFaults hMirrors hPlain hGet
      have hLock : eval World.perform (r.lock identity).run w =
          (w, .error (.noInstance identity)) :=
        Attempt.eval_bind_of_error hFind _
      have hAnswer :
          m.answer r.days w.today (.lock identity) =
            (m, .error (.noInstance identity)) := by
        simp only [Directory.answer, hGet]
      exact .intro hAnswer
        (Attempt.eval_bind_of_error hLock _) hMirrors
  | some i =>
      have hFind :=
        eval_find_of_some hRooted hFaults hMirrors hPlain hGet
      have hOwn := (hMirrors.own _ _ hGet).1
      subst hOwn
      have hSave :=
        eval_save hRooted hFaults (i := i.lock) hPlain
      have hLock : eval World.perform
          (r.lock i.identity).run w = _ :=
        (Attempt.eval_bind_of_ok hFind _).trans
          (Attempt.eval_bind_of_ok hSave _)
      have hAnswer :
          m.answer r.days w.today (.lock i.identity) =
            (m.set i.identity i.lock, .ok (.one i.lock)) := by
        simp only [Directory.answer, hGet]
      exact .intro hAnswer
        (Attempt.eval_bind_of_ok hLock _)
        (hMirrors.set (i := i.lock) hPlain)

/- Only what is locked is unlocked. -/
theorem served_unlock (hPlain : identity.Plain) :
    Served r w m (.unlock identity) := by
  cases hGet : m.get? identity with
  | none =>
      have hFind :=
        eval_find_of_none hRooted hFaults hMirrors hPlain hGet
      have hUnlock :
          eval World.perform (r.unlock identity).run w =
            (w, .error (.noInstance identity)) :=
        Attempt.eval_bind_of_error hFind _
      have hAnswer :
          m.answer r.days w.today (.unlock identity) =
            (m, .error (.noInstance identity)) := by
        simp only [Directory.answer, hGet]
      exact .intro hAnswer
        (Attempt.eval_bind_of_error hUnlock _) hMirrors
  | some i =>
      have hFind :=
        eval_find_of_some hRooted hFaults hMirrors hPlain hGet
      have hOwn := (hMirrors.own _ _ hGet).1
      subst hOwn
      cases hFree : i.unlock? with
      | none =>
          have hUnlock : eval World.perform
              (r.unlock i.identity).run w =
                (w, .error (.notLocked i.identity)) := by
            refine (Attempt.eval_bind_of_ok hFind _).trans ?_
            rw [hFree]
            rfl
          have hAnswer :
              m.answer r.days w.today (.unlock i.identity) =
                (m, .error (.notLocked i.identity)) := by
            simp only [Directory.answer, hGet, hFree]
          exact .intro hAnswer
            (Attempt.eval_bind_of_error hUnlock _) hMirrors
      | some j =>
          -- the record is saved under its own identity, which
          -- unlocking keeps
          have hSame : j.identity = i.identity :=
            Instance.identity_of_unlock? hFree
          have hPlain' : j.identity.Plain := hSame ▸ hPlain
          have hSave := eval_save hRooted hFaults hPlain'
          have hUnlock : eval World.perform
              (r.unlock i.identity).run w = _ :=
            Attempt.eval_bind_of_ok hFind _
          rw [hFree] at hUnlock
          have hDone :=
            hUnlock.trans (Attempt.eval_bind_of_ok hSave _)
          have hAnswer :
              m.answer r.days w.today (.unlock i.identity) =
                (m.set j.identity j, .ok (.one j)) := by
            simp only [Directory.answer, hGet, hFree, hSame]
          exact .intro hAnswer
            (Attempt.eval_bind_of_ok hDone _)
            (hMirrors.set hPlain')

/- A status is written unless the copy or the record is busy,
   and the swap finds the record it has just read. -/
theorem served_transition
    (target : Status)
    (busy : List Status)
    (hPlain : i.identity.Plain) :
    Served r w m (.transition i target busy) := by
  have hValue :=
    eval_value_path hRooted hFaults hMirrors hPlain
  have hStatus :
      Repository.storedStatus (r.path i.identity)
          ((m.get? i.identity).map Instance.record) =
        .ok ((m.get? i.identity).map (·.status)) := by
    cases m.get? i.identity with
    | none => rfl
    | some j =>
        unfold Repository.storedStatus Repository.decode
        rw [Option.map_some]
        dsimp only
        rw [Instance.ofRecord?_record]
        rfl
  have hRun : eval World.perform
      (r.transition i target busy).run w = _ :=
    Attempt.eval_bind_of_ok hValue _
  rw [hStatus] at hRun
  cases hBusy :
      (i.status :: ((m.get? i.identity).map
        (·.status)).toList).find? busy.contains with
  | some s =>
      have hRefused : eval World.perform
          (r.transition i target busy).run w =
            (w, .error (.conflict i.identity (.already s))) := by
        refine hRun.trans ?_
        unfold Attempt.ofExcept
        rw [Attempt.eval_bind_of_ok rfl, hBusy]
        rfl
      have hAnswer :
          m.answer r.days w.today (.transition i target busy) =
            (m, .error
              (.conflict i.identity (.already s))) := by
        simp only [Directory.answer, hBusy]
      exact .intro hAnswer
        (Attempt.eval_bind_of_error hRefused _) hMirrors
  | none =>
      -- the record has not changed since it was read
      have hSwap := eval_swap_of_eq hFaults
        (Repository.key_path hRooted hPlain)
        (hMirrors.content hPlain)
        { i with status := target : Instance }.record
      have hSwapped := hRun
      unfold Attempt.ofExcept at hSwapped
      rw [Attempt.eval_bind_of_ok rfl, hBusy] at hSwapped
      have hDone :=
        hSwapped.trans (Attempt.eval_bind_of_ok hSwap _)
      have hAnswer :
          m.answer r.days w.today (.transition i target busy) =
            (m.set i.identity { i with status := target },
              .ok (.one { i with status := target })) := by
        simp only [Directory.answer, hBusy]
      exact .intro hAnswer
        (Attempt.eval_bind_of_ok hDone _)
        (hMirrors.set
          (i := { i with status := target }) hPlain)

/- The instances that have expired are told in the order of
   their paths. -/
theorem served_expired (asOf : Instant) :
    Served r w m (.expired asOf) := by
  have hValues := eval_values hFaults r.instancesPath
  rw [hMirrors.values_instancesPath hRooted] at hValues
  have hRead (is : List Instance) :
      (is.map fun i => (i.label, i.record)).filterMap
        (fun e => Instance.ofRecord? e.2) = is := by
    rw [List.filterMap_map]
    induction is with
    | nil => rfl
    | cons i is ih =>
        rw [List.filterMap_cons, ih, Function.comp_apply,
          Instance.ofRecord?_record]
  have hExpired : eval World.perform
      (r.expired asOf).run w = _ :=
    Attempt.eval_bind_of_ok hValues _
  rw [hRead, hMirrors.filter_listed] at hExpired
  exact .intro rfl (Attempt.eval_bind_of_ok hExpired _) hMirrors

/- Every request on plain identities is served. -/
theorem served {q : Request} (hPlain : q.Plain) :
    Served r w m q := by
  cases q with
  | create identity vars =>
      exact served_create hRooted hFaults hMirrors vars hPlain
  | save i => exact served_save hRooted hFaults hMirrors hPlain
  | find identity =>
      exact served_find hRooted hFaults hMirrors hPlain
  | findAll playbook =>
      exact served_findAll hRooted hFaults hMirrors hPlain
  | delete identity =>
      exact served_delete hRooted hFaults hMirrors hPlain
  | lock identity =>
      exact served_lock hRooted hFaults hMirrors hPlain
  | unlock identity =>
      exact served_unlock hRooted hFaults hMirrors hPlain
  | transition i target busy =>
      exact served_transition hRooted hFaults hMirrors target
        busy hPlain
  | expired asOf =>
      exact served_expired hRooted hFaults hMirrors asOf

end Served

------------------------------------------------------------
-- Histories
------------------------------------------------------------

/- From a mirror on, requests bring what they bring on the
   directory. -/
theorem Mirrors.serve_from
    {r : Repository}
    (hRooted : r.Rooted)
    {requests : List (Instant × Request)}
    (hPlain : ∀ e ∈ requests, e.2.Plain)
    {w : World}
    (hFaults : w.faults = .none)
    {m : Directory}
    (hMirrors : Mirrors r w.store m) :
    r.serve requests w = m.serve r.days requests := by
  induction requests generalizing w m with
  | nil => rfl
  | cons e requests ih =>
      rcases e with ⟨now, q⟩
      have hServed := served (w := { w with today := now })
        hRooted hFaults hMirrors
        (hPlain _ (List.mem_cons_self ..))
      rcases hServed with ⟨s, hEval, hMirrors'⟩
      unfold Repository.serve Directory.serve
      rw [hEval]
      dsimp only
      rw [ih (fun e he => hPlain e (List.mem_cons_of_mem _ he))
        (by exact hFaults) hMirrors']

/-
  A repository over an empty store is a map from identities to
  instances: whatever is asked of it, in whatever order and at
  whatever times, every request brings what it brings on the
  map.
-/
theorem Repository.serve_eq
    {r : Repository}
    (hRooted : r.Rooted)
    {requests : List (Instant × Request)}
    (hPlain : ∀ e ∈ requests, e.2.Plain)
    {w : World}
    (hStore : w.store = .empty)
    (hFaults : w.faults = .none) :
    r.serve requests w =
      Directory.serve r.days requests Registry.empty := by
  have hMirrors : Mirrors r w.store Registry.empty := by
    rw [hStore]
    exact .empty r
  exact hMirrors.serve_from hRooted hPlain hFaults

/- An instance of the same id in one playbook or another. -/
def Instance.ofPlaybook (playbook : String) : Instance :=
  { (default : Instance) with identity := ⟨playbook, "one"⟩ }

/- What is asked of two instances with one name, where the
   name of one playbook begins with that of the other. -/
def Request.namesakes : List (Instant × Request) :=
  let web := Instance.ofPlaybook "web"
  let webapp := Instance.ofPlaybook "webapp"
  [(default, .save web),
    (default, .save webapp),
    (default, .create web.identity .empty),
    (default, .findAll "web"),
    (default, .transition web .deploying [.deploying]),
    (default, .transition web .deploying [.deploying]),
    (default, .delete webapp.identity),
    (default, .findAll "webapp"),
    (default, .unlock web.identity)]

theorem Request.namesakes_plain :
    ∀ e ∈ namesakes, e.2.Plain := by
  have hWeb : Path.isSegment "web" = true := by decide
  have hWebapp : Path.isSegment "webapp" = true := by decide
  have hOne : Path.isSegment "one" = true := by decide
  simp [namesakes, Plain, Identity.Plain,
    Instance.ofPlaybook, hWeb, hWebapp, hOne]

/- The answers, one for each request; the playbooks that begin
   alike do not mix. -/
theorem Repository.serve_eq_namesakes :
    (Repository.mk "/preview/" 7).serve Request.namesakes
        default =
      [.ok .done, .ok .done,
        .error (.invalid (.taken "web/one")),
        .ok (.many [.ofPlaybook "web"]),
        .ok (.one
          { Instance.ofPlaybook "web" with
            status := .deploying }),
        .error (.conflict ⟨"web", "one"⟩ (.already .deploying)),
        .ok .done,
        .error (.noInstances "webapp"),
        .error (.notLocked ⟨"web", "one"⟩)] := by
  have hRooted : (Repository.mk "/preview/" 7).Rooted :=
    .inr (by unfold Path.Clean; decide)
  rw [serve_eq hRooted Request.namesakes_plain rfl rfl]
  decide +kernel

end Preview
