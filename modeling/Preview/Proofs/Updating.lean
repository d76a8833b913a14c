import Preview.Proofs.Standing

/-
  Updates of a record among the runs on its instance.

  Locking, unlocking and setting a variable read the whole
  record, change one field of the instance, and write the
  whole record back.  Any number of them, and of runs on
  copies of the instance, take turns as a crowd.

  Main declarations:
    * `Update`, `Update.amend?` and `Update.program_eq`
    * `Answers.of_not_wrote`
    * `Part` and `Crowd`
    * `Crowd.Stage` and `Crowd.Write`
    * `Crowd.Sound`, `Crowd.Sound.turn` and `Crowd.sound`
-/

namespace Preview

open Pool

------------------------------------------------------------
-- Updates
------------------------------------------------------------

/- A change of one field of an instance. -/
inductive Update where
  | lock
  | unlock
  | set (key value : String)
deriving DecidableEq, Repr

namespace Update

/- An update as the service carries it out. -/
def attempt (s : Service) (identity : Identity) :
    Update → Attempt Error Instance
  | lock => s.repository.lock identity
  | unlock => s.repository.unlock identity
  | set key value => s.setVariable identity key value

/- The program of an update; of its result only counts
   whether there is one. -/
def program
    (s : Service)
    (identity : Identity)
    (u : Update) : Action (Except Error Unit) :=
  Action.bind (u.attempt s identity).run fun result =>
    .finish (result.map fun _ => ())

/- What an update makes of an instance, if it can. -/
def amend? (i : Instance) : Update → Option Instance
  | lock => some i.lock
  | unlock => i.unlock?
  | set key value => some (i.setVar key value)

/- An update changes neither identity nor status. -/
theorem amend?_frame
    {u : Update}
    {old new : Instance}
    (hAmend : u.amend? old = some new) :
    new.identity = old.identity ∧ new.status = old.status := by
  cases u with
  | lock =>
      cases hAmend
      exact ⟨rfl, rfl⟩
  | unlock =>
      simp only [amend?, Instance.unlock?] at hAmend
      split at hAmend <;> cases hAmend
      exact ⟨rfl, rfl⟩
  | set key value =>
      cases hAmend
      exact ⟨rfl, rfl⟩

/- What keeps an update from its read. -/
def refusal? (s : Service) (identity : Identity) :
    Update → Option Error
  | lock => none
  | unlock => none
  | set key _ =>
      match s.playbook identity.playbook with
      | .error e => some e
      | .ok p =>
          if p.declares key then none
          else some (.invalid (.undeclared identity.playbook key))

/- What an update does after its write. -/
def afterWrite :
    Except StoreError Unit → Action (Except Error Unit)
  | .ok () => .finish (.ok ())
  | .error e => .finish (.error (.store e))

/- What an update is to write that has read something. -/
def revision (r : Repository) (identity : Identity)
    (u : Update) : Option String → Except Error Instance
  | none => .error (.noInstance identity)
  | some text =>
      match Instance.ofRecord? text with
      | none => .error (.malformedRecord (r.path identity))
      | some old =>
          match u.amend? old with
          | none => .error (.notLocked old.identity)
          | some new => .ok new

/- What an update writes it has made of a record that it could
   read. -/
theorem revision_ok
    {r : Repository}
    {identity : Identity}
    {u : Update}
    {seen : Option String}
    {new : Instance}
    (hRevision : u.revision r identity seen = .ok new) :
    ∃ text old,
      seen = some text ∧
        Instance.ofRecord? text = some old ∧
        u.amend? old = some new := by
  unfold revision at hRevision
  split at hRevision
  · cases hRevision
  · rename_i text
    split at hRevision
    · cases hRevision
    · rename_i old hOld
      split at hRevision
      · cases hRevision
      · rename_i new' hNew
        cases hRevision
        exact ⟨text, old, rfl, hOld, hNew⟩

/- What an update does that has something to write. -/
def carry (r : Repository) :
    Except Error Instance → Action (Except Error Unit)
  | .error e => .finish (.error e)
  | .ok new =>
      .call (.store (.set (r.path new.identity) new.record))
        afterWrite

/- What an update does after its read. -/
def afterValue (r : Repository) (identity : Identity)
    (u : Update) :
    Except StoreError (Option String) →
      Action (Except Error Unit)
  | .ok seen => carry r (u.revision r identity seen)
  | .error e => .finish (.error (.store e))

/- An update of an instance that was found. -/
theorem find_bind
    (r : Repository)
    (identity : Identity)
    (u : Update)
    (f : Instance → Attempt Error Instance)
    (hFound : ∀ old,
      Action.bind (f old).run
          (fun result => .finish (result.map fun _ => ())) =
        match u.amend? old with
        | none => .finish (.error (.notLocked old.identity))
        | some new => carry r (.ok new)) :
    Action.bind (r.find identity >>= f).run
        (fun result => .finish (result.map fun _ => ())) =
      .call (.store (.value (r.path identity)))
        (u.afterValue r identity) := by
  refine congrArg (Action.call _) (funext ?_)
  intro reply
  rcases reply with e | seen
  · rfl
  · cases seen with
    | none => rfl
    | some text =>
        change Action.bind
          ((Attempt.ofExcept
            (Repository.decode (r.path identity) text)) >>=
              f : Attempt Error Instance).run _ =
            carry r (u.revision r identity (some text))
        simp only [Repository.decode, revision]
        cases Instance.ofRecord? text with
        | none => rfl
        | some old =>
            refine (hFound old).trans ?_
            dsimp only
            cases u.amend? old <;> rfl

/- An update is refused, or reads and goes on. -/
theorem program_eq
    (s : Service)
    (identity : Identity)
    (u : Update) :
    u.program s identity =
      match u.refusal? s identity with
      | some e => .finish (.error e)
      | none =>
          .call (.store (.value (s.repository.path identity)))
            (u.afterValue s.repository identity) := by
  have hSaved (i : Instance) :
      Action.bind (do
          s.repository.save i
          return i : Attempt Error Instance).run
          (fun result => .finish (result.map fun _ => ())) =
        carry s.repository (.ok i) := by
    refine congrArg (Action.call _) (funext ?_)
    intro reply
    rcases reply with e | ⟨⟩ <;> rfl
  cases u with
  | lock =>
      exact find_bind s.repository identity lock _
        fun old => hSaved old.lock
  | unlock =>
      refine find_bind s.repository identity unlock _ ?_
      intro old
      unfold amend?
      cases old.unlock? with
      | none => rfl
      | some new => exact hSaved new
  | set key value =>
      simp only [program, attempt, Service.setVariable,
        refusal?]
      cases s.playbook identity.playbook with
      | error e => rfl
      | ok p =>
          rw [Attempt.ofExcept_bind]
          dsimp only
          cases p.declares key with
          | false => rfl
          | true =>
              exact find_bind s.repository identity
                (set key value) _
                fun old => hSaved (old.setVar key value)

end Update

------------------------------------------------------------
-- Silent Calls
------------------------------------------------------------

/- A call that changes nothing leaves the store as it is. -/
theorem Answers.of_not_wrote
    {s t : Store}
    {c : Call}
    {reply : c.Reply}
    (hAnswers : Answers s c reply t)
    (hSilent : c.wrote reply = false) :
    t = s := by
  cases hAnswers with
  | other => rfl
  | store c =>
      cases c with
      | value path => rfl
      | values path => rfl
      | set path text =>
          simp only [Store.perform] at hSilent ⊢
          cases hSet : s.set path text with
          | error e => rfl
          | ok t =>
              rw [hSet] at hSilent
              cases hSilent
      | erase path =>
          simp only [Store.perform, Store.erase] at hSilent ⊢
          cases hKey : Store.key path with
          | error e => rfl
          | ok k =>
              rw [hKey] at hSilent
              exact congrArg Store.mk
                (Table.erase_of_absent hSilent)
      | swap path expected text =>
          simp only [Store.perform, Store.swap] at hSilent ⊢
          cases hKey : Store.key path with
          | error e => rfl
          | ok k =>
              rw [hKey] at hSilent
              by_cases hSame : s.entries.get? k = expected
              · rw [show (Except.ok k : Except StoreError
                  String) >>= _ = _ from if_pos hSame]
                  at hSilent
                cases hSilent
              · rw [show (Except.ok k : Except StoreError
                  String) >>= _ = _ from if_neg hSame]
                rfl

/- The store changes by what is written. -/
theorem Pool.Step.store_of_not_wrote
    {ι α : Type}
    [DecidableEq ι]
    {p q : Pool ι α}
    {i : ι}
    {x : Exchange}
    (hStep : Step p (i, x) q)
    (hSilent : x.wrote = false) :
    q.store = p.store := by
  cases hStep with
  | turn _ c next reply store _ hAnswers =>
      exact hAnswers.of_not_wrote hSilent

------------------------------------------------------------
-- Crowds
------------------------------------------------------------

/- What acts on an instance: a run on a copy of it, or an
   update of its record. -/
inductive Part where
  | run (job : Job) (copy : Instance)
  | update (u : Update)

/- What a part of a crowd does. -/
def Part.program (s : Service) (identity : Identity) :
    Part → Action (Except Error Unit)
  | run job copy => job.program s copy
  | update u => u.program s identity

/-
  Runs and updates of a service on one instance, whose record
  is under a path that the store admits.
-/
structure Crowd (ι : Type) where
  service : Service
  identity : Identity
  part : ι → Part
  hCopy : ∀ i job copy,
    part i = .run job copy → copy.identity = identity
  hKey : (Store.key (service.repository.path identity)).isOk

/- A program has changed the store. -/
def Written
    {ι : Type}
    (trace : List (ι × Exchange))
    (i : ι) : Prop :=
  ∃ x, (i, x) ∈ trace ∧ x.wrote = true

namespace Crowd

variable {ι : Type} (c : Crowd ι)

/- The path of the record. -/
abbrev path : String :=
  c.service.repository.path c.identity

/- The record as a store has it. -/
abbrev record? (store : Store) : Option String :=
  store.content? c.path

/- All runs and updates before their first call. -/
def start (store : Store) : Pool ι (Except Error Unit) where
  store
  programs i := (c.part i).program c.service c.identity

theorem start_store (store : Store) :
    (c.start store).store = store :=
  rfl

theorem start_programs (store : Store) (i : ι) :
    (c.start store).programs i =
      (c.part i).program c.service c.identity :=
  rfl

/- A record that can be read is one of the instance. -/
def Owned (store : Store) : Prop :=
  ∀ text i, c.record? store = some text →
    Instance.ofRecord? text = some i → i.identity = c.identity

/- A run of the crowd as a group of its own. -/
def group
    {c : Crowd ι}
    {i : ι}
    {job : Job}
    {copy : Instance}
    (hPart : c.part i = .run job copy) : Group ι where
  service := c.service
  identity := c.identity
  job _ := job
  copy _ := copy
  hCopy _ := c.hCopy i job copy hPart
  hKey := c.hKey

/- The read of a record. -/
abbrev readOf (seen : Option String) : Exchange :=
  ⟨.store (.value c.path), .ok seen⟩

/-
  Where an update stands after some exchanges: it has ended,
  or is about to read, or is about to write what it makes of
  the record that it has read, which is still the stored one
  if nothing has been written since.
-/
inductive Stage
    (u : Update)
    (trace : List (ι × Exchange))
    (i : ι)
    (store : Store) :
    Action (Except Error Unit) → Prop where
  | ended
    (result : Except Error Unit)
    (hDone : result = .ok () ↔ Written trace i) :
    Stage u trace i store (.finish result)
  | reading
    (hFresh : ∀ x, (i, x) ∉ trace) :
    Stage u trace i store
      (.call (.store (.value c.path))
        (u.afterValue c.service.repository c.identity))
  | writing
    (text : String)
    (old new : Instance)
    (early late : List (ι × Exchange))
    (hOld : Instance.ofRecord? text = some old)
    (hOwn : old.identity = c.identity)
    (hNew : u.amend? old = some new)
    (hTrace :
      trace = early ++ (i, c.readOf (some text)) :: late)
    (hOnce : ∀ x, (i, x) ∉ early ∧ (i, x) ∉ late)
    (hKept : (∀ y ∈ late, y.2.wrote = false) →
      c.record? store = some text) :
    Stage u trace i store
      (.call (.store (.set c.path new.record))
        Update.afterWrite)

/- How a turn changes the record. -/
inductive Write
    (trace : List (ι × Exchange))
    (i : ι)
    (x : Exchange)
    (before after : Store) : Prop where
  | saved
    (job : Job)
    (copy : Instance)
    (status : Status)
    (hPart : c.part i = .run job copy)
    (hRecord : c.record? after =
      some { copy with status := status : Instance }.record)
  | removed
    (copy : Instance)
    (hPart : c.part i = .run .delete copy)
    (hRecord : c.record? after = none)
  | updated
    (u : Update)
    (text : String)
    (old new : Instance)
    (early late : List (ι × Exchange))
    (hPart : c.part i = .update u)
    (hOld : Instance.ofRecord? text = some old)
    (hNew : u.amend? old = some new)
    (hOwn : old.identity = c.identity)
    (hTrace :
      trace = early ++ (i, c.readOf (some text)) :: late)
    (hOnce : ∀ x, (i, x) ∉ early ∧ (i, x) ∉ late)
    (hKept : (∀ y ∈ late, y.2.wrote = false) →
      c.record? before = some text)
    (hExchange :
      x = ⟨.store (.set c.path new.record), .ok ()⟩)
    (hRecord : c.record? after = some new.record)

------------------------------------------------------------
-- Turns of an Update
------------------------------------------------------------

variable {c}
variable {u : Update}
variable {trace : List (ι × Exchange)}
variable {i j : ι}
variable {before after : Store}

theorem not_written_of_fresh
    (hFresh : ∀ x, (i, x) ∉ trace) :
    ¬ Written trace i := by
  rintro ⟨x, hx, _⟩
  exact hFresh x hx

/- Another's call, or one that writes nothing, leaves it so. -/
theorem written_append
    {x : Exchange}
    (hOther : j ≠ i ∨ x.wrote = false) :
    Written (trace ++ [(j, x)]) i ↔ Written trace i := by
  constructor
  · rintro ⟨y, hy, hWrote⟩
    rcases List.mem_append.1 hy with hOld | hNew
    · exact ⟨y, hOld, hWrote⟩
    · cases List.mem_singleton.1 hNew
      rcases hOther with hNe | hSilent
      · exact absurd rfl hNe
      · rw [hSilent] at hWrote
        cases hWrote
  · rintro ⟨y, hy, hWrote⟩
    exact ⟨y, List.mem_append_left _ hy, hWrote⟩

/- An update that has read once and not made another call has
   written nothing. -/
theorem not_written_of_read
    {early late : List (ι × Exchange)}
    {text : String}
    (hTrace :
      trace = early ++ (i, c.readOf (some text)) :: late)
    (hOnce : ∀ x, (i, x) ∉ early ∧ (i, x) ∉ late) :
    ¬ Written trace i := by
  rintro ⟨x, hx, hWrote⟩
  rw [hTrace] at hx
  rcases List.mem_append.1 hx with hEarly | hRest
  · exact (hOnce x).1 hEarly
  · rcases List.mem_cons.1 hRest with hRead | hLate
    · cases hRead
      cases hWrote
    · exact (hOnce x).2 hLate

/- Before its first call an update has read nothing. -/
theorem stage_start (store : Store) (u : Update) (i : ι) :
    c.Stage u [] i store (u.program c.service c.identity) := by
  rw [Update.program_eq]
  cases u.refusal? c.service c.identity with
  | none => exact .reading (by simp)
  | some e =>
      refine .ended _ (iff_of_false (by simp) ?_)
      exact not_written_of_fresh (by simp)

/- An update has succeeded once it has written. -/
theorem Stage.written_iff
    {m : Action (Except Error Unit)}
    (hStage : c.Stage u trace i before m) :
    m = .finish (.ok ()) ↔ Written trace i := by
  cases hStage with
  | ended result hDone =>
      rw [← hDone]
      exact ⟨fun h => by cases h; rfl, fun h => by rw [h]⟩
  | reading hFresh =>
      refine iff_of_false (fun h => by cases h) ?_
      exact not_written_of_fresh hFresh
  | writing text old new early late _ _ _ hTrace hOnce =>
      refine iff_of_false (fun h => by cases h) ?_
      exact not_written_of_read hTrace hOnce

/- Turns of others change nothing of it. -/
theorem Stage.append_other
    {m : Action (Except Error Unit)}
    {d : Call}
    {reply : d.Reply}
    (hStage : c.Stage u trace i before m)
    (hOther : j ≠ i)
    (hAnswers : Answers before d reply after) :
    c.Stage u (trace ++ [(j, ⟨d, reply⟩)]) i after m := by
  have hFresher
      {part : List (ι × Exchange)}
      (hFresh : ∀ x, (i, x) ∉ part)
      (x : Exchange) :
      (i, x) ∉ part ++ [(j, ⟨d, reply⟩)] := by
    intro hx
    rcases List.mem_append.1 hx with hOld | hNew
    · exact hFresh x hOld
    · cases List.mem_singleton.1 hNew
      exact hOther rfl
  cases hStage with
  | ended result hDone =>
      refine .ended result ?_
      rwa [written_append (.inl hOther)]
  | reading hFresh => exact .reading (hFresher hFresh)
  | writing text old new early late hOld hOwn hNew hTrace
      hOnce hKept =>
      refine .writing text old new early
        (late ++ [(j, ⟨d, reply⟩)]) hOld hOwn hNew
        (by rw [hTrace]; simp)
        (fun x => ⟨(hOnce x).1,
          hFresher (fun y => (hOnce y).2) x⟩) ?_
      intro hSilent
      have hSame : after = before :=
        hAnswers.of_not_wrote
          (hSilent (j, ⟨d, reply⟩) (by simp))
      rw [hSame]
      exact hKept fun y hy =>
        hSilent y (List.mem_append_left _ hy)

/- A turn of an update moves it on; if it writes, it writes
   what it has made of what it has read. -/
theorem Stage.turn
    {d : Call}
    {next : d.Reply → Action (Except Error Unit)}
    {reply : d.Reply}
    (hPart : c.part i = .update u)
    (hOwned : c.Owned before)
    (hStage : c.Stage u trace i before (.call d next))
    (hAnswers : Answers before d reply after) :
    c.Stage u (trace ++ [(i, ⟨d, reply⟩)]) i after
        (next reply) ∧
      ((⟨d, reply⟩ : Exchange).wrote = true →
        c.Write trace i ⟨d, reply⟩ before after) := by
  generalize hProgram : Action.call d next = m at hStage
  cases hStage with
  | ended => cases hProgram
  -- its first call reads the record that it is to change
  | reading hFresh =>
      cases hProgram
      have hPerform := hAnswers.of_store
      cases (Store.perform_value c.hKey before).symm.trans
        hPerform
      refine ⟨?_, fun hWrote => by cases hWrote⟩
      change c.Stage u _ i before
        (Update.carry c.service.repository
          (u.revision c.service.repository c.identity
            (c.record? before)))
      cases hRevision : u.revision c.service.repository
          c.identity (c.record? before) with
      | error e =>
          refine .ended _ (iff_of_false (by simp) ?_)
          rw [written_append (.inr rfl)]
          exact not_written_of_fresh hFresh
      | ok new =>
          rcases Update.revision_ok hRevision with
            ⟨text, old, hSeen, hOld, hNew⟩
          have hOwn := hOwned text old hSeen hOld
          have hPath : c.service.repository.path new.identity =
              c.path := by
            rw [(Update.amend?_frame hNew).1, hOwn]
          unfold Update.carry
          dsimp only
          rw [hPath, show before.content? _ = some text from hSeen]
          exact .writing text old new trace [] hOld hOwn hNew
            rfl (fun x => ⟨hFresh x, by simp⟩)
            fun _ => hSeen
  -- its second call writes, and is the last one
  | writing text old new early late hOld hOwn hNew hTrace
      hOnce hKept =>
      cases hProgram
      have hPerform := hAnswers.of_store
      rcases Store.perform_set c.hKey before new.record with
        ⟨t, hReply, hRecord⟩
      cases hReply.symm.trans hPerform
      constructor
      · refine .ended _ (iff_of_true rfl ?_)
        exact ⟨_, List.mem_append_right _
          (List.mem_singleton.2 rfl), rfl⟩
      · intro _
        exact .updated u text old new early late hPart hOld
          hNew hOwn hTrace hOnce hKept rfl hRecord

------------------------------------------------------------
-- Turns of a Run
------------------------------------------------------------

/- A run writes its copy with another status, or removes the
   record. -/
theorem write_of_move
    {job : Job}
    {copy : Instance}
    {x : Exchange}
    {m next : Action (Except Error Unit)}
    (hPart : c.part i = .run job copy)
    (hMove : Move (group hPart) trace i x before m after next)
    (hWrote : x.wrote = true) :
    c.Write trace i x before after := by
  cases hMove with
  | outside hCall =>
      have hSilent : x.wrote = false :=
        Call.not_wrote_of_not_isStore hCall x.reply
      rw [hSilent] at hWrote
      cases hWrote
  | read hCall =>
      rcases x with ⟨d, reply⟩
      cases hCall
      cases hWrote
  | missed seen hExchange =>
      rw [hExchange] at hWrote
      cases hWrote
  | claimed _ _ _ hRecord =>
      exact .saved job copy job.target hPart hRecord
  | last d result _ hLast _ _ hRecord =>
      change Job.LastWrite c.service c.identity copy job d
        result at hLast
      cases hLast with
      | failed _ e =>
          exact .saved job copy .error hPart hRecord
      | deployed =>
          exact .saved .deploy copy .deployed hPart hRecord
      | removed => exact .removed copy hPart hRecord

/- What is written keeps the record one of the instance. -/
theorem Write.owned
    {x : Exchange}
    (hWrite : c.Write trace i x before after) :
    c.Owned after := by
  have hSaved
      (saved : Instance)
      (hRecord : c.record? after = some saved.record)
      (hOwn : saved.identity = c.identity) :
      c.Owned after := by
    intro text j hText hRead
    rw [hRecord] at hText
    cases hText
    rw [Instance.ofRecord?_record] at hRead
    cases hRead
    exact hOwn
  cases hWrite with
  | saved job copy status hPart hRecord =>
      exact hSaved _ hRecord (c.hCopy i job copy hPart)
  | removed copy _ hRecord =>
      intro text j hText
      rw [hRecord] at hText
      cases hText
  | updated u text old new _ _ _ _ hNew hOwn _ _ _ _ hRecord =>
      exact hSaved new hRecord
        ((Update.amend?_frame hNew).1.trans hOwn)

------------------------------------------------------------
-- Runs of a Crowd
------------------------------------------------------------

variable [DecidableEq ι]
variable {store : Store}
variable {p q : Pool ι (Except Error Unit)}

/- Where everyone stands, and whose the record is. -/
structure Sound
    (c : Crowd ι)
    (trace : List (ι × Exchange))
    (p : Pool ι (Except Error Unit)) : Prop where
  owned : c.Owned p.store
  stage : ∀ i u, c.part i = .update u →
    c.Stage u trace i p.store (p.programs i)
  standing : ∀ i job copy
    (hPart : c.part i = .run job copy),
    Standing (group hPart) trace i (p.programs i)

/- A crowd is sound before its first call. -/
omit [DecidableEq ι] in
theorem sound_start (hOwned : c.Owned store) :
    c.Sound [] (c.start store) where
  owned := hOwned
  stage i u hPart := by
    change c.Stage u [] i store
      ((c.part i).program c.service c.identity)
    rw [hPart]
    exact stage_start store u i
  standing i job copy hPart := by
    change Standing (group hPart) [] i
      ((c.part i).program c.service c.identity)
    rw [hPart]
    exact (group hPart).standing_start store i

/- A turn of anyone keeps that, and a write is as said. -/
theorem Sound.turn
    (hSound : c.Sound trace p)
    {i : ι}
    {x : Exchange}
    (hStep : Pool.Step p (i, x) q) :
    c.Sound (trace ++ [(i, x)]) q ∧
      (x.wrote = true → c.Write trace i x p.store q.store) := by
  cases hStep with
  | turn _ d next reply after hProgram hAnswers =>
      have hWrite :
          (⟨d, reply⟩ : Exchange).wrote = true →
            c.Write trace i ⟨d, reply⟩ p.store after := by
        intro hWrote
        cases hPart : c.part i with
        | run job copy =>
            have hStanding := hSound.standing i job copy hPart
            rw [hProgram] at hStanding
            exact write_of_move hPart
              (hStanding.turn _ hAnswers).2 hWrote
        | update u =>
            have hStage := hSound.stage i u hPart
            rw [hProgram] at hStage
            exact (hStage.turn hPart hSound.owned hAnswers).2
              hWrote
      refine ⟨⟨?_, ?_, ?_⟩, hWrite⟩
      · cases hWrote : (⟨d, reply⟩ : Exchange).wrote with
        | true => exact (hWrite hWrote).owned
        | false =>
            change c.Owned after
            rw [hAnswers.of_not_wrote hWrote]
            exact hSound.owned
      · intro j u hPart
        have hStage := hSound.stage j u hPart
        by_cases hSame : j = i
        · subst hSame
          rw [hProgram] at hStage
          simpa using
            (hStage.turn hPart hSound.owned hAnswers).1
        · simpa [Function.update_of_ne hSame] using
            hStage.append_other (Ne.symm hSame) hAnswers
      · intro j job copy hPart
        have hStanding := hSound.standing j job copy hPart
        by_cases hSame : j = i
        · subst hSame
          rw [hProgram] at hStanding
          simpa using (hStanding.turn _ hAnswers).1
        · simpa [Function.update_of_ne hSame] using
            hStanding.append_other _ (Ne.symm hSame) ⟨d, reply⟩

/- A crowd is sound after any run, by induction on the run. -/
theorem sound
    (hOwned : c.Owned store)
    (hRuns : Runs (c.start store) trace p) :
    c.Sound trace p := by
  induction hRuns with
  | none => exact sound_start hOwned
  | step _ hStep ih => exact (ih.turn hStep).1

------------------------------------------------------------
-- Single Turns
------------------------------------------------------------

omit [DecidableEq ι] in
/- The first call of an update that is not refused. -/
theorem program_update
    (hPart : c.part i = .update u)
    (hAllowed : u.refusal? c.service c.identity = none) :
    (c.part i).program c.service c.identity =
      .call (.store (.value c.path))
        (u.afterValue c.service.repository c.identity) := by
  rw [hPart]
  change u.program c.service c.identity = _
  rw [Update.program_eq, hAllowed]

/- The read of an update that then has something to write. -/
theorem read_turn
    {old new : Instance}
    (hPart : c.part i = .update u)
    (hAllowed : u.refusal? c.service c.identity = none)
    (hProgram : p.programs i =
      (c.part i).program c.service c.identity)
    (hStored : c.record? p.store = some old.record)
    (hOwn : old.identity = c.identity)
    (hNew : u.amend? old = some new) :
    ∃ q,
      Pool.Step p (i, c.readOf (some old.record)) q ∧
        q.programs i =
          .call (.store (.set c.path new.record))
            Update.afterWrite ∧
        q.store = p.store ∧
        ∀ j, j ≠ i → q.programs j = p.programs j := by
  have hRead := hProgram.trans (program_update hPart hAllowed)
  have hAnswers := Answers.value c.hKey p.store
  rw [show p.store.content? _ = some old.record from hStored]
    at hAnswers
  rcases runs_turn hRead hAnswers with
    ⟨q, hStep, hNext, hStore, hOthers⟩
  refine ⟨q, hStep, hNext.trans ?_, hStore, hOthers⟩
  have hRevision : u.revision c.service.repository c.identity
      (some old.record) = .ok new := by
    simp only [Update.revision, Instance.ofRecord?_record,
      hNew]
  have hPath : c.service.repository.path new.identity =
      c.path := by
    rw [(Update.amend?_frame hNew).1, hOwn]
  unfold Update.afterValue
  dsimp only
  rw [hRevision]
  unfold Update.carry
  dsimp only
  rw [hPath]

/- The write of an update, which is its last call. -/
theorem write_turn
    {text : String}
    (hProgram : p.programs i =
      .call (.store (.set c.path text)) Update.afterWrite) :
    ∃ q,
      Pool.Step p
          (i, ⟨.store (.set c.path text), .ok ()⟩) q ∧
        q.programs i = .finish (.ok ()) ∧
        c.record? q.store = some text ∧
        ∀ j, j ≠ i → q.programs j = p.programs j := by
  rcases Answers.set c.hKey p.store text with
    ⟨t, hAnswers, hRecord⟩
  rcases runs_turn hProgram hAnswers with
    ⟨q, hStep, hNext, rfl, hOthers⟩
  exact ⟨q, hStep, hNext, hRecord, hOthers⟩

/- Updates that read one after the other read the same
   record. -/
theorem reads_turns
    {old : Instance}
    {new : ι → Instance}
    (hOwn : old.identity = c.identity)
    (is : List ι)
    (hDistinct : is.Nodup)
    (hUpdates : ∀ i ∈ is, ∃ u,
      c.part i = .update u ∧
        u.refusal? c.service c.identity = none ∧
        u.amend? old = some (new i))
    (hPrograms : ∀ i ∈ is, p.programs i =
      (c.part i).program c.service c.identity)
    (hStored : c.record? p.store = some old.record) :
    ∃ trace q,
      Runs p trace q ∧
        q.store = p.store ∧
        (∀ i ∈ is, q.programs i =
          .call (.store (.set c.path (new i).record))
            Update.afterWrite) ∧
        ∀ j, j ∉ is → q.programs j = p.programs j := by
  induction is generalizing p with
  | nil => exact ⟨[], p, .none, rfl, by simp, fun _ _ => rfl⟩
  | cons i is ih =>
      rcases List.nodup_cons.1 hDistinct with ⟨hFirst, hRest⟩
      rcases hUpdates i (List.mem_cons_self ..) with
        ⟨u, hPart, hAllowed, hNew⟩
      rcases read_turn hPart hAllowed
        (hPrograms i (List.mem_cons_self ..)) hStored hOwn hNew
        with ⟨m, hStep, hNext, hStore, hOthers⟩
      have hOther (j : ι) (hj : j ∈ is) : j ≠ i := by
        rintro rfl
        exact hFirst hj
      have hStill : c.record? m.store = some old.record := by
        rw [hStore]
        exact hStored
      rcases ih (p := m) hRest
        (fun j hj => hUpdates j (List.mem_cons_of_mem _ hj))
        (fun j hj => (hOthers j (hOther j hj)).trans
          (hPrograms j (List.mem_cons_of_mem _ hj)))
        hStill with
        ⟨trace, q, hRuns, hSame, hEach, hNone⟩
      refine ⟨_, q, Runs.append (.step .none hStep) hRuns,
        hSame.trans hStore, fun j hj => ?_, fun j hj => ?_⟩
      · rcases List.mem_cons.1 hj with rfl | hj
        · exact (hNone j hFirst).trans hNext
        · exact hEach j hj
      · rw [List.mem_cons, not_or] at hj
        exact (hNone j hj.2).trans (hOthers j hj.1)

/- A store with the record of an instance. -/
def holding (c : Crowd ι) (i : Instance) : Store :=
  (Store.empty.perform (.set c.path i.record)).1

omit [DecidableEq ι] in
theorem record?_holding (c : Crowd ι) (i : Instance) :
    c.record? (c.holding i) = some i.record := by
  rcases Store.perform_set c.hKey .empty i.record with
    ⟨t, hSet, hRecord⟩
  unfold holding
  rw [hSet]
  exact hRecord

omit [DecidableEq ι] in
theorem owned_holding
    {i : Instance}
    (hOwn : i.identity = c.identity) :
    c.Owned (c.holding i) := by
  intro text j hText hRead
  rw [c.record?_holding i] at hText
  cases hText
  rw [Instance.ofRecord?_record] at hRead
  cases hRead
  exact hOwn

end Crowd

------------------------------------------------------------
-- The Variable of a Branch
------------------------------------------------------------

/- Setting the variable of a branch anew. -/
theorem Instance.setVar_ofBranch (old new : String) :
    (ofBranch old).setVar "branch" new = ofBranch new := by
  have hVars : (Table.empty.insert "branch" old).insert
      "branch" new = Table.empty.insert "branch" new := by
    apply Table.ext_get?
    intro k
    simp only [Table.get?_insert]
    split <;> rfl
  unfold setVar ofBranch
  rw [hVars]

/- The playbook of a branch takes its variable. -/
theorem Update.refusal?_single (template value : String) :
    (Update.set "branch" value).refusal? (.single template)
      ⟨"web", "demo"⟩ = none :=
  rfl

end Preview
