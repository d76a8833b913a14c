import Preview.Proofs.Claiming
import Preview.Proofs.Sharing

/-
  Runs on one instance that share a reliable store.

  Each of any number of runs stands somewhere on the way that
  the protocol prescribes: refused, about to read, about to
  claim, at work, or done.  A turn of one run moves it on,
  and the record changes only with a claim and with a last
  write.

  Main declarations:
    * `Group` and `Group.start`
    * `Standing`
    * `Move`
    * `Standing.turn`
    * `Group.standing` and `Group.move`
-/

namespace Preview

open Pool

------------------------------------------------------------
-- Traces
------------------------------------------------------------

section Traces

variable {ι : Type}

/- A program has asked no cluster and written nothing. -/
def Quiet (trace : List (ι × Exchange)) (i : ι) : Prop :=
  ∀ x, (i, x) ∈ trace →
    x.call.isCluster = false ∧ x.wrote = false

/- Who has written nothing has claimed nothing. -/
theorem Quiet.not_claimed
    {trace : List (ι × Exchange)}
    {i : ι}
    (hQuiet : Quiet trace i) :
    ¬ Claimed trace i := by
  rintro ⟨path, seen, record, hSwap⟩
  have hWrote := (hQuiet _ hSwap).2
  cases hWrote

/- A call that writes nothing leaves a program quiet. -/
theorem Quiet.append
    {trace : List (ι × Exchange)}
    {i j : ι}
    {x : Exchange}
    (hQuiet : Quiet trace i)
    (hNext : j = i →
      x.call.isCluster = false ∧ x.wrote = false) :
    Quiet (trace ++ [(j, x)]) i := by
  intro y hy
  rcases List.mem_append.1 hy with hOld | hNew
  · exact hQuiet y hOld
  · cases List.mem_singleton.1 hNew
    exact hNext rfl

theorem Claimed.append
    {trace : List (ι × Exchange)}
    {i : ι}
    (hClaimed : Claimed trace i)
    (more : List (ι × Exchange)) :
    Claimed (trace ++ more) i := by
  rcases hClaimed with ⟨path, seen, record, hSwap⟩
  exact ⟨path, seen, record, List.mem_append_left _ hSwap⟩

/- A swap that was acknowledged is a claim. -/
theorem claimed_last
    (trace : List (ι × Exchange))
    (i : ι)
    (path : String)
    (seen : Option String)
    (record : String) :
    Claimed
      (trace ++
        [(i, ⟨.store (.swap path seen record), .ok true⟩)])
      i :=
  ⟨path, seen, record,
    List.mem_append_right _ (List.mem_singleton.2 rfl)⟩

/- A claim is made by the exchange that claims. -/
theorem claimed_append
    {trace : List (ι × Exchange)}
    {i j : ι}
    {x : Exchange}
    (hOther : i ≠ j ∨ x.wrote = false ∨
      ∀ path seen record,
        x.call ≠ .store (.swap path seen record)) :
    Claimed (trace ++ [(j, x)]) i ↔ Claimed trace i := by
  refine ⟨?_, fun h => h.append _⟩
  rintro ⟨path, seen, record, hSwap⟩
  rcases List.mem_append.1 hSwap with hOld | hNew
  · exact ⟨path, seen, record, hOld⟩
  · cases List.mem_singleton.1 hNew
    rcases hOther with hNe | hWrote | hCall
    · exact absurd rfl hNe
    · cases hWrote
    · exact absurd rfl (hCall path seen record)

end Traces

------------------------------------------------------------
-- Groups of Runs
------------------------------------------------------------

/-
  Runs of a service on copies of one instance, whose record
  is under a path that the store admits.
-/
structure Group (ι : Type) where
  service : Service
  identity : Identity
  job : ι → Job
  copy : ι → Instance
  hCopy : ∀ i, (copy i).identity = identity
  hKey : (Store.key (service.repository.path identity)).isOk

namespace Group

variable {ι : Type} (g : Group ι)

/- The path of the record. -/
abbrev path : String :=
  g.service.repository.path g.identity

/- The record as a store has it. -/
abbrev record? (store : Store) : Option String :=
  store.content? g.path

/- All runs before their first call. -/
def start (store : Store) : Pool ι (Except Error Unit) where
  store
  programs i := (g.job i).program g.service (g.copy i)

/- What keeps a run from its claim. -/
def objection? (i : ι) (seen : Option String) : Option Error :=
  (g.job i).objection? g.service.repository g.identity seen

/- The record that a run claims with. -/
def claimRecord (i : ι) : String :=
  (g.job i).claimRecord (g.copy i)

/- The last write of a run. -/
def LastWrite (i : ι) (c : Store.Call)
    (result : Except Error Unit) : Prop :=
  Job.LastWrite g.service g.identity (g.copy i) (g.job i) c result

/- What a run still does when it is at work, about to claim,
   or about to read. -/
def Working (i : ι) : Action (Except Error Unit) → Prop :=
  Job.Working g.service g.identity (g.copy i) (g.job i)

/- What a run still does when it is about to claim, having read
   this. -/
def Swapping (i : ι) (seen : Option String) :
    Action (Except Error Unit) → Prop :=
  Job.Swapping g.service g.identity (g.copy i) (g.job i) seen

/- What a run still does when it is about to read. -/
def Reading (i : ι) : Action (Except Error Unit) → Prop :=
  Job.Reading g.service g.identity (g.copy i) (g.job i)

end Group

------------------------------------------------------------
-- Standings
------------------------------------------------------------

section Standings

variable {ι : Type} (g : Group ι)

/- Where a run stands after some exchanges. -/
inductive Standing
    (trace : List (ι × Exchange))
    (i : ι)
    (m : Action (Except Error Unit)) : Prop where
  | refused
    (hProgram : Closing Refused m)
    (hQuiet : Quiet trace i)
  | reading
    (hProgram : g.Reading i m)
    (hQuiet : Quiet trace i)
  | swapping
    (seen : Option String)
    (hFree : g.objection? i seen = none)
    (hRead : (i, ⟨.store (.value g.path), .ok seen⟩) ∈ trace)
    (hProgram :
      g.Swapping i seen m)
    (hQuiet : Quiet trace i)
  | working
    (hProgram : g.Working i m)
    (hClaimed : Claimed trace i)
  | done
    (c : Store.Call)
    (reply : c.Reply)
    (result : Except Error Unit)
    (hLast : g.LastWrite i c result)
    (hMade : (i, ⟨.store c, reply⟩) ∈ trace)
    (hProgram : Closing (fun r => r = result) m)
    (hClaimed : Claimed trace i)

/- Turns of other runs change nothing of it. -/
theorem Standing.append_other
    {trace : List (ι × Exchange)}
    {i j : ι}
    {m : Action (Except Error Unit)}
    (hStanding : Standing g trace i m)
    (hOther : j ≠ i)
    (x : Exchange) :
    Standing g (trace ++ [(j, x)]) i m := by
  have hQuieter (hQuiet : Quiet trace i) :
      Quiet (trace ++ [(j, x)]) i :=
    hQuiet.append fun hSame => absurd hSame hOther
  cases hStanding with
  | refused hProgram hQuiet =>
      exact .refused hProgram (hQuieter hQuiet)
  | reading hProgram hQuiet =>
      exact .reading hProgram (hQuieter hQuiet)
  | swapping seen hFree hRead hProgram hQuiet =>
      exact .swapping seen hFree
        (List.mem_append_left _ hRead) hProgram
        (hQuieter hQuiet)
  | working hProgram hClaimed =>
      exact .working hProgram (hClaimed.append _)
  | done c reply result hLast hMade hProgram hClaimed =>
      exact .done c reply result hLast
        (List.mem_append_left _ hMade) hProgram
        (hClaimed.append _)

/- What one turn of a run does, from one store and program to
   the next ones. -/
inductive Move
    (trace : List (ι × Exchange))
    (i : ι)
    (x : Exchange)
    (before : Store)
    (m : Action (Except Error Unit))
    (after : Store)
    (next : Action (Except Error Unit)) : Prop where
  | outside
    (hCall : x.call.isStore = false)
    (hStore : after = before)
    (hFlight : next.MayWrite ↔ m.MayWrite)
  | read
    (hCall : x.call = .store (.value g.path))
    (hStore : after = before)
    (hBefore : ¬ Claimed trace i)
    (hRefused : ∀ e,
      g.objection? i (g.record? before) = some e →
        Closing (fun r => r = .error e) next)
  | missed
    (seen : Option String)
    (hExchange : x =
      ⟨.store (.swap g.path seen (g.claimRecord i)),
        .ok false⟩)
    (hStore : after = before)
    (hBefore : ¬ Claimed trace i)
    (hRefused : Closing (Conflicting g.identity) next)
  | claimed
    (hExchange : x =
      ⟨.store (.swap g.path (g.record? before)
        (g.claimRecord i)), .ok true⟩)
    (hFree : g.objection? i (g.record? before) = none)
    (hRead :
      (i, ⟨.store (.value g.path),
        .ok (g.record? before)⟩) ∈ trace)
    (hRecord : g.record? after = some (g.claimRecord i))
    (hBefore : ¬ Claimed trace i)
    (hFlight : next.MayWrite)
  | last
    (c : Store.Call)
    (result : Except Error Unit)
    (hCall : x.call = .store c)
    (hLast : g.LastWrite i c result)
    (hClaimed : Claimed trace i)
    (hBefore : m.MayWrite)
    (hRecord : g.record? after = c.leaves)
    (hWrote : x.wrote = true ∨
      g.record? before = none ∧ g.record? after = none)
    (hResult : Closing (fun r => r = result) next)

/- The last write leaves what it writes; only a removal may
   find nothing to change. -/
theorem lastWrite_effect
    {i : ι}
    {c : Store.Call}
    {result : Except Error Unit}
    (hLast : g.LastWrite i c result)
    {store after : Store}
    {reply : c.Reply}
    (hPerform : store.perform c = (after, reply)) :
    g.record? after = c.leaves ∧
      ((⟨.store c, reply⟩ : Exchange).wrote = true ∨
        g.record? store = none ∧ g.record? after = none) := by
  have hSaved
      (text : String)
      (reply : Except StoreError Unit)
      (hSet : store.perform (.set g.path text) =
        (after, reply)) :
      g.record? after = some text ∧
        (⟨.store (.set g.path text), reply⟩ :
          Exchange).wrote = true := by
    rcases Store.perform_set g.hKey store text with
        ⟨t, hReply, hRecord⟩
    cases hReply.symm.trans hSet
    exact ⟨hRecord, rfl⟩
  unfold Group.LastWrite at hLast
  generalize g.job i = job at hLast
  cases hLast with
  | failed _ e hOwn =>
      have hSet := hSaved _ reply hPerform
      exact ⟨hSet.1, .inl hSet.2⟩
  | deployed =>
      have hSet := hSaved _ reply hPerform
      exact ⟨hSet.1, .inl hSet.2⟩
  | removed =>
      rcases Store.perform_erase g.hKey store with
          ⟨t, hReply, hRecord⟩
      cases hReply.symm.trans hPerform
      refine ⟨hRecord, ?_⟩
      cases hStored : g.record? store with
      | none => exact .inr ⟨rfl, hRecord⟩
      | some _ =>
          left
          rw [Exchange.wrote_erase]
          exact congrArg Option.isSome hStored

variable
  {trace : List (ι × Exchange)}
  {i : ι}
  {c : Call}
  {next : c.Reply → Action (Except Error Unit)}
  {reply : c.Reply}
  {before after : Store}

/- The turn of a run that is about to read. -/
theorem turn_reading
    (hAnswers : Answers before c reply after)
    (hReading : g.Reading i
      (.call c next))
    (hQuiet : Quiet trace i) :
    Standing g (trace ++ [(i, ⟨c, reply⟩)]) i (next reply) ∧
      Move g trace i ⟨c, reply⟩ before (.call c next) after
        (next reply) := by
  rcases hReading with ⟨next', hCall, hFree, hBusy⟩
  cases hCall
  have hPerform := hAnswers.of_store
  cases (Store.perform_value g.hKey before).symm.trans hPerform
  refine ⟨?_, .read rfl rfl hQuiet.not_claimed
    fun e hObjection => hBusy _ e hObjection⟩
  have hStillQuiet := hQuiet.append (j := i)
    (x := ⟨.store (.value g.path), .ok (g.record? before)⟩)
    fun _ => ⟨rfl, rfl⟩
  cases hSeen : g.objection? i (g.record? before) with
  | none =>
      exact .swapping _ hSeen (by simp) (hFree _ hSeen)
        hStillQuiet
  | some e =>
      refine .refused ?_ hStillQuiet
      exact (hBusy _ e hSeen).mono (fun _ => id) fun r hr =>
        ⟨e, hr, Job.objection?_isRefusal hSeen⟩

/- The turn of a run that is about to claim. -/
theorem turn_swapping
    {seen : Option String}
    (hAnswers : Answers before c reply after)
    (hFree : g.objection? i seen = none)
    (hRead : (i, ⟨.store (.value g.path), .ok seen⟩) ∈ trace)
    (hSwapping : g.Swapping i seen (.call c next))
    (hQuiet : Quiet trace i) :
    Standing g (trace ++ [(i, ⟨c, reply⟩)]) i (next reply) ∧
      Move g trace i ⟨c, reply⟩ before (.call c next) after
        (next reply) := by
  rcases hSwapping with ⟨next', hCall, hClaimed, hConflict⟩
  cases hCall
  have hPerform := hAnswers.of_store
  by_cases hSame : g.record? before = seen
  · subst hSame
    rcases Store.perform_swap_of_eq g.hKey before
      (g.claimRecord i)
      with
        ⟨t, hReply, hRecord⟩
    cases hReply.symm.trans hPerform
    exact ⟨.working hClaimed (claimed_last trace i _ _ _),
      .claimed rfl hFree hRead hRecord hQuiet.not_claimed
        (Job.Working.mayWrite _ _ _ _ hClaimed)⟩
  · cases (Store.perform_swap_of_ne g.hKey before hSame
      (g.claimRecord i)).symm.trans hPerform
    refine ⟨.refused ?_ (hQuiet.append fun _ => ⟨rfl, rfl⟩),
      .missed seen rfl rfl hQuiet.not_claimed hConflict⟩
    exact hConflict.mono (fun _ => id) fun r hr => hr.refused

/- The turn of a run at work. -/
theorem turn_working
    (hAnswers : Answers before c reply after)
    (hWorking : g.Working i (.call c next))
    (hClaimed : Claimed trace i) :
    Standing g (trace ++ [(i, ⟨c, reply⟩)]) i (next reply) ∧
      Move g trace i ⟨c, reply⟩ before (.call c next) after
        (next reply) := by
  have hBefore : (Action.call c next).MayWrite :=
    Job.Working.mayWrite _ _ _ _ hWorking
  cases hWorking with
  | now hLeft =>
      rcases hLeft with
          ⟨d, next', result, hCall, hLast, hClosing⟩
      cases hCall
      have hPerform := hAnswers.of_store
      have hReply : (before.perform d).2 = reply :=
        congrArg Prod.snd hPerform
      have hEffect := lastWrite_effect g hLast hPerform
      have hAfter := hClosing before
      rw [hReply] at hAfter
      exact ⟨.done d reply result hLast (by simp) hAfter
          (hClaimed.append _),
        .last d result rfl hLast hClaimed hBefore hEffect.1
          hEffect.2 hAfter⟩
  | later _ _ hOther hNext =>
      refine ⟨.working (hNext reply) (hClaimed.append _),
        .outside hOther (hAnswers.of_other hOther) ?_⟩
      exact iff_of_true
        (Job.Working.mayWrite _ _ _ _ (hNext reply)) hBefore

/- A turn of a run moves it on. -/
theorem Standing.turn
    (hStanding : Standing g trace i (.call c next))
    (hAnswers : Answers before c reply after) :
    Standing g (trace ++ [(i, ⟨c, reply⟩)]) i (next reply) ∧
      Move g trace i ⟨c, reply⟩ before (.call c next) after
        (next reply) := by
  cases hStanding with
  | refused hClosing hQuiet =>
      have hOther := Call.not_isStore_of_isMessage hClosing.1
      have hAfter := hClosing.2 reply
      refine ⟨.refused hAfter (hQuiet.append fun _ =>
          ⟨Call.not_isCluster_of_isMessage hClosing.1,
            Call.not_wrote_of_not_isStore hOther reply⟩),
        .outside hOther (hAnswers.of_other hOther) ?_⟩
      exact iff_of_false (Closing.not_mayWrite hAfter)
        hClosing.not_mayWrite
  | reading hReading hQuiet =>
      exact turn_reading g hAnswers hReading hQuiet
  | swapping seen hFree hRead hSwapping hQuiet =>
      exact turn_swapping g hAnswers hFree hRead hSwapping
        hQuiet
  | working hWorking hClaimed =>
      exact turn_working g hAnswers hWorking hClaimed
  | done d reply' result hLast hOld hClosing hClaimed =>
      have hOther := Call.not_isStore_of_isMessage hClosing.1
      have hAfter := hClosing.2 reply
      refine ⟨.done d reply' result hLast
          (List.mem_append_left _ hOld) hAfter
          (hClaimed.append _),
        .outside hOther (hAnswers.of_other hOther) ?_⟩
      exact iff_of_false (Closing.not_mayWrite hAfter)
        hClosing.not_mayWrite

end Standings

------------------------------------------------------------
-- Runs of a Group
------------------------------------------------------------

namespace Group

variable {ι : Type} [DecidableEq ι] (g : Group ι)
variable {store : Store}
variable {trace : List (ι × Exchange)}
variable {p q : Pool ι (Except Error Unit)}

omit [DecidableEq ι] in
/- Before its first call, a run is refused or about to read. -/
theorem standing_start (store : Store) (i : ι) :
    Standing g [] i ((g.start store).programs i) := by
  have hQuiet : Quiet ([] : List (ι × Exchange)) i :=
    fun x hx => by cases hx
  have hKey : (Store.key (g.service.repository.path
      (g.copy i).identity)).isOk = true := by
    rw [g.hCopy i]
    exact g.hKey
  have hStart :=
    Job.program_start g.service (g.copy i) (g.job i) hKey
  rw [g.hCopy i] at hStart
  rcases hStart with hRefused | hReading
  · exact .refused hRefused hQuiet
  · exact .reading hReading hQuiet

/- Every run always stands somewhere on its way. -/
theorem standing
    (hRuns : Runs (g.start store) trace p)
    (i : ι) :
    Standing g trace i (p.programs i) := by
  induction hRuns with
  | none => exact g.standing_start store i
  | step _ hStep ih =>
      cases hStep with
      | turn j c next reply after hProgram hAnswers =>
          by_cases hSame : i = j
          · subst hSame
            rw [hProgram] at ih
            simpa using (ih.turn g hAnswers).1
          · simpa [Function.update_of_ne hSame] using
              ih.append_other g (Ne.symm hSame) ⟨c, reply⟩

/- What every turn does. -/
theorem move
    (hRuns : Runs (g.start store) trace p)
    {i : ι}
    {x : Exchange}
    (hStep : Pool.Step p (i, x) q) :
    Move g trace i x p.store (p.programs i) q.store
      (q.programs i) := by
  have hStanding := g.standing hRuns i
  cases hStep with
  | turn _ c next reply after hProgram hAnswers =>
      rw [hProgram] at hStanding ⊢
      simpa using (hStanding.turn g hAnswers).2

omit [DecidableEq ι] in
/- A run that goes on with its claim has a write ahead. -/
theorem mayWrite_start (i : ι) (book : Playbook) :
    ((g.job i).start g.service book (g.copy i)).MayWrite := by
  have hKey : (Store.key (g.service.repository.path
      (g.copy i).identity)).isOk = true := by
    rw [g.hCopy i]
    exact g.hKey
  exact Job.Working.mayWrite _ _ _ _
    (Job.working_start g.service (g.copy i) (g.job i) hKey book)

/- A run without an objection swaps what it has read for its
   claim. -/
omit [DecidableEq ι] in
theorem proceed_eq
    {i : ι}
    {seen : Option String}
    (book : Playbook)
    (hFree : g.objection? i seen = none) :
    (g.job i).proceed g.service book (g.copy i) seen =
      .call (.store (.swap g.path seen (g.claimRecord i)))
        ((g.job i).afterSwap g.service book (g.copy i)) := by
  have hCopy := g.hCopy i
  unfold objection? at hFree
  unfold path
  rw [← hCopy] at hFree ⊢
  exact Job.proceed_of_free hFree

/- A run on a copy that is free begins with a read. -/
omit [DecidableEq ι] in
theorem program_eq
    {i : ι}
    {book : Playbook}
    (hBook : g.service.playbook g.identity.playbook = .ok book)
    (hFree : (g.copy i).status ∉ (g.job i).busy) :
    (g.job i).program g.service (g.copy i) =
      .call (.store (.value g.path))
        ((g.job i).afterValue g.service book (g.copy i)) := by
  have hCopy := g.hCopy i
  unfold path
  rw [← hCopy] at hBook ⊢
  exact Job.program_of_free _ _ _ hBook hFree

/- The claim of a run that has read the record as it is. -/
theorem swap_turn
    {i : ι}
    {book : Playbook}
    (hProgram : p.programs i =
      (g.job i).proceed g.service book (g.copy i)
        (g.record? p.store))
    (hFree : g.objection? i (g.record? p.store) = none) :
    ∃ q,
      Pool.Step p
          (i, ⟨.store (.swap g.path (g.record? p.store)
            (g.claimRecord i)), .ok true⟩) q ∧
        q.programs i =
          (g.job i).start g.service book (g.copy i) ∧
        g.record? q.store = some (g.claimRecord i) ∧
        (∀ trace, q.InFlight
          (trace ++ [(i, ⟨.store (.swap g.path
            (g.record? p.store) (g.claimRecord i)),
            .ok true⟩)]) i) ∧
        ∀ j, j ≠ i → q.programs j = p.programs j := by
  rcases Answers.swap g.hKey p.store (g.claimRecord i) with
    ⟨t, hSwapped, hRecord⟩
  have hSwap := hProgram.trans (g.proceed_eq book hFree)
  rcases runs_turn hSwap hSwapped with
    ⟨q, hStep, hNext, rfl, hOthers⟩
  rw [Job.afterSwap_stored] at hNext
  refine ⟨q, hStep, hNext, hRecord,
    fun trace => ⟨claimed_last trace i _ _ _, ?_⟩, hOthers⟩
  rw [hNext]
  exact g.mayWrite_start i book

/- The read of a run of a known playbook. -/
theorem read_turn
    {i : ι}
    {book : Playbook}
    (hBook : g.service.playbook g.identity.playbook = .ok book)
    (hFree : (g.copy i).status ∉ (g.job i).busy)
    (hProgram : p.programs i =
      (g.job i).program g.service (g.copy i)) :
    ∃ q,
      Pool.Step p
          (i, ⟨.store (.value g.path),
            .ok (g.record? p.store)⟩) q ∧
        q.programs i =
          (g.job i).proceed g.service book (g.copy i)
            (g.record? p.store) ∧
        q.store = p.store ∧
        ∀ j, j ≠ i → q.programs j = p.programs j := by
  have hRead := hProgram.trans (g.program_eq hBook hFree)
  rcases runs_turn hRead (Answers.value g.hKey p.store) with
    ⟨q, hStep, hNext, hStore, hOthers⟩
  rw [Job.afterValue_read] at hNext
  exact ⟨q, hStep, hNext, hStore, hOthers⟩

end Group

end Preview
