import Preview.Proofs.Journal
import Preview.Proofs.Lingering

/-
  The lives of an object, and what a journal tells of them.

  An object is not there, or it is there, or it is still there
  after it was deleted.  Only what is not there is created, and
  only what is there is updated or deleted; what leaves goes
  without an entry, when it is read once too often.  So the
  journal of an object can be read as a list of lives, and
  tells whether the last one is over or ending.

  Main declarations:
    * `Stand` and `Life`
    * `Slot.Lives`, `Cluster.Lives` and `Deed.lives_act`
    * `Cluster.perform_of_error`
    * `Cluster.Agrees` and `Cluster.lives_agree`
-/

namespace Preview

------------------------------------------------------------
-- Lives
------------------------------------------------------------

/- How an object stands: it is not there, it is there, or it
   is still there after it was deleted. -/
inductive Stand where
  | absent
  | present
  | leaving

/- What can have been journaled of an object that stands in
   some way now. -/
inductive Life : List Operation → Stand → Prop where
  | unborn : Life [] .absent
  | created
      {ops : List Operation}
      (hLife : Life ops .absent) :
      Life (ops ++ [.create]) .present
  | updated
      {ops : List Operation}
      {stand : Stand}
      (hLife : Life ops stand)
      (hThere : stand ≠ .absent) :
      Life (ops ++ [.update]) stand
  | deleted
      {ops : List Operation}
      {stand later : Stand}
      (hLife : Life ops stand)
      (hThere : stand ≠ .absent)
      (hOver : later ≠ .present) :
      Life (ops ++ [.delete]) later
  | gone
      {ops : List Operation}
      (hLife : Life ops .leaving) :
      Life ops .absent

/- A list is cut at an element: it is the last one, or the
   last one is behind it. -/
theorem cut_concat
    {op cut : Operation}
    {ops before after : List Operation}
    (hCut : ops ++ [op] = before ++ cut :: after) :
    (ops = before ∧ op = cut ∧ after = []) ∨
      ∃ rest, after = rest ++ [op] ∧
        ops = before ++ cut :: rest := by
  rcases List.eq_nil_or_concat after with
    rfl | ⟨rest, last, rfl⟩
  · rcases List.append_inj' hCut rfl with ⟨rfl, hLast⟩
    exact .inl ⟨rfl, List.singleton_inj.1 hLast, rfl⟩
  · right
    rw [List.concat_eq_append, ← List.cons_append,
      ← List.append_assoc] at hCut
    rcases List.append_inj' hCut rfl with ⟨rfl, hLast⟩
    cases List.singleton_inj.1 hLast
    exact ⟨rest, List.concat_eq_append, rfl⟩

/- What is not the last element is before it. -/
theorem cut_concat_of_ne
    {op cut : Operation}
    {ops before after : List Operation}
    (hOther : op ≠ cut)
    (hCut : ops ++ [op] = before ++ cut :: after) :
    ∃ rest, after = rest ++ [op] ∧
      ops = before ++ cut :: rest := by
  rcases cut_concat hCut with ⟨-, hSame, -⟩ | hRest
  · exact absurd hSame hOther
  · exact hRest

namespace Life

variable {ops before after : List Operation} {stand : Stand}

/- What is there was created, and the last time that it was is
   the start of its life. -/
theorem last_create
    (hLife : Life ops stand)
    (hThere : stand ≠ .absent) :
    ∃ before after,
      ops = before ++ .create :: after ∧ .create ∉ after := by
  induction hLife with
  | unborn => exact absurd rfl hThere
  | @created ops hLife ih => exact ⟨ops, [], rfl, by simp⟩
  | updated hLife hThere ih =>
      rcases ih hThere with ⟨before, after, rfl, hLast⟩
      exact ⟨before, after ++ [.update], by simp,
        by simpa using hLast⟩
  | deleted hLife hAlive hOver ih =>
      rcases ih hAlive with ⟨before, after, rfl, hLast⟩
      exact ⟨before, after ++ [.delete], by simp,
        by simpa using hLast⟩
  | gone hLife ih => exact absurd rfl hThere

/- Nothing is journaled of an object before it is created. -/
theorem head_create
    (hLife : Life ops stand) :
    ∀ op ∈ ops.head?, op = .create := by
  induction hLife with
  | unborn => simp
  | @created ops hLife ih =>
      cases ops with
      | nil => simp
      | cons op ops => exact ih
  | @updated ops stand hLife hThere ih =>
      rcases hLife.last_create hThere with ⟨before, after, rfl, -⟩
      rw [List.head?_append_of_ne_nil _ (by simp)]
      exact ih
  | @deleted ops stand later hLife hThere hOver ih =>
      rcases hLife.last_create hThere with ⟨before, after, rfl, -⟩
      rw [List.head?_append_of_ne_nil _ (by simp)]
      exact ih
  | gone hLife ih => exact ih

/- An object is created when it is not there. -/
theorem before_create
    (hLife : Life ops stand)
    (hCut : ops = before ++ .create :: after) :
    Life before .absent := by
  induction hLife generalizing after with
  | unborn => simp at hCut
  | created hLife ih =>
      rcases cut_concat hCut with ⟨rfl, -, -⟩ | ⟨rest, -, hRest⟩
      · exact hLife
      · exact ih hRest
  | updated hLife hThere ih =>
      rcases cut_concat_of_ne (by simp) hCut with
        ⟨rest, -, hRest⟩
      exact ih hRest
  | deleted hLife hThere hOver ih =>
      rcases cut_concat_of_ne (by simp) hCut with
        ⟨rest, -, hRest⟩
      exact ih hRest
  | gone hLife ih => exact ih hCut

/- What is not there any more, or leaving, was deleted after it
   was created. -/
theorem delete_mem
    (hLife : Life ops stand)
    (hCut : ops = before ++ .create :: after)
    (hOver : stand ≠ .present) :
    .delete ∈ after := by
  induction hLife generalizing after with
  | unborn => simp at hCut
  | created hLife ih => exact absurd rfl hOver
  | updated hLife hThere ih =>
      rcases cut_concat_of_ne (by simp) hCut with
        ⟨rest, rfl, hRest⟩
      exact List.mem_append_left _ (ih hRest hOver)
  | deleted hLife hThere hGoing ih =>
      rcases cut_concat_of_ne (by simp) hCut with
        ⟨rest, rfl, -⟩
      simp
  | gone hLife ih => exact ih hCut (by simp)

/- What is there and not leaving was not deleted since it was
   last created. -/
theorem delete_not_mem
    (hLife : Life ops .present)
    (hCut : ops = before ++ .create :: after)
    (hLast : .create ∉ after) :
    .delete ∉ after := by
  generalize hStand : Stand.present = stand at hLife
  induction hLife generalizing after with
  | unborn => cases hStand
  | created hLife ih =>
      rcases cut_concat hCut with ⟨-, -, rfl⟩ | ⟨rest, rfl, -⟩
      · simp
      · simp at hLast
  | updated hLife hThere ih =>
      rcases cut_concat_of_ne (by simp) hCut with
        ⟨rest, rfl, hRest⟩
      have hEarlier : Operation.create ∉ rest := by
        simpa using hLast
      simpa using ih hRest hEarlier hStand
  | deleted hLife hThere hOver ih =>
      exact absurd hStand.symm hOver
  | gone hLife ih => cases hStand

/- Two lives are parted by a deletion. -/
theorem delete_between
    {between : List Operation}
    (hLife : Life ops stand)
    (hCut : ops =
      before ++ .create :: (between ++ .create :: after)) :
    .delete ∈ between := by
  rw [← List.cons_append, ← List.append_assoc] at hCut
  have hEarlier := hLife.before_create hCut
  exact hEarlier.delete_mem rfl (by simp)

end Life

------------------------------------------------------------
-- Slots
------------------------------------------------------------

/- How the object of a slot stands.  Nothing that is not there
   can be leaving. -/
inductive Slot.Stands : Slot → Stand → Prop where
  | absent : Stands ⟨none, none⟩ .absent
  | present (object : Resource) :
      Stands ⟨some object, none⟩ .present
  | leaving (object : Resource) (left : Nat) :
      Stands ⟨some object, some left⟩ .leaving

/- The object of a slot stands as what was journaled of it
   tells. -/
def Slot.Lives (s : Slot) (ops : List Operation) : Prop :=
  ∃ stand, s.Stands stand ∧ Life ops stand

namespace Slot.Lives

variable {s : Slot} {ops : List Operation}

/- A read is not journaled, and may remove what is leaving. -/
theorem read (hLives : s.Lives ops) : s.read.Lives ops := by
  rcases hLives with ⟨stand, hStands, hLife⟩
  cases hStands with
  | absent => exact ⟨_, .absent, hLife⟩
  | present object => exact ⟨_, .present object, hLife⟩
  | leaving object left =>
      cases left with
      | zero => exact ⟨_, .absent, hLife.gone⟩
      | succ left => exact ⟨_, .leaving object left, hLife⟩

/- Changes within an object are no event of its life. -/
theorem mapped
    (hLives : s.Lives ops)
    (f : Resource → Resource) :
    Lives ⟨s.object.map f, s.left⟩ ops := by
  rcases hLives with ⟨stand, hStands, hLife⟩
  cases hStands with
  | absent => exact ⟨_, .absent, hLife⟩
  | present object => exact ⟨_, .present (f object), hLife⟩
  | leaving object left =>
      exact ⟨_, .leaving (f object) left, hLife⟩

/- A creation begins a life, also one after another. -/
theorem created
    (hLives : s.Lives ops)
    (hAbsent : s.object = none)
    (object : Resource) :
    Lives ⟨some object, s.left⟩ (ops ++ [.create]) := by
  rcases hLives with ⟨stand, hStands, hLife⟩
  cases hStands with
  | absent => exact ⟨_, .present object, hLife.created⟩
  | present live => cases hAbsent
  | leaving live left => cases hAbsent

/- An update goes on with it. -/
theorem updated
    (hLives : s.Lives ops)
    (hThere : s.object.isSome = true)
    (object : Resource) :
    Lives ⟨some object, s.left⟩ (ops ++ [.update]) := by
  rcases hLives with ⟨stand, hStands, hLife⟩
  cases hStands with
  | absent => cases hThere
  | present live =>
      exact ⟨_, .present object, hLife.updated (by simp)⟩
  | leaving live left =>
      exact ⟨_, .leaving object left, hLife.updated (by simp)⟩

/- A deletion ends it, now or after some reads. -/
theorem deleted
    (hLives : s.Lives ops)
    (hThere : s.object.isSome = true)
    (lag : Nat) :
    (s.deleted lag).Lives (ops ++ [.delete]) := by
  rcases hLives with ⟨stand, hStands, hLife⟩
  have hDeparted {later : Stand} (hOver : later ≠ .present) :
      Life (ops ++ [.delete]) later := by
    refine hLife.deleted ?_ hOver
    rintro rfl
    cases hStands
    cases hThere
  cases lag with
  | zero => exact ⟨.absent, .absent, hDeparted (by simp)⟩
  | succ lag =>
      rcases s with ⟨object, left⟩
      rcases Option.isSome_iff_exists.1 hThere with ⟨live, rfl⟩
      exact ⟨.leaving, .leaving live _, hDeparted (by simp)⟩

end Slot.Lives

------------------------------------------------------------
-- Calls
------------------------------------------------------------

/- What some entries tell of an object. -/
def operationsOn (key : Key) (ms : List Mutation) :
    List Operation :=
  (ms.filter (·.key = key)).map Mutation.operation

theorem operationsOn_append
    (key : Key)
    (ms ns : List Mutation) :
    operationsOn key (ms ++ ns) =
      operationsOn key ms ++ operationsOn key ns := by
  unfold operationsOn
  rw [List.filter_append, List.map_append]

namespace Cluster

/- Under a key is what the journal tells. -/
def Lives (c : Cluster) (key : Key) : Prop :=
  (c.slot key).Lives (operationsOn key c.journal)

/- Without an entry the slot must tell the same. -/
theorem lives_of_silent
    {c d : Cluster}
    {key : Key}
    (hJournals : Journals c [] d)
    (hSlot : (d.slot key).Lives (operationsOn key c.journal)) :
    d.Lives key := by
  unfold Lives
  rw [hJournals.hJournal, List.append_nil]
  exact hSlot

/- An entry is lived up to by the slot that it is about; all
   others are as they were. -/
theorem lives_of_entry
    {c d : Cluster}
    {key own : Key}
    {op : Operation}
    (hLives : c.Lives key)
    (hJournals : Journals c [⟨op, own⟩] d)
    (hOwn : key = own →
      (d.slot key).Lives (operationsOn key c.journal ++ [op]))
    (hOther : key ≠ own → d.slot key = c.slot key) :
    d.Lives key := by
  unfold Lives
  rw [hJournals.hJournal, operationsOn_append]
  by_cases hSame : key = own
  · have hEntry : operationsOn key [⟨op, own⟩] = [op] := by
      simp [operationsOn, hSame]
    rw [hEntry]
    exact hOwn hSame
  · have hEntry : operationsOn key [⟨op, own⟩] = [] := by
      simp [operationsOn, Ne.symm hSame]
    rw [hEntry, List.append_nil, hOther hSame]
    exact hLives

section Calls

variable {c : Cluster} {key : Key} (hLives : c.Lives key)

include hLives

/- A read may let the last trace of an object go, and says
   nothing in the journal. -/
theorem get_lives (own : Key) : (c.get own).1.Lives key := by
  apply lives_of_silent (c.get_journals own)
  rcases c.get_cases own with ⟨e, -, hSlots⟩ | ⟨-, hSlots⟩
  · rw [hSlots]
    exact hLives
  · rw [hSlots]
    split
    · rename_i hSame
      rw [← hSame]
      exact Slot.Lives.read hLives
    · exact hLives

/- Where a creation goes well there was no object. -/
theorem create_lives
    (kind space : String)
    (r : Resource) :
    (c.create kind space r).1.Lives key := by
  have hJournals := c.create_journals kind space r
  rcases c.create_cases kind space r with
    ⟨e, hReply, hSlots⟩ | ⟨hReply, hAbsent, live, -, hSlots⟩
  · rw [hReply] at hJournals
    exact lives_of_silent hJournals ((hSlots key).symm ▸ hLives)
  · rw [hReply] at hJournals
    apply lives_of_entry hLives hJournals
    · rintro rfl
      rw [hSlots, if_pos rfl]
      exact Slot.Lives.created hLives hAbsent live
    · intro hOther
      exact (hSlots key).trans (if_neg hOther)

/- Where an update goes well there was one. -/
theorem update_lives
    (kind space : String)
    (r : Resource) :
    (c.update kind space r).1.Lives key := by
  have hJournals := c.update_journals kind space r
  rcases c.update_cases kind space r with
    ⟨e, hReply, hSlots⟩ | ⟨hReply, hThere, live, hSlots⟩
  · rw [hReply] at hJournals
    exact lives_of_silent hJournals ((hSlots key).symm ▸ hLives)
  · rw [hReply] at hJournals
    apply lives_of_entry hLives hJournals
    · rintro rfl
      rw [hSlots, if_pos rfl]
      exact Slot.Lives.updated hLives hThere live
    · intro hOther
      exact (hSlots key).trans (if_neg hOther)

/- A deletion is journaled when it is accepted. -/
theorem delete_lives (own : Key) :
    (c.delete own).1.Lives key := by
  have hJournals := c.delete_journals own
  rcases c.delete_cases own with
    ⟨e, hReply, hSlots⟩ | ⟨hReply, hThere, hSlots⟩
  · rw [hReply] at hJournals
    exact lives_of_silent hJournals ((hSlots key).symm ▸ hLives)
  · rw [hReply] at hJournals
    apply lives_of_entry hLives hJournals
    · rintro rfl
      rw [hSlots, if_pos rfl]
      exact Slot.Lives.deleted hLives hThere _
    · intro hOther
      exact (hSlots key).trans (if_neg hOther)

/- Every call keeps what the journal says of a key. -/
theorem perform_lives (call : Call) :
    (c.perform call).1.Lives key := by
  cases call with
  | get own => exact get_lives hLives own
  | create kind space r => exact create_lives hLives kind space r
  | update kind space r => exact update_lives hLives kind space r
  | delete own => exact delete_lives hLives own
  | watch own =>
      exact lives_of_silent (c.watch_journals own)
        ((c.slot_watch own key).symm ▸ hLives)

end Calls

------------------------------------------------------------
-- Failed Calls
------------------------------------------------------------

section Failed

variable (c : Cluster)

/- A read that fails only uses up its failure. -/
theorem get_of_error
    {key : Key}
    (hFailed : (c.get key).2.isOk = false) :
    ∃ failures, (c.get key).1 = { c with failures } := by
  unfold get at hFailed ⊢
  rcases c.takeFailure_cases .get key.name with
    ⟨e, hTaken⟩ | hTaken
  · rw [hTaken]
    exact ⟨_, rfl⟩
  · rw [hTaken] at hFailed
    dsimp only at hFailed
    split at hFailed <;> cases hFailed

/- So does a creation that fails, or it changes nothing. -/
theorem create_of_error
    {kind space : String}
    {r : Resource}
    (hFailed : (c.create kind space r).2.isOk = false) :
    ∃ failures,
      (c.create kind space r).1 = { c with failures } := by
  rcases c.takeFailure_cases .create r.name with
    ⟨e, hTaken⟩ | hTaken
  · unfold create
    rw [hTaken]
    exact ⟨_, rfl⟩
  · rw [create_of_untroubled hTaken] at hFailed ⊢
    split at hFailed
    · rename_i hThere
      rw [if_pos hThere]
      exact ⟨c.failures, rfl⟩
    · cases hFailed

theorem update_of_error
    {kind space : String}
    {r : Resource}
    (hFailed : (c.update kind space r).2.isOk = false) :
    ∃ failures,
      (c.update kind space r).1 = { c with failures } := by
  unfold update at hFailed ⊢
  rcases c.takeFailure_cases .update r.name with
    ⟨e, hTaken⟩ | hTaken
  · rw [hTaken]
    exact ⟨_, rfl⟩
  · rw [hTaken] at hFailed ⊢
    dsimp only at hFailed ⊢
    split at hFailed
    · exact ⟨c.failures, rfl⟩
    · cases hFailed

/- So does a deletion that fails, or it changes nothing. -/
theorem delete_of_error
    {key : Key}
    (hFailed : (c.delete key).2.isOk = false) :
    ∃ failures, (c.delete key).1 = { c with failures } := by
  rcases c.takeFailure_cases .delete key.name with
    ⟨e, hTaken⟩ | hTaken
  · unfold delete
    rw [hTaken]
    exact ⟨_, rfl⟩
  · by_cases hThere : c.objects.contains key = true
    · rw [delete_of_untroubled hTaken hThere] at hFailed
      cases hFailed
    · unfold delete
      rw [hTaken]
      dsimp only
      rw [if_neg hThere]
      exact ⟨c.failures, rfl⟩

theorem watch_of_error
    {key : Key}
    (hFailed : (c.watch key).2.isOk = false) :
    ∃ failures, (c.watch key).1 = { c with failures } := by
  unfold watch at hFailed ⊢
  rcases c.takeFailure_cases .watch key.name with
    ⟨e, hTaken⟩ | hTaken
  · rw [hTaken]
    exact ⟨_, rfl⟩
  · rw [hTaken] at hFailed
    cases hFailed

/- A call that fails changes nothing but the failures that are
   prepared: it reports one of them, or it is refused. -/
theorem perform_of_error
    (call : Call)
    (hFailed : call.wentWell (c.perform call).2 = false) :
    ∃ failures, (c.perform call).1 = { c with failures } := by
  cases call with
  | get key => exact c.get_of_error hFailed
  | create kind space r => exact c.create_of_error hFailed
  | update kind space r => exact c.update_of_error hFailed
  | delete key => exact c.delete_of_error hFailed
  | watch key => exact c.watch_of_error hFailed

end Failed

end Cluster

------------------------------------------------------------
-- Deeds
------------------------------------------------------------

namespace Deed

/- A deed that the journal knows nothing of: it seeds an
   object, or clears the journal. -/
def Unlogged : Deed → Prop
  | insert _ _ => True
  | clearJournal => True
  | _ => False

/- Whatever else is done, each object stands as the journal
   tells. -/
theorem lives_act
    {c : Cluster}
    {key : Key}
    (hLives : c.Lives key)
    {d : Deed}
    (hLogged : ¬ d.Unlogged) :
    (d.act c).Lives key := by
  cases d with
  | call asked => exact Cluster.perform_lives hLives asked
  | insert space r => exact absurd trivial hLogged
  | report e =>
      apply Cluster.lives_of_silent
        (c.setPhase_journals e.key e.phase)
      rw [Cluster.slot_setPhase]
      exact Slot.Lives.mapped hLives _
  | clearJournal => exact absurd trivial hLogged
  | take id =>
      change Cluster.Lives (((c.take? id).map (·.1)).getD c) key
      unfold Cluster.take?
      split <;> exact hLives
  | _ => exact hLives

end Deed

namespace Cluster

/- By induction on the deeds, starting with no object. -/
theorem lives_after
    {ds : List Deed}
    (hLogged : ∀ d ∈ ds, ¬ d.Unlogged)
    (key : Key) :
    (empty.after ds).Lives key := by
  have hFrom {c : Cluster} (hLives : c.Lives key) :
      (c.after ds).Lives key := by
    induction ds generalizing c with
    | nil => exact hLives
    | cons d ds ih =>
        have hLater : ∀ d ∈ ds, ¬ d.Unlogged :=
          fun d hd => hLogged d (.tail _ hd)
        exact ih hLater (Deed.lives_act hLives
          (hLogged d (.head _)))
  exact hFrom ⟨.absent, .absent, .unborn⟩

/- What is stored under a key, and whether it is leaving, agree
   with what is journaled of it. -/
structure Agrees (c : Cluster) (key : Key) : Prop where
  hSound : c.terminating.contains key = true →
    c.objects.contains key = true
  hFirst : ∀ op ∈ (operationsOn key c.journal).head?,
    op = .create
  hBetween : ∀ before between after,
    operationsOn key c.journal =
        before ++ .create :: (between ++ .create :: after) →
      .delete ∈ between
  hLeaving : c.objects.contains key = true →
    (c.terminating.contains key = true ↔
      ∃ before after,
        operationsOn key c.journal =
            before ++ .create :: after ∧
          .create ∉ after ∧ .delete ∈ after)
  hStays : ∀ before after,
    operationsOn key c.journal = before ++ .create :: after →
      .create ∉ after → .delete ∉ after →
        c.objects.contains key = true

/- The life of an object tells whether it is there. -/
theorem Lives.agrees
    {c : Cluster}
    {key : Key}
    (hLives : c.Lives key) :
    c.Agrees key := by
  rcases hLives with ⟨stand, hStands, hLife⟩
  have hObject : c.objects.contains key =
      (c.slot key).object.isSome := rfl
  have hLeft : c.terminating.contains key =
      (c.slot key).left.isSome := rfl
  -- of the cluster only the slot matters
  generalize c.slot key = s at hStands hObject hLeft
  constructor
  case hSound =>
    rw [hObject, hLeft]
    cases hStands <;> simp
  case hFirst => exact hLife.head_create
  case hBetween =>
    intro before between after hCut
    exact hLife.delete_between hCut
  case hLeaving =>
    rw [hObject, hLeft]
    intro hThere
    cases hStands with
    | absent => cases hThere
    | present object =>
        constructor
        · intro hTerminating
          cases hTerminating
        · rintro ⟨before, after, hCut, hLast, hDeleted⟩
          exact absurd hDeleted
            (hLife.delete_not_mem hCut hLast)
    | leaving object left =>
        refine iff_of_true rfl ?_
        rcases hLife.last_create (by simp) with
          ⟨before, after, hCut, hLast⟩
        exact ⟨before, after, hCut, hLast,
          hLife.delete_mem hCut (by simp)⟩
  case hStays =>
    rw [hObject]
    intro before after hCut hLast hNever
    cases hStands with
    | absent =>
        exact absurd (hLife.delete_mem hCut (by simp)) hNever
    | present object => rfl
    | leaving object left => rfl

/-
  Whatever is done to a cluster that was empty, as long as
  nobody seeds objects or clears the journal: the objects, the
  ones among them that are leaving and the journal agree, and a
  call that fails changes nothing but the failures that are
  prepared.
-/
theorem lives_agree
    {ds : List Deed}
    (hLogged : ∀ d ∈ ds, ¬ d.Unlogged) :
    (∀ key, (empty.after ds).Agrees key) ∧
      ∀ call : Call,
        call.wentWell ((empty.after ds).perform call).2 =
            false →
          ∃ failures,
            ((empty.after ds).perform call).1 =
              { empty.after ds with failures } := by
  constructor
  · intro key
    exact (lives_after hLogged key).agrees
  · intro call hFailed
    exact perform_of_error (empty.after ds) call hFailed

/- An object is deleted, and updated and read while it is
   leaving.  It is removed and created again, and deleted with
   some lag. -/
def restless : List Deed :=
  [.call (.create "ConfigMap" "previews" World.app),
    .lag "app" 1,
    .call (.delete ⟨"ConfigMap", "previews", "app"⟩),
    .call (.update "ConfigMap" "previews" World.app),
    .call (.get ⟨"ConfigMap", "previews", "app"⟩),
    .lag "app" 0,
    .call (.get ⟨"ConfigMap", "previews", "app"⟩),
    .call (.create "ConfigMap" "previews" World.app),
    .lag "app" 2,
    .call (.delete ⟨"ConfigMap", "previews", "app"⟩)]

/- Its second life is ending, and it cannot be created while
   it is. -/
theorem lives_agree_restless :
    (empty.after restless).objects.contains
        ⟨"ConfigMap", "previews", "app"⟩ = true ∧
      (∃ before after,
        operationsOn ⟨"ConfigMap", "previews", "app"⟩
            (empty.after restless).journal =
            before ++ .create :: after ∧
          .create ∉ after ∧ .delete ∈ after) ∧
      ∃ failures,
        ((empty.after restless).create "ConfigMap" "previews"
            World.app).1 =
          { empty.after restless with failures } := by
  have hLogged : ∀ d ∈ restless, ¬ d.Unlogged := by
    simp [restless, Deed.Unlogged]
  have hLeaving : (empty.after restless).terminating.contains
      ⟨"ConfigMap", "previews", "app"⟩ = true := by
    decide +kernel
  have hRefused :
      (Call.create "ConfigMap" "previews" World.app).wentWell
        ((empty.after restless).perform
          (.create "ConfigMap" "previews" World.app)).2 =
          false := by
    decide +kernel
  rcases lives_agree hLogged with ⟨hAgrees, hFailed⟩
  have hThere := (hAgrees _).hSound hLeaving
  constructor
  · exact hThere
  constructor
  · exact ((hAgrees _).hLeaving hThere).1 hLeaving
  · exact hFailed _ hRefused

end Cluster

end Preview
