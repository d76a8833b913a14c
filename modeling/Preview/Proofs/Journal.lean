import Preview.Proofs.Reports
import Preview.Proofs.Slots

/-
  What calls set out to change, and what is journaled of it.

  Creating, updating and deleting are the calls that set out
  to change something.  A cluster journals each of them that
  goes well and nothing else, and no call prepares a failure
  of a later one.

  Main declarations:
    * `Call.mutation?` and `changes`
    * `Cluster.Journals` and `Cluster.takeFailure_of_unarmed`
    * `Cluster.create_journals`, `Cluster.update_journals` and
      `Cluster.delete_journals`
-/

namespace Preview

------------------------------------------------------------
-- Changes
------------------------------------------------------------

/- What a call of a cluster sets out to change. -/
def Cluster.Call.mutation? : Cluster.Call → Option Mutation
  | create kind space r =>
      some ⟨.create, ⟨kind, space, r.name⟩⟩
  | update kind space r =>
      some ⟨.update, ⟨kind, space, r.name⟩⟩
  | delete key => some ⟨.delete, key⟩
  | get _ => none
  | watch _ => none

/- What a call sets out to change. -/
def Call.mutation? : Call → Option Mutation
  | cluster c => c.mutation?
  | _ => none

/- What some calls set out to change, in order. -/
def changes (xs : List Exchange) : List Mutation :=
  xs.filterMap fun x => x.call.mutation?

theorem changes_append (xs ys : List Exchange) :
    changes (xs ++ ys) = changes xs ++ changes ys :=
  List.filterMap_append

/- The replies do not matter. -/
theorem changes_eq (xs : List Exchange) :
    changes xs =
      (xs.map Exchange.call).filterMap Call.mutation? := by
  rw [List.filterMap_map]
  rfl

------------------------------------------------------------
-- Journals
------------------------------------------------------------

namespace Cluster

/- Whether a call has gone well. -/
def Call.wentWell : (c : Call) → c.Reply → Bool
  | get _, reply => reply.isOk
  | create _ _ _, reply => reply.isOk
  | update _ _ _, reply => reply.isOk
  | delete _, reply => reply.isOk
  | watch _, reply => reply.isOk

/- What a call journals. -/
def Call.entry (c : Call) (reply : c.Reply) : List Mutation :=
  if c.wentWell reply then c.mutation?.toList else []

/- A cluster has become another one by what it has journaled,
   and nothing was prepared. -/
structure Journals
    (c : Cluster)
    (ms : List Mutation)
    (d : Cluster) : Prop where
  hJournal : d.journal = c.journal ++ ms
  hUnarmed : c.failures = .empty → d.failures = .empty
  hLags : d.lags = c.lags

namespace Journals

/- What leaves the journal, the failures and the lags adds
   nothing. -/
theorem of_same
    {c d : Cluster}
    (hJournal : d.journal = c.journal)
    (hFailures : d.failures = c.failures)
    (hLags : d.lags = c.lags) :
    Journals c [] d where
  hJournal := by rw [hJournal, List.append_nil]
  hUnarmed hUnarmed := hFailures.trans hUnarmed
  hLags := hLags

theorem refl (c : Cluster) : Journals c [] c :=
  of_same rfl rfl rfl

/- What is journaled adds up, in order. -/
theorem trans
    {c d e : Cluster}
    {ms ns : List Mutation}
    (hFirst : Journals c ms d)
    (hThen : Journals d ns e) :
    Journals c (ms ++ ns) e where
  hJournal := by
    rw [hThen.hJournal, hFirst.hJournal, List.append_assoc]
  hUnarmed := hThen.hUnarmed ∘ hFirst.hUnarmed
  hLags := hThen.hLags.trans hFirst.hLags

end Journals

section Parts

variable (c : Cluster)

theorem setPhase_journals (key : Key) (phase : Phase) :
    Journals c [] (c.setPhase key phase).1 := by
  unfold setPhase
  split <;> exact .of_same rfl rfl rfl

theorem report_journals (es : List Report) :
    Journals c [] (c.report es) := by
  induction es generalizing c with
  | nil => exact .refl c
  | cons e es ih =>
      exact (c.setPhase_journals e.key e.phase).trans (ih _)

theorem remove_journals (key : Key) :
    Journals c [] (c.remove key) := by
  unfold remove
  dsimp only
  split <;> exact .of_same rfl rfl rfl

/- An entry comes last in the journal. -/
theorem record_journals (op : Operation) (key : Key) :
    Journals c [⟨op, key⟩] (c.record op key) :=
  ⟨rfl, id, rfl⟩

/- Whatever phases it reports, a new object is journaled
   once. -/
theorem added_journals
    (key : Key)
    (object : Resource)
    (phases : List Phase) :
    Journals c [⟨.create, key⟩] (c.added key object phases) := by
  rw [added_eq]
  have hAdded :
      Journals c [⟨.create, key⟩] (c.added key object []) :=
    ⟨rfl, id, rfl⟩
  exact hAdded.trans (report_journals _ _)

/- A failure that is reported is used up. -/
theorem takeFailure_journals (op : Operation) (name : String) :
    Journals c [] (c.takeFailure op name).1 := by
  unfold takeFailure
  split
  · rename_i e hFound
    refine ⟨(List.append_nil _).symm, fun hUnarmed => ?_, rfl⟩
    rw [hUnarmed] at hFound
    cases hFound
  · exact .refl c

end Parts

/- Without a failure that is prepared, none is reported. -/
theorem takeFailure_of_unarmed
    {c : Cluster}
    (hUnarmed : c.failures = .empty)
    (op : Operation)
    (name : String) :
    c.takeFailure op name = (c, none) := by
  unfold takeFailure
  rw [hUnarmed, Registry.get?_empty]

section Operations

variable (c : Cluster)

/- A read journals nothing, though it may show that an object is
   gone. -/
theorem get_journals (key : Key) :
    Journals c [] (c.get key).1 := by
  have hTaken := c.takeFailure_journals .get key.name
  unfold get
  generalize c.takeFailure .get key.name = taken at hTaken ⊢
  rcases taken with ⟨d, - | e⟩
  · dsimp only at hTaken ⊢
    split
    · exact hTaken.trans (d.remove_journals key)
    · exact hTaken.trans (.of_same rfl rfl rfl)
    · exact hTaken
  · exact hTaken

/- A creation journals itself if it goes well. -/
theorem create_journals
    (kind space : String)
    (r : Resource) :
    Journals c
      ((Call.create kind space r).entry
        (c.create kind space r).2)
      (c.create kind space r).1 := by
  rcases c.takeFailure_cases .create r.name with
    ⟨e, hTaken⟩ | hTaken
  · have hSame := c.takeFailure_journals .create r.name
    unfold create
    rw [hTaken] at hSame ⊢
    exact hSame
  · rw [create_of_untroubled hTaken]
    split
    · exact .refl c
    · exact c.added_journals _ _ _

/- So does an update. -/
theorem update_journals
    (kind space : String)
    (r : Resource) :
    Journals c
      ((Call.update kind space r).entry
        (c.update kind space r).2)
      (c.update kind space r).1 := by
  have hSame := c.takeFailure_journals .update r.name
  unfold update
  rcases c.takeFailure_cases .update r.name with
    ⟨e, hTaken⟩ | hTaken
  · rw [hTaken] at hSame ⊢
    exact hSame
  · rw [hTaken]
    dsimp only
    split
    · exact .refl c
    · exact ⟨rfl, id, rfl⟩

/- A deletion journals itself even if the object lingers. -/
theorem delete_journals (key : Key) :
    Journals c ((Call.delete key).entry (c.delete key).2)
      (c.delete key).1 := by
  rcases c.takeFailure_cases .delete key.name with
    ⟨e, hTaken⟩ | hTaken
  · have hSame := c.takeFailure_journals .delete key.name
    unfold delete
    rw [hTaken] at hSame ⊢
    exact hSame
  · by_cases hThere : c.objects.contains key = true
    · have hRecord := c.record_journals .delete key
      rw [delete_of_untroubled hTaken hThere]
      dsimp only
      split
      · exact hRecord.trans (remove_journals _ key)
      · split
        · exact hRecord
        · exact ⟨rfl, id, rfl⟩
    · unfold delete
      rw [hTaken]
      dsimp only
      rw [if_neg hThere]
      exact .refl c

/- A watch journals nothing. -/
theorem watch_journals (key : Key) :
    Journals c [] (c.watch key).1 := by
  have hTaken := c.takeFailure_journals .watch key.name
  unfold watch
  generalize c.takeFailure .watch key.name = taken
    at hTaken ⊢
  rcases taken with ⟨d, - | e⟩
  · exact hTaken.trans (.of_same rfl rfl rfl)
  · exact hTaken

end Operations

end Cluster

end Preview
