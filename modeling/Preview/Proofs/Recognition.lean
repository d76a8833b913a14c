import Preview.Proofs.Histories
import Preview.Proofs.Record

/-
  Records that identify their instances.

  A record is read back as the instance that was written, so
  no two instances share one.  A transition replaces the text
  that it has read and no other one; where records are stored,
  it goes through exactly if the stored instance is still the
  one that was read.

  Main declarations:
    * `Answers.swapped_iff`
    * `Repository.transition_course`
    * `Repository.records_identify`
-/

namespace Preview

open Pool

------------------------------------------------------------
-- Swaps
------------------------------------------------------------

/- A swap goes through exactly if it finds what it expects. -/
theorem Answers.swapped_iff
    {s t : Store}
    {path : String}
    {expected : Option String}
    {text : String}
    {swapped : Bool}
    (hAnswers :
      Answers s (.store (.swap path expected text))
        (.ok swapped) t) :
    swapped = true ↔ s.content? path = expected := by
  constructor
  · rintro rfl
    exact hAnswers.of_swap
  · rintro rfl
    have hPerform := hAnswers.of_store
    cases hKey : Store.key path with
    | error e =>
        simp only [Store.perform, Store.swap, hKey] at hPerform
        cases hPerform
    | ok k =>
        rcases Store.perform_swap_of_eq (by rw [hKey]; rfl) s
          text with ⟨u, hSwap, _⟩
        cases hSwap.symm.trans hPerform
        rfl

------------------------------------------------------------
-- Transitions
------------------------------------------------------------

/- A program swaps the record of an instance for the same one
   with another status, and expects what it has read. -/
def Repository.SwapsRead
    (r : Repository)
    (i : Instance)
    (target : Status)
    (past : List Exchange)
    (c : Call) : Prop :=
  ∀ path seen record,
    c = .store (.swap path seen record) →
      path = r.path i.identity ∧
        record = { i with status := target : Instance }.record ∧
        past = [⟨.store (.value path), .ok seen⟩]

/- A change of status expects in its swap what its own read has
   told. -/
theorem Repository.transition_course
    (r : Repository)
    (i : Instance)
    (target : Status)
    (busy : List Status) :
    (r.transition i target busy).run.Course
      (r.SwapsRead i target) (fun _ _ => True) [] := by
  refine ⟨fun _ _ _ hCall => (nomatch hCall), fun reply => ?_⟩
  rcases reply with e | seen
  · trivial
  · change (Attempt.ofExcept
        (storedStatus (r.path i.identity) seen) >>=
      fun status => _ : Attempt Error Instance).run.Course
        _ _ _
    cases storedStatus (r.path i.identity) seen with
    | error e => trivial
    | ok status =>
        rw [Attempt.ofExcept_bind]
        dsimp only
        cases (i.status :: status.toList).find?
            busy.contains with
        | some s => trivial
        | none =>
            refine ⟨?_, fun reply => ?_⟩
            · intro path seen' record hCall
              rcases Store.Call.swap.inj
                (Call.store.inj hCall) with ⟨rfl, rfl, rfl⟩
              exact ⟨rfl, rfl, rfl⟩
            · rcases reply with e | swapped
              · trivial
              · cases swapped <;> trivial

/- After a read that is no objection comes the swap. -/
theorem Job.afterRead_of_free
    {r : Repository}
    {i : Instance}
    {job : Job}
    {seen : Option String}
    (hFree : job.objection? r i.identity seen = none) :
    ∃ next,
      job.afterRead r i seen =
        .call
          (.store
            (.swap (r.path i.identity) seen
              (job.claimRecord i)))
          next := by
  unfold afterRead
  rw [hFree]
  exact ⟨_, rfl⟩

/-
  Every instance is decoded from its record, wherever that is
  found, so records are different for different instances.
  Among any other programs, the swap of a transition expects
  what the transition has read; where instances were stored at
  the read and at the swap, it goes through exactly if they
  are the same one.
-/
theorem Repository.records_identify :
    (∀ path i, decode path i.record = .ok i) ∧
      Function.Injective Instance.record ∧
      ∀ (ι α : Type) [DecidableEq ι]
        (r : Repository)
        (i : Instance)
        (target : Status)
        (busy : List Status)
        (f : Except Error Instance → α)
        (start p q : Pool ι α)
        (who : ι)
        (trace : List (ι × Exchange))
        (path record : String)
        (seen : Option String)
        (swapped : Bool),
        start.programs who =
            f <$> (r.transition i target busy).run →
          Runs start trace p →
          Pool.Step p
            (who, ⟨.store (.swap path seen record),
              .ok swapped⟩) q →
          (who, ⟨.store (.value path), .ok seen⟩) ∈ trace ∧
            (swapped = true → p.store.content? path = seen) ∧
            ∀ read stored : Option Instance,
              seen = read.map Instance.record →
                p.store.content? path =
                  stored.map Instance.record →
                (swapped = true ↔ stored = read) := by
  have hInjective : Function.Injective Instance.record :=
    fun i j hSame => Instance.record_injective hSame
  refine ⟨decode_record, hInjective, ?_⟩
  intro ι α _ r i target busy f start p q who trace path record
    seen swapped hProgram hRuns hStep
  have hCourse : (start.programs who).Course
      (r.SwapsRead i target) (fun _ _ => True) [] := by
    rw [hProgram]
    exact (Action.course_bind _ _ _ _).2
      (r.transition_course i target busy)
  have hRead := hRuns.course_step hCourse hStep
  rcases hRead path seen record rfl with ⟨-, -, hPast⟩
  have hIff : swapped = true ↔
      p.store.content? path = seen := by
    cases hStep with
    | turn _ _ _ _ _ _ hAnswers => exact hAnswers.swapped_iff
  refine ⟨?_, hIff.1, ?_⟩
  · rw [← mem_own, hPast]
    exact List.mem_singleton_self _
  · intro read stored hSeen hStored
    rw [hIff, hSeen, hStored]
    exact (Option.map_injective hInjective).eq_iff

------------------------------------------------------------
-- A Transition and a Save
------------------------------------------------------------

section Crossing

/- Where the instance is kept. -/
abbrev Repository.previews : Repository :=
  (Service.single (plainManifest "app")).repository

/- The record of an instance is claimed while another program
   stores the instance with a lock. -/
def Repository.crossed : Pool Bool (Except Error Instance) where
  store := (Store.empty.perform
    (.set (previews.path (Instance.ofBranch "main").identity)
      (Instance.ofBranch "main").record)).1
  programs
    | true =>
        (previews.transition (.ofBranch "main") .deploying
          [.deploying, .deleting]).run
    | false => (do
        previews.save (Instance.ofBranch "main").lock
        return (Instance.ofBranch "main").lock :
          Attempt Error Instance).run

/- The lock is stored between the read and the swap, which
   does not go through. -/
theorem Repository.records_identify_crossed :
    ∃ trace p q path record,
      Runs crossed trace p ∧
        Pool.Step p
          (true,
            ⟨.store (.swap path
              (some (Instance.ofBranch "main").record) record),
              .ok false⟩) q ∧
        p.store.content? path =
          some (Instance.ofBranch "main").lock.record ∧
        (false = true ↔
          some (Instance.ofBranch "main").lock =
            some (Instance.ofBranch "main")) := by
  have hKey : (Store.key (previews.path
      (Instance.ofBranch "main").identity)).isOk = true :=
    Service.single_key
  have hFirst : crossed.store.content?
      (previews.path (Instance.ofBranch "main").identity) =
        some (Instance.ofBranch "main").record := by
    rcases Store.perform_set hKey Store.empty
      (Instance.ofBranch "main").record with ⟨t, hSet, hContent⟩
    unfold crossed
    rw [hSet]
    exact hContent
  have hFree : Job.deploy.objection? previews
      (Instance.ofBranch "main").identity
      (some (Instance.ofBranch "main").record) = none :=
    Job.objection?_record_of_free _ _ (by decide)
  have hProgram := Job.transition_run previews
    (.ofBranch "main") .deploy (by decide)
  have hRead := Answers.value hKey crossed.store
  rw [hFirst] at hRead
  rcases runs_turn (p := crossed) (i := true) hProgram hRead with
    ⟨m, hReads, hNext, -, hOthers⟩
  rcases Job.afterRead_of_free hFree with ⟨rest, hSwaps⟩
  -- the other program saves the instance in the meantime
  rcases Answers.set hKey m.store
    (Instance.ofBranch "main").lock.record with
    ⟨t, hSet, hLocked⟩
  rcases runs_turn (hOthers false (by decide)) hSet with
    ⟨n, hSaves, -, hStored, hKept⟩
  rw [← hStored] at hLocked
  have hOther : n.store.content?
      (previews.path (Instance.ofBranch "main").identity) ≠
        some (Instance.ofBranch "main").record := by
    rw [hLocked]
    intro hSame
    have hEqual := Instance.record_injective
      (Option.some.inj hSame)
    exact absurd (congrArg Instance.locked hEqual) (by decide)
  have hSwap := Answers.store (s := n.store)
    (.swap (previews.path (Instance.ofBranch "main").identity)
      (some (Instance.ofBranch "main").record)
      (Job.deploy.claimRecord (.ofBranch "main")))
  rw [Store.perform_swap_of_ne hKey n.store hOther] at hSwap
  rcases runs_turn ((hKept true (by decide)).trans
    (hNext.trans hSwaps)) hSwap with ⟨q, hStep, -⟩
  have hRuns : Runs crossed _ n :=
    .step (.step .none hReads) hSaves
  have hIdentify := records_identify.2.2 Bool
    (Except Error Instance) previews (.ofBranch "main")
    .deploying [.deploying, .deleting] id crossed n q true
    _ _ _ _ false (id_map _).symm hRuns hStep
  exact ⟨_, n, q, _, _, hRuns, hStep, hLocked,
    hIdentify.2.2 (some (.ofBranch "main"))
      (some (Instance.ofBranch "main").lock) rfl hLocked⟩

end Crossing

end Preview
