import Preview.Timeline

/-
  Which of several threads goes on.

  The thread that is due before all others goes on, and of
  several that are due at one time the first in order.  The
  clock moves to that time, the call takes effect, and the
  thread runs until it waits again.  A thread that has
  finished keeps its result whatever the others do.  A thread
  by itself runs as its program does against one handler.

  Main declarations:
    * `Thread.wakes?`
    * `Stage.soonest_of_first`
    * `Stage.finishAll_wakes`
    * `Stage.finishAll_of_finished`
    * `Stage.alone` and `Stage.runAll_alone`
-/

namespace Preview

variable {σ ρ : Type}

------------------------------------------------------------
-- Waiting Threads
------------------------------------------------------------

/- When a thread goes on, seen from some time. -/
def Thread.wakes? (st : Stage σ) (s : σ) (now : Nat) :
    Thread σ ρ → Option Nat
  | .finished _ => none
  | .waiting issued c _ => some (max now (st.due s issued c))

namespace Stage

variable (st : Stage σ) (s : σ)

section Soonest

variable (now : Nat)

/- A later thread comes first only if it wakes strictly
   sooner. -/
theorem soonest_cons (t : Thread σ ρ) (ts : List (Thread σ ρ)) :
    soonest st s now (t :: ts) =
      match t.wakes? st s now, soonest st s now ts with
      | none, rest => rest.map fun (i, d) => (i + 1, d)
      | some d, none => some (0, d)
      | some d, some (i, e) =>
          if e < d then some (i + 1, e) else some (0, d) := by
  cases t with
  | finished r => simp only [soonest, Thread.wakes?]
  | waiting issued c next =>
      simp only [soonest, Thread.wakes?]
      rcases soonest st s now ts with - | ⟨i, e⟩ <;> rfl

/- Some thread goes on then. -/
theorem mem_of_soonest
    {ts : List (Thread σ ρ)}
    {i d : Nat}
    (hSoonest : soonest st s now ts = some (i, d)) :
    ∃ t ∈ ts, t.wakes? st s now = some d := by
  induction ts generalizing i with
  | nil => cases hSoonest
  | cons t ts ih =>
      rw [soonest_cons] at hSoonest
      cases hFirst : t.wakes? st s now with
      | none =>
          rw [hFirst] at hSoonest
          rcases Option.map_eq_some_iff.1 hSoonest with
            ⟨⟨j, e⟩, hRest, hSame⟩
          rcases Prod.mk.inj hSame with ⟨-, rfl⟩
          rcases ih hRest with ⟨u, hu, hWakes⟩
          exact ⟨u, .tail _ hu, hWakes⟩
      | some e =>
          rw [hFirst] at hSoonest
          rcases hRest : soonest st s now ts with - | ⟨j, e'⟩
          · rw [hRest] at hSoonest
            cases hSoonest
            exact ⟨t, .head _, hFirst⟩
          · rw [hRest] at hSoonest
            dsimp only at hSoonest
            split at hSoonest
            · cases hSoonest
              rcases ih hRest with ⟨u, hu, hWakes⟩
              exact ⟨u, .tail _ hu, hWakes⟩
            · cases hSoonest
              exact ⟨t, .head _, hFirst⟩

/- The first of those that are due before all others goes on
   next. -/
theorem soonest_of_first
    {before after : List (Thread σ ρ)}
    {t : Thread σ ρ}
    {d : Nat}
    (hWakes : t.wakes? st s now = some d)
    (hBefore : ∀ u ∈ before, ∀ e ∈ u.wakes? st s now, d < e)
    (hAfter : ∀ u ∈ after, ∀ e ∈ u.wakes? st s now, d ≤ e) :
    soonest st s now (before ++ t :: after) =
      some (before.length, d) := by
  induction before with
  | nil =>
      rw [List.nil_append, soonest_cons, hWakes]
      rcases hRest : soonest st s now after with - | ⟨i, e⟩
      · rfl
      · rcases mem_of_soonest st s now hRest with ⟨u, hu, he⟩
        exact if_neg (Nat.not_lt.2 (hAfter u hu e he))
  | cons u before ih =>
      rw [List.cons_append, soonest_cons,
        ih fun v hv => hBefore v (.tail _ hv)]
      cases hFirst : u.wakes? st s now with
      | none => rfl
      | some e => exact if_pos (hBefore u (.head _) e hFirst)

end Soonest

/- A thread that is due goes on until it waits again. -/
theorem resume_waiting
    (before after : List (Thread σ ρ))
    (issued : Nat)
    (c : Call)
    (next : c.Reply → Activity σ ρ) :
    resume st before.length
        (before ++ .waiting issued c next :: after) s =
      some
        ((advance st (next (st.perform s c).2)
            (st.perform s c).1).1,
          before ++
            (advance st (next (st.perform s c).2)
              (st.perform s c).1).2 :: after) := by
  induction before with
  | nil => rfl
  | cons t before ih =>
      rw [List.length_cons, List.cons_append, resume, ih]
      rfl

/- A run goes on with the thread that is due next. -/
theorem finishAll_resume
    {ts us : List (Thread σ ρ)}
    {i d : Nat}
    {s' : σ}
    (hSoonest : soonest st s (st.clock s) ts = some (i, d))
    (hResume :
      resume st i ts (st.setClock d s) = some (s', us)) :
    finishAll st ts s = finishAll st us s' := by
  rw [finishAll, hSoonest]
  dsimp only
  split
  · rename_i hNone
    rw [hResume] at hNone
    cases hNone
  · rename_i hSome
    rw [hResume] at hSome
    cases hSome
    rfl

/- The first of the threads that are due before all others goes
   on at its time. -/
theorem finishAll_wakes
    (before after : List (Thread σ ρ))
    (issued : Nat)
    (c : Call)
    (next : c.Reply → Activity σ ρ)
    {d : Nat}
    (hWakes : max (st.clock s) (st.due s issued c) = d)
    (hBefore : ∀ u ∈ before,
      ∀ e ∈ u.wakes? st s (st.clock s), d < e)
    (hAfter : ∀ u ∈ after,
      ∀ e ∈ u.wakes? st s (st.clock s), d ≤ e)
    {s' : σ}
    {reply : c.Reply}
    (hPerform : st.perform (st.setClock d s) c = (s', reply)) :
    finishAll st
        (before ++ .waiting issued c next :: after) s =
      finishAll st
        (before ++ (advance st (next reply) s').2 :: after)
        (advance st (next reply) s').1 := by
  have hSoonest := soonest_of_first st s (st.clock s)
    (t := .waiting issued c next) (congrArg some hWakes)
    hBefore hAfter
  have hResume := resume_waiting st (st.setClock d s) before
    after issued c next
  rw [hPerform] at hResume
  exact finishAll_resume st s hSoonest hResume

/- The thread that goes on has not finished. -/
theorem resume_of_finished
    {ts us : List (Thread σ ρ)}
    {i j : Nat}
    {s s' : σ}
    {r : ρ}
    (hResume : resume st i ts s = some (s', us))
    (hFinished : ts[j]? = some (.finished r)) :
    us[j]? = some (.finished r) := by
  induction ts generalizing i j us with
  | nil => cases hFinished
  | cons t ts ih =>
      cases i with
      | zero =>
          cases t with
          | finished r => cases hResume
          | waiting issued c next =>
              cases hResume
              cases j with
              | zero => cases hFinished
              | succ j => exact hFinished
      | succ i =>
          rw [resume, Option.map_eq_some_iff] at hResume
          rcases hResume with ⟨⟨s'', vs⟩, hRest, hSame⟩
          rcases Prod.mk.inj hSame with ⟨rfl, rfl⟩
          cases j with
          | zero => exact hFinished
          | succ j =>
              rw [List.getElem?_cons_succ] at hFinished ⊢
              exact ih hRest hFinished

/- A thread that has finished keeps its result. -/
theorem finishAll_of_finished
    {ts : List (Thread σ ρ)}
    {i : Nat}
    {r : ρ}
    (hFinished : ts[i]? = some (.finished r)) :
    (finishAll st ts s).2[i]? = some (some r) := by
  have hHere {ts : List (Thread σ ρ)}
      (hFinished : ts[i]? = some (.finished r)) :
      (ts.map Thread.result?)[i]? = some (some r) := by
    rw [List.getElem?_map, hFinished]
    rfl
  fun_induction finishAll st ts s with
  | case1 => exact hHere hFinished
  | case2 => exact hHere hFinished
  | case3 ts s i time _ s' us hResume _ ih =>
      exact ih (resume_of_finished st hResume hFinished)

------------------------------------------------------------
-- One Thread
------------------------------------------------------------

/- How calls act when nobody else is there: one that is due
   takes effect at once, and any other one when it is. -/
def alone : Action.Handler σ := fun s c =>
  let s := st.issue s c
  let now := st.clock s
  if st.due s now c ≤ now then st.perform s c
  else st.perform (st.setClock (st.due s now c) s) c

/- By induction on the program. -/
theorem finishAll_alone {α : Type} (m : Action α) :
    finishAll st
        [(advance st (Activity.ofAction m .finish) s).2]
        (advance st (Activity.ofAction m .finish) s).1 =
      ((m.eval st.alone s).1, [some (m.eval st.alone s).2]) := by
  induction m generalizing s with
  | finish a =>
      change finishAll st [.finished a] s = _
      rw [finishAll]
      rfl
  | call c next ih =>
      rw [Activity.ofAction, advance, Action.eval]
      unfold alone
      dsimp only
      by_cases hDue : st.due (st.issue s c)
          (st.clock (st.issue s c)) c ≤ st.clock (st.issue s c)
      · rw [if_pos hDue, if_pos hDue]
        exact ih _ _
      · rw [if_neg hDue, if_neg hDue]
        have hWakes :
            max (st.clock (st.issue s c))
                (st.due (st.issue s c)
                  (st.clock (st.issue s c)) c) =
              st.due (st.issue s c)
                (st.clock (st.issue s c)) c :=
          Nat.max_eq_right (Nat.le_of_not_le hDue)
        refine (finishAll_wakes st _ [] [] _ c _ hWakes
          (by simp) (by simp) rfl).trans ?_
        exact ih _ _

/- A program that runs by itself on a stage does what it does
   when its calls are carried out one by one. -/
theorem runAll_alone {α : Type} (m : Action α) :
    runAll st [Activity.ofAction m .finish] s =
      ((m.eval st.alone s).1, [some (m.eval st.alone s).2]) :=
  finishAll_alone st s m

end Stage

end Preview
