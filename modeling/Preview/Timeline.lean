import Preview.World

/-
  Running several programs side by side.

  A thread runs until it has to wait.  When all threads wait,
  the one that is due first goes on, and the clock moves to
  that time; of several the first in order goes on.  Every
  turn uses up a call of some thread, so the threads finish.

  Key definitions include:
    * `Activity`
    * `Activity.ofAction`
    * `Stage`
    * `World.stage`
    * `Stage.advance`
    * `Stage.runAll`
-/

namespace Preview

------------------------------------------------------------
-- Activities
------------------------------------------------------------

/- A program that may also look at and change a state of its
   surroundings, which takes no time. -/
inductive Activity (σ ρ : Type) where
  | finish (result : ρ)
  | change (f : σ → σ) (next : σ → Activity σ ρ)
  | call (c : Call) (next : c.Reply → Activity σ ρ)

namespace Activity

variable {σ ρ α : Type}

/- The activity of a program and of what follows its result. -/
def ofAction : Action α → (α → Activity σ ρ) → Activity σ ρ
  | .finish a, f => f a
  | .call c next, f => .call c (fun r => ofAction (next r) f)

/- One change of the state, with a result. -/
def once (f : σ → σ × ρ) : Activity σ ρ :=
  .change (fun s => (f s).1) (fun s => .finish (f s).2)

/- An activity that starts at some time. -/
def startingAt (time : Nat) (t : Activity σ ρ) : Activity σ ρ :=
  .call (.sleep time) (fun _ => t)

/- One activity is what another one goes on with. -/
inductive Next : Activity σ ρ → Activity σ ρ → Prop where
  | change
    (f : σ → σ)
    (next : σ → Activity σ ρ)
    (s : σ) : Next (next s) (.change f next)
  | call
    (c : Call)
    (next : c.Reply → Activity σ ρ)
    (r : c.Reply) : Next (next r) (.call c next)

/- One activity is reached from another one. -/
def Later : Activity σ ρ → Activity σ ρ → Prop :=
  Relation.TransGen Next

/- An activity cannot go on forever. -/
theorem next_wf : WellFounded (@Next σ ρ) := by
  refine ⟨fun t => ?_⟩
  induction t with
  | finish r => exact ⟨_, fun u h => by cases h⟩
  | change f next ih =>
      exact ⟨_, fun u h => by cases h; exact ih _⟩
  | call c next ih =>
      exact ⟨_, fun u h => by cases h; exact ih _⟩

/- Nor can it by several steps at a time. -/
theorem later_wf : WellFounded (@Later σ ρ) :=
  next_wf.transGen

end Activity

------------------------------------------------------------
-- Lists of Activities
------------------------------------------------------------

/- One of several activities has gone on. -/
inductive Closer {σ ρ : Type} :
    List (Activity σ ρ) → List (Activity σ ρ) → Prop where
  | head
    {t u : Activity σ ρ}
    (ts : List (Activity σ ρ))
    (h : t.Later u) : Closer (t :: ts) (u :: ts)
  | tail
    (t : Activity σ ρ)
    {ts us : List (Activity σ ρ)}
    (h : Closer ts us) : Closer (t :: ts) (t :: us)

namespace Closer

variable {σ ρ : Type}

/- A list of activities comes to its end if the first of them
   and the others do. -/
theorem acc_cons
    {t : Activity σ ρ}
    (ht : Acc Activity.Later t)
    {ts : List (Activity σ ρ)}
    (hts : Acc Closer ts) :
    Acc Closer (t :: ts) := by
  induction ht generalizing ts with
  | intro t _ iht =>
      induction hts with
      | intro ts hts ihts =>
          refine ⟨_, fun us h => ?_⟩
          cases h with
          | head _ hl => exact iht _ hl ⟨_, hts⟩
          | tail _ hl => exact ihts _ hl

/- Several activities cannot go on forever together. -/
theorem wf : WellFounded (@Closer σ ρ) := by
  refine ⟨fun ts => ?_⟩
  induction ts with
  | nil => exact ⟨_, fun us h => by cases h⟩
  | cons t ts ih => exact acc_cons (Activity.later_wf.apply t) ih

end Closer

------------------------------------------------------------
-- Stages
------------------------------------------------------------

/- How calls act on a state that has a clock. -/
structure Stage (σ : Type) where
  clock : σ → Nat
  setClock : Nat → σ → σ
  issue : σ → Call → σ
  due : σ → Nat → Call → Nat
  perform : σ → (c : Call) → σ × c.Reply

/- The stage of a world. -/
def World.stage : Stage World where
  clock := World.clock
  setClock time w := { w with clock := time }
  issue := World.issue
  due := World.due
  perform := World.perform

/- The stage of a state that another state is part of. -/
def Stage.within
    {σ τ : Type}
    (st : Stage σ)
    (get : τ → σ)
    (set : σ → τ → τ) : Stage τ where
  clock s := st.clock (get s)
  setClock time s := set (st.setClock time (get s)) s
  issue s c := set (st.issue (get s) c) s
  due s := st.due (get s)
  perform s c :=
    let (t, r) := st.perform (get s) c
    (set t s, r)

/- A thread that has finished or waits for a call. -/
inductive Thread (σ ρ : Type) where
  | finished (result : ρ)
  | waiting
    (issued : Nat)
    (c : Call)
    (next : c.Reply → Activity σ ρ)

namespace Thread

variable {σ ρ : Type}

/- What a thread has still to do. -/
def activity : Thread σ ρ → Activity σ ρ
  | finished r => .finish r
  | waiting _ c next => .call c next

/- The result of a thread that has finished. -/
def result? : Thread σ ρ → Option ρ
  | finished r => some r
  | waiting _ _ _ => none

end Thread

namespace Stage

variable {σ ρ : Type}

/- Run an activity until it waits. -/
def advance (st : Stage σ) : Activity σ ρ → σ → σ × Thread σ ρ
  | .finish r, s => (s, .finished r)
  | .change f next, s => advance st (next s) (f s)
  | .call c next, s =>
      let s := st.issue s c
      let now := st.clock s
      if st.due s now c ≤ now then
        let (s, r) := st.perform s c
        advance st (next r) s
      else
        (s, .waiting now c next)

/- An activity that has been run is the same one or a later one. -/
theorem advance_later
    (st : Stage σ)
    (t u : Activity σ ρ)
    (s : σ)
    (h : t.Later u) :
    ((advance st t s).2.activity).Later u := by
  induction t generalizing s with
  | finish r => simpa [advance, Thread.activity] using h
  | change f next ih =>
      exact ih _ _ (.trans (.single (.change f next s)) h)
  | call c next ih =>
      rw [advance]
      split
      · exact ih _ _ (.trans (.single (.call c next _)) h)
      · simpa [Thread.activity] using h

/- The least time at which a thread goes on, and its place
   among the threads. -/
def soonest (st : Stage σ) (s : σ) (now : Nat) :
    List (Thread σ ρ) → Option (Nat × Nat)
  | [] => none
  | t :: ts =>
      let rest := (soonest st s now ts).map fun (i, d) => (i + 1, d)
      match t with
      | .finished _ => rest
      | .waiting issued c _ =>
          let d := max now (st.due s issued c)
          match rest with
          | some (i, e) => if e < d then some (i, e) else some (0, d)
          | none => some (0, d)

/- Let the thread at a place go on. -/
def resume (st : Stage σ) :
    Nat → List (Thread σ ρ) → σ → Option (σ × List (Thread σ ρ))
  | _, [], _ => none
  | 0, .finished _ :: _, _ => none
  | 0, .waiting _ c next :: ts, s =>
      let (s, r) := st.perform s c
      let (s, t) := advance st (next r) s
      some (s, t :: ts)
  | i + 1, t :: ts, s =>
      (resume st i ts s).map fun (s, ts) => (s, t :: ts)

/- A thread that is resumed has come closer to its end. -/
theorem resume_closer
    (st : Stage σ)
    {i : Nat}
    {ts us : List (Thread σ ρ)}
    {s s' : σ}
    (h : resume st i ts s = some (s', us)) :
    Closer (us.map Thread.activity) (ts.map Thread.activity) := by
  induction ts generalizing i us s s' with
  | nil => simp [resume] at h
  | cons t ts ih =>
      match i, t with
      | 0, .finished _ => simp [resume] at h
      | 0, .waiting issued c next =>
          simp only [resume, Option.some.injEq,
            Prod.mk.injEq] at h
          obtain ⟨_, rfl⟩ := h
          exact .head _
            (advance_later st _ _ _ (.single (.call c next _)))
      | i + 1, t =>
          simp only [resume, Option.map_eq_some_iff] at h
          obtain ⟨⟨s'', vs⟩, hr, he⟩ := h
          simp only [Prod.mk.injEq] at he
          obtain ⟨rfl, rfl⟩ := he
          exact .tail _ (ih hr)

/- Run threads until all have finished. -/
def finishAll (st : Stage σ) (ts : List (Thread σ ρ)) (s : σ) :
    σ × List (Option ρ) :=
  match soonest st s (st.clock s) ts with
  | none => (s, ts.map Thread.result?)
  | some (i, time) =>
      match h : resume st i ts (st.setClock time s) with
      | none => (s, ts.map Thread.result?)
      | some (s, us) =>
          have := resume_closer st h
          finishAll st us s
termination_by Closer.wf.wrap (ts.map Thread.activity)

/- Start every activity in order. -/
def startAll (st : Stage σ) :
    List (Activity σ ρ) → σ → σ × List (Thread σ ρ)
  | [], s => (s, [])
  | t :: ts, s =>
      let (s, thread) := advance st t s
      let (s, threads) := startAll st ts s
      (s, thread :: threads)

/- Run some activities side by side until all have finished. -/
def runAll (st : Stage σ) (ts : List (Activity σ ρ)) (s : σ) :
    σ × List (Option ρ) :=
  let (s, threads) := startAll st ts s
  finishAll st threads s

end Stage

end Preview
