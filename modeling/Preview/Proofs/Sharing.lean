import Mathlib.Logic.Function.Basic
import Preview.Proofs.Execution

/-
  Programs that share a store.

  Any number of programs take turns, one call at a time and
  in any order.  A call of the store takes effect at once and
  as a whole; every other call leaves the store as it is and
  may be replied to in any way.

  Main declarations:
    * `Answers`
    * `Pool`, `Pool.Step` and `Pool.Runs`
    * `Pool.runs_turn`
    * `Pool.Runs.append` and `Pool.Runs.leads`
    * `Claimed` and `Pool.InFlight`
-/

namespace Preview

------------------------------------------------------------
-- Replies
------------------------------------------------------------

/- What a call may be replied, and the store after it. -/
inductive Answers (s : Store) :
    (c : Call) → c.Reply → Store → Prop where
  | store (c : Store.Call) :
      Answers s (.store c) (s.perform c).2 (s.perform c).1
  | other
    (c : Call)
    (reply : c.Reply)
    (hOther : c.isStore = false) : Answers s c reply s

namespace Answers

/- Only calls of the store change it. -/
theorem of_other
    {s t : Store}
    {c : Call}
    {reply : c.Reply}
    (hAnswers : Answers s c reply t)
    (hOther : c.isStore = false) :
    t = s := by
  cases hAnswers with
  | store c => exact absurd hOther (by simp [Call.isStore])
  | other => rfl

/- Calls of the store are answered as it performs them. -/
theorem of_store
    {s t : Store}
    {c : Store.Call}
    {reply : c.Reply}
    (hAnswers : Answers s (.store c) reply t) :
    s.perform c = (t, reply) := by
  cases hAnswers with
  | store c => rfl
  | other _ _ hOther =>
      exact absurd hOther (by simp [Call.isStore])

section Reliable

variable {path : String}
variable (hKey : (Store.key path).isOk = true)

include hKey

theorem value (s : Store) :
    Answers s (.store (.value path)) (.ok (s.content? path)) s := by
  have hAnswers := Answers.store (s := s) (.value path)
  rwa [Store.perform_value hKey] at hAnswers

theorem set (s : Store) (text : String) :
    ∃ t,
      Answers s (.store (.set path text)) (.ok ()) t ∧
        t.content? path = some text := by
  rcases Store.perform_set hKey s text with
      ⟨t, hPerform, hContent⟩
  have hAnswers := Answers.store (s := s) (.set path text)
  rw [hPerform] at hAnswers
  exact ⟨t, hAnswers, hContent⟩

theorem erase (s : Store) :
    ∃ t,
      Answers s (.store (.erase path))
          (.ok (s.content? path).isSome) t ∧
        t.content? path = none := by
  rcases Store.perform_erase hKey s with ⟨t, hPerform, hContent⟩
  have hAnswers := Answers.store (s := s) (.erase path)
  rw [hPerform] at hAnswers
  exact ⟨t, hAnswers, hContent⟩

/- A swap that expects what is there is acknowledged. -/
theorem swap (s : Store) (text : String) :
    ∃ t,
      Answers s
          (.store (.swap path (s.content? path) text))
          (.ok true) t ∧
        t.content? path = some text := by
  rcases Store.perform_swap_of_eq hKey s text with
      ⟨t, hPerform, hContent⟩
  have hAnswers := Answers.store (s := s)
    (.swap path (s.content? path) text)
  rw [hPerform] at hAnswers
  exact ⟨t, hAnswers, hContent⟩

end Reliable

end Answers

------------------------------------------------------------
-- Pools
------------------------------------------------------------

/- A store, and what the programs that share it still do. -/
structure Pool (ι α : Type) where
  store : Store
  programs : ι → Action α

namespace Pool

variable {ι α : Type} [DecidableEq ι]

/- One program makes one call. -/
inductive Step (p : Pool ι α) : ι × Exchange → Pool ι α → Prop
  where
  | turn
    (i : ι)
    (c : Call)
    (next : c.Reply → Action α)
    (reply : c.Reply)
    (store : Store)
    (hProgram : p.programs i = .call c next)
    (hAnswers : Answers p.store c reply store) :
    Step p (i, ⟨c, reply⟩)
      ⟨store, Function.update p.programs i (next reply)⟩

/- Programs take turns; the trace is what has been called. -/
inductive Runs (p : Pool ι α) :
    List (ι × Exchange) → Pool ι α → Prop where
  | none : Runs p [] p
  | step
    {trace : List (ι × Exchange)}
    {q r : Pool ι α}
    {x : ι × Exchange}
    (hRuns : Runs p trace q)
    (hStep : Step q x r) : Runs p (trace ++ [x]) r

/- A program makes its next call, and only its own course
   goes on. -/
theorem runs_turn
    {p : Pool ι α}
    {i : ι}
    {c : Call}
    {next : c.Reply → Action α}
    {reply : c.Reply}
    {store : Store}
    (hProgram : p.programs i = .call c next)
    (hAnswers : Answers p.store c reply store) :
    ∃ q : Pool ι α,
      Step p (i, ⟨c, reply⟩) q ∧
        q.programs i = next reply ∧
        q.store = store ∧
        ∀ j, j ≠ i → q.programs j = p.programs j :=
  ⟨_, .turn i c next reply store hProgram hAnswers,
    by simp, rfl,
    fun j hj => by simp [Function.update_of_ne hj]⟩

/- What runs on from where a run has come is one run. -/
theorem Runs.append
    {p q r : Pool ι α}
    {trace more : List (ι × Exchange)}
    (hRuns : Runs p trace q)
    (hMore : Runs q more r) :
    Runs p (trace ++ more) r := by
  induction hMore with
  | none => simpa using hRuns
  | step _ hStep ih =>
      rw [← List.append_assoc]
      exact .step ih hStep

/- What every way through a program leads to, it still leads
   to after some turns. -/
theorem Runs.leads
    {P : Call → Prop}
    {Q : α → Prop}
    {p q : Pool ι α}
    {trace : List (ι × Exchange)}
    (hRuns : Runs p trace q)
    {i : ι}
    (hLeads : (p.programs i).Leads P Q) :
    (q.programs i).Leads P Q := by
  induction hRuns with
  | none => exact hLeads
  | step _ hStep ih =>
      cases hStep with
      | turn j c next reply store hProgram _ =>
          by_cases hSame : i = j
          · subst hSame
            rw [hProgram] at ih
            simpa using ih.2 reply
          · simpa [Function.update_of_ne hSame] using ih

end Pool

------------------------------------------------------------
-- Claims
------------------------------------------------------------

section Claims

variable {ι α : Type}

/- A program has replaced a record that it had read. -/
def Claimed (trace : List (ι × Exchange)) (i : ι) : Prop :=
  ∃ path seen record,
    (i, ⟨.store (.swap path seen record), .ok true⟩) ∈ trace

/- A program has claimed and not yet made its last write. -/
def Pool.InFlight
    (p : Pool ι α)
    (trace : List (ι × Exchange))
    (i : ι) : Prop :=
  Claimed trace i ∧ (p.programs i).MayWrite

end Claims

end Preview
