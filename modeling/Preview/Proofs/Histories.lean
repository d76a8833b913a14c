import Mathlib.Data.List.Induction
import Preview.Proofs.Updating

/-
  What one program of a pool has done, and what was done to
  one path.

  The calls that a program makes depend on the replies that it
  has had, so what holds of its course holds of its own part
  of every trace.  And a path keeps its content until a call
  leaves something else under the same key.

  Main declarations:
    * `Action.Course`, `course_bind` and `Leads.course`
    * `Pool.own` and `Pool.Runs.course`
    * `Pool.Runs.split`
    * `Exchange.Leaves` and `Answers.content`
    * `Pool.Runs.keeps`
-/

namespace Preview

------------------------------------------------------------
-- Courses
------------------------------------------------------------

namespace Action

variable {α β : Type}

/- Every call of a program fits what the program has asked and
   been told before, and so does its result. -/
def Course
    (P : List Exchange → Call → Prop)
    (Q : List Exchange → α → Prop) :
    Action α → List Exchange → Prop
  | finish a, past => Q past a
  | call c next, past =>
      P past c ∧
        ∀ reply, Course P Q (next reply) (past ++ [⟨c, reply⟩])

variable {P : List Exchange → Call → Prop}
variable {Q : List Exchange → α → Prop}

/- What the second part asks may depend on all that the first
   has asked and been told. -/
theorem course_bind
    (m : Action α)
    (f : α → Action β)
    (R : List Exchange → β → Prop)
    (past : List Exchange) :
    Course P R (bind m f) past ↔
      Course P (fun past a => Course P R (f a) past) m past := by
  induction m generalizing past with
  | finish a => rfl
  | call c next ih => simp only [bind, Course, ih]

/- A program whose calls carry a fact on from the past before
   to the past after them has a course. -/
theorem Leads.course
    {Fit : Call → Prop}
    {Past : List Exchange → Prop}
    {m : Action α}
    (hLeads : Leads Fit (fun _ => True) m)
    (hCall : ∀ past c, Past past → Fit c →
      P past c ∧ ∀ reply, Past (past ++ [⟨c, reply⟩]))
    {past : List Exchange}
    (hPast : Past past) :
    Course P (fun past _ => Past past) m past := by
  induction m generalizing past with
  | finish a => exact hPast
  | call c next ih =>
      have hHere := hCall past c hPast hLeads.1
      exact ⟨hHere.1, fun reply =>
        ih reply (hLeads.2 reply) (hHere.2 reply)⟩

theorem Course.mono
    {Q' : List Exchange → α → Prop}
    {m : Action α}
    {past : List Exchange}
    (hCourse : Course P Q m past)
    (hResult : ∀ past a, Q past a → Q' past a) :
    Course P Q' m past := by
  induction m generalizing past with
  | finish a => exact hResult past a hCourse
  | call c next ih =>
      exact ⟨hCourse.1, fun reply => ih reply (hCourse.2 reply)⟩

end Action

------------------------------------------------------------
-- Own Parts
------------------------------------------------------------

namespace Pool

variable {ι α : Type} [DecidableEq ι]
variable {p q : Pool ι α}
variable {who i : ι}
variable {x : Exchange}
variable {trace early late : List (ι × Exchange)}

/- What one program has done in a trace. -/
def own (who : ι) (trace : List (ι × Exchange)) :
    List Exchange :=
  (trace.filter (·.1 = who)).map (·.2)

theorem own_append (who : ι) (early late : List (ι × Exchange)) :
    own who (early ++ late) = own who early ++ own who late := by
  unfold own
  rw [List.filter_append, List.map_append]

theorem own_self (who : ι) (x : Exchange) :
    own who [(who, x)] = [x] := by
  simp [own]

theorem own_other
    (hOther : i ≠ who)
    (x : Exchange) :
    own who [(i, x)] = [] := by
  simp [own, hOther]

/- A party's own exchanges are those it made in the trace. -/
theorem mem_own : x ∈ own who trace ↔ (who, x) ∈ trace := by
  unfold own
  rw [List.mem_map]
  constructor
  · rintro ⟨⟨i, y⟩, hy, rfl⟩
    rcases List.mem_filter.1 hy with ⟨hTrace, hWho⟩
    cases of_decide_eq_true hWho
    exact hTrace
  · intro hx
    exact ⟨(who, x), List.mem_filter.2 ⟨hx, by simp⟩, rfl⟩

/- The first exchange of a program parts the trace. -/
theorem own_eq_cons
    {rest : List Exchange}
    (hOwn : own who trace = x :: rest) :
    ∃ early late,
      trace = early ++ (who, x) :: late ∧
        own who late = rest := by
  rcases List.map_eq_cons_iff.1 hOwn with
    ⟨⟨i, y⟩, others, hFilter, rfl, hRest⟩
  rcases List.filter_eq_cons_iff.1 hFilter with
    ⟨early, late, hTrace, _, hWho, hLate⟩
  cases of_decide_eq_true hWho
  refine ⟨early, late, hTrace, ?_⟩
  unfold own
  rw [hLate, hRest]

/- The course of a program goes on with its own part of what
   has been called. -/
theorem Runs.course
    {P : List Exchange → Call → Prop}
    {Q : List Exchange → α → Prop}
    (hRuns : Runs p trace q)
    (hCourse : (p.programs who).Course P Q []) :
    (q.programs who).Course P Q (own who trace) := by
  induction hRuns with
  | none => exact hCourse
  | step _ hStep ih =>
      rw [own_append]
      cases hStep with
      | turn i c next reply store hProgram _ =>
          by_cases hSame : i = who
          · subst hSame
            rw [hProgram] at ih
            rw [own_self]
            simpa using ih.2 reply
          · rw [own_other hSame, List.append_nil]
            simpa [Function.update_of_ne (Ne.symm hSame)] using
              ih

/- What a program calls next fits its own past. -/
theorem Runs.course_step
    {P : List Exchange → Call → Prop}
    {Q : List Exchange → α → Prop}
    {r : Pool ι α}
    (hRuns : Runs p trace q)
    (hCourse : (p.programs who).Course P Q [])
    (hStep : Step q (who, x) r) :
    P (own who trace) x.call := by
  have hNow := hRuns.course hCourse
  cases hStep with
  | turn i c next reply store hProgram _ =>
      rw [hProgram] at hNow
      exact hNow.1

------------------------------------------------------------
-- Parts of a Run
------------------------------------------------------------

/- A run has a state before its last exchange. -/
theorem Runs.of_append_singleton
    {y : ι × Exchange}
    (hRuns : Runs p (trace ++ [y]) q) :
    ∃ m, Runs p trace m ∧ Step m y q := by
  generalize hTrace : trace ++ [y] = whole at hRuns
  cases hRuns with
  | none => simp at hTrace
  | step hRuns hStep =>
      rcases List.append_inj' hTrace rfl with ⟨rfl, hLast⟩
      cases List.singleton_inj.1 hLast
      exact ⟨_, hRuns, hStep⟩

/- A run with two parts stops between them. -/
theorem Runs.of_append
    (hRuns : Runs p (early ++ late) q) :
    ∃ m, Runs p early m ∧ Runs m late q := by
  induction late using List.reverseRecOn generalizing q with
  | nil =>
      rw [List.append_nil] at hRuns
      exact ⟨q, hRuns, .none⟩
  | append_singleton late y ih =>
      rw [← List.append_assoc] at hRuns
      rcases hRuns.of_append_singleton with ⟨n, hInit, hStep⟩
      rcases ih hInit with ⟨m, hEarly, hLate⟩
      exact ⟨m, hEarly, .step hLate hStep⟩

/- A run goes through each of its turns. -/
theorem Runs.split
    {y : ι × Exchange}
    (hRuns : Runs p (early ++ y :: late) q) :
    ∃ m n,
      Runs p early m ∧ Step m y n ∧ Runs n late q := by
  rw [List.append_cons] at hRuns
  rcases hRuns.of_append with ⟨n, hFirst, hLate⟩
  rcases hFirst.of_append_singleton with ⟨m, hEarly, hStep⟩
  exact ⟨m, n, hEarly, hStep, hLate⟩

end Pool

------------------------------------------------------------
-- Contents
------------------------------------------------------------

/- The path that a call is to change, and what it is to leave
   there. -/
def Call.change? : Call → Option (String × Option String)
  | store (.set path text) => some (path, some text)
  | store (.erase path) => some (path, none)
  | store (.swap path _ text) => some (path, some text)
  | _ => none

/- Only calls of the store change records. -/
theorem Call.change?_of_not_isStore
    {c : Call}
    (hStore : c.isStore = false) :
    c.change? = none := by
  cases c <;> simp_all [change?, isStore]

/- A call has left something under the key of a path. -/
def Exchange.Leaves
    (path : String)
    (left : Option String)
    (x : Exchange) : Prop :=
  x.wrote = true ∧
    ∃ other, x.call.change? = some (other, left) ∧
      Store.key other = Store.key path

section Contents

variable {s t : Store}
variable {path : String}

/- A store after a change under a key. -/
def Store.put (s : Store) (k : String) : Option String → Store
  | some text => ⟨s.entries.insert k text⟩
  | none => ⟨s.entries.erase k⟩

/- What is put is found under the paths of its key. -/
theorem Store.content?_put
    (s : Store)
    (k : String)
    (left : Option String)
    (path : String) :
    (s.put k left).content? path =
      if key path = .ok k then left else s.content? path := by
  unfold content?
  cases key path with
  | error e => simp
  | ok k' =>
      cases left with
      | none => simp [put, Table.get?_erase]
      | some text => simp [put, Table.get?_insert]

/- A call that has changed a store has put something under the
   key of its path. -/
theorem Store.perform_of_wrote
    {c : Store.Call}
    (hWrote :
      (Preview.Call.store c).wrote (s.perform c).2 = true) :
    ∃ other k left,
      (Preview.Call.store c).change? = some (other, left) ∧
        key other = .ok k ∧
        (s.perform c).1 = s.put k left := by
  cases c with
  | value path => cases hWrote
  | values path => cases hWrote
  | set path text =>
      simp only [perform, set] at hWrote ⊢
      cases hKey : key path with
      | error e =>
          rw [hKey] at hWrote
          cases hWrote
      | ok k => exact ⟨path, k, some text, rfl, hKey, rfl⟩
  | erase path =>
      simp only [perform, erase] at hWrote ⊢
      cases hKey : key path with
      | error e =>
          rw [hKey] at hWrote
          cases hWrote
      | ok k => exact ⟨path, k, none, rfl, hKey, rfl⟩
  | swap path expected text =>
      simp only [perform, swap] at hWrote ⊢
      cases hKey : key path with
      | error e =>
          rw [hKey] at hWrote
          cases hWrote
      | ok k =>
          rw [hKey] at hWrote
          by_cases hSame : s.entries.get? k = expected
          · refine ⟨path, k, some text, rfl, hKey, ?_⟩
            rw [show (Except.ok k : Except StoreError String) >>=
              _ = _ from if_pos hSame]
            rfl
          · rw [show (Except.ok k : Except StoreError String) >>=
              _ = _ from if_neg hSame] at hWrote
            cases hWrote

/- After a call a path has the content that it had, or what the
   call has left under its key. -/
theorem Answers.content
    {c : Call}
    {reply : c.Reply}
    (hAnswers : Answers s c reply t)
    (path : String) :
    t.content? path = s.content? path ∨
      Exchange.Leaves path (t.content? path) ⟨c, reply⟩ := by
  cases hWrote : c.wrote reply with
  | false =>
      rw [hAnswers.of_not_wrote hWrote]
      exact .inl rfl
  | true =>
      cases hAnswers with
      | other c reply hOther =>
          rw [Call.not_wrote_of_not_isStore hOther] at hWrote
          cases hWrote
      | store c =>
          rcases Store.perform_of_wrote hWrote with
            ⟨other, k, left, hChange, hKey, hStore⟩
          rw [hStore, Store.content?_put]
          by_cases hSame : Store.key path = .ok k
          · rw [if_pos hSame]
            exact .inr ⟨hWrote, other, hChange,
              hKey.trans hSame.symm⟩
          · rw [if_neg hSame]
            exact .inl rfl

/- A swap that has gone through has found what it expected. -/
theorem Answers.of_swap
    {expected : Option String}
    {text : String}
    (hAnswers :
      Answers s (.store (.swap path expected text)) (.ok true) t) :
    s.content? path = expected := by
  by_contra hNe
  have hPerform := hAnswers.of_store
  cases hKey : Store.key path with
  | error e =>
      simp only [Store.perform, Store.swap, hKey] at hPerform
      cases hPerform
  | ok k =>
      rw [Store.perform_swap_of_ne (by rw [hKey]; rfl) s hNe]
        at hPerform
      cases hPerform

end Contents

/- What holds of the content of a path goes on to hold, unless
   some call leaves there what it does not hold of. -/
theorem Pool.Runs.keeps
    {ι α : Type}
    [DecidableEq ι]
    {Kept : Option String → Prop}
    {path : String}
    {p q : Pool ι α}
    {trace : List (ι × Exchange)}
    (hRuns : Runs p trace q)
    (hKept : Kept (p.store.content? path)) :
    Kept (q.store.content? path) ∨
      ∃ y ∈ trace, ∃ left, y.2.Leaves path left ∧ ¬ Kept left := by
  induction hRuns with
  | none => exact .inl hKept
  | @step trace q r y _ hStep ih =>
      rcases ih with hBefore | ⟨y, hy, hLeaves⟩
      · cases hStep with
        | turn i c next reply store _ hAnswers =>
            rcases hAnswers.content path with hSame | hLeft
            · exact .inl (hSame ▸ hBefore)
            · by_cases hNow : Kept (store.content? path)
              · exact .inl hNow
              · exact .inr ⟨(i, ⟨c, reply⟩),
                  List.mem_append_right _
                    (List.mem_singleton.2 rfl),
                  _, hLeft, hNow⟩
      · exact .inr ⟨y, List.mem_append_left _ hy, hLeaves⟩

end Preview
