import Preview.World

/-
  What programs do on their way to a result.

  A program is a tree of calls.  It leads to some results
  through some calls, whatever is replied to it; it runs
  until some program is left; or it may still write.  The
  exchanges of a program are the calls that it makes when it
  runs alone, with their replies.

  Main declarations:
    * `Call.isStore`, `Call.isCluster` and `Call.wrote`
    * `Store.perform` and `World.performStore_faultless`
    * `Action.Leads` and `leads_bind`
    * `Action.Until` and `until_bind`
    * `Action.MayWrite`
    * `Action.Yields`, `yields_bind` and `Leads.yields`
    * `Attempt.leads_bind` and `Attempt.yields_bind`
    * `Attempt.eval_bind` and `Attempt.eval_mapError`
    * `Attempt.Within`
-/

namespace Preview

theorem exists_of_isOk
    {ε α : Type}
    {r : Except ε α}
    (hOk : r.isOk = true) :
    ∃ a, r = .ok a := by
  cases r with
  | ok a => exact ⟨a, rfl⟩
  | error e => cases hOk

------------------------------------------------------------
-- Kinds of Calls
------------------------------------------------------------

namespace Call

/- Whether a call is made to the store. -/
def isStore : Call → Bool
  | store _ => true
  | _ => false

/- Whether a call is made to the cluster. -/
def isCluster : Call → Bool
  | cluster _ => true
  | _ => false

/- Whether a call sends a message. -/
def isMessage : Call → Bool
  | send _ => true
  | _ => false

/- Whether a call is made to claim an instance. -/
def isForClaim : Call → Bool
  | store (.value _) => true
  | store (.swap _ _ _) => true
  | _ => false

/- Whether a call is made to change a store. -/
def isWrite : Call → Bool
  | store (.set _ _) => true
  | store (.erase _) => true
  | store (.swap _ _ _) => true
  | _ => false

/- Whether a call that was replied to has changed a store. -/
def wrote : (c : Call) → c.Reply → Bool
  | store (.set _ _), .ok () => true
  | store (.erase _), .ok removed => removed
  | store (.swap _ _ _), .ok swapped => swapped
  | _, _ => false

theorem not_isStore_of_isMessage
    {c : Call}
    (hMessage : c.isMessage = true) :
    c.isStore = false := by
  cases c <;> simp_all [isMessage, isStore]

theorem not_isCluster_of_isMessage
    {c : Call}
    (hMessage : c.isMessage = true) :
    c.isCluster = false := by
  cases c <;> simp_all [isMessage, isCluster]

/- Only a call of the store can write a record. -/
theorem not_wrote_of_not_isStore
    {c : Call}
    (hStore : c.isStore = false)
    (reply : c.Reply) :
    c.wrote reply = false := by
  cases c <;> simp_all [wrote, isStore]

theorem not_isForClaim_of_not_isStore
    {c : Call}
    (hStore : c.isStore = false) :
    c.isForClaim = false := by
  cases c <;> simp_all [isForClaim, isStore]

/- A reply that reports no failure. -/
def calm : (c : Call) → c.Reply
  | store (.value _) => .ok none
  | store (.values _) => .ok []
  | store (.set _ _) => .ok ()
  | store (.erase _) => .ok false
  | store (.swap _ _ _) => .ok true
  | cluster (.get _) => .ok none
  | cluster (.create _ _ _) => .ok ()
  | cluster (.update _ _ _) => .ok ()
  | cluster (.delete _) => .ok ()
  | cluster (.watch _) => .ok 0
  | release _ => ()
  | settle _ _ _ => .decided .succeeded
  | receive _ _ => .closed
  | pause _ _ => true
  | sleep _ => ()
  | clock => 0
  | today => default
  | send _ => true

end Call

/- A call that was made, and its reply. -/
structure Exchange where
  call : Call
  reply : call.Reply

namespace Exchange

/- Whether an exchange has written a record. -/
def wrote (x : Exchange) : Bool :=
  x.call.wrote x.reply

/- A removal has written if there was something to remove. -/
theorem wrote_erase (path : String) (removed : Bool) :
    wrote ⟨.store (.erase path), .ok removed⟩ = removed :=
  rfl

end Exchange

------------------------------------------------------------
-- Store Calls
------------------------------------------------------------

namespace Store

/- The store after a change, and the reply. -/
def settle
    {α : Type}
    (s : Store) :
    Except StoreError (Store × α) →
      Store × Except StoreError α
  | .ok (t, a) => (t, .ok a)
  | .error e => (s, .error e)

/- What a call does to a store, and its reply. -/
def perform (s : Store) : (c : Call) → Store × c.Reply
  | .value path => (s, s.value path)
  | .values path => (s, .ok (s.values path))
  | .set path value =>
      s.settle ((s.set path value).map (·, ()))
  | .erase path => s.settle (s.erase path)
  | .swap path expected value =>
      s.settle (s.swap path expected value)

/- What a path names, if it is a key. -/
def content? (s : Store) (path : String) : Option String :=
  match key path with
  | .ok k => s.entries.get? k
  | .error _ => none

theorem content?_empty (path : String) :
    empty.content? path = none := by
  unfold content?
  split <;> rfl

/- What a set or a removal leaves under its path. -/
def Call.leaves : Call → Option String
  | set _ text => some text
  | _ => none

/- A swap at a key goes through if the text that it expects is
   there. -/
theorem perform_swap
    {path k : String}
    (hKey : key path = .ok k)
    (s : Store)
    (expected : Option String)
    (text : String) :
    s.perform (.swap path expected text) =
      if s.entries.get? k = expected
      then (⟨s.entries.insert k text⟩, .ok true)
      else (s, .ok false) := by
  simp only [perform, swap, hKey]
  change s.settle (if s.entries.get? k = expected then _
    else _) = _
  split <;> rfl

section Reliable

/-
  A store whose calls on a path do not fail: the path is a
  key.
-/
variable {path : String}
variable (hKey : (key path).isOk = true)

include hKey

/- A read tells what is there, and leaves it. -/
theorem perform_value (s : Store) :
    s.perform (.value path) = (s, .ok (s.content? path)) := by
  rcases exists_of_isOk hKey with ⟨k, hk⟩
  simp only [perform, value, content?, hk]
  rfl

/- After a write, its text is what is there. -/
theorem perform_set (s : Store) (value : String) :
    ∃ t, s.perform (.set path value) = (t, .ok ()) ∧
      t.content? path = some value := by
  rcases exists_of_isOk hKey with ⟨k, hk⟩
  refine ⟨⟨s.entries.insert k value⟩, ?_, ?_⟩
  · simp only [perform, set, hk]
    rfl
  · simp [content?, hk, Table.get?_insert]

theorem perform_set_reply (s : Store) (value : String) :
    (s.perform (.set path value)).2 = .ok () := by
  rcases perform_set hKey s value with ⟨t, hSet, _⟩
  rw [hSet]

/- A removal tells whether something was there; after it nothing
   is. -/
theorem perform_erase (s : Store) :
    ∃ t, s.perform (.erase path) =
        (t, .ok (s.content? path).isSome) ∧
      t.content? path = none := by
  rcases exists_of_isOk hKey with ⟨k, hk⟩
  refine ⟨⟨s.entries.erase k⟩, ?_, ?_⟩
  · simp only [perform, erase, content?, hk]
    rfl
  · simp [content?, hk, Table.get?_erase]

theorem perform_erase_reply (s : Store) :
    (s.perform (.erase path)).2 =
      .ok (s.content? path).isSome := by
  rcases perform_erase hKey s with ⟨t, hErase, _⟩
  rw [hErase]

/- A swap that expects what is there writes its text. -/
theorem perform_swap_of_eq
    (s : Store)
    (value : String) :
    ∃ t,
      s.perform (.swap path (s.content? path) value) =
        (t, .ok true) ∧
      t.content? path = some value := by
  rcases exists_of_isOk hKey with ⟨k, hk⟩
  refine ⟨⟨s.entries.insert k value⟩, ?_, ?_⟩
  · rw [perform_swap hk]
    simp only [content?, hk, if_pos]
  · simp [content?, hk, Table.get?_insert]

/- A swap that expects something else changes nothing, and says
   so. -/
theorem perform_swap_of_ne
    (s : Store)
    {expected : Option String}
    (hNe : s.content? path ≠ expected)
    (value : String) :
    s.perform (.swap path expected value) =
      (s, .ok false) := by
  rcases exists_of_isOk hKey with ⟨k, hk⟩
  simp only [content?, hk] at hNe
  rw [perform_swap hk, if_neg hNe]

end Reliable

end Store

/- A world without faults keeps its store in this way. -/
theorem World.performStore_faultless
    (w : World)
    (hFaults : w.faults = .none)
    (c : Store.Call) :
    w.performStore c =
      ({ w with store := (w.store.perform c).1 },
        (w.store.perform c).2) := by
  have hReads : w.faults.reads = false := by rw [hFaults]; rfl
  have hWrites : w.faults.writes = false := by
    rw [hFaults]; rfl
  have hPlain : w.plainFault = none := by
    simp [plainFault, hFaults, Faults.none]
  have hRival : w.rivalActs = w := by
    simp [rivalActs, hFaults, Faults.none]
  cases c with
  | value path => simp [performStore, hReads, Store.perform]
  | values path => simp [performStore, hReads, Store.perform]
  | set path value =>
      cases h : w.store.set path value <;>
        simp [performStore, hPlain, Store.perform, change,
          Store.settle, h, Except.map]
  | erase path =>
      cases h : w.store.erase path <;>
        simp [performStore, hPlain, Store.perform, change,
          Store.settle, h]
  | swap path expected value =>
      cases h : w.store.swap path expected value <;>
        simp [performStore, hWrites, hRival, Store.perform,
          change, Store.settle, h]

------------------------------------------------------------
-- Programs
------------------------------------------------------------

namespace Action

variable {α β : Type}

/- Every way through a program makes only some calls, and
   ends with some result. -/
def Leads (P : Call → Prop) (Q : α → Prop) : Action α → Prop
  | finish a => Q a
  | call c next => P c ∧ ∀ r, Leads P Q (next r)

/- Every way through a program ends with some result. -/
abbrev Ends (Q : α → Prop) : Action α → Prop :=
  Leads (fun _ => True) Q

/- Some calls are made until some program is left. -/
inductive Until
    (P : Call → Prop)
    (W : Action α → Prop) :
    Action α → Prop where
  | now {m : Action α} (hLeft : W m) : Until P W m
  | later
    (c : Call)
    (next : c.Reply → Action α)
    (hCall : P c)
    (hNext : ∀ r, Until P W (next r)) :
    Until P W (.call c next)

/- Some way through a program makes a write. -/
inductive MayWrite : Action α → Prop where
  | now
    (c : Call)
    (next : c.Reply → Action α)
    (hWrite : c.isWrite = true) : MayWrite (.call c next)
  | later
    (c : Call)
    (next : c.Reply → Action α)
    (r : c.Reply)
    (hNext : MayWrite (next r)) : MayWrite (.call c next)

variable {P P' : Call → Prop}
variable {Q Q' : α → Prop}
variable {W : Action α → Prop}

theorem Leads.mono
    {m : Action α}
    (hLeads : Leads P Q m)
    (hCall : ∀ c, P c → P' c)
    (hResult : ∀ a, Q a → Q' a) :
    Leads P' Q' m := by
  induction m with
  | finish a => exact hResult a hLeads
  | call c next ih =>
      exact ⟨hCall c hLeads.1, fun r => ih r (hLeads.2 r)⟩

/- Of two parts, the second is reached with a result of the
   first; nothing is lost by saying it so. -/
theorem leads_bind
    (m : Action α)
    (f : α → Action β)
    (R : β → Prop) :
    Leads P R (bind m f) ↔
      Leads P (fun a => Leads P R (f a)) m := by
  induction m with
  | finish a => rfl
  | call c next ih => simp only [bind, Leads, ih]

/- If each way through the first part comes to the second, what
   is left may be one of the second. -/
theorem until_bind
    {V : Action β → Prop}
    {m : Action α}
    {f : α → Action β}
    (hLeads : Leads P (fun a => Until P V (f a)) m) :
    Until P V (bind m f) := by
  induction m with
  | finish a => exact hLeads
  | call c next ih =>
      exact .later c _ hLeads.1 fun r => ih r (hLeads.2 r)

/- A program whose calls all write nothing never writes. -/
theorem Leads.not_mayWrite
    {m : Action α}
    (hLeads : Leads P Q m)
    (hCall : ∀ c, P c → c.isWrite = false) :
    ¬ MayWrite m := by
  induction m with
  | finish a => intro h; cases h
  | call c next ih =>
      intro h
      cases h with
      | now _ _ hWrite =>
          rw [hCall c hLeads.1] at hWrite
          cases hWrite
      | later _ _ r hNext => exact ih r (hLeads.2 r) hNext

/- What can still write once other calls are made can write from
   the start. -/
theorem Until.mayWrite
    {m : Action α}
    (hUntil : Until P W m)
    (hLeft : ∀ m, W m → MayWrite m) :
    MayWrite m := by
  induction hUntil with
  | now h => exact hLeft _ h
  | later c next _ _ ih =>
      exact .later c next c.calm (ih c.calm)

------------------------------------------------------------
-- Exchanges
------------------------------------------------------------

variable {σ : Type}

/- What a program that runs alone asks and is told. -/
def exchanges (h : Handler σ) : Action α → σ → List Exchange
  | finish _, _ => []
  | call c next, s =>
      ⟨c, (h s c).2⟩ :: exchanges h (next (h s c).2) (h s c).1

theorem exchanges_bind
    (h : Handler σ)
    (m : Action α)
    (f : α → Action β)
    (s : σ) :
    exchanges h (bind m f) s =
      exchanges h m s ++
        exchanges h (f (eval h m s).2) (eval h m s).1 := by
  induction m generalizing s with
  | finish a => rfl
  | call c next ih =>
      simp only [bind, exchanges, eval, ih, List.cons_append]

/- The exchanges, the result and the final state of a program
   that runs alone are as said. -/
def Yields
    (h : Handler σ)
    (m : Action α)
    (s : σ)
    (Post : List Exchange → α → σ → Prop) : Prop :=
  Post (exchanges h m s) (eval h m s).2 (eval h m s).1

/- What holds at the end of a call and a rest holds at the end
   of the rest, with the call in front. -/
theorem yields_call
    (h : Handler σ)
    (c : Call)
    (next : c.Reply → Action α)
    (s : σ)
    (Post : List Exchange → α → σ → Prop) :
    Yields h (call c next) s Post ↔
      Yields h (next (h s c).2) (h s c).1 fun xs a t =>
        Post (⟨c, (h s c).2⟩ :: xs) a t :=
  Iff.rfl

/- The postcondition of the second part is met from whatever
   state and result the first has left. -/
theorem yields_bind
    (h : Handler σ)
    (m : Action α)
    (f : α → Action β)
    (s : σ)
    (Post : List Exchange → β → σ → Prop) :
    Yields h (bind m f) s Post ↔
      Yields h m s fun xs a t =>
        Yields h (f a) t fun ys b u => Post (xs ++ ys) b u := by
  unfold Yields
  rw [exchanges_bind, eval_bind]

theorem Yields.mono
    {h : Handler σ}
    {m : Action α}
    {s : σ}
    {Post Post' : List Exchange → α → σ → Prop}
    (hYields : Yields h m s Post)
    (hPost : ∀ xs a t, Post xs a t → Post' xs a t) :
    Yields h m s Post' :=
  hPost _ _ _ hYields

theorem Yields.and
    {h : Handler σ}
    {m : Action α}
    {s : σ}
    {Post Post' : List Exchange → α → σ → Prop}
    (hYields : Yields h m s Post)
    (hYields' : Yields h m s Post') :
    Yields h m s fun xs a t => Post xs a t ∧ Post' xs a t :=
  ⟨hYields, hYields'⟩

/-
  A program that leads to some results has one of them, and
  what its calls preserve it preserves.
-/
theorem Leads.yields
    {m : Action α}
    (hLeads : Leads P Q m)
    (h : Handler σ)
    {I : σ → Prop}
    (hCall : ∀ s c, P c → I s → I (h s c).1)
    {s : σ}
    (hInitial : I s) :
    Yields h m s fun xs a t =>
      (∀ x ∈ xs, P x.call) ∧ Q a ∧ I t := by
  induction m generalizing s with
  | finish a => exact ⟨by simp [exchanges], hLeads, hInitial⟩
  | call c next ih =>
      rw [yields_call]
      apply (ih (h s c).2 (hLeads.2 _)
        (hCall s c hLeads.1 hInitial)).mono
      intro xs a t hNext
      refine ⟨fun x hx => ?_, hNext.2⟩
      rcases List.mem_cons.1 hx with rfl | hx
      · exact hLeads.1
      · exact hNext.1 x hx

end Action

------------------------------------------------------------
-- Fallible Programs
------------------------------------------------------------

namespace Attempt

open Preview.Action (Leads)

variable {ε ε' α β : Type}
variable {P : Call → Prop}

/- What a result is said to be, by what it holds. -/
def Result (A : α → Prop) (E : ε → Prop) :
    Except ε α → Prop
  | .ok a => A a
  | .error e => E e

/- An error of the first part is the result of both. -/
theorem leads_bind
    (m : Attempt ε α)
    (f : α → Attempt ε β)
    (Q : Except ε β → Prop) :
    Leads P Q (m >>= f).run ↔
      Leads P
        (Result (fun a => Leads P Q (f a).run)
          (fun e => Q (.error e))) m.run := by
  have hRun : (m >>= f).run =
      Action.bind m.run (fun r => match r with
        | .ok a => (f a).run
        | .error e => .finish (.error e)) := rfl
  rw [hRun, Action.leads_bind]
  constructor
  · intro h
    apply h.mono (fun _ => id)
    intro r hr
    cases r <;> exact hr
  · intro h
    apply h.mono (fun _ => id)
    intro r hr
    cases r <;> exact hr

/- A change of errors leaves the calls as they are. -/
theorem leads_mapError
    (f : ε → ε')
    (m : Attempt ε α)
    (Q : Except ε' α → Prop) :
    Leads P Q (m.mapError f).run ↔
      Leads P (fun r => Q (r.mapError f)) m.run :=
  Action.leads_bind m.run _ Q

/- A result that is there is gone on with. -/
theorem ofExcept_bind
    (a : α)
    (f : α → Attempt ε β) :
    (ofExcept (.ok a) >>= f) = f a :=
  rfl

/- A program goes on with the result of another one. -/
theorem run_lift_bind
    (m : Action α)
    (f : α → Attempt ε β) :
    ((monadLift m : Attempt ε α) >>= f).run =
      Action.bind m (fun a => (f a).run) :=
  Action.bind_assoc m _ _

/- A program stops with its first error. -/
theorem yields_bind
    {σ : Type}
    (h : Action.Handler σ)
    (m : Attempt ε α)
    (f : α → Attempt ε β)
    (s : σ)
    (Post : List Exchange → Except ε β → σ → Prop) :
    (m >>= f).run.Yields h s Post ↔
      m.run.Yields h s fun xs r t =>
        match r with
        | .ok a =>
            (f a).run.Yields h t fun ys b u =>
              Post (xs ++ ys) b u
        | .error e => Post xs (.error e) t := by
  have hRun : (m >>= f).run =
      Action.bind m.run (fun r => match r with
        | .ok a => (f a).run
        | .error e => .finish (.error e)) := rfl
  rw [hRun, Action.yields_bind]
  constructor <;>
  · intro hFirst
    apply hFirst.mono
    intro xs r t hRest
    cases r with
    | ok a => exact hRest
    | error e => simpa [Action.Yields, Action.exchanges,
        Action.eval] using hRest

/- Reporting failures in other terms takes no call. -/
theorem yields_mapError
    {σ : Type}
    (h : Action.Handler σ)
    (f : ε → ε')
    (m : Attempt ε α)
    (s : σ)
    (Post : List Exchange → Except ε' α → σ → Prop) :
    (m.mapError f).run.Yields h s Post ↔
      m.run.Yields h s fun xs r t =>
        Post xs (r.mapError f) t := by
  have hRun : (m.mapError f).run =
      Action.bind m.run (fun r => .finish (r.mapError f)) := rfl
  rw [hRun, Action.yields_bind]
  simp only [Action.Yields, Action.exchanges, Action.eval,
    List.append_nil]

section Results

variable {σ : Type} {h : Action.Handler σ}
variable {m : Attempt ε α} {s t : σ}

/- The second part runs if the first has not failed. -/
theorem eval_bind (f : α → Attempt ε β) :
    (m >>= f).run.eval h s =
      match m.run.eval h s with
      | (t, .ok a) => (f a).run.eval h t
      | (t, .error e) => (t, .error e) := by
  have hRun : (m >>= f).run =
      Action.bind m.run (fun r => match r with
        | .ok a => (f a).run
        | .error e => .finish (.error e)) := rfl
  rw [hRun, Action.eval_bind]
  rcases m.run.eval h s with ⟨t, r⟩
  cases r <;> rfl

/- What follows runs on the result of what went well. -/
theorem eval_bind_of_ok
    {a : α}
    (hOk : m.run.eval h s = (t, .ok a))
    (f : α → Attempt ε β) :
    (m >>= f).run.eval h s = (f a).run.eval h t := by
  rw [eval_bind, hOk]

/- A program stops with its first error. -/
theorem eval_bind_of_error
    {e : ε}
    (hError : m.run.eval h s = (t, .error e))
    (f : α → Attempt ε β) :
    (m >>= f).run.eval h s = (t, .error e) := by
  rw [eval_bind, hError]

theorem eval_mapError (f : ε → ε') :
    (m.mapError f).run.eval h s =
      ((m.run.eval h s).1,
        (m.run.eval h s).2.mapError f) :=
  Action.eval_bind h m.run _ s

end Results

/- All calls of a program are of one kind, and so are its
   errors. -/
def Within
    (P : Call → Prop)
    (E : ε → Prop)
    (m : Attempt ε α) : Prop :=
  Leads P (Result (fun _ => True) E) m.run

namespace Within

variable {E : ε → Prop}

theorem pure (a : α) :
    Within P E (Pure.pure a : Attempt ε α) :=
  trivial

theorem throw
    {e : ε}
    (hError : E e) :
    Within P E (MonadExcept.throw e : Attempt ε α) :=
  hError

theorem bind
    {m : Attempt ε α}
    {f : α → Attempt ε β}
    (hFirst : Within P E m)
    (hRest : ∀ a, Within P E (f a)) :
    Within P E (m >>= f) := by
  refine (leads_bind m f _).2
    (hFirst.mono (fun _ => id) ?_)
  intro r hr
  cases r with
  | ok a => exact hRest a
  | error e => exact hr

theorem forM
    {f : β → Attempt ε PUnit}
    {xs : List β}
    (hEach : ∀ x ∈ xs, Within P E (f x)) :
    Within P E (xs.forM f) := by
  induction xs with
  | nil => exact pure _
  | cons x xs ih =>
      exact bind (hEach x (List.mem_cons_self ..)) fun _ =>
        ih fun y hy => hEach y (List.mem_cons_of_mem _ hy)

theorem ofAction
    {m : Action (Except ε α)}
    (hCalls : Leads P (fun _ => True) m)
    (hError : ∀ e, E e) :
    Within P E (Attempt.ofAction m) := by
  apply hCalls.mono (fun _ => id)
  intro r _
  cases r with
  | ok a => trivial
  | error e => exact hError e

theorem lift
    {m : Action α}
    (hCalls : Leads P (fun _ => True) m) :
    Within P E (monadLift m : Attempt ε α) :=
  (Action.leads_bind m _ _).2
    (hCalls.mono (fun _ => id) fun _ _ => trivial)

/- The errors are bounded by what they are made into. -/
theorem mapError
    {E' : ε' → Prop}
    {m : Attempt ε α}
    {f : ε → ε'}
    (hWithin : Within P E m)
    (hError : ∀ e, E e → E' (f e)) :
    Within P E' (m.mapError f) := by
  refine (leads_mapError f m _).2
    (hWithin.mono (fun _ => id) ?_)
  intro r hr
  cases r with
  | ok a => trivial
  | error e => exact hError e hr

end Within

end Attempt

end Preview
