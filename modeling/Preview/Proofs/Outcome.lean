import Preview.Proofs.Claiming

/-
  How a deploy run ends on a store that may fail.

  Every call of the store takes effect, or fails and leaves
  the store as it is.  A run that goes through this ends in
  one of four ways, which its result, its record and its last
  call of the store tell apart.

  Main declarations:
    * `Store.Unsteady`
    * `Outcome` and `Outcome.Fits`
    * `Entered`, `Lapsed` and `course_yields`
    * `Service.deploy_outcome`
-/

namespace Preview

open Preview.Action (Handler eval exchanges)

------------------------------------------------------------
-- Stores That May Fail
------------------------------------------------------------

/- The reply of a call that has failed. -/
def Store.Call.failure (e : StoreError) :
    (c : Store.Call) → c.Reply
  | value _ => .error e
  | values _ => .error e
  | set _ _ => .error e
  | erase _ => .error e
  | swap _ _ _ => .error e

namespace Store

variable {σ : Type}

/-
  A state holds a store whose calls take effect, or fail and
  leave it as it is.  Other calls leave it as it is.
-/
structure Unsteady (h : Handler σ) (view : σ → Store) :
    Prop where
  acts : ∀ s (c : Call),
    (view (h s (.store c)).1, (h s (.store c)).2) =
        (view s).perform c ∨
      (view (h s (.store c)).1 = view s ∧
        ∃ e, (h s (.store c)).2 = c.failure e)
  stays : ∀ s (c : Preview.Call), c.isStore = false →
    view (h s c).1 = view s

/- A read of a store changes nothing. -/
theorem perform_value_cases (s : Store) (path : String) :
    (s.perform (.value path)).1 = s ∧
      ((s.perform (.value path)).2 = .ok (s.content? path) ∨
        ∃ e, (s.perform (.value path)).2 = .error e) := by
  refine ⟨rfl, ?_⟩
  cases hKey : key path with
  | ok k =>
      left
      rw [perform_value (by rw [hKey]; rfl)]
  | error e =>
      right
      exact ⟨e, by simp only [perform, value, hKey]; rfl⟩

/- A write stores its text, or fails and changes nothing. -/
theorem perform_set_cases (s : Store) (path text : String) :
    ((s.perform (.set path text)).2 = .ok () ∧
        (s.perform (.set path text)).1.content? path =
          some text) ∨
      ((s.perform (.set path text)).1 = s ∧
        ∃ e, (s.perform (.set path text)).2 = .error e) := by
  cases hKey : key path with
  | ok k =>
      left
      rcases perform_set (by rw [hKey]; rfl) s text with
          ⟨t, hPerform, hContent⟩
      rw [hPerform]
      exact ⟨rfl, hContent⟩
  | error e =>
      right
      simp only [perform, set, hKey]
      exact ⟨rfl, e, rfl⟩

/- A swap stores its text, or misses or fails and changes
   nothing. -/
theorem perform_swap_cases
    (s : Store)
    (path : String)
    (expected : Option String)
    (text : String) :
    ((s.perform (.swap path expected text)).2 = .ok true ∧
        (s.perform
          (.swap path expected text)).1.content? path =
            some text) ∨
      ((s.perform (.swap path expected text)).1 = s ∧
        ((s.perform (.swap path expected text)).2 =
            .ok false ∨
          ∃ e, (s.perform (.swap path expected text)).2 =
            .error e)) := by
  cases hKey : key path with
  | ok k =>
      have hOk : (key path).isOk = true := by rw [hKey]; rfl
      by_cases hSame : s.content? path = expected
      · left
        rcases perform_swap_of_eq hOk s text with
            ⟨t, hPerform, hContent⟩
        rw [← hSame, hPerform]
        exact ⟨rfl, hContent⟩
      · right
        rw [perform_swap_of_ne hOk s hSame]
        exact ⟨rfl, .inl rfl⟩
  | error e =>
      right
      simp only [perform, swap, hKey]
      exact ⟨rfl, .inr ⟨e, rfl⟩⟩

/- A removal leaves nothing, or fails and changes nothing. -/
theorem perform_erase_cases (s : Store) (path : String) :
    (∃ removed,
        (s.perform (.erase path)).2 = .ok removed ∧
          (s.perform (.erase path)).1.content? path = none) ∨
      ((s.perform (.erase path)).1 = s ∧
        ∃ e, (s.perform (.erase path)).2 = .error e) := by
  cases hKey : key path with
  | ok k =>
      left
      rcases perform_erase (by rw [hKey]; rfl) s with
          ⟨t, hPerform, hContent⟩
      rw [hPerform]
      exact ⟨_, rfl, hContent⟩
  | error e =>
      right
      simp only [perform, erase, hKey]
      exact ⟨rfl, e, rfl⟩

namespace Unsteady

variable {h : Handler σ} {view : σ → Store}

theorem value_cases
    (hStore : Unsteady h view)
    (s : σ)
    (path : String) :
    view (h s (.store (.value path))).1 = view s ∧
      ((h s (.store (.value path))).2 =
          .ok ((view s).content? path) ∨
        ∃ e, (h s (.store (.value path))).2 = .error e) := by
  rcases hStore.acts s (.value path) with hActs | hFails
  · have hCases := (view s).perform_value_cases path
    rw [← hActs] at hCases
    exact hCases
  · exact ⟨hFails.1, .inr hFails.2⟩

/- A write on an unsteady store is acknowledged and then seen,
   or not done. -/
theorem set_cases
    (hStore : Unsteady h view)
    (s : σ)
    (path text : String) :
    ((h s (.store (.set path text))).2 = .ok () ∧
        (view (h s (.store (.set path text))).1).content?
          path = some text) ∨
      (view (h s (.store (.set path text))).1 = view s ∧
        ∃ e, (h s (.store (.set path text))).2 =
          .error e) := by
  rcases hStore.acts s (.set path text) with hActs | hFails
  · have hCases := (view s).perform_set_cases path text
    rw [← hActs] at hCases
    exact hCases
  · exact .inr hFails

/- So is a swap, which may also miss. -/
theorem swap_cases
    (hStore : Unsteady h view)
    (s : σ)
    (path : String)
    (expected : Option String)
    (text : String) :
    ((h s (.store (.swap path expected text))).2 = .ok true ∧
        (view (h s (.store
          (.swap path expected text))).1).content? path =
            some text) ∨
      (view (h s (.store (.swap path expected text))).1 =
          view s ∧
        ((h s (.store (.swap path expected text))).2 =
            .ok false ∨
          ∃ e, (h s (.store (.swap path expected text))).2 =
            .error e)) := by
  rcases hStore.acts s (.swap path expected text) with
    hActs | hFails
  · have hCases :=
      (view s).perform_swap_cases path expected text
    rw [← hActs] at hCases
    exact hCases
  · exact .inr ⟨hFails.1, .inr hFails.2⟩

theorem erase_cases
    (hStore : Unsteady h view)
    (s : σ)
    (path : String) :
    (∃ removed,
        (h s (.store (.erase path))).2 = .ok removed ∧
          (view (h s (.store (.erase path))).1).content?
            path = none) ∨
      (view (h s (.store (.erase path))).1 = view s ∧
        ∃ e, (h s (.store (.erase path))).2 = .error e) := by
  rcases hStore.acts s (.erase path) with hActs | hFails
  · have hCases := (view s).perform_erase_cases path
    rw [← hActs] at hCases
    exact hCases
  · exact .inr hFails

end Unsteady

/- A store with a schedule that tells which calls fail, in an
   environment where all else succeeds. -/
def flaky : Handler (Store × List Bool)
  | (s, schedule), .store c =>
      if schedule.head? = some true then
        ((s, schedule.tail), c.failure .timeout)
      else (((s.perform c).1, schedule.tail), (s.perform c).2)
  | state, c => (state, c.calm)

/- Failing on schedule is one way to be unsteady. -/
theorem flaky_unsteady : Unsteady flaky Prod.fst where
  acts := by
    intro ⟨s, schedule⟩ c
    by_cases hFails : schedule.head? = some true
    · right
      simp only [flaky, if_pos hFails]
      exact ⟨trivial, .timeout, rfl⟩
    · left
      simp only [flaky, if_neg hFails]
  stays := by
    intro state c hOutside
    cases c with
    | store c => cases hOutside
    | _ => rfl

end Store

------------------------------------------------------------
-- Outcomes
------------------------------------------------------------

/- The last call of a store, with its reply. -/
def lastStored (xs : List Exchange) : Option Exchange :=
  xs.reverse.find? (fun x => x.call.isStore)

theorem lastStored_append (xs ys : List Exchange) :
    lastStored (xs ++ ys) =
      (lastStored ys).or (lastStored xs) := by
  unfold lastStored
  rw [List.reverse_append, List.find?_append]

/- A claim has been stored. -/
def HasClaimed (xs : List Exchange) : Prop :=
  ∃ x ∈ xs, x.call.isForClaim = true ∧ x.wrote = true

/- A claim is made before the work of a run. -/
theorem hasClaimed_append
    {ys : List Exchange}
    (hLater : ∀ y ∈ ys, y.call.isForClaim = false)
    (xs : List Exchange) :
    HasClaimed (xs ++ ys) ↔ HasClaimed xs := by
  constructor
  · rintro ⟨x, hx, hForClaim, hWrote⟩
    rcases List.mem_append.1 hx with hx | hx
    · exact ⟨x, hx, hForClaim, hWrote⟩
    · rw [hLater x hx] at hForClaim
      cases hForClaim
  · rintro ⟨x, hx, hClaim⟩
    exact ⟨x, List.mem_append_left _ hx, hClaim⟩

/- No call of the cluster was made, and nothing written. -/
def Harmless (xs : List Exchange) : Prop :=
  ∀ x ∈ xs, x.call.isCluster = false ∧ x.wrote = false

theorem Harmless.not_hasClaimed
    {xs : List Exchange}
    (hHarmless : Harmless xs) :
    ¬ HasClaimed xs := by
  rintro ⟨x, hx, -, hWrote⟩
  rw [(hHarmless x hx).2] at hWrote
  cases hWrote

theorem Harmless.append
    {xs ys : List Exchange}
    (hFirst : Harmless xs)
    (hRest : Harmless ys) :
    Harmless (xs ++ ys) := by
  intro x hx
  rcases List.mem_append.1 hx with hx | hx
  · exact hFirst x hx
  · exact hRest x hx

theorem harmless_singleton
    {x : Exchange}
    (hCluster : x.call.isCluster = false)
    (hWrote : x.wrote = false) :
    Harmless [x] := by
  intro y hy
  rw [List.mem_singleton.1 hy]
  exact ⟨hCluster, hWrote⟩

/- How a deploy run may end. -/
inductive Outcome where
  | refused
  | deployed
  | failed
  | unsaved
deriving DecidableEq, Repr

section Outcomes

variable (s : Service) (i : Instance)

/- The call that stores a status of a copy. -/
def savingOf (status : Status) : Store.Call :=
  .set (s.repository.path i.identity)
    { i with status : Instance }.record

/- The errors that are a run's own: of a render, of a step, or
   of storing that the instance is deployed. -/
def IsOwn (xs : List Exchange) (e : Error) : Prop :=
  e.IsRender ∨ e.IsStep ∨
    ∃ cause, e = .store cause ∧
      ⟨.store (savingOf s i .deployed), Except.error cause⟩ ∈ xs

/-
  What an outcome says about a run that began with one store
  and ended with another:
    * refused: an error before the claim, no cluster call, and
      nothing written
    * deployed: no error, and the copy is deployed
    * failed: an error of its own, and the copy is in error,
      which was the last call of the store
    * unsaved: the error of that last call, and the copy is
      deploying if the claim was stored, or else nothing is
      changed
-/
def Outcome.Fits
    (before after : Store)
    (xs : List Exchange)
    (result : Except Error Unit) : Outcome → Prop
  | refused =>
      Refused result ∧
        Harmless xs ∧
        after = before
  | deployed =>
      result = .ok () ∧
        after.content? (s.repository.path i.identity) =
          some { i with status := .deployed : Instance }.record
  | failed =>
      ∃ e, result = .error e ∧
        IsOwn s i xs e ∧
        lastStored xs =
          some ⟨.store (savingOf s i .error), Except.ok ()⟩ ∧
        after.content? (s.repository.path i.identity) =
          some { i with status := .error : Instance }.record
  | unsaved =>
      ∃ e, result = .error (.store e) ∧
        lastStored xs =
          some ⟨.store (savingOf s i .error),
            Except.error e⟩ ∧
        (HasClaimed xs →
          after.content? (s.repository.path i.identity) =
            some { i with status := .deploying :
              Instance }.record) ∧
        (¬ HasClaimed xs → after = before)

/- What tells the outcome of a run. -/
def Outcome.ofRun
    (xs : List Exchange) :
    Except Error Unit → Outcome
  | .ok () => deployed
  | .error e =>
      if e.isRefusal then refused
      else if (lastStored xs).any Exchange.wrote then failed
      else unsaved

theorem IsOwn.not_isRefusal
    {xs : List Exchange}
    {e : Error}
    (hOwn : IsOwn s i xs e) :
    e.isRefusal = false := by
  rcases hOwn with ⟨_, _, rfl⟩ | ⟨_, _, rfl⟩ | ⟨_, rfl, _⟩ <;>
    rfl

/- An error stays a run's own when more is said. -/
theorem IsOwn.append
    {xs : List Exchange}
    {e : Error}
    (hOwn : IsOwn s i xs e)
    (ys : List Exchange) :
    IsOwn s i (xs ++ ys) e := by
  rcases hOwn with hRender | hStep | ⟨cause, rfl, hSaving⟩
  · exact .inl hRender
  · exact .inr (.inl hStep)
  · exact .inr (.inr
      ⟨cause, rfl, List.mem_append_left _ hSaving⟩)

/- A run has no other outcome than the one that it tells. -/
theorem Outcome.Fits.eq_ofRun
    {before after : Store}
    {xs : List Exchange}
    {result : Except Error Unit}
    {o : Outcome}
    (hFits : o.Fits s i before after xs result) :
    o = ofRun xs result := by
  cases o with
  | refused =>
      rcases hFits with ⟨⟨e, rfl, hRefusal⟩, _⟩
      simp only [ofRun, hRefusal, if_true]
  | deployed =>
      rcases hFits with ⟨rfl, _⟩
      rfl
  | failed =>
      rcases hFits with ⟨e, rfl, hOwn, hLast, _⟩
      simp only [ofRun, IsOwn.not_isRefusal s i hOwn, hLast]
      rfl
  | unsaved =>
      rcases hFits with ⟨e, rfl, hLast, _⟩
      simp only [ofRun, hLast]
      rfl

/-
  What a run has done that begins with its work: no call of
  the cluster, and either its claim is what is stored, or
  nothing was written.
-/
structure Entered
    (job : Job)
    (before : Store)
    (xs : List Exchange)
    (after : Store) : Prop where
  hQuiet : ∀ x ∈ xs, x.call.isCluster = false
  hWritten : HasClaimed xs →
    after.content? (s.repository.path i.identity) =
      some (job.claimRecord i)
  hUnwritten : ¬ HasClaimed xs → after = before

/- A run that has written nothing goes on without a claim. -/
theorem Entered.of_harmless
    (job : Job)
    {before after : Store}
    {xs : List Exchange}
    (hHarmless : Harmless xs)
    (hSame : after = before) :
    Entered s i job before xs after :=
  ⟨fun x hx => (hHarmless x hx).1,
    fun hClaimed => absurd hClaimed hHarmless.not_hasClaimed,
    fun _ => hSame⟩

/- How a run with some error ends: the error is stored with
   the copy, or the store has failed. -/
inductive Lapsed
    (e : Error)
    (before after : Store)
    (xs : List Exchange) : Except Error Unit → Prop where
  | stored
    (hLast : lastStored xs =
      some ⟨.store (savingOf s i .error), Except.ok ()⟩)
    (hContent :
      after.content? (s.repository.path i.identity) =
        some { i with status := .error : Instance }.record) :
    Lapsed e before after xs (.error e)
  | lost
    (cause : StoreError)
    (hLast : lastStored xs =
      some ⟨.store (savingOf s i .error), Except.error cause⟩)
    (hSame : after = before) :
    Lapsed e before after xs (.error (.store cause))

/- What a run has done before does not change its end. -/
theorem Lapsed.prepend
    {e : Error}
    {before after : Store}
    {xs : List Exchange}
    {result : Except Error Unit}
    (hLapsed : Lapsed s i e before after xs result)
    (ys : List Exchange) :
    Lapsed s i e before after (ys ++ xs) result := by
  cases hLapsed with
  | stored hLast hContent =>
      exact .stored (by rw [lastStored_append, hLast]; rfl)
        hContent
  | lost cause hLast hSame =>
      exact .lost cause (by rw [lastStored_append, hLast]; rfl)
        hSame

/- How a run ends that has gone on with its claim. -/
inductive Carried
    (before after : Store)
    (xs : List Exchange) : Except Error Unit → Prop where
  | deployed
    (hContent :
      after.content? (s.repository.path i.identity) =
        some { i with status := .deployed :
          Instance }.record) :
    Carried before after xs (.ok ())
  | failed
    (e : Error)
    (hOwn : IsOwn s i xs e)
    (hLast : lastStored xs =
      some ⟨.store (savingOf s i .error), Except.ok ()⟩)
    (hContent :
      after.content? (s.repository.path i.identity) =
        some { i with status := .error : Instance }.record) :
    Carried before after xs (.error e)
  | unsaved
    (e : StoreError)
    (hLast : lastStored xs =
      some ⟨.store (savingOf s i .error), Except.error e⟩)
    (hSame : after = before) :
    Carried before after xs (.error (.store e))

/- What was asked before does not undo what a run has done. -/
theorem Carried.prepend
    {before after : Store}
    {xs : List Exchange}
    {result : Except Error Unit}
    (hCarried : Carried s i before after xs result)
    (ys : List Exchange) :
    Carried s i before after (ys ++ xs) result := by
  cases hCarried with
  | deployed hContent => exact .deployed hContent
  | failed e hOwn hLast hContent =>
      refine .failed e ?_ (by rw [lastStored_append, hLast]; rfl)
        hContent
      rcases hOwn with hRender | hStep | ⟨cause, rfl, hSaving⟩
      · exact .inl hRender
      · exact .inr (.inl hStep)
      · exact .inr (.inr
          ⟨cause, rfl, List.mem_append_right _ hSaving⟩)
  | unsaved e hLast hSame =>
      exact .unsaved e (by rw [lastStored_append, hLast]; rfl)
        hSame

/- A run that has gone on has one of the outcomes that follow
   a claim. -/
theorem Carried.fits
    {before middle after : Store}
    {xs ys : List Exchange}
    {result : Except Error Unit}
    (hCarried : Carried s i middle after xs result)
    (hWritten : HasClaimed (ys ++ xs) →
      middle.content? (s.repository.path i.identity) =
        some { i with status := .deploying : Instance }.record)
    (hUnwritten : ¬ HasClaimed (ys ++ xs) → middle = before) :
    ∃ o : Outcome,
      o.Fits s i before after (ys ++ xs) result := by
  cases hCarried.prepend s i ys with
  | deployed hContent =>
      exact ⟨.deployed, rfl, hContent⟩
  | failed e hOwn hLast hContent =>
      exact ⟨.failed, e, rfl, hOwn, hLast, hContent⟩
  | unsaved e hLast hSame =>
      refine ⟨.unsaved, e, rfl, hLast, fun hClaimed => ?_,
        fun hNot => ?_⟩
      · rw [hSame]
        exact hWritten hClaimed
      · rw [hSame]
        exact hUnwritten hNot

end Outcomes

------------------------------------------------------------
-- The Outcome of a Run
------------------------------------------------------------

/- A playbook of a valid catalog is valid. -/
theorem Service.playbook_valid
    {s : Service}
    (hCatalog : s.catalog.Valid)
    {id : String}
    {p : Playbook}
    (hBook : s.playbook id = .ok p) :
    p.validate s.catalog.manifests = .ok () := by
  unfold Service.playbook at hBook
  cases hFound : s.catalog.get? id with
  | none =>
      rw [hFound] at hBook
      cases hBook
  | some q =>
      rw [hFound] at hBook
      cases hBook
      exact hCatalog _ _ hFound

section Runs

variable {σ : Type} {h : Handler σ} {view : σ → Store}
variable (hStore : Store.Unsteady h view)
variable (s : Service) (i : Instance)

include hStore

/- A message leaves the store as it is. -/
theorem view_send
    (start : σ)
    (n : Notification) :
    view (h start (.send n)).1 = view start :=
  hStore.stays start (.send n) rfl

/- A run that has failed stores that, or the store fails. -/
theorem lapsing_yields
    (job : Job)
    (start : σ)
    (e : Error) :
    (job.failing s i e).Yields h start fun xs result t =>
      (∀ x ∈ xs, x.call.isForClaim = false ∧
        x.call.isCluster = false) ∧
        Lapsed s i e (view start) (view t) xs result := by
  unfold Job.failing
  rw [Action.yields_call]
  rcases hStore.set_cases start
    (s.repository.path i.identity)
    { i with status := .error : Instance }.record with
    ⟨hReply, hContent⟩ | ⟨hSame, cause, hReply⟩
  · rw [hReply, Action.yields_call]
    refine ⟨by simp [exchanges, Call.isForClaim,
      Call.isCluster], .stored rfl ?_⟩
    rw [← hContent]
    exact congrArg (Store.content? · _)
      (view_send hStore _ _)
  · rw [hReply, Action.yields_call]
    refine ⟨by simp [exchanges, Call.isForClaim,
      Call.isCluster], .lost cause rfl ?_⟩
    exact (view_send hStore _ _).trans hSame

/- A run that is refused ends at once, and one that is not
   goes on when it has tried to claim. -/
theorem proceed_yields
    (job : Job)
    {p : Playbook}
    (seen : Option String)
    {before : Store}
    {ys : List Exchange}
    (hHarmless : Harmless ys)
    {start : σ}
    (hSame : view start = before)
    {Post : List Exchange → Except Error Unit → σ → Prop}
    (hRefused : ∀ xs e t, e.isRefusal = true → Harmless xs →
      view t = before → Post xs (.error e) t)
    (hStarted : ∀ xs t, Entered s i job before xs (view t) →
      (job.start s p i).Yields h t fun zs result u =>
        Post (xs ++ zs) result u) :
    (job.proceed s p i seen).Yields h start fun xs result t =>
      Post (ys ++ xs) result t := by
  have hRefuse (xs : List Exchange) (hFirst : Harmless xs)
      (e : Error) (hRefusal : e.isRefusal = true) (t : σ)
      (hKept : view t = before) :
      (job.refuse i e).Yields h t fun zs result u =>
        Post (xs ++ zs) result u :=
    hRefused _ e _ hRefusal
      (hFirst.append (harmless_singleton rfl rfl))
      ((view_send hStore t _).trans hKept)
  cases hSeen : job.objection? s.repository i.identity
      seen with
  | some e =>
      rw [Job.proceed_of_objection hSeen]
      exact hRefuse ys hHarmless e
        (Job.objection?_isRefusal hSeen) start hSame
  | none =>
      rw [Job.proceed_of_free hSeen, Action.yields_call]
      -- the swap stores the claim, misses or fails; the run
      -- goes on unless it misses
      rcases hStore.swap_cases start
        (s.repository.path i.identity) seen
        (job.claimRecord i) with
        ⟨hReply, hContent⟩ | ⟨hKept, hReply⟩
      · rw [hReply, Job.afterSwap_stored]
        apply (hStarted
          (ys ++ [⟨.store (.swap (s.repository.path i.identity)
            seen (job.claimRecord i)), Except.ok true⟩]) _
          ⟨fun x hx => ?_, fun _ => hContent,
            fun hNot => absurd ?_ hNot⟩).mono
        · intro _ _ _ hPost
          rw [List.append_cons]
          exact hPost
        · rcases List.mem_append.1 hx with hx | hx
          · exact (hHarmless x hx).1
          · rw [List.mem_singleton.1 hx]
            rfl
        · exact ⟨⟨.store (.swap _ _ _), Except.ok true⟩,
            List.mem_append_right _ (.head _), rfl, rfl⟩
      · have hTried (x : Exchange)
            (hCall : x.call = .store
              (.swap (s.repository.path i.identity) seen
                (job.claimRecord i)))
            (hWrote : x.wrote = false) :
            Harmless (ys ++ [x]) := by
          apply hHarmless.append
          exact harmless_singleton (by rw [hCall]; rfl) hWrote
        rcases hReply with hReply | ⟨e, hReply⟩
        · rw [hReply, Job.afterSwap_missed]
          apply (hRefuse _
            (hTried ⟨_, Except.ok false⟩ rfl rfl) _ rfl _
            (hKept.trans hSame)).mono
          intro _ _ _ hPost
          rw [List.append_cons]
          exact hPost
        · rw [hReply, Job.afterSwap_failed]
          apply (hStarted _ _ (Entered.of_harmless s i job
            (hTried ⟨_, Except.error e⟩ rfl rfl)
            (hKept.trans hSame))).mono
          intro _ _ _ hPost
          rw [List.append_cons]
          exact hPost

/-
  A run is refused before its claim, or does its work with the
  claim stored or not.  What holds of these endings holds of
  every run.
-/
theorem course_yields
    (job : Job)
    (start : σ)
    {Post : List Exchange → Except Error Unit → σ → Prop}
    (hRefused : ∀ xs e t, e.isRefusal = true → Harmless xs →
      view t = view start → Post xs (.error e) t)
    (hStarted : ∀ p,
      s.playbook i.identity.playbook = .ok p →
      ∀ xs t, Entered s i job (view start) xs (view t) →
        (job.start s p i).Yields h t fun zs result u =>
          Post (xs ++ zs) result u) :
    (job.program s i).Yields h start Post := by
  have hRefuse (e : Error) (hRefusal : e.isRefusal = true) :
      (job.refuse i e).Yields h start Post :=
    hRefused _ e _ hRefusal (harmless_singleton rfl rfl)
      (view_send hStore start _)
  cases hBook : s.playbook i.identity.playbook with
  | error e =>
      rw [Job.program_of_unknown s i job hBook]
      exact hRefuse e (Service.playbook_error hBook)
  | ok p =>
      by_cases hBusy : i.status ∈ job.busy
      · rw [Job.program_of_busy s i job hBook hBusy]
        exact hRefuse _ rfl
      · rw [Job.program_of_free s i job hBook hBusy,
          Action.yields_call]
        rcases hStore.value_cases start
          (s.repository.path i.identity) with
          ⟨hSame, hReply | ⟨e, hReply⟩⟩
        · rw [hReply, Job.afterValue_read]
          exact proceed_yields hStore s i job _
            (harmless_singleton rfl rfl) hSame hRefused
            (hStarted p hBook)
        · rw [hReply, Job.afterValue_failed]
          exact hStarted p hBook _ _ (Entered.of_harmless s i
            job (harmless_singleton rfl rfl) hSame)

/- A deploy run that has failed leaves that behind. -/
theorem failing_yields
    (start : σ)
    (ys : List Exchange)
    {e : Error}
    (hOwn : IsOwn s i ys e) :
    (Job.deploy.failing s i e).Yields h start
      fun xs result t =>
        (∀ x ∈ xs, x.call.isForClaim = false) ∧
          Carried s i (view start) (view t) (ys ++ xs)
            result := by
  apply (lapsing_yields hStore s i .deploy start e).mono
  intro xs result t hEnd
  rcases hEnd with ⟨hCalls, hLapsed⟩
  refine ⟨fun x hx => (hCalls x hx).1, ?_⟩
  cases hLapsed.prepend s i ys with
  | stored hLast hContent =>
      exact .failed e (hOwn.append s i xs) hLast hContent
  | lost cause hLast hSame => exact .unsaved cause hLast hSame

/- A run whose plan is deployed stores that, or fails with
   the error of the store. -/
theorem saving_yields
    (start : σ)
    (p : Playbook) :
    (Job.saving s i p).Yields h start fun xs result t =>
      (∀ x ∈ xs, x.call.isForClaim = false) ∧
        Carried s i (view start) (view t) xs result := by
  unfold Job.saving
  rw [Action.yields_call]
  rcases hStore.set_cases start
    (s.repository.path i.identity)
    { i with status := .deployed : Instance }.record with
    ⟨hReply, hContent⟩ | ⟨hSame, cause, hReply⟩
  · rw [hReply, Action.yields_call]
    refine ⟨by simp [exchanges, Call.isForClaim], ?_⟩
    apply Carried.deployed
    rw [← hContent]
    exact congrArg (Store.content? · _) (view_send hStore _ _)
  · rw [hReply]
    have hOwn : IsOwn s i
        [⟨.store (savingOf s i .deployed),
          Except.error cause⟩] (.store cause) :=
      .inr (.inr ⟨cause, rfl, List.mem_singleton_self _⟩)
    apply (failing_yields hStore s i _ _ hOwn).mono
    intro xs result t hFailing
    constructor
    · intro x hx
      rcases List.mem_cons.1 hx with rfl | hx
      · rfl
      · exact hFailing.1 x hx
    · rw [← hSame]
      exact hFailing.2

/- A run that goes on with its claim does no more to the
   record until it has its result. -/
theorem start_yields
    (hCatalog : s.catalog.Valid)
    {p : Playbook}
    (hBook : s.playbook i.identity.playbook = .ok p)
    (start : σ) :
    (Job.deploy.start s p i).Yields h start fun xs result t =>
      (∀ x ∈ xs, x.call.isForClaim = false) ∧
        Carried s i (view start) (view t) xs result := by
  rw [Job.start_deploy]
  cases hPlan : Plan.build s.render p i.vars
      s.catalog.manifests with
  | error e =>
      exact failing_yields hStore s i start []
        (.inl (Plan.build_error_of_valid
          (Service.playbook_valid hCatalog hBook) hPlan))
  | ok plan =>
      dsimp only
      rw [Action.yields_bind]
      have hDeploy :=
        Action.Leads.yields (plan.deploy_within s.context) h
          (I := fun t => view t = view start)
          (fun t c hOutside hSame =>
            (hStore.stays t c hOutside).trans hSame)
          (s := start) rfl
      apply hDeploy.mono
      intro xs outcome middle hMiddle
      rcases hMiddle with ⟨hCalls, hResult, hSame⟩
      have hOutside : ∀ x ∈ xs, x.call.isForClaim = false := by
        intro x hx
        exact Call.not_isForClaim_of_not_isStore (hCalls x hx)
      cases outcome with
      | error e =>
          apply (failing_yields hStore s i middle xs
            (.inr (.inl hResult))).mono
          intro zs result t hRest
          rw [← hSame]
          refine ⟨fun x hx => ?_, hRest.2⟩
          rcases List.mem_append.1 hx with hx | hx
          · exact hOutside x hx
          · exact hRest.1 x hx
      | ok _ =>
          apply (saving_yields hStore s i middle p).mono
          intro zs result t hRest
          rw [← hSame]
          refine ⟨fun x hx => ?_, hRest.2.prepend s i xs⟩
          rcases List.mem_append.1 hx with hx | hx
          · exact hOutside x hx
          · exact hRest.1 x hx

/- A deploy run is refused, or goes on whatever comes of its
   claim. -/
theorem program_yields
    (hCatalog : s.catalog.Valid)
    (start : σ) :
    (Job.deploy.program s i).Yields h start fun xs result t =>
      ∃ o : Outcome,
        o.Fits s i (view start) (view t) xs result := by
  apply course_yields hStore s i .deploy start
  · intro xs e t hRefusal hHarmless hSame
    exact ⟨.refused, ⟨e, rfl, hRefusal⟩, hHarmless, hSame⟩
  · intro p hBook ys t hEntered
    apply (start_yields hStore s i hCatalog hBook t).mono
    intro xs result u hRest
    have hClaimed := hasClaimed_append hRest.1 ys
    exact hRest.2.fits s i
      (fun h => hEntered.hWritten (hClaimed.1 h))
      fun h => hEntered.hUnwritten fun h' => h (hClaimed.2 h')

end Runs

/-
  A deploy run on a store that may fail has exactly one
  outcome.  A claim that it has stored is what it leaves
  behind only if the error could not be stored either.
-/
theorem Service.deploy_outcome
    {σ : Type}
    {h : Handler σ}
    {view : σ → Store}
    (hStore : Store.Unsteady h view)
    (s : Service)
    (hCatalog : s.catalog.Valid)
    (i : Instance)
    (start : σ) :
    (s.deploy i).run.Yields h start fun xs result t =>
      (∃! o : Outcome,
        o.Fits s i (view start) (view t) xs result) ∧
      (HasClaimed xs →
        (view t).content? (s.repository.path i.identity) =
          some { i with status := .deploying :
            Instance }.record →
        Outcome.unsaved.Fits s i (view start) (view t) xs
          result) := by
  apply (program_yields hStore s i hCatalog start).mono
  intro xs result t hOutcome
  rcases hOutcome with ⟨o, hFits⟩
  constructor
  · refine ⟨o, hFits, ?_⟩
    intro o' hFits'
    rw [hFits.eq_ofRun, hFits'.eq_ofRun]
  · intro hClaimed hContent
    cases o with
    | refused =>
        exact absurd hClaimed hFits.2.1.not_hasClaimed
    | deployed =>
        have hRecord := hContent.symm.trans hFits.2
        cases congrArg Instance.status
          (Instance.record_injective
            (Option.some.inj hRecord))
    | failed =>
        rcases hFits with ⟨e, -, -, -, hStored⟩
        have hRecord := hContent.symm.trans hStored
        cases congrArg Instance.status
          (Instance.record_injective
            (Option.some.inj hRecord))
    | unsaved => exact hFits

/- A run on a store of which no call fails, on one that fails
   when the run claims and when it first saves, and on one
   that fails whenever the run saves. -/
theorem Service.deploy_outcome_flaky :
    Store.Unsteady Store.flaky Prod.fst ∧
      (single (plainManifest "app")).catalog.Valid ∧
      ∀ schedule o,
        (schedule, o) ∈
          [([], .deployed), ([false, true, true], .failed),
            ([false, false, true, true], .unsaved)] →
        ((single (plainManifest "app")).deploy
          (.ofBranch "main")).run.Yields Store.flaky
            (Store.empty, schedule)
            fun xs result t =>
              Outcome.Fits (single (plainManifest "app"))
                (.ofBranch "main") Store.empty t.1 xs result o ∧
              (∃! o : Outcome,
                o.Fits (single (plainManifest "app"))
                  (.ofBranch "main") Store.empty t.1 xs
                  result) ∧
              (HasClaimed xs →
                t.1.content?
                    ((single
                      (plainManifest "app")).repository.path
                        ⟨"web", "demo"⟩) =
                  some { Instance.ofBranch "main" with
                    status := .deploying : Instance }.record →
                Outcome.unsaved.Fits
                  (single (plainManifest "app"))
                  (.ofBranch "main") Store.empty t.1 xs
                  result) := by
  refine ⟨Store.flaky_unsteady, single_valid _, ?_⟩
  intro schedule o hListed
  have hOutcome := Service.deploy_outcome Store.flaky_unsteady
    (single (plainManifest "app")) (single_valid _)
    (.ofBranch "main") (Store.empty, schedule)
  rcases hOutcome with ⟨⟨o', hFits, hOnly⟩, hUnsaved⟩
  have hSame : o' = o := by
    refine hFits.eq_ofRun.trans ?_
    simp only [List.mem_cons, List.not_mem_nil, or_false,
      Prod.mk.injEq] at hListed
    rcases hListed with ⟨rfl, rfl⟩ | ⟨rfl, rfl⟩ | ⟨rfl, rfl⟩ <;>
      decide +kernel
  subst hSame
  exact ⟨hFits, ⟨_, hFits, hOnly⟩, hUnsaved⟩

end Preview
