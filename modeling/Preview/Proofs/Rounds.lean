import Preview.Proofs.Execution
import Preview.Proofs.Schedules
import Preview.Sweeper

/-
  How often a sweeper sweeps.

  A round is a wait for the next sweep and the sweep.  As long
  as every sweep is over before the next one is due, all
  rounds begin on time, and their number is known from the
  time at which the sweeper is stopped.  The last sweep may
  still be under way then.

  Nothing is said of who else acts meanwhile: a call may find
  any state that keeps to the clock.

  Main declarations:
    * `Timed` and `World.alone_timed`
    * `Sweeper.round`, `Sweeper.before` and `Sweeper.begun`
    * `Sweeper.sweeps_round` and `Sweeper.sweeps_stop`
    * `Sweeper.runAll_run`
    * `Sweeper.run_rounds`
-/

namespace Preview

open Preview.Action (Handler eval exchanges)

/- A clock shows the time, which passes in a sleep until that is
   over, and not while somebody looks at the clock. -/
structure Timed
    {σ : Type}
    (h : Handler σ)
    (clock : σ → Nat) : Prop where
  shows : ∀ s, (h s .clock).2 = clock s
  looks : ∀ s, clock (h s .clock).1 = clock s
  dates : ∀ s, clock (h s .today).1 = clock s
  sleeps : ∀ s time,
    clock (h s (.sleep time)).1 = max (clock s) time

/- A world by itself has such a clock. -/
theorem World.alone_timed :
    Timed World.stage.alone World.clock := by
  have hClock (w : World) :
      World.stage.alone w .clock = (w, w.clock) :=
    if_pos (Nat.le_refl w.clock)
  have hToday (w : World) :
      World.stage.alone w .today = (w, w.today) :=
    if_pos (Nat.le_refl w.clock)
  constructor
  case shows =>
    intro w
    rw [hClock]
  case looks =>
    intro w
    rw [hClock]
  case dates =>
    intro w
    rw [hToday]
  case sleeps =>
    intro w time
    by_cases hOver : time ≤ w.clock
    · have hSleep :
          World.stage.alone w (.sleep time) = (w, ()) :=
        if_pos hOver
      rw [hSleep]
      exact (Nat.max_eq_left hOver).symm
    · have hSleep : World.stage.alone w (.sleep time) =
          ({ w with clock := time }, ()) :=
        if_neg hOver
      rw [hSleep]
      exact (Nat.max_eq_right (Nat.le_of_not_le hOver)).symm

namespace Sweeper

------------------------------------------------------------
-- Rounds
------------------------------------------------------------

/- Wait until a sweep is due, and ask for the day. -/
def wait (due : Nat) : Action Instant := do
  let _ ← Action.perform .clock
  Action.perform (.sleep due)
  let _ ← Action.perform .clock
  Action.perform .today

/- Wait for a sweep, and sweep. -/
def round (service : Service) (due : Nat) :
    Action (Except Error SweepReport) := do
  let asOf ← wait due
  (service.sweep asOf).run

section Steps

variable {σ : Type} {h : Handler σ} {clock : σ → Nat}
variable (hTimed : Timed h clock)
variable (service : Service) (interval stop fuel : Nat)
variable {due : Nat} (count : Nat) {s : σ}

include hTimed

/- A wait ends when it is due, or at once when that is past. -/
theorem clock_wait (due : Nat) (s : σ) :
    clock (eval h (wait due) s).1 = max (clock s) due := by
  change clock (h (h (h (h s .clock).1 (.sleep due)).1
    .clock).1 .today).1 = _
  rw [hTimed.dates, hTimed.looks, hTimed.sleeps, hTimed.looks]

/- Before it is stopped the sweeper makes a round. -/
theorem sweeps_round
    (hGoes : max due (clock s) < stop)
    (Post : List Exchange → Nat → σ → Prop) :
    (sweeps service interval stop (fuel + 1) due count).Yields
        h s Post ↔
      (sweeps service interval stop fuel
        (nextDue interval due (max (clock s) due))
        (count + 1)).Yields h
          (eval h (round service due) s).1 fun xs n t =>
            Post (exchanges h (round service due) s ++ xs)
              n t := by
  have hNow : ¬ stop ≤ max due (h s .clock).2 := by
    rw [hTimed.shows]
    exact Nat.not_le.2 hGoes
  have hStart :
      (h (h (h s .clock).1 (.sleep due)).1 .clock).2 =
        max (clock s) due := by
    rw [hTimed.shows, hTimed.sleeps, hTimed.looks]
  change Action.Yields h (.call .clock fun now =>
    if stop ≤ max due now then _ else _) s Post ↔ _
  rw [Action.yields_call, if_neg hNow]
  change Action.Yields h (.call (.sleep due) fun _ =>
    .call .clock fun start => .call .today fun asOf =>
      Action.bind (service.sweep asOf).run fun _ =>
        sweeps service interval stop fuel
          (nextDue interval due start) (count + 1)) _ _ ↔
    Action.Yields h (.call .clock fun _ =>
      .call (.sleep due) fun _ => .call .clock fun _ =>
        .call .today fun asOf => (service.sweep asOf).run) s
      fun xs _ t => (sweeps service interval stop fuel
        (nextDue interval due (max (clock s) due))
        (count + 1)).Yields h t fun ys n u =>
          Post (xs ++ ys) n u
  simp only [Action.yields_call]
  rw [Action.yields_bind, hStart]
  rfl

/- At the end it waits until it is stopped. -/
theorem sweeps_stop
    (hEnds : stop ≤ max due (clock s))
    (Post : List Exchange → Nat → σ → Prop) :
    (sweeps service interval stop (fuel + 1) due count).Yields
        h s Post ↔
      Post [⟨.clock, clock s⟩, ⟨.sleep stop, ()⟩] count
        (h (h s .clock).1 (.sleep stop)).1 := by
  have hNow : stop ≤ max due (h s .clock).2 := by
    rw [hTimed.shows]
    exact hEnds
  change Action.Yields h (.call .clock fun now =>
    if stop ≤ max due now then _ else _) s Post ↔ _
  rw [Action.yields_call, if_pos hNow, hTimed.shows]
  rfl

end Steps

------------------------------------------------------------
-- Runs
------------------------------------------------------------

section States

variable {σ : Type} (h : Handler σ) (clock : σ → Nat)
variable (service : Service) (period : Nat) (s : σ)

/- When a round is due that is on time, in a run that starts in
   some state. -/
def tick (k : Nat) : Nat :=
  clock s + k * period

/- The state before a round. -/
def before : Nat → σ
  | 0 => (h s .clock).1
  | k + 1 =>
      (eval h (round service (tick clock period s k)) (before k)).1

/- The state in which the sweep of a round begins. -/
def begun (k : Nat) : σ :=
  (eval h (wait (tick clock period s k))
    (before h clock service period s k)).1

/- What is asked and told in a round. -/
def exchanged (k : Nat) : List Exchange :=
  exchanges h (round service (tick clock period s k))
    (before h clock service period s k)

/- A sweep is over before another one could be due. -/
def Brief (k : Nat) : Prop :=
  clock (before h clock service period s (k + 1)) <
    clock (begun h clock service period s k) + period

/- What is asked and told after the last round. -/
def farewell (rounds stop : Nat) : List Exchange :=
  [⟨.clock, clock (before h clock service period s rounds)⟩,
    ⟨.sleep stop, ()⟩]

/- The next sweep is due one period later. -/
theorem tick_succ (k : Nat) :
    tick clock period s (k + 1) =
      tick clock period s k + period := by
  unfold tick
  rw [Nat.succ_mul, Nat.add_assoc]

end States

/- A period is positive, since it is at least a second. -/
theorem period_pos (ms : Nat) : 0 < max ms 1000 :=
  Nat.lt_of_lt_of_le (by decide) (Nat.le_max_right ms 1000)

/- The rounds that begin before a run is stopped, if that is not
   just when one is due. -/
theorem lt_rounds_iff
    {period cancel : Nat}
    (hPositive : 0 < period)
    (hBetween : ¬ period ∣ cancel)
    (k : Nat) :
    k < cancel / period + 1 ↔ k * period < cancel := by
  rw [Nat.lt_succ_iff, Nat.le_div_iff_mul_le hPositive]
  refine ⟨fun hLe => Nat.lt_of_le_of_ne hLe ?_, Nat.le_of_lt⟩
  intro hSame
  exact hBetween ⟨k, (Nat.mul_comm ..).trans hSame |>.symm⟩

section Runs

variable {σ : Type} {h : Handler σ} {clock : σ → Nat}
variable (hTimed : Timed h clock)
variable {service : Service} {period : Nat} {s : σ}

include hTimed

/- A sweep that is not late begins when it is due. -/
theorem clock_begun
    {k : Nat}
    (hOnTime : clock (before h clock service period s k) ≤
      tick clock period s k) :
    clock (begun h clock service period s k) =
      tick clock period s k :=
  (clock_wait hTimed _ _).trans (Nat.max_eq_right hOnTime)

/- By induction on the rounds: each one begins on time if the
   ones before were brief. -/
theorem before_on_time
    {rounds k : Nat}
    (hBrief : ∀ k < rounds, Brief h clock service period s k)
    (hRound : k ≤ rounds) :
    clock (before h clock service period s k) ≤
      tick clock period s k := by
  induction k with
  | zero =>
      unfold before tick
      rw [hTimed.looks, Nat.zero_mul]
      exact Nat.le_refl _
  | succ k ih =>
      have hEarlier := ih (Nat.le_of_succ_le hRound)
      have hLater := hBrief k hRound
      rw [Brief, clock_begun hTimed hEarlier, ← tick_succ]
        at hLater
      exact Nat.le_of_lt hLater

/- By induction on the rounds that are left: all of them are
   made, and nothing else but the wait at the end. -/
theorem sweeps_yields
    {rounds stop : Nat}
    (hGoes : ∀ k < rounds, tick clock period s k < stop)
    (hEnds : stop ≤ tick clock period s rounds)
    (hBrief : ∀ k < rounds, Brief h clock service period s k)
    {left k : Nat}
    (hLeft : k + left = rounds) :
    (sweeps service period stop (left + 1)
      (tick clock period s k) k).Yields h
        (before h clock service period s k)
        fun xs count t =>
          count = rounds ∧
            xs =
              (List.range' k left).flatMap
                  (exchanged h clock service period s) ++
                farewell h clock service period s rounds stop ∧
            clock t = max (clock
              (before h clock service period s rounds)) stop := by
  induction left generalizing k with
  | zero =>
      rw [Nat.add_zero] at hLeft
      subst hLeft
      rw [sweeps_stop hTimed service period stop 0 k
        (Nat.le_trans hEnds (Nat.le_max_left _ _))]
      refine ⟨rfl, rfl, ?_⟩
      rw [hTimed.sleeps, hTimed.looks]
  | succ left ih =>
      have hRound : k < rounds := by omega
      have hOnTime := before_on_time hTimed hBrief
        (Nat.le_of_lt hRound)
      have hBefore := hGoes k hRound
      rw [← Nat.max_eq_left hOnTime] at hBefore
      have hNext : nextDue period (tick clock period s k)
          (tick clock period s k) = tick clock period s (k + 1) := by
        rw [tick_succ]
        exact if_neg (by omega)
      rw [sweeps_round hTimed service period stop
        (left + 1) k hBefore, Nat.max_eq_right hOnTime, hNext]
      have hRest := ih (k := k + 1) (by omega)
      apply Action.Yields.mono hRest
      rintro xs count t ⟨hCount, rfl, hClock⟩
      refine ⟨hCount, ?_, hClock⟩
      rw [List.range'_succ, List.flatMap_cons,
        List.append_assoc]
      rfl

/-
  What a run asks and is told, and when it is over.  The period
  is what is asked for, but a second at least.
-/
theorem run_yields
    {ms cancel : Nat}
    (hBetween : ¬ max ms 1000 ∣ cancel)
    (hBrief : ∀ k, k * max ms 1000 < cancel →
      Brief h clock service (max ms 1000) s k) :
    (run service ms cancel).Yields h s fun xs count t =>
      count = cancel / max ms 1000 + 1 ∧
        xs = ⟨.clock, clock s⟩ ::
          ((List.range count).flatMap
              (exchanged h clock service (max ms 1000) s) ++
            farewell h clock service (max ms 1000) s count
              (clock s + cancel)) ∧
        clock t = max (clock
          (before h clock service (max ms 1000) s count))
          (clock s + cancel) := by
  change Action.Yields h (.call .clock fun start => sweeps
    service (max ms 1000) (start + cancel)
      (cancel / max ms 1000 + 2) start 0) s _
  have hRounds := lt_rounds_iff (period_pos ms) hBetween
  -- from here on the period may be any number
  generalize max ms 1000 = period at hBetween hBrief hRounds ⊢
  have hGoes : ∀ k < cancel / period + 1,
      tick clock period s k < clock s + cancel := by
    intro k hRound
    exact Nat.add_lt_add_left ((hRounds k).1 hRound) _
  have hEnds : clock s + cancel ≤
      tick clock period s (cancel / period + 1) := by
    apply Nat.add_le_add_left
    exact Nat.le_of_not_lt fun hGoes =>
      Nat.lt_irrefl _ ((hRounds _).2 hGoes)
  have hSweeps := sweeps_yields hTimed hGoes hEnds
    (fun k hRound => hBrief k ((hRounds k).1 hRound))
    (Nat.zero_add _)
  have hFirst : tick clock period s 0 = (h s .clock).2 := by
    rw [tick, Nat.zero_mul, hTimed.shows]
    rfl
  rw [hFirst] at hSweeps
  rw [Action.yields_call]
  rw [← hTimed.shows s] at hSweeps ⊢
  apply hSweeps.mono
  rintro xs count t ⟨rfl, rfl, hClock⟩
  refine ⟨rfl, ?_, hClock⟩
  rw [List.range_eq_range']

end Runs

/- A sweeper that runs by itself in a world counts its rounds
   in the same way. -/
theorem runAll_run
    {service : Service}
    {ms cancel : Nat}
    {w : World}
    (hBetween : ¬ max ms 1000 ∣ cancel)
    (hBrief : ∀ k, k * max ms 1000 < cancel →
      Brief World.stage.alone World.clock service
        (max ms 1000) w k) :
    (World.stage.runAll
      [Activity.ofAction (run service ms cancel) .finish] w).2 =
        [some (cancel / max ms 1000 + 1)] := by
  have hRun := run_yields World.alone_timed hBetween hBrief
  rw [Stage.runAll_alone]
  exact congrArg (fun count => [some count]) hRun.1

/-
  A run of the sweeper that is stopped at a time which is no
  multiple of its period: the interval that is asked for, or a
  second if that is longer.  Every sweep that begins before is
  over in less than the period, whatever comes of it.  Then the
  sweeps begin at the multiples of the period up to that time,
  and no other is made: all that is asked is asked in these
  rounds, but for the wait at the end.  Each is carried to its
  end, the one that is under way when the sweeper is stopped as
  well, and the result is their number.
-/
theorem run_rounds
    {σ : Type}
    {h : Handler σ}
    {clock : σ → Nat}
    (hTimed : Timed h clock)
    {service : Service}
    {ms cancel : Nat}
    {s : σ}
    (hBetween : ¬ max ms 1000 ∣ cancel)
    (hBrief : ∀ k, k * max ms 1000 < cancel →
      Brief h clock service (max ms 1000) s k) :
    (run service ms cancel).Yields h s fun xs count t =>
      count = cancel / max ms 1000 + 1 ∧
        (∀ k, k < count ↔ k * max ms 1000 < cancel) ∧
        (∀ k < count,
          clock (begun h clock service (max ms 1000) s k) =
            clock s + k * max ms 1000) ∧
        xs = ⟨.clock, clock s⟩ ::
          ((List.range count).flatMap
              (exchanged h clock service (max ms 1000) s) ++
            farewell h clock service (max ms 1000) s count
              (clock s + cancel)) ∧
        clock t = max (clock
          (before h clock service (max ms 1000) s count))
          (clock s + cancel) := by
  have hRounds := lt_rounds_iff (period_pos ms) hBetween
  apply (run_yields hTimed hBetween hBrief).mono
  rintro xs count t ⟨rfl, hExchanges, hClock⟩
  refine ⟨rfl, hRounds, ?_, hExchanges, hClock⟩
  intro k hRound
  apply clock_begun hTimed
  apply before_on_time hTimed
    (fun k hRound => hBrief k ((hRounds k).1 hRound))
    (Nat.le_of_lt hRound)

/- A service without playbooks. -/
def idle : Service :=
  ⟨default, default, default, ⟨fun _ _ => .ok ""⟩⟩

/- A clock by which a scan takes 600 ms and fails in the first
   second. -/
def slow : Handler Nat := fun now c =>
  match c with
  | .clock => (now, now)
  | .sleep time => (max now time, ())
  | .store (.values _) =>
      (now + 600,
        if now < 1000 then .error .timeout else .ok [])
  | c => (now, c.calm)

/- These calls take their time from the state. -/
theorem slow_timed : Timed slow id :=
  ⟨fun _ => rfl, fun _ => rfl, fun _ => rfl, fun _ _ => rfl⟩

/- A sweep takes as long whether the scan fails or not. -/
theorem clock_slow_sweep (asOf : Instant) (now : Nat) :
    (eval slow (idle.sweep asOf).run now).1 = now + 600 := by
  let scan : Call :=
    .store (.values idle.repository.instancesPath)
  have hReply : (slow now scan).2 = .error .timeout ∨
      (slow now scan).2 = .ok [] := by
    change (if now < 1000 then _ else _) = _ ∨
      (if now < 1000 then _ else _) = _
    split
    · exact .inl rfl
    · exact .inr rfl
  change (eval slow (Action.call scan _) now).1 = _
  rw [Action.eval]
  rcases hReply with hReply | hReply
  · rw [hReply]
    rfl
  · rw [hReply]
    rfl

/- Each sweep takes as long as the call it makes. -/
theorem before_slow_succ (period k : Nat) :
    before slow id idle period 0 (k + 1) =
      begun slow id idle period 0 k + 600 := by
  change (eval slow (Action.bind (wait _) _) _).1 = _
  rw [Action.eval_bind]
  exact clock_slow_sweep _ _

/- Slow sweeps are brief in every period that is allowed. -/
theorem slow_brief (ms k : Nat) :
    Brief slow id idle (max ms 1000) 0 k := by
  have hLonger : 600 < max ms 1000 :=
    Nat.lt_of_lt_of_le (by decide) (Nat.le_max_right ms 1000)
  unfold Brief
  rw [before_slow_succ]
  exact Nat.add_lt_add_left hLonger _

/- The last sweep is under way when the sweeper is stopped, and
   is finished: it begins after two seconds if less than one is
   asked for, and after three with an interval of a second and
   a half.  A world by itself counts as many. -/
theorem run_rounds_slow :
    Timed slow id ∧
      (run idle 0 2500).Yields slow 0 (fun _ count t =>
        count = 3 ∧
          begun slow id idle 1000 0 2 = 2000 ∧
          t = 2600) ∧
      (run idle 1500 3400).Yields slow 0 (fun _ count t =>
        count = 3 ∧
          begun slow id idle 1500 0 2 = 3000 ∧
          t = 3600) ∧
      (World.stage.runAll
        [Activity.ofAction (run idle 1500 3400) .finish]
        default).2 = [some 3] := by
  have hRun (ms cancel : Nat)
      (hBetween : ¬ max ms 1000 ∣ cancel) :
      (run idle ms cancel).Yields slow 0 fun _ count t =>
        count = cancel / max ms 1000 + 1 ∧
          begun slow id idle (max ms 1000) 0
            (cancel / max ms 1000) =
              cancel / max ms 1000 * max ms 1000 ∧
          t = max (cancel / max ms 1000 * max ms 1000 + 600)
            cancel := by
    apply (run_rounds slow_timed hBetween
      fun k _ => slow_brief ms k).mono
    rintro xs count t ⟨rfl, -, hStarts, -, hEnd⟩
    have hLast := hStarts _ (Nat.lt_succ_self _)
    rw [id, id, Nat.zero_add] at hLast
    rw [id, id, id, before_slow_succ, hLast, Nat.zero_add]
      at hEnd
    exact ⟨rfl, hLast, hEnd⟩
  have hPeriod : max 1500 1000 = 1500 := rfl
  have hBrief : ∀ k, k * max 1500 1000 < 3400 →
      Brief World.stage.alone World.clock idle
        (max 1500 1000) default k := by
    have hFew : ∀ k < 3, Brief World.stage.alone World.clock
        idle (max 1500 1000) default k := by
      unfold Brief
      decide +kernel
    intro k hBegins
    rw [hPeriod] at hBegins
    exact hFew k (by omega)
  exact ⟨slow_timed, hRun 0 2500 (by decide),
    hRun 1500 3400 (by decide),
    runAll_run (by decide) hBrief⟩

end Sweeper

end Preview
