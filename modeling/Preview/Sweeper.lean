import Preview.Service

/-
  The sweeper: a sweep at once, and another one after every
  interval, until it is stopped.

  A sweep that is under way when the sweeper is stopped is
  finished.  When a sweep starts more than 5 ms late, the
  next one is due an interval after its start.

  Key definitions include:
    * `Sweeper.interval`
    * `Sweeper.run`
-/

namespace Preview

namespace Sweeper

/- Intervals are at least one second; all times are in
   milliseconds. -/
def interval (ms : Nat) : Nat :=
  max ms 1000

/- When the sweep after one is due. -/
def nextDue (interval due start : Nat) : Nat :=
  if due + 5 < start then start + interval
  else due + interval

/-
  Sweep whenever a sweep is due, up to the time at which the
  sweeper is stopped, and count the sweeps.  Every sweep is
  due an interval after the one before or later, so the
  number of remaining intervals bounds the rest.
-/
def sweeps (s : Service) (interval stop : Nat) :
    Nat → Nat → Nat → Action Nat
  | 0, _, count => return count
  | fuel + 1, due, count => do
      let now ← Action.perform .clock
      if stop ≤ max due now then
        Action.perform (.sleep stop)
        return count
      else
        Action.perform (.sleep due)
        let start ← Action.perform .clock
        let asOf ← Action.perform .today
        let _ ← (s.sweep asOf).run
        sweeps s interval stop fuel
          (nextDue interval due start) (count + 1)

/- Sweep until some time has passed. -/
def run (s : Service) (ms stopAfter : Nat) : Action Nat := do
  let t := interval ms
  let start ← Action.perform .clock
  sweeps s t (start + stopAfter) (stopAfter / t + 2) start 0

end Sweeper

end Preview
