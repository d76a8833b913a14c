/-
  Messages about the outcome of runs.

  Key definitions include:
    * `Level`
    * `Notification`
    * `Outbox`
    * `Outbox.send`
-/

namespace Preview

/- Whether a run went well. -/
inductive Level where
  | success
  | failure
deriving DecidableEq, Repr

/- A level by its name. -/
def Level.name : Level → String
  | success => "success"
  | failure => "failure"

/- A message, and whether it tells of a success. -/
structure Notification where
  level : Level
  text : String
deriving DecidableEq, Repr

/- What has been sent, and whether sending is refused. -/
structure Outbox where
  sent : List Notification
  refusing : Bool
deriving DecidableEq, Repr, Inhabited

namespace Outbox

/- An outbox without messages. -/
def empty : Outbox :=
  ⟨[], false⟩

/- Keep a message, also one that is then refused; the answer
   tells whether it was accepted. -/
def send (o : Outbox) (n : Notification) : Outbox × Bool :=
  ({ o with sent := o.sent ++ [n] }, !o.refusing)

/- The texts of one level, in order. -/
def texts (o : Outbox) (level : Level) : List String :=
  (o.sent.filter (fun n => n.level = level)).map (·.text)

end Outbox

end Preview
