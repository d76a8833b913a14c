import Preview.Config.Variable
import Preview.Error
import Preview.Step
import Preview.Toml.Document

/-
  The configuration of the control plane.

  Settings come from a file, if there is one, and from the
  environment, whose variables are laid over it.  A setting
  that is missing has a default, one that is unknown is passed
  over, and one of the wrong kind is an error.

  Key definitions include:
    * `Config`
    * `Config.ofSetting?`
    * `Config.load`
-/

namespace Preview

------------------------------------------------------------
-- Reading Settings
------------------------------------------------------------

namespace Setting

/- The fields of a group; a list gives them in order. -/
def fields? (names : List String) :
    Setting → Option (List (String × Setting))
  | group fs => some fs
  | list items => some (names.zip items)
  | _ => Option.none

/- The text of a setting that is one. -/
def text? : Setting → Option String
  | text s => some s
  | _ => Option.none

/- A number from zero up to a bound. -/
def natBelow? (bound : Nat) (s : Setting) : Option Nat :=
  match s with
  | whole i =>
      if 0 ≤ i ∧ i < bound then some i.toNat else Option.none
  | count n => if n < bound then some n else Option.none
  | _ => Option.none

/- Numbers of 32 and of 64 bits. -/
def short? (s : Setting) : Option Nat :=
  s.natBelow? (Nat.pow 2 32)

def long? (s : Setting) : Option Nat :=
  s.natBelow? (Nat.pow 2 64)

end Setting

------------------------------------------------------------
-- Configurations
------------------------------------------------------------

/- Where records are kept, where resources are deployed, how
   long instances live, how long waits are, how often sweeps
   take place, and where messages go. -/
structure Config where
  root : String := "ephemera"
  backend : Backend := .memory
  space : String := "default"
  days : Nat := 7
  timings : Timings := {}
  sweepSeconds : Nat := 3600
  webhook : Option String := none
  webhookSeconds : Nat := 10
deriving DecidableEq, Repr, Inhabited

namespace Config

/- The configuration without any settings. -/
def standard : Config := {}

variable {α : Type}

/- Read a setting, if it is there. -/
def read?
    (fs : List (String × Setting))
    (name : String)
    (default : α)
    (read : Setting → Option α) : Option α :=
  match fs.lookup name with
  | none => some default
  | some s => read s

------------------------------------------------------------
-- Backends
------------------------------------------------------------

/- The settings of a server. -/
def server? (fs : List (String × Setting)) :
    Option Backend := do
  let url ← (← fs.lookup "url").text?
  let space ← read? fs "namespace" none fun s =>
    s.text?.map some
  let poolSize ← read? fs "pool_size" 10 Setting.long?
  return .valkey url space poolSize

/- The kinds of backends that can be asked for. -/
inductive BackendKind where
  | memory
  | valkey
deriving DecidableEq

/- A kind by its name, or by its number as an unsigned one. -/
def kind? : Setting → Option BackendKind
  | .text "memory" => some .memory
  | .text "valkey" => some .valkey
  | .count 0 => some .memory
  | .count 1 => some .valkey
  | _ => none

/- A backend says what kind it is; in a list it says so
   first. -/
def backend? : Setting → Option Backend
  | .group fs => do
      match ← kind? (← fs.lookup "backend") with
      | .memory => some .memory
      | .valkey => server? fs
  | .list (k :: items) => do
      match ← kind? k with
      | .memory =>
          if items.isEmpty then some .memory else none
      | .valkey =>
          let names := ["url", "namespace", "pool_size"]
          if items.length ≤ names.length then
            server? (names.zip items)
          else none
  | _ => none

------------------------------------------------------------
-- Sections
------------------------------------------------------------

/- The setting of one section among all. -/
def sectionOf?
    (all : List (String × Setting))
    (name : String)
    (names : List String) :
    Option (List (String × Setting)) :=
  read? all name [] (Setting.fields? names)

/- Read how long waits are, each with its own default. -/
def timings? (all : List (String × Setting)) :
    Option Timings := do
  let t := standard.timings
  let fs ← sectionOf? all "reconcile"
    ["watch_timeout_secs", "scale_down_poll_ms",
      "scale_down_attempts", "deletion_settle_ms"]
  let watchTimeoutSeconds ←
    read? fs "watch_timeout_secs" t.watchTimeoutSeconds
      Setting.long?
  let scaleDownPollMs ←
    read? fs "scale_down_poll_ms" t.scaleDownPollMs Setting.long?
  let scaleDownAttempts ←
    read? fs "scale_down_attempts" t.scaleDownAttempts
      Setting.short?
  let deletionSettleMs ←
    read? fs "deletion_settle_ms" t.deletionSettleMs Setting.long?
  some
    { watchTimeoutSeconds
      scaleDownPollMs
      scaleDownAttempts
      deletionSettleMs }

/- The configuration that settings describe. -/
def ofSetting? (s : Setting) : Option Config := do
  let all ← s.fields?
    ["store", "cluster", "instances", "reconcile", "sweep",
      "notifier"]
  let store ← sectionOf? all "store" ["root", "kv"]
  let root ← read? store "root" standard.root Setting.text?
  let backend ← read? store "kv" standard.backend backend?
  let cluster ← sectionOf? all "cluster" ["namespace"]
  let space ←
    read? cluster "namespace" standard.space Setting.text?
  let instances ← sectionOf? all "instances" ["expiration_days"]
  let days ←
    read? instances "expiration_days" standard.days Setting.short?
  let timings ← timings? all
  let sweep ← sectionOf? all "sweep" ["interval_secs"]
  let sweepSeconds ←
    read? sweep "interval_secs" standard.sweepSeconds Setting.long?
  let notifier ←
    sectionOf? all "notifier" ["webhook_url", "timeout_secs"]
  let webhook ←
    read? notifier "webhook_url" standard.webhook fun s =>
      s.text?.map some
  let webhookSeconds ←
    read? notifier "timeout_secs" standard.webhookSeconds
      Setting.long?
  some
    { root
      backend
      space
      days
      timings
      sweepSeconds
      webhook
      webhookSeconds }

------------------------------------------------------------
-- Loading
------------------------------------------------------------

/- The settings of a file that need not be there. -/
def fileSettings : Option String → Except Error Setting
  | none => .ok .none
  | some text =>
      match Toml.ofText? text with
      | some s => .ok s
      | none => .error (.config "the file is not readable")

/- The configuration of a file and of the environment. -/
def load
    (file : Option String)
    (env : List (String × String)) :
    Except Error Config := do
  let base ← fileSettings file
  let top := Variable.settings "EPHEMERA_" env
  match ofSetting? (top.atop base) with
  | some c => .ok c
  | none => .error (.config "a setting is of the wrong kind")

end Config

end Preview
