import Preview.Path
import Preview.Table
import Preview.Text.Digits
import Preview.Text.Quoted

/-
  The store of records.

  A store keeps texts under paths.  Paths are written with or
  without slashes at their ends; a scan lists the entries
  below a path by what follows it in their own paths.

  Key definitions include:
    * `Backend`
    * `StoreError`
    * `Store`
    * `Store.set`
    * `Store.values`
    * `Store.swap`
-/

namespace Preview

------------------------------------------------------------
-- Errors
------------------------------------------------------------

/- Where records are kept. -/
inductive Backend where
  | memory
  | valkey
    (url : String)
    (space : Option String)
    (poolSize : Nat)
deriving DecidableEq, Repr, Inhabited

/- A backend with all its settings, as messages show it. -/
def Backend.describe : Backend → String
  | memory => "Memory"
  | valkey url space poolSize =>
      let space :=
        match space with
        | none => "None"
        | some s => "Some(" ++ Quoted.text s ++ ")"
      "Valkey \x7b url: " ++ Quoted.text url ++
        ", namespace: " ++ space ++
        ", pool_size: " ++ Digits.text poolSize ++ " \x7d"

/- Why a store has no answer. -/
inductive StoreError where
  | connection (detail : String)
  | timeout
  | invalidKey (cause : PathError)
  | backend (detail : String)
  | unsupported (chosen : Backend)
deriving DecidableEq, Repr

/- The text of an error, with its cause where there is one. -/
def StoreError.message : StoreError → String
  | connection detail => "Connection error: " ++ detail
  | timeout => "Operation timed out"
  | invalidKey cause => "Invalid key: " ++ cause.message
  | backend detail => "Backend error: " ++ detail
  | unsupported chosen =>
      "Unsupported backend: backend not enabled in this build: " ++
        chosen.describe

------------------------------------------------------------
-- Stores
------------------------------------------------------------

/- Texts by the keys that their paths name. -/
structure Store where
  entries : Table String
deriving DecidableEq, Inhabited

namespace Store

/- A store without entries. -/
def empty : Store :=
  ⟨Table.empty⟩

/- The key that a path names; slashes at its ends do not
   count. -/
def key (path : String) : Except StoreError String :=
  (Path.validate path).mapError .invalidKey

/- The text under a path, or none when there is no entry. -/
def value (s : Store) (path : String) :
    Except StoreError (Option String) := do
  let k ← key path
  return s.entries.get? k

/- Put a text under a path, in place of what was there. -/
def set (s : Store) (path value : String) :
    Except StoreError Store := do
  let k ← key path
  return ⟨s.entries.insert k value⟩

/- Remove an entry; the answer tells whether it was there. -/
def erase (s : Store) (path : String) :
    Except StoreError (Store × Bool) := do
  let k ← key path
  return (⟨s.entries.erase k⟩, s.entries.contains k)

/-
  Replace an entry if it holds what is expected; the answer
  tells whether it did.
-/
def swap
    (s : Store)
    (path : String)
    (expected : Option String)
    (value : String) :
    Except StoreError (Store × Bool) := do
  let k ← key path
  if s.entries.get? k = expected then
    return (⟨s.entries.insert k value⟩, true)
  else
    return (s, false)

/-
  The entries below a path, in key order, each with what
  follows the path in its key.
-/
def values (s : Store) (path : String) :
    List (String × String) :=
  let start := Path.scope path
  (s.entries.startingWith start.toList).filterMap
    fun (k, v) => (Path.relative start k).map (·, v)

/- The number of entries. -/
def size (s : Store) : Nat :=
  s.entries.size

end Store

end Preview
