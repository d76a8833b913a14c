import Preview.Config.Basic
import Preview.Service

/-
  Services as a configuration describes them.

  Key definitions include:
    * `Config.repository`
    * `Config.context`
    * `Service.ofConfig`
-/

namespace Preview

namespace Config

/- The repository below the root of a configuration. -/
def repository (c : Config) : Repository :=
  ⟨c.root, c.days⟩

/- Where steps work; the token cancels their waits. -/
def context (c : Config) (token : Nat) : Context :=
  ⟨c.space, c.timings, token⟩

end Config

/- A store that is not in memory cannot be opened. -/
def Backend.supported : Backend → Except StoreError Unit
  | .memory => .ok ()
  | b => .error (.unsupported b)

/- The service of a configuration over a catalog. -/
def Service.ofConfig
    (c : Config)
    (catalog : Catalog)
    (render : Renderer)
    (token : Nat) : Except Error Service := do
  c.backend.supported.mapError .store
  return ⟨catalog, c.repository, c.context token, render⟩

end Preview
