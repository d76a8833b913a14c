/-
  What an instance is known by.

  Key definitions include:
    * `Identity`
    * `Identity.label`
-/

namespace Preview

/- A playbook and the name of one of its instances. -/
structure Identity where
  playbook : String
  id : String
deriving DecidableEq, Repr, Inhabited

/- An identity as messages show it. -/
def Identity.label (i : Identity) : String :=
  i.playbook ++ "/" ++ i.id

end Preview
