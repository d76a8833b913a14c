import Preview.Step
import Preview.Template.Render

/-
  Plans: the steps of a playbook in order.

  A plan is made before anything is changed, so a manifest
  that has no resource is reported first.  Destroying a plan
  visits each distinct resource once.

  Key definitions include:
    * `Renderer`
    * `Playbook.expansion`
    * `Plan`
    * `Plan.build`
    * `Plan.deploy`
    * `Plan.destroy`
-/

namespace Preview

------------------------------------------------------------
-- Manifests
------------------------------------------------------------

/- What fills the variables into a template. -/
structure Renderer where
  fill : String → Table String → Except RenderError String

/- A renderer whose failures are those of templates. -/
instance :
    Coe (String → Table String → Except Template.Error String)
      Renderer where
  coe render :=
    ⟨fun template vars =>
      (render template vars).mapError .template⟩

instance :
    CoeFun Renderer fun _ =>
      String → Table String → Except RenderError String where
  coe := Renderer.fill

/- The resource of a template with its variables filled in. -/
def renderResource
    (render : Renderer)
    (template : String)
    (vars : Table String) :
    Except RenderError Resource := do
  let text ← render template vars
  (Resource.ofYaml text).mapError .malformed

/- The manifests that a playbook uses, in order, and how each
   of them is reconciled. -/
def Playbook.expansion (p : Playbook) :
    List (StepKind × String) :=
  p.tasks.flatMap fun t =>
    match t.podManifest? with
    | some pod => [(.provisioning, pod)]
    | none => t.manifests.map (.resource, ·)

------------------------------------------------------------
-- Plans
------------------------------------------------------------

/- Steps in the order in which they are deployed. -/
structure Plan where
  steps : List Step
deriving Inhabited

namespace Plan

/- The step of one entry of an expansion. -/
def buildStep
    (render : Renderer)
    (vars : Table String)
    (manifests : Table String)
    (entry : StepKind × String) :
    Except Error Step :=
  match manifests.get? entry.2 with
  | none => .error (.invalid (.unknownManifest entry.2))
  | some template =>
      match renderResource render template vars with
      | .error cause => .error (.render entry.2 cause)
      | .ok resource => .ok ⟨entry.1, resource⟩

/- The steps of a playbook; the first entry without a step
   decides the error. -/
def build
    (render : Renderer)
    (p : Playbook)
    (vars : Table String)
    (manifests : Table String) :
    Except Error Plan := do
  let steps ←
    p.expansion.mapM (buildStep render vars manifests)
  return ⟨steps⟩

/- The failure of a step, with its label. -/
def failing (s : Step) (m : Attempt StepError Unit) :
    Attempt Error Unit :=
  m.mapError (.step s.label)

/- Deploy every step, until one fails. -/
def deploy (ctx : Context) (p : Plan) : Attempt Error Unit :=
  p.steps.forM fun s => failing s (s.deploy ctx)

/- The steps whose label has not occurred before. -/
def distinct (seen : List String) : List Step → List Step
  | [] => []
  | s :: rest =>
      if seen.contains s.label then distinct seen rest
      else s :: distinct (s.label :: seen) rest

/- Destroy every distinct step, until one fails. -/
def destroy (ctx : Context) (p : Plan) : Attempt Error Unit :=
  (distinct [] p.steps).forM fun s =>
    failing s (s.destroy ctx)

end Plan

end Preview
