import Preview.Proofs.Job

/-
  Planning a registered playbook.

  A catalog checks a playbook once, when it is registered.
  Whatever is registered later, the playbooks that it holds
  use its manifests only, so that a plan has a step for every
  entry of their tasks, in order, or stops at the first entry
  that has no resource.

  Main declarations:
    * `Catalog.Reached` and `Catalog.Reached.valid`
    * `Task.Expands` and `Expands`
    * `Renders` and `Plan.Makes`
    * `Plan.Stops` and `Plan.build_stops`
    * `Plan.build_registered`
-/

namespace Preview

------------------------------------------------------------
-- Registration
------------------------------------------------------------

namespace Catalog

/- Register a playbook; one that is refused changes nothing. -/
def register (c : Catalog) (p : Playbook) : Catalog :=
  match c.insert p with
  | .ok d => d
  | .error _ => c

/- The catalogs that registrations lead to. -/
inductive Reached : Catalog → Prop
  | empty (manifests : Table String) :
      Reached (empty manifests)
  | register
      {c : Catalog}
      (hReached : Reached c)
      (p : Playbook) :
      Reached (c.register p)

/- A registration is refused, or keeps a catalog valid. -/
theorem register_valid
    {c : Catalog}
    (hValid : c.Valid)
    (p : Playbook) :
    (c.register p).Valid := by
  unfold register
  cases hInsert : c.insert p with
  | error e => exact hValid
  | ok d => exact insert_valid hValid hInsert

/- Every catalog that is reached is valid. -/
theorem Reached.valid
    {c : Catalog}
    (hReached : c.Reached) :
    c.Valid := by
  induction hReached with
  | empty manifests => exact empty_valid manifests
  | register hReached p ih => exact register_valid ih p

end Catalog

------------------------------------------------------------
-- Expansions
------------------------------------------------------------

/- The entries of one task: its pod manifest, if that has a
   name, and otherwise all its manifests. -/
inductive Task.Expands (t : Task) :
    List (StepKind × String) → Prop
  | pod
      {name : String}
      (hPod : t.pod = some name)
      (hName : name ≠ "") :
      Expands t [(.provisioning, name)]
  | listed
      (hPod : t.pod = none ∨ t.pod = some "") :
      Expands t (t.manifests.map (.resource, ·))

/- The entries of a list of tasks, in order. -/
inductive Expands :
    List Task → List (StepKind × String) → Prop
  | nil : Expands [] []
  | cons
      {t : Task}
      {tasks : List Task}
      {now later : List (StepKind × String)}
      (hNow : t.Expands now)
      (hLater : Expands tasks later) :
      Expands (t :: tasks) (now ++ later)

namespace Task

variable {t : Task} {entries : List (StepKind × String)}

/- A named pod manifest is the one of the task. -/
theorem podManifest?_of_named
    {name : String}
    (hPod : t.pod = some name)
    (hName : name ≠ "") :
    t.podManifest? = some name := by
  simp [podManifest?, hPod, Option.filter, hName]

/- An empty name counts as none. -/
theorem podManifest?_of_unnamed
    (hPod : t.pod = none ∨ t.pod = some "") :
    t.podManifest? = none := by
  rcases hPod with hPod | hPod <;>
    simp [podManifest?, hPod, Option.filter]

/- The number of steps counts the entries. -/
theorem Expands.length_eq
    (hExpands : t.Expands entries) :
    entries.length = t.stepCount := by
  unfold stepCount
  cases hExpands with
  | pod hPod hName =>
      simp [podManifest?_of_named hPod hName]
  | listed hPod => simp [podManifest?_of_unnamed hPod]

/- The entries name what the validation looks at. -/
theorem Expands.names_eq
    (hExpands : t.Expands entries) :
    entries.map Prod.snd = t.references := by
  unfold references
  cases hExpands with
  | pod hPod hName =>
      simp [podManifest?_of_named hPod hName]
  | listed hPod =>
      simp [podManifest?_of_unnamed hPod, Function.comp_def]

end Task

namespace Expands

variable {tasks : List Task}
variable {entries : List (StepKind × String)}

/- The tasks have no other entries than those of the plan. -/
theorem iff_eq :
    Expands tasks entries ↔
      entries = tasks.flatMap fun t =>
        match t.podManifest? with
        | some pod => [(.provisioning, pod)]
        | none => t.manifests.map (.resource, ·) := by
  induction tasks generalizing entries with
  | nil =>
      constructor
      · rintro ⟨⟩
        rfl
      · rintro rfl
        exact .nil
  | cons t tasks ih =>
      rw [List.flatMap_cons]
      constructor
      · rintro (_ | ⟨hNow, hLater⟩)
        rw [← ih.1 hLater]
        cases hNow with
        | pod hPod hName =>
            rw [Task.podManifest?_of_named hPod hName]
        | listed hPod =>
            rw [Task.podManifest?_of_unnamed hPod]
      · rintro rfl
        refine .cons ?_ (ih.2 rfl)
        by_cases hPod : t.pod = none ∨ t.pod = some ""
        · rw [Task.podManifest?_of_unnamed hPod]
          exact .listed hPod
        · rcases not_or.1 hPod with ⟨hSome, hNamed⟩
          rcases Option.ne_none_iff_exists'.1 hSome with
            ⟨name, hName⟩
          have hNonempty : name ≠ "" :=
            fun hEmpty => hNamed (hEmpty ▸ hName)
          rw [Task.podManifest?_of_named hName hNonempty]
          exact .pod hName hNonempty

/- There are as many entries as the tasks count steps. -/
theorem length_eq
    (hExpands : Expands tasks entries) :
    entries.length =
      tasks.foldr (fun t n => t.stepCount + n) 0 := by
  induction hExpands with
  | nil => rfl
  | cons hNow hLater ih => simp [hNow.length_eq, ih]

/- If each task refers to something, there is an entry. -/
theorem ne_nil
    (hExpands : Expands tasks entries)
    (hTasks : tasks ≠ [])
    (hUses : ∀ t ∈ tasks, t.references ≠ []) :
    entries ≠ [] := by
  cases hExpands with
  | nil => exact absurd rfl hTasks
  | cons hNow hLater =>
      intro hNone
      apply hUses _ (List.mem_cons_self ..)
      rw [← hNow.names_eq, (List.append_eq_nil_iff.1 hNone).1,
        List.map_nil]

end Expands

------------------------------------------------------------
-- Rendering
------------------------------------------------------------

/- What becomes of the manifest of a name: the renderer fills
   its template, and the text is read as a resource. -/
inductive Renders
    (render : Renderer)
    (vars manifests : Table String)
    (name : String) :
    Except RenderError Resource → Prop
  | unfilled
      {template : String}
      {cause : RenderError}
      (hKnown : manifests.get? name = some template)
      (hFill : render template vars = .error cause) :
      Renders render vars manifests name (.error cause)
  | unread
      {template text : String}
      {cause : Resource.Malformed}
      (hKnown : manifests.get? name = some template)
      (hFill : render template vars = .ok text)
      (hRead : Resource.ofYaml text = .error cause) :
      Renders render vars manifests name
        (.error (.malformed cause))
  | read
      {template text : String}
      {resource : Resource}
      (hKnown : manifests.get? name = some template)
      (hFill : render template vars = .ok text)
      (hRead : Resource.ofYaml text = .ok resource) :
      Renders render vars manifests name (.ok resource)

namespace Renders

variable {render : Renderer} {vars manifests : Table String}
variable {name : String}

/- A known manifest has one result. -/
theorem iff_eq
    {template : String}
    (hKnown : manifests.get? name = some template)
    {result : Except RenderError Resource} :
    Renders render vars manifests name result ↔
      result = renderResource render template vars := by
  unfold renderResource
  constructor
  · intro hRenders
    cases hRenders with
    | unfilled hFound hFill =>
        cases hKnown.symm.trans hFound
        rw [hFill]
        rfl
    | unread hFound hFill hRead =>
        cases hKnown.symm.trans hFound
        rw [hFill]
        simp [bind, Except.bind, hRead, Except.mapError]
    | read hFound hFill hRead =>
        cases hKnown.symm.trans hFound
        rw [hFill]
        simp [bind, Except.bind, hRead, Except.mapError]
  · rintro rfl
    cases hFill : render template vars with
    | error cause => exact .unfilled hKnown hFill
    | ok text =>
        cases hRead : Resource.ofYaml text with
        | error cause =>
            simpa [bind, Except.bind, hRead, Except.mapError]
              using Renders.unread hKnown hFill hRead
        | ok resource =>
            simpa [bind, Except.bind, hRead, Except.mapError]
              using Renders.read hKnown hFill hRead

/- A manifest has one result. -/
theorem unique
    {r q : Except RenderError Resource}
    (hR : Renders render vars manifests name r)
    (hQ : Renders render vars manifests name q) :
    r = q := by
  have hKnown : ∃ template,
      manifests.get? name = some template := by
    cases hR with
    | unfilled hKnown _ => exact ⟨_, hKnown⟩
    | unread hKnown _ _ => exact ⟨_, hKnown⟩
    | read hKnown _ _ => exact ⟨_, hKnown⟩
  rcases hKnown with ⟨template, hKnown⟩
  exact ((iff_eq hKnown).1 hR).trans ((iff_eq hKnown).1 hQ).symm

end Renders

namespace Plan

section Entries

variable {render : Renderer} {vars manifests : Table String}
variable {entry : StepKind × String}

/- The step of an entry has its kind, and the resource that
   its manifest becomes. -/
def Makes
    (render : Renderer)
    (vars manifests : Table String)
    (entry : StepKind × String)
    (step : Step) : Prop :=
  step.kind = entry.1 ∧
    Renders render vars manifests entry.2 (.ok step.resource)

/- A step is built exactly from what its manifest renders to. -/
theorem buildStep_ok_iff
    {step : Step} :
    buildStep render vars manifests entry = .ok step ↔
      Makes render vars manifests entry step := by
  unfold buildStep Makes
  cases hKnown : manifests.get? entry.2 with
  | none =>
      constructor
      · rintro ⟨⟩
      · rintro ⟨_, hRenders⟩
        cases hRenders with
        | read hFound _ _ => cases hKnown.symm.trans hFound
  | some template =>
      rw [Renders.iff_eq hKnown]
      dsimp only
      cases renderResource render template vars with
      | error cause => simp
      | ok resource =>
          rcases step with ⟨kind, other⟩
          simp [Step.mk.injEq, eq_comm]

/- With its manifest known, an entry fails with a cause of
   its rendering. -/
theorem buildStep_error
    {e : Error}
    (hKnown : manifests.contains entry.2 = true)
    (hError :
      buildStep render vars manifests entry = .error e) :
    ∃ cause,
      e = .render entry.2 cause ∧
        Renders render vars manifests entry.2
          (.error cause) := by
  rcases Option.isSome_iff_exists.1 hKnown with
    ⟨template, hKnown⟩
  simp only [buildStep, hKnown] at hError
  cases hResult : renderResource render template vars with
  | ok resource => rw [hResult] at hError; cases hError
  | error cause =>
      rw [hResult] at hError
      cases hError
      exact ⟨cause, rfl, (Renders.iff_eq hKnown).2 hResult.symm⟩

end Entries

------------------------------------------------------------
-- Plans
------------------------------------------------------------

/- A list of entries stops at its first entry without a
   resource. -/
inductive Stops
    (render : Renderer)
    (vars manifests : Table String)
    (entries : List (StepKind × String)) :
    Error → Prop
  | first
      {before rest : List (StepKind × String)}
      {entry : StepKind × String}
      {cause : RenderError}
      (hEntries : entries = before ++ entry :: rest)
      (hBefore : ∀ other ∈ before, ∃ resource,
        Renders render vars manifests other.2 (.ok resource))
      (hFails : Renders render vars manifests entry.2
        (.error cause)) :
      Stops render vars manifests entries
        (.render entry.2 cause)

/- A list that stops has an entry without a resource. -/
theorem Stops.not_all
    {render : Renderer}
    {vars manifests : Table String}
    {entries : List (StepKind × String)}
    {e : Error}
    (hStops : Stops render vars manifests entries e) :
    ¬ ∀ entry ∈ entries, ∃ resource,
      Renders render vars manifests entry.2
        (.ok resource) := by
  rintro hAll
  cases hStops with
  | first hEntries hBefore hFails =>
      subst hEntries
      rcases hAll _ (List.mem_append_right _
        (List.mem_cons_self ..)) with ⟨resource, hRead⟩
      cases hRead.unique hFails

section Usable

variable {render : Renderer} {vars manifests : Table String}
variable {p : Playbook}

/- The steps of a plan are made of the entries, one of each, in
   their order. -/
theorem build_makes
    {plan : Plan}
    (hBuild : build render p vars manifests = .ok plan) :
    List.Forall₂ (Makes render vars manifests)
      p.expansion plan.steps :=
  (build_ok hBuild).imp fun _ _ => buildStep_ok_iff.1

variable (hUsable : p.Usable manifests)

include hUsable

/- A plan is not built because of the first entry that has no
   resource. -/
theorem build_stops
    {e : Error}
    (hBuild : build render p vars manifests = .error e) :
    Stops render vars manifests p.expansion e := by
  rcases build_first_error hBuild with
    ⟨before, entry, rest, hEntries, hBefore, hError⟩
  have hKnown : manifests.contains entry.2 = true :=
    hUsable.known_entry (by simp [hEntries])
  rcases buildStep_error hKnown hError with
    ⟨cause, rfl, hFails⟩
  refine .first hEntries ?_ hFails
  intro other hOther
  rcases hBefore other hOther with ⟨step, hStep⟩
  exact ⟨step.resource, (buildStep_ok_iff.1 hStep).2⟩

/- There is a plan exactly if every entry has a resource. -/
theorem exists_plan_iff :
    (∃ plan, build render p vars manifests = .ok plan) ↔
      ∀ entry ∈ p.expansion, ∃ resource,
        Renders render vars manifests entry.2
          (.ok resource) := by
  constructor
  · rintro ⟨plan, hBuild⟩ entry hEntry
    rcases List.forall₂_iff_get.1 (build_makes hBuild) with
      ⟨hLength, hEach⟩
    rcases List.get_of_mem hEntry with ⟨⟨n, hn⟩, rfl⟩
    exact ⟨_, (hEach n hn (hLength ▸ hn)).2⟩
  · intro hAll
    cases hBuild : build render p vars manifests with
    | ok plan => exact ⟨plan, rfl⟩
    | error e =>
        exact absurd hAll (build_stops hUsable hBuild).not_all

/- A plan has a step for each entry, and at least one. -/
theorem length_of_build
    {plan : Plan}
    (hBuild : build render p vars manifests = .ok plan) :
    plan.steps ≠ [] ∧ plan.steps.length = p.stepCount := by
  have hExpands : Expands p.tasks p.expansion :=
    Expands.iff_eq.2 rfl
  have hLength := (build_makes hBuild).length_eq
  constructor
  · intro hNone
    rw [hNone, List.length_nil] at hLength
    exact hExpands.ne_nil hUsable.tasks hUsable.uses
      (List.length_eq_zero_iff.1 hLength)
  · exact hLength.symm.trans hExpands.length_eq

end Usable

/-
  The plan of a registered playbook.

  The catalog has checked the playbook against the manifests
  that it still has, so every entry names a known manifest;
  what is left to go wrong is rendering, entry by entry.
-/
theorem build_registered
    {c : Catalog}
    {id : String}
    {p : Playbook}
    (hReached : c.Reached)
    (hFound : c.get? id = some p)
    (render : Renderer)
    (vars : Table String) :
    ∃ entries,
      (∀ others, Expands p.tasks others ↔ others = entries) ∧
        (∀ why,
          build render p vars c.manifests ≠
            .error (.invalid why)) ∧
        ((∃ plan, build render p vars c.manifests = .ok plan) ↔
          ∀ entry ∈ entries, ∃ resource,
            Renders render vars c.manifests entry.2
              (.ok resource)) ∧
        (∀ plan,
          build render p vars c.manifests = .ok plan →
            plan.steps ≠ [] ∧
              plan.steps.length = p.stepCount ∧
              List.Forall₂ (Makes render vars c.manifests)
                entries plan.steps) ∧
        ∀ e,
          build render p vars c.manifests = .error e →
            Stops render vars c.manifests entries e := by
  have hUsable :=
    Playbook.usable_of_validate (hReached.valid id p hFound)
  refine ⟨p.expansion, fun _ => Expands.iff_eq, ?_,
    exists_plan_iff hUsable, ?_, fun _ => build_stops hUsable⟩
  · intro why hBuild
    cases build_stops hUsable hBuild
  · intro plan hBuild
    rcases length_of_build hUsable hBuild with
      ⟨hSome, hLength⟩
    exact ⟨hSome, hLength, build_makes hBuild⟩

end Plan

/- A task with a pod manifest, and one whose pod manifest has
   no name. -/
def Playbook.pages : Playbook :=
  ⟨"web", "Web", ["branch"],
    [⟨"data", ["app"], some "seed"⟩,
      ⟨"pages", ["app", "app"], some ""⟩], none⟩

/- A catalog that has registered it, and has refused another
   playbook with the same id. -/
def Catalog.pages : Catalog :=
  ((Catalog.empty
    ((Table.empty.insert "app"
      (plainManifest "app-\x7b\x7bbranch\x7d\x7d")).insert "seed"
        (plainManifest "seed"))).register .pages).register
    ⟨"web", "Web", [], [⟨"none", ["lost"], none⟩], none⟩

/- With its variable it has three steps; without it, whatever
   goes wrong is a render that fails. -/
theorem Plan.build_registered_pages :
    Catalog.pages.Reached ∧
      Catalog.pages.get? "web" = some .pages ∧
      ∃ plan,
        build Template.render .pages
            (Table.empty.insert "branch" "main")
            Catalog.pages.manifests = .ok plan ∧
          plan.steps.length = 3 ∧
          ∀ e,
            build Template.render .pages Table.empty
                Catalog.pages.manifests = .error e →
              ∃ manifest cause, e = .render manifest cause := by
  have hReached : Catalog.pages.Reached :=
    .register (.register (.empty _) _) _
  have hFound : Catalog.pages.get? "web" = some .pages := by
    decide +kernel
  refine ⟨hReached, hFound, ?_⟩
  rcases build_registered hReached hFound Template.render
    (Table.empty.insert "branch" "main") with
      ⟨_, _, _, _, hPlan, _⟩
  rcases build_registered hReached hFound Template.render
    Table.empty with ⟨_, _, _, _, _, hStops⟩
  obtain ⟨plan, hBuild⟩ : ∃ plan,
      build Template.render .pages
        (Table.empty.insert "branch" "main")
        Catalog.pages.manifests = .ok plan :=
    exists_of_isOk (by decide +kernel)
  refine ⟨plan, hBuild, (hPlan plan hBuild).2.1.trans rfl, ?_⟩
  intro e hError
  cases hStops e hError
  exact ⟨_, _, rfl⟩

end Preview
