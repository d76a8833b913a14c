import Preview.Proofs.Teardown

/-
  Steps that a destroyed plan passes over.

  A plan is destroyed label by label: the first step of a
  label stands for all its steps.  A label is a kind and a
  name with a slash in between, so that two objects share it
  when a kind has a slash itself; then the object of the later
  step stays.

  Main declarations:
    * `Resource.label_inj`
    * `Plan.first?` and `Plan.mem_visited_iff`
    * `Plan.destroy_clears`
    * `Plan.destroy_passes_over`
-/

namespace Preview

open Preview.Action (Handler eval)
open Cluster (InMemory)

------------------------------------------------------------
-- Labels
------------------------------------------------------------

/- What stands in front of the first slash. -/
theorem takeWhile_slash
    {front : List Char}
    (hFront : '/' ∉ front)
    (rest : List Char) :
    (front ++ '/' :: rest).takeWhile (· != '/') = front := by
  have hAll : ∀ c ∈ front, (c != '/') = true := by
    intro c hc
    exact bne_iff_ne.2 fun hSlash => hFront (hSlash ▸ hc)
  rw [List.takeWhile_append_of_pos hAll,
    List.takeWhile_cons_of_neg (by simp), List.append_nil]

/- A label is the kind, a slash and the name. -/
theorem Resource.toList_label (r : Resource) :
    r.label.toList =
      r.kind.toList ++ '/' :: r.name.toList := by
  unfold label
  rw [String.toList_append, String.toList_append]
  simp

/- A label tells its kind from its name if the kind has no
   slash. -/
theorem Resource.label_inj
    {a b : Resource}
    (ha : '/' ∉ a.kind.toList)
    (hb : '/' ∉ b.kind.toList)
    (hLabel : a.label = b.label) :
    a.kind = b.kind ∧ a.name = b.name := by
  have hChars := congrArg String.toList hLabel
  rw [toList_label, toList_label] at hChars
  have hKind : a.kind.toList = b.kind.toList := by
    have hFront := congrArg (List.takeWhile (· != '/')) hChars
    rwa [takeWhile_slash ha, takeWhile_slash hb] at hFront
  rw [hKind] at hChars
  have hName := List.cons.inj (List.append_cancel_left hChars)
  exact ⟨String.toList_inj.1 hKind, String.toList_inj.1 hName.2⟩

------------------------------------------------------------
-- Visited Steps
------------------------------------------------------------

namespace Plan

/- The step that a destroy takes for all steps of a label. -/
def first? (p : Plan) (label : String) : Option Step :=
  p.steps.find? fun s => s.label = label

/- A step is kept as distinct if it is the first of its
   label. -/
theorem mem_distinct_iff
    {seen : List String}
    {steps : List Step}
    {s : Step} :
    s ∈ distinct seen steps ↔
      s.label ∉ seen ∧
        steps.find? (fun a => a.label = s.label) = some s := by
  induction steps generalizing seen with
  | nil => simp [distinct]
  | cons a steps ih =>
      unfold distinct
      by_cases hSame : a.label = s.label
      · rw [List.find?_cons_of_pos (by simpa using hSame)]
        by_cases hSeen : s.label ∈ seen
        · simp [ih, hSame, hSeen]
        · simp [ih, hSame, hSeen, eq_comm]
      · rw [List.find?_cons_of_neg (by simpa using hSame)]
        have hOther : s ≠ a := fun hEq => hSame (hEq ▸ rfl)
        by_cases hSeen : a.label ∈ seen
        · simp [ih, hSeen]
        · simp [ih, hSeen, hOther, Ne.symm hSame]

section Visited

variable {p : Plan} {s : Step} (ctx : Context)

/- Some step of a plan is the first of its label. -/
theorem exists_first
    (hStep : s ∈ p.steps) :
    ∃ a, p.first? s.label = some a :=
  Option.isSome_iff_exists.1
    (List.find?_isSome.2 ⟨s, hStep, by simp⟩)

/- That step has the label. -/
theorem label_of_first
    {a : Step}
    {label : String}
    (hFirst : p.first? label = some a) :
    a.label = label := by
  simpa using List.find?_some hFirst

/- The object of a step is visited if it is that of the first
   step with the same label. -/
theorem mem_visited_iff
    {a : Step}
    (hFirst : p.first? s.label = some a) :
    ctx.key s.resource ∈ p.visited ctx ↔
      ctx.key a.resource = ctx.key s.resource := by
  have hLabel := label_of_first hFirst
  constructor
  · intro hVisited
    rcases List.mem_map.1 hVisited with ⟨b, hb, hKey⟩
    have hFound := (mem_distinct_iff.1 hb).2
    rw [Step.label_of_key ctx hKey] at hFound
    cases hFirst.symm.trans hFound
    exact hKey
  · intro hKey
    rw [← hKey]
    refine List.mem_map_of_mem (mem_distinct_iff.2
      ⟨List.not_mem_nil, ?_⟩)
    rw [hLabel]
    exact hFirst

end Visited

------------------------------------------------------------
-- Destroyed Plans
------------------------------------------------------------

/-
  What a successful destroy leaves of the planned objects.

  The first step of each label takes its object down.  A later
  step of the label is passed over: its object is gone if it
  is the same, and is left as it was otherwise.  If no planned
  kind has a slash, a label has one object only and all
  planned objects are gone.
-/
theorem destroy_clears
    {σ : Type}
    {h : Handler σ}
    {view : σ → Cluster}
    (hMemory : InMemory h view)
    (ctx : Context)
    (p : Plan)
    {start : σ}
    (hPrompt : (view start).Prompt) :
    (p.destroy ctx).run.Yields h start fun _ result t =>
      result = .ok () →
        (∀ s ∈ p.steps, ∃ a,
          p.first? s.label = some a ∧
            (view t).objects.get? (ctx.key s.resource) =
              if ctx.key a.resource = ctx.key s.resource
              then none
              else (view start).objects.get?
                (ctx.key s.resource)) ∧
        ((∀ s ∈ p.steps, '/' ∉ s.resource.kind.toList) →
          ∀ s ∈ p.steps,
            (view t).objects.get? (ctx.key s.resource) =
              none) := by
  apply (p.destroy_yields hMemory ctx hPrompt).mono
  rintro _ result t ⟨-, hGone⟩ hOk
  have hEach : ∀ s ∈ p.steps, ∀ a,
      p.first? s.label = some a →
        (view t).objects.get? (ctx.key s.resource) =
          if ctx.key a.resource = ctx.key s.resource
          then none
          else (view start).objects.get?
            (ctx.key s.resource) := by
    intro s _ a hFirst
    rw [hGone hOk (ctx.key s.resource)]
    simp only [mem_visited_iff ctx hFirst]
  constructor
  · intro s hStep
    rcases exists_first hStep with ⟨a, hFirst⟩
    exact ⟨a, hFirst, hEach s hStep a hFirst⟩
  · intro hKinds s hStep
    rcases exists_first hStep with ⟨a, hFirst⟩
    have hPlanned : a ∈ p.steps :=
      List.mem_of_find?_eq_some hFirst
    have hSame := Resource.label_inj (hKinds a hPlanned)
      (hKinds s hStep) (label_of_first hFirst)
    have hKey : ctx.key a.resource = ctx.key s.resource := by
      unfold Context.key
      rw [hSame.1, hSame.2]
    rw [hEach s hStep a hFirst, if_pos hKey]

/- A manifest of one object without content. -/
def bareManifest (kind name : String) : String :=
  "apiVersion: v1\nkind: " ++ kind ++ "\nmetadata:\n  name: " ++
    name ++ "\n"

/- The plan of two objects whose kind and name read alike. -/
def nested? : Except Error Plan :=
  build Template.render
    ⟨"web", "Web", [], [⟨"app", ["outer", "inner"], none⟩],
      none⟩
    Table.empty
    ((Table.empty.insert "outer"
      (bareManifest "a" "b/c")).insert "inner"
        (bareManifest "a/b" "c"))

/- A world that has both of them. -/
def nestedWorld : World :=
  { (default : World) with
    cluster :=
      (Cluster.empty.insert "previews"
        (.plain "v1" "a" "b/c")).insert "previews"
          (.plain "v1" "a/b" "c") }

/- The two objects have one label, and the second of them is
   left. -/
theorem nested_plan :
    ∃ plan,
      nested? = .ok plan ∧
        plan.steps.map (Context.key ⟨"previews", {}, 0⟩ ∘
            Step.resource) =
          [⟨"a", "previews", "b/c"⟩, ⟨"a/b", "previews", "c"⟩] ∧
        ∃ t,
          eval World.perform
              (plan.destroy ⟨"previews", {}, 0⟩).run nestedWorld =
            (t, .ok ()) ∧
          t.cluster.objects.contains
            ⟨"a/b", "previews", "c"⟩ = true := by
  have hRun : (nested?.toOption.map fun plan =>
      let ended := eval World.perform
        (plan.destroy ⟨"previews", {}, 0⟩).run nestedWorld
      (plan.steps.map (Context.key ⟨"previews", {}, 0⟩ ∘
          Step.resource),
        ended.2.isOk,
        ended.1.cluster.objects.contains
          ⟨"a/b", "previews", "c"⟩)) =
      some ([⟨"a", "previews", "b/c"⟩,
        ⟨"a/b", "previews", "c"⟩], true, true) := by
    decide +kernel
  cases hPlan : nested? with
  | error e => rw [hPlan] at hRun; cases hRun
  | ok plan =>
      rw [hPlan] at hRun
      rcases Prod.mk.inj (Option.some.inj hRun) with
        ⟨hKeys, hEnded⟩
      rcases Prod.mk.inj hEnded with ⟨hOk, hThere⟩
      refine ⟨plan, rfl, hKeys, _, Prod.ext rfl ?_, hThere⟩
      rcases exists_of_isOk hOk with ⟨_, hOk⟩
      exact hOk

/- The second object is passed over, and is still there. -/
theorem destroy_passes_over :
    ∃ plan t,
      nested? = .ok plan ∧
        nestedWorld.cluster.Prompt ∧
        eval World.perform
            (plan.destroy ⟨"previews", {}, 0⟩).run nestedWorld =
          (t, .ok ()) ∧
        ∃ s ∈ plan.steps,
          t.cluster.objects.contains
            (Context.key ⟨"previews", {}, 0⟩ s.resource) =
              true := by
  rcases nested_plan with ⟨plan, hPlan, hKeys, t, hRun, hThere⟩
  have hInner : (⟨"a/b", "previews", "c"⟩ : Key) ∈
      plan.steps.map (Context.key ⟨"previews", {}, 0⟩ ∘
        Step.resource) := by
    rw [hKeys]
    decide
  rcases List.mem_map.1 hInner with ⟨s, hStep, hKey⟩
  refine ⟨plan, t, hPlan, ⟨rfl, rfl, fun _ => rfl⟩, hRun, s,
    hStep, ?_⟩
  change t.cluster.objects.contains
    ((Context.key ⟨"previews", {}, 0⟩ ∘ Step.resource) s) = _
  rw [hKey]
  exact hThere

/- The first object is gone. -/
theorem destroy_clears_nested :
    ∃ plan t,
      nested? = .ok plan ∧
        nestedWorld.cluster.Prompt ∧
        eval World.perform
            (plan.destroy ⟨"previews", {}, 0⟩).run nestedWorld =
          (t, .ok ()) ∧
        ∃ s ∈ plan.steps,
          Context.key ⟨"previews", {}, 0⟩ s.resource =
              ⟨"a", "previews", "b/c"⟩ ∧
            t.cluster.objects.get?
              ⟨"a", "previews", "b/c"⟩ = none := by
  rcases nested_plan with ⟨plan, hPlan, hKeys, t, hRun, -⟩
  have hPrompt : nestedWorld.cluster.Prompt :=
    ⟨rfl, rfl, fun _ => rfl⟩
  refine ⟨plan, t, hPlan, hPrompt, hRun, ?_⟩
  rcases List.map_eq_cons_iff.1 hKeys with
    ⟨s, rest, hSteps, hKey, -⟩
  have hStep : s ∈ plan.steps := by simp [hSteps]
  refine ⟨s, hStep, hKey, ?_⟩
  have hClears := destroy_clears World.perform_inMemory
    ⟨"previews", {}, 0⟩ plan hPrompt
  unfold Action.Yields at hClears
  rw [hRun] at hClears
  rcases (hClears rfl).1 s hStep with ⟨a, hFirst, hGone⟩
  have hSame : plan.first? s.label = some s := by
    unfold first?
    rw [hSteps, List.find?_cons_of_pos (by simp)]
  cases hFirst.symm.trans hSame
  rw [if_pos rfl] at hGone
  rw [← hKey]
  exact hGone

end Plan

end Preview
