import Preview.Proofs.Objects

/-
  States that hold a cluster.

  Programs ask a cluster that others report phases to.  A
  prompt cluster stays prompt, and what becomes of an object
  that a program does not ask about is told by the reports on
  it.  A cluster in memory is one that nobody reports to.

  Main declarations:
    * `Cluster.Reporting` and `Cluster.Kept`
    * `Cluster.Reporting.kept_of_leads`
    * `Cluster.InMemory` and `World.perform_inMemory`
    * `Cluster.InMemory.prompt_eval`
    * `Cluster.InMemory.objects_eval`
-/

namespace Preview

open Preview.Action (Handler eval)

/- Calls that act on an object or read it. -/
def Call.isObject : Call → Bool
  | cluster (.watch _) => false
  | cluster _ => true
  | _ => false

------------------------------------------------------------
-- Clusters That Are Reported On
------------------------------------------------------------

namespace Cluster

/-
  A state holds a cluster that answers the calls about its
  objects, while others report phases on some of them; what
  they report is logged.  All other calls leave the objects as
  the reports make them, and a prompt cluster prompt.
-/
structure Reporting
    {σ : Type}
    (h : Handler σ)
    (view : σ → Cluster)
    (log : σ → List Report)
    (keys : List Key) : Prop where
  asks : ∀ s c, (Preview.Call.cluster c).isObject = true →
    ∃ before after,
      (∀ e ∈ before ++ after, e.key ∈ keys) ∧
      log (h s (.cluster c)).1 = log s ++ (before ++ after) ∧
      view (h s (.cluster c)).1 =
        (((view s).report before).perform c).1.report after ∧
      (h s (.cluster c)).2 =
        (((view s).report before).perform c).2
  stays : ∀ s c, c.isObject = false → (view s).Prompt →
    ∃ es,
      (∀ e ∈ es, e.key ∈ keys) ∧
      log (h s c).1 = log s ++ es ∧
      (view (h s c).1).Prompt ∧
      (view (h s c).1).objects = ((view s).report es).objects

/- Between two states, an object is what the reports on it
   have made of it. -/
def Kept
    {σ : Type}
    (view : σ → Cluster)
    (log : σ → List Report)
    (keys : List Key)
    (key : Key)
    (s t : σ) : Prop :=
  ∃ es,
    (∀ e ∈ es, e.key ∈ keys) ∧
    log t = log s ++ es ∧
    (view t).objects.get? key =
      ((view s).objects.get? key).map (Report.onto es key)

namespace Kept

variable {σ : Type} {view : σ → Cluster}
variable {log : σ → List Report} {keys : List Key}
variable {key : Key} {s t u : σ}

theorem refl (s : σ) : Kept view log keys key s s :=
  ⟨[], by simp, by simp,
    (Report.map_onto_of_other (by simp) _).symm⟩

/- An object is kept through two parts that each keep it. -/
theorem trans
    (hFirst : Kept view log keys key s t)
    (hThen : Kept view log keys key t u) :
    Kept view log keys key s u := by
  rcases hFirst with ⟨es, hKeys, hLog, hObject⟩
  rcases hThen with ⟨fs, hKeys', hLog', hObject'⟩
  refine ⟨es ++ fs, ?_, ?_, ?_⟩
  · intro e he
    rcases List.mem_append.1 he with he | he
    · exact hKeys e he
    · exact hKeys' e he
  · rw [hLog', hLog, List.append_assoc]
  · rw [hObject', hObject, Report.map_onto_append]

/- Without reports an object is unchanged. -/
theorem eq_of_not_mem
    (hKept : Kept view log keys key s t)
    (hOutside : key ∉ keys) :
    (view t).objects.get? key = (view s).objects.get? key := by
  rcases hKept with ⟨es, hKeys, -, hObject⟩
  rw [hObject]
  apply Report.map_onto_of_other
  intro e he hSame
  exact hOutside (hSame ▸ hKeys e he)

end Kept

namespace Reporting

variable {σ : Type} {h : Handler σ} {view : σ → Cluster}
variable {log : σ → List Report} {keys : List Key}
variable (hReporting : Reporting h view log keys)

include hReporting

/- A cluster stays prompt, whatever call is made. -/
theorem prompt_call
    {s : σ}
    (hPrompt : (view s).Prompt)
    (c : Preview.Call) :
    (view (h s c).1).Prompt := by
  cases hObject : c.isObject with
  | false =>
      rcases hReporting.stays s c hObject hPrompt with
        ⟨es, -, -, hThen, -⟩
      exact hThen
  | true =>
      cases c with
      | cluster c =>
          rcases hReporting.asks s c hObject with
            ⟨before, after, -, -, hView, -⟩
          rw [hView]
          exact report_prompt
            (perform_prompt (report_prompt hPrompt before) c)
            after
      | _ => cases hObject

/- A call keeps every object that it is not about. -/
theorem kept_call
    {s : σ}
    (hPrompt : (view s).Prompt)
    {c : Preview.Call}
    {own key : Key}
    (hFor : c.IsFor own)
    (hOther : key ≠ own) :
    Kept view log keys key s (h s c).1 := by
  cases hObject : c.isObject with
  | false =>
      rcases hReporting.stays s c hObject hPrompt with
        ⟨es, hKeys, hLog, -, hThen⟩
      refine ⟨es, hKeys, hLog, ?_⟩
      rw [hThen, objects_report]
  | true =>
      cases c with
      | cluster c =>
          rcases hReporting.asks s c hObject with
            ⟨before, after, hKeys, hLog, hView, -⟩
          refine ⟨before ++ after, hKeys, hLog, ?_⟩
          have hSubject : key ≠ (World.subject c).2 := by
            rw [show (World.subject c).2 = own from hFor]
            exact hOther
          rw [hView, objects_report,
            objects_perform_other (report_prompt hPrompt before)
              hSubject,
            objects_report, Report.map_onto_append]
      | _ => cases hObject

/- A cluster stays prompt, whatever program is run. -/
theorem prompt_eval
    {α : Type}
    (m : Action α)
    {s : σ}
    (hPrompt : (view s).Prompt) :
    (view (eval h m s).1).Prompt := by
  induction m generalizing s with
  | finish a => exact hPrompt
  | call c next ih =>
      exact ih _ (prompt_call hReporting hPrompt c)

theorem prompt_of_eval
    {α : Type}
    {m : Action α}
    {s t : σ}
    {a : α}
    (hPrompt : (view s).Prompt)
    (hEval : eval h m s = (t, a)) :
    (view t).Prompt := by
  have hThen := hReporting.prompt_eval m hPrompt
  rw [hEval] at hThen
  exact hThen

/- A program keeps every object that it does not ask about. -/
theorem kept_of_leads
    {α : Type}
    {P : Preview.Call → Prop}
    {Q : α → Prop}
    {m : Action α}
    {key : Key}
    (hLeads : m.Leads P Q)
    (hOther : ∀ c, P c → ∃ own, c.IsFor own ∧ key ≠ own)
    {s : σ}
    (hPrompt : (view s).Prompt) :
    Kept view log keys key s (eval h m s).1 := by
  have hCall (t : σ) (c : Preview.Call) (hc : P c)
      (hThen : (view t).Prompt ∧ Kept view log keys key s t) :
      (view (h t c).1).Prompt ∧
        Kept view log keys key s (h t c).1 := by
    rcases hOther c hc with ⟨own, hFor, hNe⟩
    exact ⟨hReporting.prompt_call hThen.1 c,
      hThen.2.trans (hReporting.kept_call hThen.1 hFor hNe)⟩
  have hYields := hLeads.yields h
    (I := fun t =>
      (view t).Prompt ∧ Kept view log keys key s t)
    hCall ⟨hPrompt, Kept.refl s⟩
  exact hYields.2.2.2

end Reporting

end Cluster

------------------------------------------------------------
-- Clusters in Memory
------------------------------------------------------------

namespace Cluster

/-
  A state holds a cluster that answers the calls about its
  objects.  All other calls, and those that open a watch,
  leave the objects as they are, and a prompt cluster prompt.
-/
structure InMemory
    {σ : Type}
    (h : Handler σ)
    (view : σ → Cluster) : Prop where
  gets : ∀ s key,
    (view (h s (.cluster (.get key))).1,
      (h s (.cluster (.get key))).2) = (view s).get key
  creates : ∀ s kind space r,
    (view (h s (.cluster (.create kind space r))).1,
      (h s (.cluster (.create kind space r))).2) =
        (view s).create kind space r
  updates : ∀ s kind space r,
    (view (h s (.cluster (.update kind space r))).1,
      (h s (.cluster (.update kind space r))).2) =
        (view s).update kind space r
  deletes : ∀ s key,
    (view (h s (.cluster (.delete key))).1,
      (h s (.cluster (.delete key))).2) = (view s).delete key
  watches : ∀ s key, (view s).Prompt →
    (view (h s (.cluster (.watch key))).1).Prompt ∧
      (view (h s (.cluster (.watch key))).1).objects =
        (view s).objects
  stays : ∀ s c, c.isCluster = false → (view s).Prompt →
    (view (h s c).1).Prompt ∧
      (view (h s c).1).objects = (view s).objects

/- Nobody need report anything. -/
theorem InMemory.reporting
    {σ : Type}
    {h : Handler σ}
    {view : σ → Cluster}
    (hMemory : InMemory h view)
    (keys : List Key) :
    Reporting h view (fun _ => []) keys where
  asks s c hObject := by
    refine ⟨[], [], by simp, rfl, ?_⟩
    cases c with
    | get key => exact Prod.mk.inj (hMemory.gets s key)
    | create kind space r =>
        exact Prod.mk.inj (hMemory.creates s kind space r)
    | update kind space r =>
        exact Prod.mk.inj (hMemory.updates s kind space r)
    | delete key => exact Prod.mk.inj (hMemory.deletes s key)
    | watch key => cases hObject
  stays s c hObject hPrompt := by
    refine ⟨[], by simp, rfl, ?_⟩
    cases c with
    | cluster c =>
        cases c with
        | watch key => exact hMemory.watches s key hPrompt
        | _ => cases hObject
    | _ => exact hMemory.stays s _ rfl hPrompt

namespace InMemory

variable {σ : Type} {h : Handler σ} {view : σ → Cluster}
variable (hMemory : InMemory h view)

include hMemory

/- No call makes a prompt cluster wait. -/
theorem prompt_call
    {s : σ}
    (hPrompt : (view s).Prompt)
    (c : Preview.Call) :
    (view (h s c).1).Prompt :=
  (hMemory.reporting []).prompt_call hPrompt c

/- No program does. -/
theorem prompt_eval
    {α : Type}
    (m : Action α)
    {s : σ}
    (hPrompt : (view s).Prompt) :
    (view (eval h m s).1).Prompt :=
  (hMemory.reporting []).prompt_eval m hPrompt

/- A program without calls of the cluster leaves the objects
   as they are. -/
theorem objects_eval
    {α : Type}
    {Q : α → Prop}
    {m : Action α}
    (hLeads : m.Leads (fun c => c.isCluster = false) Q)
    {s : σ}
    (hPrompt : (view s).Prompt) :
    (view (eval h m s).1).objects = (view s).objects := by
  have hYields := hLeads.yields h
    (I := fun t => (view t).Prompt ∧
      (view t).objects = (view s).objects)
    (fun t c hCluster hKept => by
      have hStays := hMemory.stays t c hCluster hKept.1
      exact ⟨hStays.1, hStays.2.trans hKept.2⟩)
    ⟨hPrompt, rfl⟩
  exact hYields.2.2.2

end InMemory

end Cluster

/- The store of a world is kept apart from its cluster. -/
theorem World.cluster_performStore
    (w : World)
    (c : Store.Call) :
    (w.performStore c).1.cluster = w.cluster := by
  have hChange {α : Type} (v : World)
      (r : Except StoreError (Store × α)) :
      (v.change r).1.cluster = v.cluster := by
    unfold change
    split <;> rfl
  have hFault (v : World) (hFault : w.plainFault = some v) :
      v.cluster = w.cluster := by
    unfold plainFault at hFault
    split at hFault
    · cases hFault
      rfl
    · split at hFault <;> cases hFault
      rfl
  have hRival : w.rivalActs.cluster = w.cluster := by
    unfold rivalActs
    split
    · rfl
    · dsimp only
      split <;> rfl
  cases c with
  | value path =>
      simp only [performStore]
      split <;> rfl
  | values path =>
      simp only [performStore]
      split <;> rfl
  | set path value =>
      simp only [performStore]
      cases hPlain : w.plainFault with
      | some v => exact hFault v hPlain
      | none => exact hChange w _
  | erase path =>
      simp only [performStore]
      cases hPlain : w.plainFault with
      | some v => exact hFault v hPlain
      | none => exact hChange w _
  | swap path expected value =>
      simp only [performStore]
      split
      · rfl
      · exact (hChange _ _).trans hRival

/- A world holds its cluster in this way. -/
theorem World.perform_inMemory :
    Cluster.InMemory World.perform World.cluster where
  gets _ _ := rfl
  creates _ _ _ _ := rfl
  updates _ _ _ _ := rfl
  deletes _ _ := rfl
  watches w key hPrompt := by
    change (w.openWatch key).1.cluster.Prompt ∧
      (w.openWatch key).1.cluster.objects = w.cluster.objects
    unfold openWatch
    split
    · exact ⟨⟨hPrompt.hFailures, hPrompt.hTerminating,
        hPrompt.hLags⟩, rfl⟩
    · refine ⟨Cluster.watch_prompt hPrompt key, ?_⟩
      dsimp only
      unfold Cluster.watch
      rw [Cluster.takeFailure_prompt hPrompt]
      rfl
  stays w c hCluster hPrompt := by
    have hSame {v : World} (hSame : v.cluster = w.cluster) :
        v.cluster.Prompt ∧
          v.cluster.objects = w.cluster.objects := by
      rw [hSame]
      exact ⟨hPrompt, rfl⟩
    cases c with
    | store c => exact hSame (w.cluster_performStore c)
    | cluster c => cases hCluster
    | release id =>
        exact ⟨⟨hPrompt.hFailures, hPrompt.hTerminating,
          hPrompt.hLags⟩, rfl⟩
    | settle token id ms =>
        apply hSame
        simp only [perform]
        split <;> rfl
    | receive id ms =>
        simp only [perform]
        cases hTaken : w.cluster.take? id with
        | none => exact hSame rfl
        | some taken =>
            rcases taken with ⟨c, item⟩
            unfold Cluster.take? at hTaken
            split at hTaken <;> cases hTaken
            exact ⟨⟨hPrompt.hFailures, hPrompt.hTerminating,
              hPrompt.hLags⟩, rfl⟩
    | send n =>
        apply hSame
        simp only [perform]
        split <;> rfl
    | _ => exact hSame rfl

end Preview
