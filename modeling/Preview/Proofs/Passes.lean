import Preview.Proofs.Sweeping

/-
  A sweep that runs alone, run by run.

  A sweep scans the store and makes one delete run for each
  instance that it lists, in their order; its report has the
  labels of the instances by the results of these runs.

  Main declarations:
    * `Visit` and `Service.Visits`
    * `Visit.report`, `removed_report` and `failed_report`
    * `Service.Sweeps` and `Service.sweep_yields`
-/

namespace Preview

open Preview.Action (Handler eval exchanges)

------------------------------------------------------------
-- Visits
------------------------------------------------------------

/- A delete run that was made: the copy that it was given, its
   exchanges and its result. -/
structure Visit where
  copy : Instance
  exchanges : List Exchange
  result : Except Error Unit

namespace Visit

/- The report of some delete runs. -/
def report (visits : List Visit) : SweepReport :=
  visits.foldl (fun r v => r.add v.copy.label v.result) .empty

/- The entry of a delete run among the failures. -/
def failure? (v : Visit) : Option (String × Error) :=
  match v.result with
  | .ok () => none
  | .error e => some (v.copy.label, e)

/- A report grows visit by visit. -/
theorem foldl_add (visits : List Visit) (r : SweepReport) :
    visits.foldl (fun r v => r.add v.copy.label v.result) r =
      ⟨r.removed ++
          (visits.filter (·.result.isOk)).map (·.copy.label),
        r.failed ++ visits.filterMap failure?⟩ := by
  induction visits generalizing r with
  | nil => simp
  | cons v visits ih =>
      rw [List.foldl_cons, ih]
      unfold failure? SweepReport.add
      cases hResult : v.result with
      | ok _ =>
          simp [hResult, Except.isOk, Except.toBool]
      | error e =>
          simp [hResult, Except.isOk, Except.toBool]

theorem removed_report (visits : List Visit) :
    (report visits).removed =
      (visits.filter (·.result.isOk)).map (·.copy.label) := by
  unfold report
  rw [foldl_add]
  rfl

/- What failed is reported with its error. -/
theorem failed_report (visits : List Visit) :
    (report visits).failed = visits.filterMap failure? := by
  unfold report
  rw [foldl_add]
  rfl

/- The labels of the failures are those of the runs that have
   not gone well. -/
theorem labels_failed_report (visits : List Visit) :
    (report visits).failed.map (·.1) =
      (visits.filter (!·.result.isOk)).map (·.copy.label) := by
  rw [failed_report]
  induction visits with
  | nil => rfl
  | cons v visits ih =>
      unfold failure? at ih ⊢
      cases hResult : v.result with
      | ok _ => simpa [hResult, Except.isOk, Except.toBool] using ih
      | error e =>
          simpa [hResult, Except.isOk, Except.toBool] using ih

end Visit

section Visiting

variable {σ : Type} (h : Handler σ) (s : Service)

/- Some delete runs are made one after the other. -/
inductive Service.Visits : σ → List Visit → σ → Prop where
  | done (t : σ) : Visits t [] t
  | next
    {t u : σ}
    {visits : List Visit}
    (copy : Instance)
    (hRest : Visits (eval h (s.delete copy).run t).1 visits u) :
    Visits t
      (⟨copy, exchanges h (s.delete copy).run t,
        (eval h (s.delete copy).run t).2⟩ :: visits) u

variable {h s}

/- What every delete run yields holds of all that are made. -/
theorem Service.Visits.forall
    {Post : Instance → List Exchange → Except Error Unit → Prop}
    (hEach : ∀ copy t,
      (s.delete copy).run.Yields h t fun xs result _ =>
        Post copy xs result)
    {t u : σ}
    {visits : List Visit}
    (hVisits : s.Visits h t visits u) :
    ∀ v ∈ visits, Post v.copy v.exchanges v.result := by
  induction hVisits with
  | done => exact fun _ h => (nomatch h)
  | next copy _ ih =>
      intro v hv
      rcases List.mem_cons.1 hv with rfl | hv
      · exact hEach copy _
      · exact ih v hv

/- Each instance is visited once, in the order given, from the
   state that the visit before has left. -/
theorem Service.deleteAll_yields
    (is : List Instance)
    (report : SweepReport)
    (start : σ) :
    (s.deleteAll is report).Yields h start fun xs out t =>
      ∃ visits,
        s.Visits h start visits t ∧
          visits.map Visit.copy = is ∧
          xs = visits.flatMap Visit.exchanges ∧
          out = visits.foldl
            (fun r v => r.add v.copy.label v.result)
            report := by
  induction is generalizing report start with
  | nil => exact ⟨[], .done _, rfl, rfl, rfl⟩
  | cons i is ih =>
      have hDelete := Action.yields_bind h (s.delete i).run
        fun outcome =>
          s.deleteAll is (report.add i.label outcome)
      rcases ih
        (report.add i.label (eval h (s.delete i).run start).2)
        (eval h (s.delete i).run start).1 with
        ⟨visits, hVisits, hCopies, hExchanges, hReport⟩
      refine (hDelete start _).2 ⟨_, .next i hVisits, ?_, ?_, ?_⟩
      · rw [List.map_cons, hCopies]
      · rw [List.flatMap_cons, hExchanges]
      · rw [List.foldl_cons, hReport]

------------------------------------------------------------
-- Sweeps
------------------------------------------------------------

variable (h s)

/- What a sweep does that runs alone: its scan fails, or it
   makes a delete run for each instance of what it lists. -/
inductive Service.Sweeps (asOf : Instant) (start : σ) :
    List Exchange → Except Error SweepReport → σ → Prop where
  | unscanned
    {e : StoreError}
    (hScan :
      (h start (.store
        (.values s.repository.instancesPath))).2 = .error e) :
    Sweeps asOf start
      [⟨.store (.values s.repository.instancesPath), .error e⟩]
      (.error (.store e))
      (h start (.store
        (.values s.repository.instancesPath))).1
  | scanned
    {listing : List (String × String)}
    {visits : List Visit}
    {t : σ}
    (hScan :
      (h start (.store
        (.values s.repository.instancesPath))).2 =
          .ok listing)
    (hVisits : s.Visits h
      (h start (.store
        (.values s.repository.instancesPath))).1 visits t)
    (hCopies : visits.map Visit.copy =
      Repository.listed asOf listing) :
    Sweeps asOf start
      (⟨.store (.values s.repository.instancesPath),
          .ok listing⟩ ::
        visits.flatMap Visit.exchanges)
      (.ok (Visit.report visits)) t

/- A sweep scans, and then visits what it lists. -/
theorem Service.sweep_yields (asOf : Instant) (start : σ) :
    (s.sweep asOf).run.Yields h start
      (s.Sweeps h asOf start) := by
  rw [sweep_run, Action.yields_call]
  cases hScan : (h start (.store
      (.values s.repository.instancesPath))).2 with
  | error e => exact .unscanned hScan
  | ok listing =>
      refine (Action.yields_bind _ _ _ _ _).2 ?_
      apply (deleteAll_yields _ .empty _).mono
      intro xs out t hAll
      rcases hAll with ⟨visits, hVisits, hCopies, rfl, rfl⟩
      have hSweeps := Sweeps.scanned hScan hVisits hCopies
      rw [← List.append_nil (visits.flatMap _)] at hSweeps
      exact hSweeps

end Visiting

end Preview
