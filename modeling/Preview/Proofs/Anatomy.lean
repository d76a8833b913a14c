import Preview.Proofs.Claiming

/-
  The parts of a run.

  A run makes some calls before its last write: it claims, and
  asks the cluster for what it has planned.  Then it is refused,
  fails, or makes the last write of its job.  What can be said
  of these endings, and can be carried over each of the calls
  before, can be said of every run.

  Main declarations:
    * `Call.Aside` and `Job.toil_aside`
    * `Job.start_eq`
    * `Job.Preliminary`
    * `Job.program_induction`
-/

namespace Preview

------------------------------------------------------------
-- Work
------------------------------------------------------------

/- Calls that neither touch a store nor tell anybody. -/
def Call.Aside (c : Call) : Prop :=
  c.isStore = false ∧ c.isMessage = false

/- The calls of a step touch no record and tell nobody. -/
theorem Call.IsFor.aside
    {key : Key}
    {c : Call}
    (hFor : c.IsFor key) :
    c.Aside := by
  refine ⟨hFor.outside, ?_⟩
  cases c with
  | send n => exact hFor.elim
  | _ => rfl

namespace Job

variable (s : Service) (i : Instance)

/- What a run asks for that has a plan. -/
def toil (plan : Plan) : Job → Attempt Error Unit
  | deploy => plan.deploy s.context
  | delete => plan.destroy s.context

/- What a run does when this is done. -/
def last (p : Playbook) : Job → Action (Except Error Unit)
  | deploy => saving s i p
  | delete => removing s i

/- The steps of a run touch no record and tell nobody. -/
theorem toil_aside (job : Job) (plan : Plan) :
    (job.toil s plan).run.Leads Call.Aside (fun _ => True) := by
  have hAside (c : Call)
      (hFor : ∃ key ∈ plan.keys s.context, c.IsFor key) :
      c.Aside := by
    rcases hFor with ⟨key, -, hFor⟩
    exact hFor.aside
  cases job with
  | deploy =>
      exact (plan.deploy_for s.context).mono hAside
        fun _ _ => trivial
  | delete =>
      exact (plan.destroy_for s.context).mono hAside
        fun _ _ => trivial

/- A run that goes on with its claim fails with its plan or
   with what it asks for, or makes its last write. -/
theorem start_eq (job : Job) (p : Playbook) :
    job.start s p i =
      match Plan.build s.render p i.vars s.catalog.manifests with
      | .error e => job.failing s i e
      | .ok plan =>
          (job.toil s plan).run.bind fun
            | .error e => job.failing s i e
            | .ok _ => job.last s i p := by
  cases job with
  | deploy => exact start_deploy s i p
  | delete => exact start_delete s i p

------------------------------------------------------------
-- Runs
------------------------------------------------------------

/- A call that a run makes before it ends. -/
inductive Preliminary (job : Job) : Call → Prop where
  | read :
      Preliminary job
        (.store (.value (s.repository.path i.identity)))
  | swap (seen : Option String) :
      Preliminary job
        (.store (.swap (s.repository.path i.identity) seen
          (job.claimRecord i)))
  | aside {c : Call} (hAside : c.Aside) : Preliminary job c

/- Only preliminary calls have been made. -/
def Early (job : Job) (past : List Exchange) : Prop :=
  ∀ x ∈ past, job.Preliminary s i x.call

section Induction

variable {s i}
variable {job : Job}

/- One more preliminary call is early as well. -/
theorem Early.concat
    {past : List Exchange}
    {c : Call}
    (hEarly : job.Early s i past)
    (hCall : job.Preliminary s i c)
    (reply : c.Reply) :
    job.Early s i (past ++ [⟨c, reply⟩]) := by
  intro x hx
  rcases List.mem_append.1 hx with hx | hx
  · exact hEarly x hx
  · cases List.mem_singleton.1 hx
    exact hCall

variable (Good :
  List Exchange → Action (Except Error Unit) → Prop)
variable (hCall : ∀ past c next,
  job.Early s i past → job.Preliminary s i c →
    (∀ reply, Good (past ++ [⟨c, reply⟩]) (next reply)) →
      Good past (.call c next))

include hCall

/- A program that asks for something and then goes on. -/
theorem good_bind
    {m : Action (Except Error Unit)}
    {f : Except Error Unit → Action (Except Error Unit)}
    (hAside : m.Leads Call.Aside (fun _ => True))
    (hNext : ∀ past outcome, job.Early s i past →
      Good past (f outcome))
    {past : List Exchange}
    (hEarly : job.Early s i past) :
    Good past (m.bind f) := by
  induction m generalizing past with
  | finish outcome => exact hNext past outcome hEarly
  | call c next ih =>
      have hHere : job.Preliminary s i c := .aside hAside.1
      exact hCall past c _ hEarly hHere fun reply =>
        ih reply (hAside.2 reply) (hEarly.concat hHere reply)

/-
  What holds of the ends of a run and is carried over the calls
  before them holds of the run.
-/
theorem program_induction
    (hRefuse : ∀ past e, job.Early s i past →
      Good past (job.refuse i e))
    (hFailing : ∀ past e, job.Early s i past →
      Good past (job.failing s i e))
    (hLast : ∀ past p, job.Early s i past →
      s.playbook i.identity.playbook = .ok p →
        Good past (job.last s i p)) :
    Good [] (job.program s i) := by
  have hNone : job.Early s i [] := fun _ h => (nomatch h)
  cases hBook : s.playbook i.identity.playbook with
  | error e =>
      rw [program_of_unknown s i job hBook]
      exact hRefuse [] e hNone
  | ok p =>
      -- once a run goes on with its claim, its ends are two
      have hStart (past : List Exchange)
          (hEarly : job.Early s i past) :
          Good past (job.start s p i) := by
        rw [start_eq]
        cases Plan.build s.render p i.vars
            s.catalog.manifests with
        | error e => exact hFailing past e hEarly
        | ok plan =>
            refine good_bind Good hCall
              (job.toil_aside s plan) ?_ hEarly
            intro past outcome hEarly
            cases outcome with
            | error e => exact hFailing past e hEarly
            | ok _ => exact hLast past p hEarly hBook
      by_cases hBusy : i.status ∈ job.busy
      · rw [program_of_busy s i job hBook hBusy]
        exact hRefuse [] _ hNone
      -- before that come a read and a swap, each with its
      -- replies
      · rw [program_of_free s i job hBook hBusy]
        refine hCall [] _ _ hNone .read fun reply => ?_
        have hRead := hNone.concat .read reply
        rcases reply with e | seen
        · exact hStart _ hRead
        · rw [afterValue_read]
          cases hSeen : job.objection? s.repository i.identity
              seen with
          | some e =>
              rw [proceed_of_objection hSeen]
              exact hRefuse _ e hRead
          | none =>
              rw [proceed_of_free hSeen]
              refine hCall _ _ _ hRead (.swap seen)
                fun reply => ?_
              have hSwapped := hRead.concat (.swap seen) reply
              rcases reply with e | swapped
              · exact hStart _ hSwapped
              · cases swapped with
                | true => exact hStart _ hSwapped
                | false => exact hRefuse _ _ hSwapped

end Induction

end Job

end Preview
