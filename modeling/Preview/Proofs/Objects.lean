import Preview.Proofs.Steps

/-
  Objects of a cluster in memory.

  A report of a phase changes nothing of an object but its
  status, and no other object.  A prompt cluster has no object
  that lingers after it was deleted, and no failure is
  prepared for it.  It stays so whatever it is asked, and what
  it is asked to delete is gone at once.

  Main declarations:
    * `Report`, `Report.onto` and `Cluster.objects_report`
    * `Cluster.Prompt`
    * `Cluster.objects_delete` and `Cluster.objects_create`
    * `Cluster.perform` and `Cluster.objects_perform_other`
    * `Exchange.created?`
-/

namespace Preview

------------------------------------------------------------
-- Equal Values
------------------------------------------------------------

namespace Json

theorem Number.same_refl (n : Number) : n.same n = true := by
  cases n with
  | int i => simp [Number.same]
  | float x => simp [Number.same, Binary64.same]

mutual

/- A value is the same as itself; the proof follows the value
   down to its items and fields. -/
theorem same_refl : ∀ v : Json, v.same v = true
  | null => rfl
  | bool b => by simp [same]
  | number n => n.same_refl
  | string s => by simp [same]
  | array items => by
      rw [same]
      exact sameItems_refl items
  | object fields => by
      rw [same]
      exact sameFields_refl fields

theorem sameItems_refl :
    ∀ items : List Json, sameItems items items = true
  | [] => rfl
  | v :: items => by
      rw [sameItems, same_refl v, sameItems_refl items]
      rfl

theorem sameFields_refl :
    ∀ fields : List (String × Json),
      sameFields fields fields = true
  | [] => rfl
  | (k, v) :: fields => by
      rw [sameFields, same_refl v, sameFields_refl fields]
      simp

end

/- The zeros of either sign are the same, which does not break
   transitivity. -/
theorem Number.same_trans
    {a b c : Number}
    (hFirst : a.same b = true)
    (hThen : b.same c = true) :
    a.same c = true := by
  cases a with
  | int i => cases b <;> cases c <;> simp_all [Number.same]
  | float x =>
      cases b with
      | int j => cases hFirst
      | float y =>
          cases c with
          | int k => cases hThen
          | float z =>
              simp only [Number.same, Binary64.same,
                Binary64.isZero, Bool.and_eq_true,
                Bool.or_eq_true, beq_iff_eq]
                at hFirst hThen ⊢
              rcases hFirst with ⟨⟨hDigits, hScale⟩, hSign⟩
              rcases hThen with ⟨⟨hDigits', hScale'⟩, hSign'⟩
              refine ⟨⟨hDigits.trans hDigits',
                hScale.trans hScale'⟩, ?_⟩
              rcases hSign with hSign | hZero
              · rcases hSign' with hSign' | hZero
                · exact .inl (hSign.trans hSign')
                · exact .inr (hDigits.trans hZero)
              · exact .inr hZero

mutual

/- Values that are the same as a third are the same. -/
theorem same_trans : ∀ {a b c : Json},
    a.same b = true → b.same c = true → a.same c = true
  | null, b, c, hFirst, hThen => by
      cases b <;> cases c <;> simp_all [same]
  | bool _, b, c, hFirst, hThen => by
      cases b <;> cases c <;> simp_all [same]
  | string _, b, c, hFirst, hThen => by
      cases b <;> cases c <;> simp_all [same]
  | number _, b, c, hFirst, hThen => by
      cases b <;> cases c <;> simp_all [same]
      exact Number.same_trans hFirst hThen
  | array items, b, c, hFirst, hThen => by
      cases b <;> cases c <;> simp_all [same]
      exact sameItems_trans hFirst hThen
  | object fields, b, c, hFirst, hThen => by
      cases b <;> cases c <;> simp_all [same]
      exact sameFields_trans hFirst hThen

theorem sameItems_trans : ∀ {as bs cs : List Json},
    sameItems as bs = true → sameItems bs cs = true →
      sameItems as cs = true
  | [], bs, cs, hFirst, hThen => by
      cases bs <;> cases cs <;> simp_all [sameItems]
  | a :: as, bs, cs, hFirst, hThen => by
      cases bs <;> cases cs <;> simp_all [sameItems]
      exact ⟨same_trans hFirst.1 hThen.1,
        sameItems_trans hFirst.2 hThen.2⟩

theorem sameFields_trans : ∀ {as bs cs : List (String × Json)},
    sameFields as bs = true → sameFields bs cs = true →
      sameFields as cs = true
  | [], bs, cs, hFirst, hThen => by
      cases bs <;> cases cs <;> simp_all [sameFields]
  | (k, a) :: as, bs, cs, hFirst, hThen => by
      rcases bs with - | ⟨⟨l, b⟩, bs⟩
      · simp [sameFields] at hFirst
      · rcases cs with - | ⟨⟨m, c⟩, cs⟩
        · simp [sameFields] at hThen
        · simp only [sameFields, Bool.and_eq_true, beq_iff_eq]
            at hFirst hThen ⊢
          exact ⟨⟨hFirst.1.1.trans hThen.1.1,
            same_trans hFirst.1.2 hThen.1.2⟩,
            sameFields_trans hFirst.2 hThen.2⟩

end

end Json

/- What asks for the same as another asks for what that one
   asks for. -/
theorem Resource.sameSpec_trans
    {a b c : Resource}
    (hFirst : a.sameSpec b = true)
    (hThen : b.sameSpec c = true) :
    a.sameSpec c = true := by
  simp only [sameSpec, Bool.and_eq_true, beq_iff_eq,
    decide_eq_true_eq] at hFirst hThen ⊢
  rcases hFirst with ⟨⟨⟨⟨⟨h₁, h₂⟩, h₃⟩, h₄⟩, h₅⟩, hBody⟩
  rcases hThen with ⟨⟨⟨⟨⟨k₁, k₂⟩, k₃⟩, k₄⟩, k₅⟩, hBody'⟩
  exact ⟨⟨⟨⟨⟨h₁.trans k₁, h₂.trans k₂⟩, h₃.trans k₃⟩,
    h₄.trans k₄⟩, h₅.trans k₅⟩,
    Json.sameFields_trans hBody hBody'⟩

/- A created object asks for what it was created from. -/
theorem Resource.sameSpec_stamped
    (c : Cluster)
    (space : String)
    (r : Resource) :
    (c.stamped space r).sameSpec r = true := by
  simp [Cluster.stamped, sameSpec, Json.sameFields_refl]

------------------------------------------------------------
-- Reports
------------------------------------------------------------

/- A phase that is reported on an object. -/
structure Report where
  key : Key
  phase : Phase
deriving DecidableEq, Repr

namespace Report

/- What reports make of one object. -/
def onto
    (es : List Report)
    (key : Key)
    (object : Resource) : Resource :=
  (es.filter (·.key = key)).foldl
    (fun o e => o.setPhase e.phase) object

variable {es : List Report} {key : Key}

/- Reports take effect in their order. -/
theorem onto_append
    (es fs : List Report)
    (key : Key)
    (object : Resource) :
    onto (es ++ fs) key object =
      onto fs key (onto es key object) := by
  unfold onto
  rw [List.filter_append, List.foldl_append]

/- Reports on others change nothing. -/
theorem onto_of_other
    (hOther : ∀ e ∈ es, e.key ≠ key)
    (object : Resource) :
    onto es key object = object := by
  have hNone : es.filter (·.key = key) = [] := by
    rw [List.filter_eq_nil_iff]
    intro e he
    simpa using hOther e he
  unfold onto
  rw [hNone]
  rfl

/- Reports of others leave an object as it is. -/
theorem map_onto_of_other
    (hOther : ∀ e ∈ es, e.key ≠ key)
    (object : Option Resource) :
    object.map (onto es key) = object := by
  cases object with
  | none => rfl
  | some object =>
      exact congrArg some (onto_of_other hOther object)

theorem map_onto_append
    (es fs : List Report)
    (key : Key)
    (object : Option Resource) :
    object.map (onto (es ++ fs) key) =
      (object.map (onto es key)).map (onto fs key) := by
  cases object with
  | none => rfl
  | some object =>
      exact congrArg some (onto_append es fs key object)

/- No report changes what an object asks for. -/
theorem sameSpec_onto
    (es : List Report)
    (key : Key)
    (object r : Resource) :
    (onto es key object).sameSpec r = object.sameSpec r := by
  unfold onto
  generalize es.filter (·.key = key) = fs
  induction fs generalizing object with
  | nil => rfl
  | cons e fs ih =>
      rw [List.foldl_cons, ih]
      rfl

end Report

namespace Cluster

/- The cluster after some reports. -/
def report (c : Cluster) (es : List Report) : Cluster :=
  es.foldl (fun c e => (c.setPhase e.key e.phase).1) c

/- A change of phase shows in its own object only. -/
theorem objects_setPhase
    (c : Cluster)
    (key other : Key)
    (phase : Phase) :
    (c.setPhase key phase).1.objects.get? other =
      if other = key then
        (c.objects.get? other).map (·.setPhase phase)
      else c.objects.get? other := by
  unfold setPhase
  split
  · rename_i hNone
    split
    · rename_i hSame
      rw [hSame, hNone]
      rfl
    · rfl
  · rename_i object hSome
    change (c.objects.set key _).get? other = _
    rw [Registry.get?_set]
    split
    · rename_i hSame
      rw [hSame, hSome]
      rfl
    · rfl

/- What reports make of a cluster is what they make of each
   object. -/
theorem objects_report
    (c : Cluster)
    (es : List Report)
    (key : Key) :
    (c.report es).objects.get? key =
      (c.objects.get? key).map (Report.onto es key) := by
  induction es generalizing c with
  | nil =>
      change c.objects.get? key = _
      exact (Report.map_onto_of_other (by simp) _).symm
  | cons e es ih =>
      have hRest :
          (c.report (e :: es)).objects.get? key = _ :=
        ih (c.setPhase e.key e.phase).1
      rw [hRest, objects_setPhase]
      by_cases hSame : key = e.key
      · rw [if_pos hSame, Option.map_map]
        refine congrArg (Option.map · _) (funext ?_)
        intro object
        simp [Report.onto, hSame]
      · rw [if_neg hSame]
        refine congrArg (Option.map · _) (funext ?_)
        intro object
        simp [Report.onto, Ne.symm hSame]

end Cluster

------------------------------------------------------------
-- Prompt Clusters
------------------------------------------------------------

namespace Cluster

/- Deleted objects do not linger, and nothing fails that could
   succeed. -/
structure Prompt (c : Cluster) : Prop where
  hFailures : c.failures = .empty
  hTerminating : c.terminating = .empty
  hLags : ∀ name, (c.lags.get? name).getD 0 = 0

theorem prompt_empty : Prompt empty :=
  ⟨rfl, rfl, fun _ => rfl⟩

theorem setPhase_prompt
    {c : Cluster}
    (hPrompt : c.Prompt)
    (key : Key)
    (phase : Phase) :
    (c.setPhase key phase).1.Prompt := by
  unfold setPhase
  split
  · exact hPrompt
  · exact ⟨hPrompt.hFailures, hPrompt.hTerminating,
      hPrompt.hLags⟩

theorem report_prompt
    {c : Cluster}
    (hPrompt : c.Prompt)
    (es : List Report) : (c.report es).Prompt := by
  induction es generalizing c with
  | nil => exact hPrompt
  | cons e es ih =>
      exact ih (setPhase_prompt hPrompt e.key e.phase)

/- The cluster with a new object, of which it has reported
   some phases. -/
def added
    (c : Cluster)
    (key : Key)
    (object : Resource)
    (phases : List Phase) : Cluster :=
  phases.foldl (fun c p => (c.setPhase key p).1)
    ({ c.record .create key with
        objects := c.objects.set key object
        serial := c.serial + 1 }.emit key ⟨.added, object⟩)

/- The phases of a script are reports on the new object. -/
theorem added_eq
    (c : Cluster)
    (key : Key)
    (object : Resource)
    (phases : List Phase) :
    c.added key object phases =
      (c.added key object []).report (phases.map (⟨key, ·⟩)) := by
  unfold added report
  rw [List.foldl_map]
  rfl

/- A new object has gone through all of its phases. -/
theorem objects_added
    (c : Cluster)
    (key other : Key)
    (object : Resource)
    (phases : List Phase) :
    (c.added key object phases).objects.get? other =
      if other = key then
        some (Report.onto (phases.map (⟨key, ·⟩)) key object)
      else c.objects.get? other := by
  rw [added_eq, objects_report]
  have hAdded :
      (c.added key object []).objects.get? other =
        if other = key then some object
        else c.objects.get? other :=
    Registry.get?_set c.objects key other object
  rw [hAdded]
  split
  · rename_i hSame
    rw [hSame]
    rfl
  · rename_i hOther
    apply Report.map_onto_of_other
    intro e he
    rcases List.mem_map.1 he with ⟨phase, -, rfl⟩
    exact Ne.symm hOther

/- Only an object that is not there is created. -/
theorem create_of_untroubled
    {c : Cluster}
    {r : Resource}
    (hFree : c.takeFailure .create r.name = (c, none))
    (kind space : String) :
    c.create kind space r =
      if c.objects.contains ⟨kind, space, r.name⟩ then
        (c, .error (.alreadyExists kind r.name))
      else
        (c.added ⟨kind, space, r.name⟩ (c.stamped space r)
          ((c.scripts.get? r.name).getD []), .ok ()) := by
  unfold create
  rw [hFree]
  rfl

section Operations

variable {c : Cluster} (hPrompt : c.Prompt)

include hPrompt

/- In a prompt cluster no failure comes up. -/
theorem takeFailure_prompt (op : Operation) (name : String) :
    c.takeFailure op name = (c, none) := by
  unfold takeFailure
  rw [hPrompt.hFailures, Registry.get?_empty]

/- A read in a prompt cluster changes nothing. -/
theorem get_prompt (key : Key) :
    c.get key = (c, .ok (c.objects.get? key)) := by
  unfold get
  rw [takeFailure_prompt hPrompt]
  dsimp only
  rw [hPrompt.hTerminating, Registry.get?_empty]

/- A creation in a prompt cluster fails only when there is such
   an object. -/
theorem create_eq
    (kind space : String)
    (r : Resource) :
    c.create kind space r =
      if c.objects.contains ⟨kind, space, r.name⟩ then
        (c, .error (.alreadyExists kind r.name))
      else
        (c.added ⟨kind, space, r.name⟩ (c.stamped space r)
          ((c.scripts.get? r.name).getD []), .ok ()) :=
  create_of_untroubled
    (takeFailure_prompt hPrompt .create r.name) kind space

/- A creation keeps a cluster prompt. -/
theorem create_prompt
    (kind space : String)
    (r : Resource) :
    (c.create kind space r).1.Prompt := by
  rw [create_eq hPrompt]
  split
  · exact hPrompt
  · rw [added_eq]
    apply report_prompt
    exact ⟨hPrompt.hFailures, hPrompt.hTerminating,
      hPrompt.hLags⟩

theorem update_prompt
    (kind space : String)
    (r : Resource) :
    (c.update kind space r).1.Prompt := by
  unfold update
  rw [takeFailure_prompt hPrompt]
  dsimp only
  split
  · exact hPrompt
  · exact ⟨hPrompt.hFailures, hPrompt.hTerminating,
      hPrompt.hLags⟩

theorem watch_prompt (key : Key) :
    (c.watch key).1.Prompt := by
  unfold watch
  rw [takeFailure_prompt hPrompt]
  exact ⟨hPrompt.hFailures, hPrompt.hTerminating,
    hPrompt.hLags⟩

/- Creating an object leaves all others where they are. -/
theorem objects_create
    {kind space : String}
    {r : Resource}
    (hAbsent :
      c.objects.contains ⟨kind, space, r.name⟩ = false) :
    (c.create kind space r).2 = .ok () ∧
      ∀ key, (c.create kind space r).1.objects.contains key =
        (decide (key = ⟨kind, space, r.name⟩) ||
          c.objects.contains key) := by
  rw [create_eq hPrompt, if_neg (by simp [hAbsent])]
  refine ⟨rfl, ?_⟩
  intro key
  unfold Registry.contains
  dsimp only
  rw [objects_added]
  by_cases hSame : key = ⟨kind, space, r.name⟩
  · rw [if_pos hSame, decide_eq_true hSame]
    rfl
  · rw [if_neg hSame, decide_eq_false hSame]
    rfl

/- A created object is there, and asks for what it was created
   from. -/
theorem objects_create_of_ok
    {kind space : String}
    {r : Resource}
    (hOk : (c.create kind space r).2 = .ok ()) :
    ∃ live,
      (c.create kind space r).1.objects.get?
          ⟨kind, space, r.name⟩ = some live ∧
        live.sameSpec r = true := by
  rw [create_eq hPrompt] at hOk ⊢
  split at hOk
  · cases hOk
  · rename_i hFree
    rw [if_neg hFree, objects_added, if_pos rfl]
    refine ⟨_, rfl, ?_⟩
    rw [Report.sameSpec_onto]
    exact Resource.sameSpec_stamped c space r

/- An object that is there is removed. -/
theorem delete_eq (key : Key) :
    c.delete key =
      if c.objects.contains key then
        ((c.record .delete key).remove key, .ok ())
      else (c, .error (.notFound key.kind key.name)) := by
  unfold delete
  rw [takeFailure_prompt hPrompt]
  have hLag :
      ((c.record .delete key).lags.get? key.name).getD 0 = 0 :=
    hPrompt.hLags key.name
  dsimp only
  rw [hLag]
  rfl

/- A deletion keeps a cluster prompt, since there is no lag for
   an object to linger on. -/
theorem delete_prompt (key : Key) :
    (c.delete key).1.Prompt := by
  rw [delete_eq hPrompt]
  split
  · have hDrop : c.terminating.drop key = .empty := by
      rw [hPrompt.hTerminating]
      rfl
    unfold remove
    dsimp only
    split
    · exact ⟨hPrompt.hFailures, hDrop, hPrompt.hLags⟩
    · exact ⟨hPrompt.hFailures, hDrop, hPrompt.hLags⟩
  · exact hPrompt

/- Whatever the reply, the object is not there afterwards. -/
theorem objects_delete (key other : Key) :
    (c.delete key).1.objects.get? other =
      if other = key then none else c.objects.get? other := by
  rw [delete_eq hPrompt]
  cases hFound : c.objects.get? key with
  | none =>
      rw [if_neg (by simp [Registry.contains, hFound])]
      split
      · rename_i hSame
        rw [hSame, hFound]
      · rfl
  | some object =>
      rw [if_pos (by simp [Registry.contains, hFound])]
      have hKept : (c.record .delete key).objects = c.objects :=
        rfl
      simp only [remove, hKept, hFound]
      exact Registry.get?_drop c.objects key other

end Operations

------------------------------------------------------------
-- Calls
------------------------------------------------------------

/- What a call does to a cluster, and its reply. -/
def perform (c : Cluster) : (call : Call) → Cluster × call.Reply
  | .get key => c.get key
  | .create kind space r => c.create kind space r
  | .update kind space r => c.update kind space r
  | .delete key => c.delete key
  | .watch key => c.watch key

section Calls

variable {c : Cluster} (hPrompt : c.Prompt)

include hPrompt

/- Whatever is asked, a prompt cluster stays prompt. -/
theorem perform_prompt (call : Call) :
    (c.perform call).1.Prompt := by
  cases call with
  | get key =>
      change (c.get key).1.Prompt
      rw [get_prompt hPrompt]
      exact hPrompt
  | create kind space r =>
      exact create_prompt hPrompt kind space r
  | update kind space r =>
      exact update_prompt hPrompt kind space r
  | delete key => exact delete_prompt hPrompt key
  | watch key => exact watch_prompt hPrompt key

/- A call leaves all objects but its own as they are. -/
theorem objects_perform_other
    {call : Call}
    {key : Key}
    (hOther : key ≠ (World.subject call).2) :
    (c.perform call).1.objects.get? key = c.objects.get? key := by
  cases call with
  | get other =>
      change (c.get other).1.objects.get? key = _
      rw [get_prompt hPrompt]
  | create kind space r =>
      change (c.create kind space r).1.objects.get? key = _
      rw [create_eq hPrompt]
      split
      · rfl
      · rw [objects_added]
        exact if_neg hOther
  | update kind space r =>
      change (c.update kind space r).1.objects.get? key = _
      unfold update
      rw [takeFailure_prompt hPrompt]
      dsimp only
      split
      · rfl
      · change (c.objects.set _ _).get? key = _
        rw [Registry.get?_set]
        exact if_neg hOther
  | delete other =>
      change (c.delete other).1.objects.get? key = _
      rw [objects_delete hPrompt]
      exact if_neg hOther
  | watch other =>
      change (c.watch other).1.objects.get? key = _
      unfold watch
      rw [takeFailure_prompt hPrompt]
      rfl

end Calls

end Cluster

------------------------------------------------------------
-- Created Objects
------------------------------------------------------------

/- The object that a call was asked to create, and has. -/
def Exchange.created? : Exchange → Option Key
  | ⟨.cluster (.create kind space r), .ok ()⟩ =>
      some ⟨kind, space, r.name⟩
  | _ => none

/- What is created is what the call is about. -/
theorem Exchange.isFor_of_created?
    {x : Exchange}
    {key : Key}
    (hCreated : x.created? = some key) :
    x.call.isCluster = true ∧
      ∀ other, x.call.IsFor other → other = key := by
  unfold created? at hCreated
  split at hCreated
  · cases hCreated
    exact ⟨rfl, fun other hFor => hFor.symm⟩
  · cases hCreated

end Preview
