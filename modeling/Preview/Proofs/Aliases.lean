import Preview.Proofs.Addresses
import Preview.Proofs.Directory
import Preview.Proofs.Repeating

/-
  Operations under an identity that is no pair of segments.

  Instances are created under single segments only, but all
  other operations take any two texts.  They act on the
  instance that is held at the address of these texts: the
  one with that identity, if they are segments, and otherwise
  one with another identity.

  Main declarations:
    * `Repository.Holds` and `Mirrors.content_iff`
    * `Repository.Created` and `Repository.Created.mirrored`
    * `Repository.SparesOthers` and `Repository.Addressed`
    * `Repository.operations_address`
    * `Repository.identities_alias`
-/

namespace Preview

open Preview.Action (Handler eval)

------------------------------------------------------------
-- Created Instances
------------------------------------------------------------

/- The record of an instance is stored under its path. -/
def Repository.Holds
    (r : Repository)
    (s : Store)
    (i : Instance) : Prop :=
  s.content? (r.path i.identity) = some i.record

section Mirrored

variable {r : Repository} {s : Store} {m : Directory}
variable (hMirrors : Mirrors r s m)

include hMirrors

/- Whatever lies in a mirror is the record of an instance under
   its own key. -/
theorem Mirrors.exists_of_content
    {path text : String}
    (hContent : s.content? path = some text) :
    ∃ i,
      m.get? i.identity = some i ∧
        i.identity.Plain ∧
        r.Rooted ∧
        text = i.record ∧
        Store.key path = .ok (r.path i.identity) := by
  unfold Store.content? at hContent
  cases hKey : Store.key path with
  | error e => rw [hKey] at hContent; cases hContent
  | ok k =>
      rw [hKey] at hContent
      rcases (hMirrors.stored k text).1 hContent with
        ⟨i, hGet, rfl, hText⟩
      have hPlain := (hMirrors.own _ _ hGet).2
      exact ⟨i, hGet, hPlain,
        Repository.rooted_of_key (Store.key_of_key hKey),
        hText, rfl⟩

/- A mirror holds the instances of its directory. -/
theorem Mirrors.holds_iff (i : Instance) :
    r.Holds s i ↔ m.get? i.identity = some i ∧ r.Rooted := by
  constructor
  · intro hHolds
    rcases hMirrors.exists_of_content hHolds with
      ⟨j, hGet, hPlain, hRooted, hText, -⟩
    cases Instance.record_injective hText
    exact ⟨hGet, hRooted⟩
  · rintro ⟨hGet, hRooted⟩
    have hPlain := (hMirrors.own _ _ hGet).2
    unfold Repository.Holds Store.content?
    rw [Repository.key_path hRooted hPlain]
    exact (hMirrors.stored _ _).2 ⟨i, hGet, rfl, rfl⟩

/- An instance that is held has segments as its identity. -/
theorem Mirrors.plain_of_holds
    {i : Instance}
    (hHolds : r.Holds s i) :
    i.identity.Plain :=
  (hMirrors.own _ _ ((hMirrors.holds_iff i).1 hHolds).1).2

/- The path of any two texts leads to the instance at their
   address. -/
theorem Mirrors.content_iff
    (a : Identity)
    (text : String) :
    s.content? (r.path a) = some text ↔
      ∃ i, r.Holds s i ∧ i.label = a.address ∧
        text = i.record := by
  constructor
  · intro hContent
    rcases hMirrors.exists_of_content hContent with
      ⟨i, hGet, hPlain, hRooted, hText, hKey⟩
    exact ⟨i, (hMirrors.holds_iff i).2 ⟨hGet, hRooted⟩,
      ((Repository.key_eq_iff hRooted hPlain a).1 hKey).symm,
      hText⟩
  · rintro ⟨i, hHolds, hLabel, rfl⟩
    rcases (hMirrors.holds_iff i).1 hHolds with ⟨hGet, hRooted⟩
    have hPlain := (hMirrors.own _ _ hGet).2
    unfold Store.content?
    rw [(Repository.key_eq_iff hRooted hPlain a).2 hLabel.symm]
    exact (hMirrors.stored _ _).2 ⟨i, hGet, rfl, rfl⟩

/- An instance is not held where there is nothing at its
   address. -/
theorem Mirrors.not_holds
    {a : Identity}
    {i : Instance}
    {t : Store}
    (hHolds : r.Holds s i)
    (hLabel : i.label = a.address)
    (hGone : t.content? (r.path a) = none) :
    ¬ r.Holds t i := by
  intro hStill
  have hRooted := ((hMirrors.holds_iff i).1 hHolds).2
  have hPlain := hMirrors.plain_of_holds hHolds
  unfold Repository.Holds at hStill
  unfold Store.content? at hGone hStill
  rw [(Repository.key_eq_iff hRooted hPlain a).2
    hLabel.symm] at hGone
  rw [Repository.key_path hRooted hPlain] at hStill
  cases hStill.symm.trans hGone

end Mirrored

/- A store mirrors some instances; there are none of them if
   their paths are no keys. -/
def Repository.Mirrored (r : Repository) (s : Store) : Prop :=
  ∃ m, Mirrors r s m ∧ (m ≠ .empty → r.Rooted)

/- What follows the path of any text in that of an instance. -/
def Repository.below?
    (r : Repository)
    (playbook : String)
    (i : Instance) : Option String :=
  Path.relative (Path.scope (r.playbookPath playbook))
    (r.path i.identity)

/- A scan below the path of any text. -/
theorem Repository.Mirrored.values
    {r : Repository}
    {s : Store}
    (hMirrored : r.Mirrored s)
    (playbook : String) :
    ∃ (is : List Instance) (name : Instance → String),
      s.values (r.playbookPath playbook) =
          is.map (fun i => (name i, i.record)) ∧
        ∀ i, i ∈ is ↔
          r.Holds s i ∧
            (Path.join [playbook] = "" ∨
              i.identity.playbook = Path.join [playbook]) := by
  rcases hMirrored with ⟨m, hMirrors, hSome⟩
  rcases hMirrors.entries_eq with ⟨is, hEntries, hMember, -⟩
  have hValues : s.values (r.playbookPath playbook) =
      (is.filter fun i => (r.below? playbook i).isSome).map
        fun i =>
          ((r.below? playbook i).getD "", i.record) := by
    rw [Store.values_eq_filterMap, hEntries,
      List.filterMap_map]
    apply filterMap_eq_of_kind
    intro i _
    rw [Function.comp_apply]
    unfold Repository.below?
    dsimp only
    cases Path.relative (Path.scope (r.playbookPath playbook))
      (r.path i.identity) <;> rfl
  refine ⟨_, _, hValues, fun i => ?_⟩
  rw [List.mem_filter, hMember, hMirrors.holds_iff]
  constructor
  · rintro ⟨hGet, hBelow⟩
    have hRooted : r.Rooted := hSome (by
      rintro rfl
      cases hGet)
    exact ⟨⟨hGet, hRooted⟩,
      (Repository.relative_isSome_iff hRooted
        (hMirrors.own _ _ hGet).2 playbook).1 hBelow⟩
  · rintro ⟨⟨hGet, hRooted⟩, hBook⟩
    exact ⟨hGet, (Repository.relative_isSome_iff hRooted
      (hMirrors.own _ _ hGet).2 playbook).2 hBook⟩

section Created

variable {σ : Type} {h : Handler σ} {view : σ → Store}

/- The states that creations lead to from an empty store. -/
inductive Repository.Created
    (h : Handler σ)
    (view : σ → Store)
    (r : Repository) : σ → Prop
  | empty {s : σ} (hEmpty : view s = .empty) :
      Created h view r s
  | create
      {s : σ}
      (hCreated : Created h view r s)
      (identity : Identity)
      (vars : Table String) :
      Created h view r
        (eval h (r.create identity vars).run s).1

/- A creation reads the time, and stores a new instance with
   segments as its identity where there is nothing yet. -/
inductive Call.Creates (r : Repository) : Call → Prop
  | today : Creates r .today
  | swap
      {i : Instance}
      (hPlain : i.identity.Plain) :
      Creates r
        (.store (.swap (r.path i.identity) none i.record))

/- All that a creation asks for is the time and one swap, and
   that for a plain identity only. -/
theorem Repository.create_leads
    (r : Repository)
    (identity : Identity)
    (vars : Table String) :
    (r.create identity vars).run.Leads (Call.Creates r)
      fun _ => True := by
  unfold create
  cases hCheck : checkSegments identity with
  | error e => trivial
  | ok _ =>
      have hPlain : identity.Plain := by
        unfold checkSegments at hCheck
        split at hCheck
        · cases hCheck
        · split at hCheck
          · cases hCheck
          · rename_i hBook hId
            exact ⟨by simpa using hBook, by simpa using hId⟩
      refine (Attempt.leads_bind
        (Action.perform .today) _ _).2 ⟨.today, fun now => ?_⟩
      change Attempt.Result _ _ (.ok now)
      dsimp only [Attempt.Result]
      cases hNew : Instance.create? identity vars now r.days with
      | none => trivial
      | some i =>
          cases Instance.identity_of_create? hNew
          refine (Attempt.leads_bind _ _ _).2
            ⟨.swap hPlain, fun reply => ?_⟩
          rcases reply with e | swapped
          · trivial
          · cases swapped <;> trivial

variable (hStore : Store.Unsteady h view)
variable {r : Repository}

include hStore

/- Such a call leaves a mirror of some directory. -/
theorem Call.Creates.mirrored
    {c : Call}
    (hCreates : c.Creates r)
    {s : σ}
    (hMirrored : r.Mirrored (view s)) :
    r.Mirrored (view (h s c).1) := by
  cases hCreates with
  | today =>
      rw [hStore.stays s _ rfl]
      exact hMirrored
  | @swap i hPlain =>
      rcases hStore.acts s
        (.swap (r.path i.identity) none i.record) with
        hActs | ⟨hSame, -⟩
      · have hAfter := congrArg Prod.fst hActs
        dsimp only at hAfter
        rw [hAfter]
        cases hKey : Store.key (r.path i.identity) with
        | error e =>
            simp only [Store.perform, Store.swap, hKey]
            exact hMirrored
        | ok k =>
            have hRooted :=
              Repository.rooted_of_key hKey
            rw [Store.perform_swap
              (Repository.key_path hRooted hPlain)]
            split
            · rcases hMirrored with ⟨m, hMirrors, -⟩
              exact ⟨_, hMirrors.set hPlain, fun _ => hRooted⟩
            · exact hMirrored
      · rw [hSame]
        exact hMirrored

/- Creations lead to a store of created instances. -/
theorem Repository.Created.mirrored
    {s : σ}
    (hCreated : r.Created h view s) :
    r.Mirrored (view s) := by
  induction hCreated with
  | empty hEmpty =>
      rw [hEmpty]
      exact ⟨_, Mirrors.empty r, fun hSome => absurd rfl hSome⟩
  | create hCreated identity vars ih =>
      exact ((r.create_leads identity vars).yields h
        (I := fun t => r.Mirrored (view t))
        (fun _ _ hCreates hMirrored =>
          hCreates.mirrored hStore hMirrored) ih).2.2

end Created

------------------------------------------------------------
-- Operations
------------------------------------------------------------

namespace Repository

/- The instances at other addresses are still held. -/
def SparesOthers
    (r : Repository)
    (a : Identity)
    (s t : Store) : Prop :=
  ∀ i, r.Holds s i → i.label ≠ a.address → r.Holds t i

/- What a changed entry of an identity leaves. -/
theorem Spares.others
    {r : Repository}
    {s t : Store}
    {m : Directory}
    {x : Instance}
    (hMirrors : Mirrors r s m)
    (hSpares : r.Spares [x] s t) :
    r.SparesOthers x.identity s t := by
  intro i hHolds hLabel
  have hPlain := hMirrors.plain_of_holds hHolds
  have hRooted := ((hMirrors.holds_iff i).1 hHolds).2
  unfold Holds
  rw [hSpares.content ?_]
  · exact hHolds
  · intro j hj hKey
    cases List.mem_singleton.1 hj
    rw [key_path hRooted hPlain] at hKey
    exact hLabel
      ((key_eq_iff hRooted hPlain x.identity).1 hKey).symm

section Upon

variable (r : Repository) (x : Instance)

/- A save is a call upon its own instance. -/
theorem save_upon :
    (r.save x).run.Leads (Call.Upon r [x]) fun _ => True := by
  refine ⟨?_, fun _ => trivial⟩
  intro path left hChange
  have hPath := (Prod.mk.inj (Option.some.inj hChange)).1
  exact ⟨x, List.mem_singleton_self x, hPath.symm⟩

/- So is a removal. -/
theorem delete_upon :
    (r.delete x.identity).run.Leads (Call.Upon r [x])
      fun _ => True := by
  refine ⟨?_, fun reply => ?_⟩
  · intro path left hChange
    have hPath := (Prod.mk.inj (Option.some.inj hChange)).1
    exact ⟨x, List.mem_singleton_self x, hPath.symm⟩
  · rcases reply with e | removed
    · trivial
    · cases removed <;> trivial

/- So is a change of status, which reads and swaps one
   record. -/
theorem transition_upon
    (target : Status)
    (busy : List Status) :
    (r.transition x target busy).run.Leads (Call.Upon r [x])
      fun _ => True := by
  unfold transition
  dsimp only
  rw [Attempt.leads_bind]
  refine ⟨fun _ _ hChange => (by cases hChange), ?_⟩
  intro reply
  rcases reply with e | seen
  · trivial
  · refine (Attempt.leads_bind (.ofExcept
      (storedStatus (r.path x.identity) seen)) _ _).2 ?_
    cases storedStatus (r.path x.identity) seen with
    | error e => trivial
    | ok status =>
        change Attempt.Result _ _ (.ok status)
        dsimp only [Attempt.Result]
        cases (x.status :: status.toList).find?
          busy.contains with
        | some s => trivial
        | none =>
            refine (Attempt.leads_bind _ _ _).2
              ⟨?_, fun reply => ?_⟩
            · intro path left hChange
              have hPath :=
                (Prod.mk.inj (Option.some.inj hChange)).1
              exact ⟨x, List.mem_singleton_self x, hPath.symm⟩
            · rcases reply with e | swapped
              · trivial
              · cases swapped <;> trivial

end Upon

/- A lookup makes one call. -/
theorem find_run (r : Repository) (a : Identity) :
    (r.find a).run =
      .call (.store (.value (r.path a))) fun reply =>
        match reply with
        | .error e => .finish (.error (.store e))
        | .ok none => .finish (.error (.noInstance a))
        | .ok (some text) => .finish (decode (r.path a) text) := by
  unfold find
  refine congrArg (Action.call _) (funext ?_)
  intro reply
  rcases reply with e | seen
  · rfl
  · cases seen <;> rfl

/- A listing makes one call. -/
theorem findAll_run (r : Repository) (playbook : String) :
    (r.findAll playbook).run =
      .call (.store (.values (r.playbookPath playbook)))
        fun reply =>
          match reply with
          | .error e => .finish (.error (.store e))
          | .ok entries =>
              if entries.isEmpty then
                .finish (.error (.noInstances playbook))
              else
                .finish (entries.mapM fun (rest, record) =>
                  decode (Path.join
                    [r.playbookPath playbook, rest])
                    record) := by
  unfold findAll
  refine congrArg (Action.call _) (funext ?_)
  intro reply
  rcases reply with e | entries
  · rfl
  · cases entries <;> rfl

/- A removal that succeeds leaves nothing. -/
theorem delete_yields
    {σ : Type}
    {h : Handler σ}
    {view : σ → Store}
    (hStore : Store.Unsteady h view)
    (r : Repository)
    (a : Identity)
    (start : σ) :
    (r.delete a).run.Yields h start fun _ result t =>
      result = .ok () →
        (view t).content? (r.path a) = none := by
  have hRun : (r.delete a).run =
      .call (.store (.erase (r.path a))) fun reply =>
        match reply with
        | .error e => .finish (.error (.store e))
        | .ok true => .finish (.ok ())
        | .ok false => .finish (.error (.noInstance a)) := by
    unfold delete
    refine congrArg (Action.call _) (funext ?_)
    intro reply
    rcases reply with e | removed
    · rfl
    · cases removed <;> rfl
  rw [hRun, Action.yields_call]
  rcases hStore.erase_cases start (r.path a) with
    ⟨removed, hReply, hGone⟩ | ⟨-, e, hFailed⟩
  · rw [hReply]
    cases removed with
    | true => exact fun _ => hGone
    | false =>
        intro hOk
        cases hOk
  · rw [hFailed]
    intro hOk
    cases hOk

section Lookups

variable {σ : Type} {h : Handler σ} {view : σ → Store}
variable (hStore : Store.Unsteady h view)
variable {r : Repository} {m : Directory} {start : σ}
variable (hMirrors : Mirrors r (view start) m)

include hStore hMirrors

/- What is found is held at the address. -/
theorem find_yields (a : Identity) :
    (r.find a).run.Yields h start fun _ result _ =>
      ∀ i, result = .ok i →
        r.Holds (view start) i ∧ i.label = a.address := by
  rw [find_run, Action.yields_call]
  rcases (hStore.value_cases start (r.path a)).2 with
    hRead | ⟨e, hFailed⟩
  · rw [hRead]
    cases hContent : (view start).content? (r.path a) with
    | none =>
        intro i hOk
        cases hOk
    | some text =>
        rcases (hMirrors.content_iff a text).1 hContent with
          ⟨j, hHolds, hLabel, rfl⟩
        dsimp only
        rw [decode_record]
        intro i hOk
        cases hOk
        exact ⟨hHolds, hLabel⟩
  · rw [hFailed]
    intro i hOk
    cases hOk

/- What follows a lookup works on what is held there. -/
theorem find_bind_yields
    (a : Identity)
    {f : Instance → Attempt Error Instance}
    {change : Instance → Instance → Prop}
    (hChange : ∀ i t, (f i).run.Yields h t fun _ result _ =>
      ∀ j, result = .ok j → change i j) :
    (r.find a >>= f).run.Yields h start fun _ result _ =>
      ∀ j, result = .ok j → ∃ i,
        r.Holds (view start) i ∧ i.label = a.address ∧
          change i j := by
  rw [Attempt.yields_bind]
  apply (find_yields hStore hMirrors a).mono
  intro xs found t hFound
  cases found with
  | error e =>
      intro j hOk
      cases hOk
  | ok i =>
      apply (hChange i t).mono
      intro ys result u hResult j hOk
      rcases hFound i rfl with ⟨hHolds, hLabel⟩
      exact ⟨i, hHolds, hLabel, hResult j hOk⟩

/- Locking returns a stored instance whose label the address
   names. -/
theorem lock_yields (a : Identity) :
    (r.lock a).run.Yields h start fun _ result _ =>
      ∀ j, result = .ok j → ∃ i,
        r.Holds (view start) i ∧ i.label = a.address ∧
          j = i.lock := by
  apply find_bind_yields hStore hMirrors a
  intro i t
  rw [Attempt.yields_bind]
  have hSaved : (r.save i.lock).run.Yields h t
      fun _ _ _ => True := trivial
  apply hSaved.mono
  intro xs saved u _
  cases saved with
  | error e =>
      intro j hOk
      cases hOk
  | ok _ =>
      intro j hOk
      cases hOk
      rfl

/- Unlocking does so too, if it is locked. -/
theorem unlock_yields (a : Identity) :
    (r.unlock a).run.Yields h start fun _ result _ =>
      ∀ j, result = .ok j → ∃ i,
        r.Holds (view start) i ∧ i.label = a.address ∧
          i.unlock? = some j := by
  apply find_bind_yields hStore hMirrors a
  intro i t
  cases hUnlock : i.unlock? with
  | none =>
      intro j hOk
      cases hOk
  | some new =>
      dsimp only
      rw [Attempt.yields_bind]
      have hSaved : (r.save new).run.Yields h t
          fun _ _ _ => True := trivial
      apply hSaved.mono
      intro xs saved u _
      cases saved with
      | error e =>
          intro j hOk
          cases hOk
      | ok _ =>
          intro j hOk
          cases hOk
          rfl

end Lookups

/- What is listed is held, below the text that the playbook is
   joined to. -/
theorem findAll_yields
    {σ : Type}
    {h : Handler σ}
    {view : σ → Store}
    (hStore : Store.Unsteady h view)
    {r : Repository}
    {start : σ}
    (hMirrored : r.Mirrored (view start))
    (playbook : String) :
    (r.findAll playbook).run.Yields h start fun _ result _ =>
      ∀ is, result = .ok is → ∀ i, i ∈ is ↔
        r.Holds (view start) i ∧
          (Path.join [playbook] = "" ∨
            i.identity.playbook = Path.join [playbook]) := by
  rw [findAll_run, Action.yields_call]
  rcases hStore.acts start
    (.values (r.playbookPath playbook)) with
    hActs | ⟨-, e, hFailed⟩
  · rw [show (h start (.store
        (.values (r.playbookPath playbook)))).2 =
      .ok ((view start).values (r.playbookPath playbook)) from
        congrArg Prod.snd hActs]
    rcases hMirrored.values playbook with
      ⟨is, name, hValues, hMember⟩
    rw [hValues]
    dsimp only
    split
    · intro js hOk
      cases hOk
    · rw [mapM_decode]
      intro js hOk
      cases hOk
      exact hMember
  · rw [hFailed]
    intro is hOk
    cases hOk

------------------------------------------------------------
-- Aliases
------------------------------------------------------------

/- What the operations do under an identity: they act on the
   instance whose label is its address, if that is held, and
   on no other one. -/
structure Addressed
    {σ : Type}
    (h : Handler σ)
    (view : σ → Store)
    (r : Repository)
    (start : σ)
    (a : Identity) : Prop where
  found : (r.find a).run.Yields h start fun _ result _ =>
    ∀ i, result = .ok i →
      r.Holds (view start) i ∧ i.label = a.address
  locked : (r.lock a).run.Yields h start fun _ result _ =>
    ∀ j, result = .ok j → ∃ i,
      r.Holds (view start) i ∧ i.label = a.address ∧
        j = i.lock
  unlocked : (r.unlock a).run.Yields h start fun _ result _ =>
    ∀ j, result = .ok j → ∃ i,
      r.Holds (view start) i ∧ i.label = a.address ∧
        i.unlock? = some j
  removed : (r.delete a).run.Yields h start fun _ result t =>
    r.SparesOthers a (view start) (view t) ∧
      (result = .ok () →
        ∀ i, r.Holds (view start) i → i.label = a.address →
          ¬ r.Holds (view t) i)
  saved : ∀ x : Instance, x.identity = a →
    (r.save x).run.Yields h start fun _ _ t =>
      r.SparesOthers a (view start) (view t)
  moved : ∀ (x : Instance) (target : Status)
      (busy : List Status), x.identity = a →
    (r.transition x target busy).run.Yields h start
      fun _ _ t => r.SparesOthers a (view start) (view t)
  listed : (r.findAll a.playbook).run.Yields h start
    fun _ result _ =>
      ∀ is, result = .ok is → ∀ i, i ∈ is ↔
        r.Holds (view start) i ∧
          (Path.join [a.playbook] = "" ∨
            i.identity.playbook = Path.join [a.playbook])
  own : a.Plain → ∀ i, r.Holds (view start) i →
    i.label = a.address → i.identity = a
  segment : Path.isSegment a.playbook = true →
    Path.join [a.playbook] = a.playbook

/-
  What the operations do under any identity.

  Two segments are the address of nothing but the instance
  with that identity; but texts with slashes, or an empty
  text, stand for an instance with another identity, and for
  the instances of another playbook.
-/
theorem operations_address
    {σ : Type}
    {h : Handler σ}
    {view : σ → Store}
    (hStore : Store.Unsteady h view)
    {r : Repository}
    {start : σ}
    (hCreated : r.Created h view start)
    (a : Identity) :
    r.Addressed h view start a := by
  have hMirrored := hCreated.mirrored hStore
  rcases hMirrored with ⟨m, hMirrors, hSome⟩
  have hOthers {α : Type} {p : Action α} {x : Instance}
      (hUpon : p.Leads (Call.Upon r [x]) fun _ => True) :
      p.Yields h start fun _ _ t =>
        r.SparesOthers x.identity (view start) (view t) :=
    (hUpon.spares hStore start).mono
      fun _ _ _ hSpares => hSpares.others hMirrors
  exact {
    found := find_yields hStore hMirrors a
    locked := lock_yields hStore hMirrors a
    unlocked := unlock_yields hStore hMirrors a
    removed := by
      have hSpares := hOthers (r.delete_upon
        { (default : Instance) with identity := a })
      refine ⟨hSpares, fun hOk i hHolds hLabel => ?_⟩
      exact hMirrors.not_holds hHolds hLabel
        (delete_yields hStore r a start hOk)
    saved := by
      rintro x rfl
      exact hOthers (r.save_upon x)
    moved := by
      rintro x target busy rfl
      exact hOthers (r.transition_upon x target busy)
    listed :=
      findAll_yields hStore ⟨m, hMirrors, hSome⟩ a.playbook
    own := by
      intro hPlain i hHolds hLabel
      rw [Identity.address_of_plain hPlain] at hLabel
      exact Identity.label_injective
        (hMirrors.plain_of_holds hHolds) hPlain hLabel
    segment := Path.join_of_isSegment
  }

/- A repository of instances that last a week, and a store
   with one created instance. -/
def weekly : Repository :=
  ⟨"previews", 7⟩

/- A store to which one instance was added. -/
def demoStore : Store :=
  (eval Store.alone
    (weekly.create ⟨"web", "demo"⟩ Table.empty).run
    Store.empty).1

/- That store has been reached by creations. -/
theorem demoStore_created :
    weekly.Created Store.alone id demoStore := by
  have hEmpty : weekly.Created Store.alone id Store.empty :=
    .empty rfl
  exact .create hEmpty _ _

/- A slash in front of the playbook, or a playbook without a
   name, makes no difference to where the instance is. -/
theorem demoStore_found :
    ∃ i,
      (eval Store.alone (weekly.find ⟨"/web", "demo"⟩).run
          demoStore).2 = .ok i ∧
        i.identity = ⟨"web", "demo"⟩ ∧
        weekly.Holds demoStore i ∧
        ¬ weekly.Holds
          (eval Store.alone
            (weekly.delete ⟨"", "web/demo"⟩).run
            demoStore).1 i ∧
        (eval Store.alone (weekly.findAll "").run
            demoStore).2 = .ok [i] := by
  have hFacts :
      ((eval Store.alone (weekly.find ⟨"/web", "demo"⟩).run
        demoStore).2.toOption.map fun i =>
          (i.identity,
            decide (demoStore.content?
              (weekly.path i.identity) = some i.record),
            (eval Store.alone
              (weekly.delete ⟨"", "web/demo"⟩).run
              demoStore).1.content?
                (weekly.path i.identity),
            decide ((eval Store.alone
              (weekly.findAll "").run
              demoStore).2.toOption = some [i]))) =
        some (⟨"web", "demo"⟩, true, none, true) := by
    decide +kernel
  cases hFind : (eval Store.alone
      (weekly.find ⟨"/web", "demo"⟩).run demoStore).2 with
  | error e => rw [hFind] at hFacts; cases hFacts
  | ok i =>
      rw [hFind] at hFacts
      rcases Prod.mk.inj (Option.some.inj hFacts) with
        ⟨hIdentity, hFacts⟩
      rcases Prod.mk.inj hFacts with ⟨hHolds, hFacts⟩
      rcases Prod.mk.inj hFacts with ⟨hGone, hAll⟩
      have hHolds := of_decide_eq_true hHolds
      have hAll := of_decide_eq_true hAll
      refine ⟨i, rfl, hIdentity, hHolds, ?_, ?_⟩
      · unfold Holds
        rw [hGone]
        simp
      · cases hListed : (eval Store.alone
          (weekly.findAll "").run demoStore).2 with
        | error e => rw [hListed] at hAll; cases hAll
        | ok is =>
            rw [hListed] at hAll
            cases hAll
            rfl

/- It is found at its own label. -/
theorem operations_address_demo :
    Store.Unsteady Store.alone id ∧
      weekly.Created Store.alone id demoStore ∧
      ∃ i,
        (eval Store.alone (weekly.find ⟨"/web", "demo"⟩).run
          demoStore).2 = .ok i ∧
        weekly.Holds demoStore i ∧
        i.label = Identity.address ⟨"/web", "demo"⟩ := by
  rcases demoStore_found with ⟨i, hFound, -⟩
  exact ⟨Store.alone_steady.unsteady, demoStore_created, i,
    hFound,
    (operations_address Store.alone_steady.unsteady
      demoStore_created ⟨"/web", "demo"⟩).found i hFound⟩

/- Another identity finds and removes the created instance, and
   a playbook without a name lists it. -/
theorem identities_alias :
    weekly.Created Store.alone id demoStore ∧
      ∃ i,
        (eval Store.alone (weekly.find ⟨"/web", "demo"⟩).run
            demoStore).2 = .ok i ∧
          i.identity ≠ ⟨"/web", "demo"⟩ ∧
          weekly.Holds demoStore i ∧
          ¬ weekly.Holds
            (eval Store.alone
              (weekly.delete ⟨"", "web/demo"⟩).run
              demoStore).1 i ∧
          (eval Store.alone (weekly.findAll "").run
              demoStore).2 = .ok [i] ∧
          i.identity.playbook ≠ "" := by
  rcases demoStore_found with
    ⟨i, hFound, hIdentity, hHolds, hGone, hListed⟩
  refine ⟨demoStore_created, i, hFound, ?_, hHolds, hGone,
    hListed, ?_⟩
  · rw [hIdentity]
    decide
  · rw [hIdentity]
    decide

end Repository

end Preview
