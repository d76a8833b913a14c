import Mathlib.Data.List.Nodup
import Preview.Proofs.Paths
import Preview.Proofs.Record
import Preview.Proofs.Scans
import Preview.Registry

/-
  A store that mirrors a map from identities to instances.

  The entries of such a store are the records of the instances
  under their paths.  Writing and removing a record sets and
  drops an instance, and a scan brings the instances below a
  path in order, and no others.

  Main declarations:
    * `Directory` and `Directory.listed`
    * `Mirrors`
    * `Mirrors.content`, `Mirrors.set` and `Mirrors.drop`
    * `Mirrors.values_playbookPath`
    * `Mirrors.values_instancesPath`
-/

namespace Preview

------------------------------------------------------------
-- Directories
------------------------------------------------------------

/- The entries of a registry. -/
def Registry.entries {κ α : Type} (m : Registry κ α) :
    List (κ × α) :=
  m

/- Instances by their identities. -/
abbrev Directory :=
  Registry Identity Instance

/- The instances of some kind, in the order of a text. -/
def Directory.listed
    (m : Directory)
    (kind : Instance → Bool)
    (text : Instance → String) : List Instance :=
  ((m.entries.map (·.2)).filter kind).mergeSort
    fun i j => text i ≤ text j

------------------------------------------------------------
-- Mirrors
------------------------------------------------------------

/-
  A store mirrors a directory: its entries are the records of
  the instances under their paths, and every instance stands
  under its own identity, and once.
-/
structure Mirrors
    (r : Repository)
    (s : Store)
    (m : Directory) : Prop where
  stored : ∀ key text, s.entries.get? key = some text ↔
    ∃ i, m.get? i.identity = some i ∧
      key = r.path i.identity ∧ text = i.record
  own : ∀ identity i, m.get? identity = some i →
    i.identity = identity ∧ identity.Plain
  distinct : (m.entries.map (·.1)).Nodup

section Registries

variable {κ α : Type} [DecidableEq κ]
variable {m : Registry κ α}
variable {k : κ} {x : α}

/- A registry without a key twice has what it looks up. -/
theorem Registry.mem_iff_get?
    (hDistinct : (m.entries.map (·.1)).Nodup) :
    (k, x) ∈ m.entries ↔ m.get? k = some x := by
  induction m with
  | nil => simp [get?, entries]
  | cons e m ih =>
      rcases e with ⟨k', x'⟩
      rcases List.nodup_cons.1 hDistinct with ⟨hFirst, hRest⟩
      have hTail := ih hRest
      unfold get? entries at hTail ⊢
      rw [List.find?_cons, List.mem_cons]
      by_cases hSame : k' = k
      · subst hSame
        have hNot : (k', x) ∉ m := fun hx =>
          hFirst (List.mem_map_of_mem (f := (·.1)) hx)
        simp [hNot, eq_comm]
      · have hNe : ¬ (k, x) = (k', x') := by
          intro h
          exact hSame (congrArg Prod.fst h).symm
        simp only [hNe, false_or, hSame, decide_false]
        exact hTail

theorem Registry.distinct_drop
    (hDistinct : (m.entries.map (·.1)).Nodup)
    (k : κ) :
    ((m.drop k).entries.map (·.1)).Nodup :=
  hDistinct.sublist (List.filter_sublist.map _)

theorem Registry.distinct_set
    (hDistinct : (m.entries.map (·.1)).Nodup)
    (k : κ)
    (x : α) :
    ((m.set k x).entries.map (·.1)).Nodup := by
  refine List.nodup_cons.2 ⟨?_, distinct_drop hDistinct k⟩
  intro hk
  rcases List.mem_map.1 hk with ⟨e, he, hSame⟩
  have hNe := (List.mem_filter.1 he).2
  simp [hSame] at hNe

end Registries

/- A table has the entries that it looks up. -/
theorem Entries.mem_iff_lookup
    {α : Type}
    {es : List (String × α)}
    (hSorted : Sorted es)
    {k : String}
    {x : α} :
    (k, x) ∈ es ↔ es.lookup k = some x := by
  induction es with
  | nil => simp
  | cons e es ih =>
      rcases e with ⟨k', x'⟩
      rcases List.pairwise_cons.1 hSorted with ⟨hLess, hRest⟩
      rw [List.mem_cons, lookup_cons, ih hRest]
      by_cases hSame : k = k'
      · subst hSame
        have hNone := lookup_eq_none_of_lt hLess
        simp [hNone, eq_comm]
      · simp [hSame]

/- Keeping what is of some kind is a filter and a map. -/
theorem filterMap_eq_of_kind
    {α β : Type}
    {f : α → β}
    {g : α → Option β}
    {kind : α → Bool}
    {xs : List α}
    (hEach : ∀ x ∈ xs,
      g x = if kind x then some (f x) else none) :
    xs.filterMap g = (xs.filter kind).map f := by
  induction xs with
  | nil => rfl
  | cons x xs ih =>
      have hFirst := hEach x (List.mem_cons_self ..)
      have hRest := ih fun y hy =>
        hEach y (List.mem_cons_of_mem _ hy)
      cases hKind : kind x with
      | true =>
          rw [hKind, if_pos rfl] at hFirst
          simp only [List.filterMap_cons, hFirst, hRest]
          rw [List.filter_cons_of_pos hKind, List.map_cons]
      | false =>
          rw [hKind, if_neg (by simp)] at hFirst
          simp only [List.filterMap_cons, hFirst, hRest]
          rw [List.filter_cons_of_neg (by simp [hKind])]

namespace Mirrors

variable {r : Repository} {s : Store} {m : Directory}

theorem empty (r : Repository) :
    Mirrors r .empty Registry.empty where
  stored key text := by
    simp [Store.empty]
  own identity i hGet := by
    simp at hGet
  distinct := List.nodup_nil

variable (hMirrors : Mirrors r s m)

include hMirrors

/- The record of an identity is that of its instance. -/
theorem content
    {identity : Identity}
    (hPlain : identity.Plain) :
    s.entries.get? (r.path identity) =
      (m.get? identity).map Instance.record := by
  cases hGet : m.get? identity with
  | none =>
      rw [Option.map_none, Option.eq_none_iff_forall_ne_some]
      intro text hText
      rcases (hMirrors.stored _ _).1 hText with
        ⟨i, hi, hPath, _⟩
      have hSame := Repository.path_injective hPlain
        (hMirrors.own _ _ hi).2 hPath
      rw [← hSame, hGet] at hi
      cases hi
  | some i =>
      have hOwn := (hMirrors.own _ _ hGet).1
      refine (hMirrors.stored _ _).2 ⟨i, ?_, ?_, rfl⟩
      · rw [hOwn, hGet]
      · rw [hOwn]

/- A record that is written is an instance that is set. -/
theorem set
    {i : Instance}
    (hPlain : i.identity.Plain) :
    Mirrors r ⟨s.entries.insert (r.path i.identity) i.record⟩
      (m.set i.identity i) where
  stored key text := by
    dsimp only
    rw [Table.get?_insert]
    split
    · rename_i hKey
      subst hKey
      constructor
      · intro hText
        cases hText
        exact ⟨i, by rw [Registry.get?_set, if_pos rfl], rfl,
          rfl⟩
      · rintro ⟨j, hj, hPath, rfl⟩
        rw [Registry.get?_set] at hj
        split at hj
        · rw [Option.some.inj hj]
        · rename_i hOther
          exact absurd (Repository.path_injective
            (hMirrors.own _ _ hj).2 hPlain hPath.symm) hOther
    · rename_i hKey
      rw [hMirrors.stored]
      constructor
      · rintro ⟨j, hj, hPath, hText⟩
        refine ⟨j, ?_, hPath, hText⟩
        rw [Registry.get?_set, if_neg ?_]
        · exact hj
        · intro hSame
          rw [hSame] at hPath
          exact hKey hPath
      · rintro ⟨j, hj, hPath, hText⟩
        rw [Registry.get?_set] at hj
        split at hj
        · rename_i hSame
          rw [hSame] at hPath
          exact absurd hPath hKey
        · exact ⟨j, hj, hPath, hText⟩
  own identity j hj := by
    rw [Registry.get?_set] at hj
    split at hj
    · rename_i hSame
      cases hj
      exact ⟨hSame.symm, hSame ▸ hPlain⟩
    · exact hMirrors.own identity j hj
  distinct := Registry.distinct_set hMirrors.distinct _ _

/- A record that is removed is an instance that is dropped. -/
theorem drop
    {identity : Identity}
    (hPlain : identity.Plain) :
    Mirrors r ⟨s.entries.erase (r.path identity)⟩
      (m.drop identity) where
  stored key text := by
    dsimp only
    rw [Table.get?_erase]
    split
    · rename_i hKey
      refine iff_of_false (by simp) ?_
      rintro ⟨j, hj, hPath, _⟩
      rw [Registry.get?_drop] at hj
      split at hj
      · cases hj
      · rename_i hOther
        exact hOther (Repository.path_injective
          (hMirrors.own _ _ hj).2 hPlain
          (hPath.symm.trans hKey))
    · rename_i hKey
      rw [hMirrors.stored]
      constructor
      · rintro ⟨j, hj, hPath, hText⟩
        refine ⟨j, ?_, hPath, hText⟩
        rw [Registry.get?_drop, if_neg ?_]
        · exact hj
        · intro hSame
          rw [hSame] at hPath
          exact hKey hPath
      · rintro ⟨j, hj, hPath, hText⟩
        rw [Registry.get?_drop] at hj
        split at hj
        · cases hj
        · exact ⟨j, hj, hPath, hText⟩
  own identity' j hj := by
    rw [Registry.get?_drop] at hj
    split at hj
    · cases hj
    · exact hMirrors.own identity' j hj
  distinct := Registry.distinct_drop hMirrors.distinct _

------------------------------------------------------------
-- Lists
------------------------------------------------------------

/- The entries of the store are the records of the instances
   in the order of their labels. -/
theorem entries_eq :
    ∃ is : List Instance,
      s.entries.entries =
          is.map (fun i => (r.path i.identity, i.record)) ∧
        (∀ i, i ∈ is ↔ m.get? i.identity = some i) ∧
        is.Pairwise fun i j => i.label < j.label := by
  have hRead (e : String × String)
      (he : e ∈ s.entries.entries) :
      ∃ i, m.get? i.identity = some i ∧
        Instance.ofRecord? e.2 = some i ∧
        e = (r.path i.identity, i.record) := by
    rcases e with ⟨key, text⟩
    have hGet := (Entries.mem_iff_lookup s.entries.sorted).1 he
    rcases (hMirrors.stored key text).1 hGet with
      ⟨i, hi, rfl, rfl⟩
    exact ⟨i, hi, Instance.ofRecord?_record i, rfl⟩
  -- the list is what the entries are read back as
  let is := s.entries.entries.filterMap
    fun e => Instance.ofRecord? e.2
  have hEntries : s.entries.entries =
      is.map (fun i => (r.path i.identity, i.record)) := by
    have hAll (es : List (String × String))
        (hes : ∀ e ∈ es, e ∈ s.entries.entries) :
        es = (es.filterMap fun e => Instance.ofRecord? e.2).map
          fun i => (r.path i.identity, i.record) := by
      induction es with
      | nil => rfl
      | cons e es ih =>
          rcases hRead e (hes e (List.mem_cons_self ..)) with
            ⟨i, _, hi, hEntry⟩
          simp only [List.filterMap_cons, hi, List.map_cons]
          rw [← ih fun f hf => hes f (List.mem_cons_of_mem _ hf),
            ← hEntry]
    exact hAll _ fun _ he => he
  have hMember (i : Instance) :
      i ∈ is ↔ m.get? i.identity = some i := by
    constructor
    · intro hi
      rcases List.mem_filterMap.1 hi with ⟨e, he, hText⟩
      rcases hRead e he with ⟨j, hj, hText', _⟩
      cases hText.symm.trans hText'
      exact hj
    · intro hi
      have hGet := (hMirrors.stored (r.path i.identity)
        i.record).2 ⟨i, hi, rfl, rfl⟩
      exact List.mem_filterMap.2 ⟨_,
        (Entries.mem_iff_lookup s.entries.sorted).2 hGet,
        Instance.ofRecord?_record i⟩
  refine ⟨is, hEntries, hMember, ?_⟩
  -- all paths begin alike, so that their order is that of the
  -- labels
  have hSorted := s.entries.sorted
  unfold Entries.Sorted at hSorted
  rw [hEntries, List.pairwise_map] at hSorted
  refine hSorted.imp_of_mem fun {i j} hi hj hLess => ?_
  have hPath : (r.path i.identity).toList <
      (r.path j.identity).toList := hLess
  rw [Repository.toList_path
      (hMirrors.own _ _ ((hMember i).1 hi)).2,
    Repository.toList_path
      (hMirrors.own _ _ ((hMember j).1 hj)).2,
    Chars.append_lt_append_iff, List.cons_lt_cons_iff] at hPath
  exact (hPath.resolve_left (Char.lt_irrefl _)).2

/- The directory lists what it has. -/
theorem mem_values (i : Instance) :
    i ∈ m.entries.map (·.2) ↔ m.get? i.identity = some i := by
  rw [List.mem_map]
  constructor
  · rintro ⟨⟨identity, j⟩, he, rfl⟩
    have hGet :=
      (Registry.mem_iff_get? hMirrors.distinct).1 he
    rw [(hMirrors.own _ _ hGet).1]
    exact hGet
  · intro hGet
    exact ⟨(i.identity, i),
      (Registry.mem_iff_get? hMirrors.distinct).2 hGet, rfl⟩

/- No instance is there twice. -/
theorem values_nodup : (m.entries.map (·.2)).Nodup := by
  have hKeys : m.entries.Pairwise fun a b => a.1 ≠ b.1 :=
    List.pairwise_map.1 hMirrors.distinct
  have hOwn (e : Identity × Instance) (he : e ∈ m.entries) :
      e.2.identity = e.1 :=
    (hMirrors.own _ _
      ((Registry.mem_iff_get? hMirrors.distinct).1 he)).1
  refine List.pairwise_map.2
    (hKeys.imp_of_mem fun {a b} ha hb hNe hSame => hNe ?_)
  rw [← hOwn a ha, ← hOwn b hb, hSame]

/- A list of the instances of some kind that increases in a
   text is the one that the directory gives. -/
theorem eq_listed
    {is : List Instance}
    {kind : Instance → Bool}
    {text : Instance → String}
    (hMember : ∀ i, i ∈ is ↔
      m.get? i.identity = some i ∧ kind i = true)
    (hSorted : is.Pairwise fun i j => text i < text j) :
    is = m.listed kind text := by
  -- instances of the list with one text are one instance
  have hTexts : (is.map text).Nodup :=
    List.pairwise_map.2 (hSorted.imp fun {i j} hLess hSame => by
      rw [hSame] at hLess
      exact String.lt_irrefl _ hLess)
  have hPerm : is.Perm (m.listed kind text) := by
    refine List.Perm.trans ?_ (List.mergeSort_perm _ _).symm
    rw [List.perm_ext_iff_of_nodup (List.Nodup.of_map _ hTexts)
      (hMirrors.values_nodup.filter _)]
    intro i
    rw [hMember, List.mem_filter, hMirrors.mem_values]
  have hUp : is.Pairwise
      fun i j => decide (text i ≤ text j) = true := by
    refine hSorted.imp fun {i j} hLess => ?_
    refine decide_eq_true (String.not_lt.1 fun hMore => ?_)
    exact String.lt_irrefl _ (String.lt_trans hLess hMore)
  have hListed : (m.listed kind text).Pairwise
      fun i j => decide (text i ≤ text j) = true := by
    refine List.pairwise_mergeSort ?_ ?_ _
    · intro i j k hij hjk
      exact decide_eq_true (String.le_trans
        (of_decide_eq_true hij) (of_decide_eq_true hjk))
    · intro i j
      simpa using String.le_total (text i) (text j)
  refine hPerm.eq_of_pairwise ?_ hUp hListed
  intro i j hi hj hij hji
  refine List.inj_on_of_nodup_map hTexts hi
    (hPerm.mem_iff.2 hj) ?_
  exact String.le_antisymm (of_decide_eq_true hij)
    (of_decide_eq_true hji)

section Scans

variable (hRooted : r.Rooted)

include hRooted

/- A scan below a playbook lists its instances in the order of
   their names. -/
theorem values_playbookPath
    {playbook : String}
    (hSegment : Path.isSegment playbook = true) :
    s.values (r.playbookPath playbook) =
      (m.listed (·.identity.playbook = playbook)
        (·.identity.id)).map
        fun i => (i.identity.id, i.record) := by
  rcases hMirrors.entries_eq with
    ⟨is, hEntries, hMember, hSorted⟩
  have hPlain (i : Instance) (hi : i ∈ is) :
      i.identity.Plain :=
    (hMirrors.own _ _ ((hMember i).1 hi)).2
  have hListed :
      is.filter (·.identity.playbook = playbook) =
        m.listed (·.identity.playbook = playbook)
          (·.identity.id) := by
    apply hMirrors.eq_listed
    · intro i
      rw [List.mem_filter, hMember]
    · refine (hSorted.filter _).imp_of_mem
        fun {i j} hi hj hLess => ?_
      have hBooks := (of_decide_eq_true
        (List.mem_filter.1 hi).2).trans (of_decide_eq_true
          (List.mem_filter.1 hj).2).symm
      have hLabels : i.label.toList < j.label.toList := hLess
      unfold Instance.label at hLabels
      rw [Identity.toList_label, Identity.toList_label, hBooks,
        Chars.append_lt_append_iff, List.cons_lt_cons_iff]
        at hLabels
      exact (hLabels.resolve_left (Char.lt_irrefl _)).2
  rw [Store.values_eq_filterMap, hEntries, List.filterMap_map,
    ← hListed]
  apply filterMap_eq_of_kind
  intro i hi
  rw [Function.comp_apply, Repository.relative_playbookPath
    hRooted (hPlain i hi) hSegment]
  by_cases hSame : i.identity.playbook = playbook <;>
    simp [hSame]

/- A scan below all instances lists them in the order of their
   labels. -/
theorem values_instancesPath :
    s.values r.instancesPath =
      (m.listed (fun _ => true) (·.label)).map
        fun i => (i.label, i.record) := by
  rcases hMirrors.entries_eq with
    ⟨is, hEntries, hMember, hSorted⟩
  have hPlain (i : Instance) (hi : i ∈ is) :
      i.identity.Plain :=
    (hMirrors.own _ _ ((hMember i).1 hi)).2
  have hListed :
      is.filter (fun _ => true) =
        m.listed (fun _ => true) (·.label) := by
    apply hMirrors.eq_listed
    · intro i
      rw [List.mem_filter, hMember]
    · exact hSorted.filter _
  rw [Store.values_eq_filterMap, hEntries, List.filterMap_map,
    ← hListed]
  apply filterMap_eq_of_kind
  intro i hi
  rw [Function.comp_apply, Repository.relative_instancesPath
    hRooted (hPlain i hi)]
  rfl

end Scans

/- Of all instances in the order of their labels, those of
   some kind are in that order too. -/
theorem filter_listed (kind : Instance → Bool) :
    (m.listed (fun _ => true) (·.label)).filter kind =
      m.listed kind (·.label) := by
  rcases hMirrors.entries_eq with ⟨is, _, hMember, hSorted⟩
  have hAll : is = m.listed (fun _ => true) (·.label) := by
    apply hMirrors.eq_listed
    · intro i
      simp [hMember]
    · exact hSorted
  rw [← hAll]
  apply hMirrors.eq_listed
  · intro i
    rw [List.mem_filter, hMember]
  · exact hSorted.filter _

end Mirrors

end Preview
