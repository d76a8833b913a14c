/-
  Finite tables with text keys, kept in key order.

  A table is a list of entries whose keys strictly increase,
  so two tables with the same entries are equal, and a walk
  over a table visits the keys in code-point order.

  Key definitions include:
    * `Entries.insert`
    * `Table`
    * `Table.get?`
    * `Table.insert`
    * `Table.erase`
    * `Table.startingWith`

  Every operation is described through `Table.get?`:
    * `Table.get?_insert`
    * `Table.get?_erase`
    * `Table.ofList_entries`
    * `Table.ext_get?`
-/

namespace Preview

------------------------------------------------------------
-- Entry Lists
------------------------------------------------------------

namespace Entries

variable {α : Type}

/-
  Insert an entry into a key-ordered list, replacing the
  entry that has the same key.
-/
def insert
    (k : String)
    (x : α) :
    List (String × α) → List (String × α)
  | [] => [(k, x)]
  | (k', x') :: rest =>
      if k < k' then (k, x) :: (k', x') :: rest
      else if k = k' then (k, x) :: rest
      else (k', x') :: insert k x rest

/- The keys of an entry list strictly increase. -/
def Sorted (es : List (String × α)) : Prop :=
  es.Pairwise (fun a b => a.1 < b.1)

/- An inserted entry list holds the new entry and old ones. -/
theorem mem_insert
    {k : String}
    {x : α}
    {e : String × α}
    {es : List (String × α)} :
    e ∈ insert k x es → e = (k, x) ∨ e ∈ es := by
  induction es with
  | nil => simp [insert]
  | cons hd tl ih =>
      obtain ⟨k', x'⟩ := hd
      rw [insert]
      split
      · simp
      · split <;> grind

/- An insertion keeps the keys in order, and each of them
   once. -/
theorem sorted_insert
    (k : String)
    (x : α)
    {es : List (String × α)}
    (h : Sorted es) :
    Sorted (insert k x es) := by
  induction es with
  | nil => simp [insert, Sorted]
  | cons hd tl ih =>
      obtain ⟨k', x'⟩ := hd
      have hd_lt := (List.pairwise_cons.1 h).1
      have tl_sorted : Sorted tl := (List.pairwise_cons.1 h).2
      rw [insert]
      split
      · rename_i lt
        refine List.pairwise_cons.2 ⟨fun e he => ?_, h⟩
        rcases List.mem_cons.1 he with rfl | he
        · exact lt
        · exact String.lt_trans lt (hd_lt e he)
      · rename_i nlt
        split
        · rename_i eq
          subst eq
          exact List.pairwise_cons.2 ⟨hd_lt, tl_sorted⟩
        · rename_i ne
          refine List.pairwise_cons.2
            ⟨fun e he => ?_, ih tl_sorted⟩
          rcases mem_insert he with rfl | he
          · by_cases gt : k' < k
            · exact gt
            · exact absurd (String.le_antisymm gt nlt) ne
          · exact hd_lt e he

/- The first entry decides, if its key is the one sought. -/
theorem lookup_cons
    (k k' : String)
    (x : α)
    (es : List (String × α)) :
    ((k', x) :: es).lookup k =
      if k = k' then some x else es.lookup k := by
  change (match k == k' with
    | true => some x
    | false => es.lookup k) = _
  cases h : k == k' with
  | true => simp [eq_of_beq h]
  | false => simp [ne_of_beq_false h]

/- Only the inserted key changes its value. -/
theorem lookup_insert
    (k k' : String)
    (x : α)
    (es : List (String × α)) :
    (insert k x es).lookup k' =
      if k' = k then some x else es.lookup k' := by
  induction es with
  | nil => rw [insert, lookup_cons]
  | cons hd tl ih =>
      obtain ⟨k'', x''⟩ := hd
      rw [insert]
      split
      · simp only [lookup_cons]
      · split
        · rename_i eq
          subst eq
          simp only [lookup_cons]
          split <;> rfl
        · rename_i ne
          simp only [lookup_cons, ih]
          by_cases h : k' = k''
          · simp [h, Ne.symm ne]
          · simp [h]

/- An entry with the greatest key is inserted at the end. -/
theorem insert_last
    (k : String)
    (x : α)
    (es : List (String × α))
    (h : ∀ e ∈ es, e.1 < k) :
    insert k x es = es ++ [(k, x)] := by
  induction es with
  | nil => rfl
  | cons hd tl ih =>
      obtain ⟨k', x'⟩ := hd
      have lt : k' < k := h (k', x') (List.mem_cons_self ..)
      have nlt : ¬ k < k' := fun gt =>
        String.lt_irrefl k (String.lt_trans gt lt)
      have ne : ¬ k = k' := fun eq =>
        String.lt_irrefl k' (eq ▸ lt)
      rw [insert, if_neg nlt, if_neg ne,
        ih fun e he => h e (List.mem_cons_of_mem _ he)]
      rfl

/- Only the removed key loses its value. -/
theorem lookup_filter_ne
    (k k' : String)
    (es : List (String × α)) :
    (es.filter (fun e => e.1 ≠ k)).lookup k' =
      if k' = k then none else es.lookup k' := by
  induction es with
  | nil => simp
  | cons hd tl ih =>
      obtain ⟨k'', x''⟩ := hd
      by_cases h : k'' = k
      · simp only [ne_eq, h, not_true, decide_false,
          List.filter_cons_of_neg, Bool.false_eq_true,
          not_false_eq_true, lookup_cons]
        rw [ih]
        split <;> rfl
      · rw [List.filter_cons_of_pos (by simp [h])]
        simp only [lookup_cons, ih]
        by_cases h' : k' = k''
        · simp [h', h]
        · simp [h']

/- A key below all keys has no value. -/
theorem lookup_eq_none_of_lt
    {k : String}
    {es : List (String × α)}
    (h : ∀ e ∈ es, k < e.1) :
    es.lookup k = none := by
  induction es with
  | nil => rfl
  | cons hd tl ih =>
      obtain ⟨k', x⟩ := hd
      have lt : k < k' := h (k', x) (List.mem_cons_self ..)
      have ne : ¬ k = k' := fun eq =>
        String.lt_irrefl k' (eq ▸ lt)
      rw [lookup_cons, if_neg ne]
      exact ih fun e he => h e (List.mem_cons_of_mem _ he)

/- The least key with a value is the first one. -/
theorem head_le_of_lookup
    {k k' : String}
    {x x' : α}
    {es : List (String × α)}
    (h : Sorted ((k', x') :: es))
    (hx : ((k', x') :: es).lookup k = some x) :
    ¬ k < k' := by
  intro lt
  have hne : ((k', x') :: es).lookup k = none := by
    refine lookup_eq_none_of_lt fun e he => ?_
    rcases List.mem_cons.1 he with rfl | he
    · exact lt
    · exact String.lt_trans lt
        ((List.pairwise_cons.1 h).1 e he)
  rw [hne] at hx
  cases hx

/- Sorted entry lists with the same values are equal. -/
theorem ext_lookup
    {es fs : List (String × α)}
    (he : Sorted es)
    (hf : Sorted fs)
    (h : ∀ k, es.lookup k = fs.lookup k) :
    es = fs := by
  induction es generalizing fs with
  | nil =>
      cases fs with
      | nil => rfl
      | cons hd tl =>
          have hk := h hd.1
          rw [lookup_cons, if_pos rfl] at hk
          cases hk
  | cons e es ih =>
      obtain ⟨k, x⟩ := e
      cases fs with
      | nil =>
          have hk := h k
          rw [lookup_cons, if_pos rfl] at hk
          cases hk
      | cons f fs =>
          obtain ⟨k', x'⟩ := f
          have hk := h k
          have hk' := h k'
          rw [lookup_cons, if_pos rfl] at hk
          rw [lookup_cons k' k', if_pos rfl] at hk'
          have eq : k = k' :=
            String.le_antisymm
              (head_le_of_lookup he hk')
              (head_le_of_lookup hf hk.symm)
          subst eq
          rw [lookup_cons, if_pos rfl] at hk
          cases hk
          have tails : es = fs := by
            refine ih (List.pairwise_cons.1 he).2
              (List.pairwise_cons.1 hf).2 fun j => ?_
            by_cases hj : j = k
            · subst hj
              rw [lookup_eq_none_of_lt
                  (List.pairwise_cons.1 he).1,
                lookup_eq_none_of_lt
                  (List.pairwise_cons.1 hf).1]
            · have hj' := h j
              rwa [lookup_cons, if_neg hj, lookup_cons,
                if_neg hj] at hj'
          rw [tails]

end Entries

------------------------------------------------------------
-- Tables
------------------------------------------------------------

/- A finite table, its entries in key order. -/
structure Table (α : Type) where
  entries : List (String × α)
  sorted : Entries.Sorted entries
deriving DecidableEq

namespace Table

variable {α : Type}

/- A table without keys. -/
def empty : Table α :=
  ⟨[], List.Pairwise.nil⟩

instance : Inhabited (Table α) := ⟨empty⟩

/- The value at a key, if the key is there. -/
def get? (t : Table α) (k : String) : Option α :=
  t.entries.lookup k

/- Whether a key is there. -/
def contains (t : Table α) (k : String) : Bool :=
  (t.get? k).isSome

/- Put a value at a key, in place of one that is there. -/
def insert (t : Table α) (k : String) (x : α) : Table α :=
  ⟨Entries.insert k x t.entries,
    Entries.sorted_insert k x t.sorted⟩

/- Take a key out; one that is absent changes nothing. -/
def erase (t : Table α) (k : String) : Table α :=
  ⟨t.entries.filter (fun e => e.1 ≠ k),
    List.Pairwise.filter _ t.sorted⟩

/- The number of keys. -/
def size (t : Table α) : Nat :=
  t.entries.length

/- Whether there are no keys. -/
def isEmpty (t : Table α) : Bool :=
  t.entries.isEmpty

/- The last of several entries with one key wins. -/
def ofList (es : List (String × α)) : Table α :=
  es.foldl (fun t e => t.insert e.1 e.2) empty

/-
  The entries whose key starts with `start`, in key order.
  The walk begins at the first key that is not below `start`
  and stops at the first key that does not start with it:
  in key order those keys are one contiguous run.
-/
def startingWith
    (t : Table α)
    (start : List Char) :
    List (String × α) :=
  (t.entries.dropWhile
      (fun e => e.1 < String.ofList start)).takeWhile
    (fun e => start.isPrefixOf e.1.toList)

------------------------------------------------------------
-- Laws
------------------------------------------------------------

@[simp]
theorem get?_empty (k : String) :
    (empty : Table α).get? k = none := rfl

/- An insertion is seen at its own key only. -/
theorem get?_insert
    (t : Table α)
    (k k' : String)
    (x : α) :
    (t.insert k x).get? k' =
      if k' = k then some x else t.get? k' :=
  Entries.lookup_insert k k' x t.entries

/- An erasure is seen at its own key only. -/
theorem get?_erase
    (t : Table α)
    (k k' : String) :
    (t.erase k).get? k' =
      if k' = k then none else t.get? k' :=
  Entries.lookup_filter_ne k k' t.entries

/- Entries in key order are inserted one after the other. -/
theorem entries_foldl_insert
    (es : List (String × α))
    (t : Table α)
    (h : Entries.Sorted (t.entries ++ es)) :
    (es.foldl (fun t e => t.insert e.1 e.2) t).entries =
      t.entries ++ es := by
  induction es generalizing t with
  | nil => simp
  | cons e es ih =>
      have last : (t.insert e.1 e.2).entries =
          t.entries ++ [e] :=
        Entries.insert_last e.1 e.2 t.entries fun f hf =>
          (List.pairwise_append.1 h).2.2 f hf e
            (List.mem_cons_self ..)
      rw [List.foldl_cons, ih (t.insert e.1 e.2)
        (by rw [last]; simpa using h), last]
      simp

/- A table is made again from its entries. -/
theorem ofList_entries (t : Table α) :
    ofList t.entries = t := by
  have eq : (ofList t.entries).entries = t.entries :=
    entries_foldl_insert t.entries empty t.sorted
  cases h : ofList t.entries
  cases t
  simp_all

/- Tables with the same values are equal. -/
theorem ext_get?
    {t u : Table α}
    (h : ∀ k, t.get? k = u.get? k) :
    t = u := by
  have eq : t.entries = u.entries :=
    Entries.ext_lookup t.sorted u.sorted h
  cases t
  cases u
  simp_all

/- Removing what is not there changes nothing. -/
theorem erase_of_absent
    {t : Table α}
    {k : String}
    (hAbsent : t.contains k = false) :
    t.erase k = t := by
  apply ext_get?
  intro k'
  rw [get?_erase]
  split
  · rename_i hSame
    rw [hSame]
    exact (Option.isSome_eq_false_iff.1 hAbsent |>
      Option.isNone_iff_eq_none.1).symm
  · rfl

end Table

end Preview
