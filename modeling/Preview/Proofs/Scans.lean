import Preview.Store

/-
  Scans over the keys below a path.

  In key order the keys that start with a text follow each
  other, so the walk that a scan takes finds all of them, and
  the order of two keys is that of what follows the text.

  Main declarations:
    * `Chars.isPrefix_of_between`
    * `Table.startingWith_eq_filter`
    * `Store.values_eq_filterMap`
-/

namespace Preview

------------------------------------------------------------
-- Texts in Order
------------------------------------------------------------

namespace Chars

/- A text is not below what it starts with. -/
theorem not_lt_of_isPrefix
    {start cs : List Char}
    (hPrefix : start <+: cs) :
    ¬ cs < start := by
  rcases hPrefix with ⟨rest, rfl⟩
  induction start with
  | nil => exact List.not_lt_nil _
  | cons c start ih =>
      rw [List.cons_append, List.cons_lt_cons_iff]
      rintro (hLt | ⟨_, hLt⟩)
      · exact Char.lt_irrefl c hLt
      · exact ih hLt

/- A text between a start and something that starts with it
   starts with it too. -/
theorem isPrefix_of_between
    {start rest cs : List Char}
    (hFrom : ¬ cs < start)
    (hTo : cs < start ++ rest) :
    start <+: cs := by
  induction start generalizing cs with
  | nil => exact List.nil_prefix
  | cons c start ih =>
      cases cs with
      | nil => exact absurd (List.nil_lt_cons c start) hFrom
      | cons d cs =>
          rw [List.cons_lt_cons_iff, not_or, not_and] at hFrom
          rw [List.cons_append, List.cons_lt_cons_iff] at hTo
          rcases hTo with hLt | ⟨rfl, hLt⟩
          · exact absurd hLt hFrom.1
          · exact List.cons_prefix_cons.2
              ⟨rfl, ih (hFrom.2 rfl) hLt⟩

/- A common start does not matter for the order. -/
theorem append_lt_append_iff (start a b : List Char) :
    start ++ a < start ++ b ↔ a < b := by
  induction start with
  | nil => rfl
  | cons c start ih =>
      rw [List.cons_append, List.cons_append,
        List.cons_lt_cons_iff, ih]
      constructor
      · rintro (hLt | ⟨_, hLt⟩)
        · exact absurd hLt (Char.lt_irrefl c)
        · exact hLt
      · intro hLt
        exact .inr ⟨rfl, hLt⟩

end Chars

------------------------------------------------------------
-- Walks
------------------------------------------------------------

namespace Entries

variable {α : Type}

/- Whether the key of an entry starts with a text. -/
abbrev startsWith (start : List Char) (e : String × α) : Bool :=
  start.isPrefixOf e.1.toList

/- From a start on, the keys that start with it come first. -/
theorem takeWhile_eq_filter
    {start : List Char}
    {es : List (String × α)}
    (hSorted : Sorted es)
    (hFrom : ∀ e ∈ es, ¬ e.1 < String.ofList start) :
    es.takeWhile (startsWith start) =
      es.filter (startsWith start) := by
  induction es with
  | nil => rfl
  | cons e es ih =>
      rcases List.pairwise_cons.1 hSorted with ⟨hLess, hRest⟩
      have hTail := ih hRest fun f hf =>
        hFrom f (List.mem_cons_of_mem _ hf)
      cases hStarts : startsWith start e with
      | true =>
          rw [List.takeWhile_cons_of_pos hStarts,
            List.filter_cons_of_pos hStarts, hTail]
      | false =>
          rw [List.takeWhile_cons_of_neg (by simp [hStarts]),
            List.filter_cons_of_neg (by simp [hStarts])]
          symm
          rw [List.filter_eq_nil_iff]
          intro f hf hPrefix
          rcases List.isPrefixOf_iff_prefix.1 hPrefix with
            ⟨rest, hKey⟩
          have hLt : e.1.toList < f.1.toList := hLess f hf
          have hNotBelow : ¬ e.1.toList < start := by
            have hFirst : ¬ e.1.toList <
                (String.ofList start).toList :=
              hFrom e (List.mem_cons_self ..)
            rwa [String.toList_ofList] at hFirst
          rw [← hKey] at hLt
          have hSame : startsWith start e = true :=
            List.isPrefixOf_iff_prefix.2
              (Chars.isPrefix_of_between hNotBelow hLt)
          rw [hStarts] at hSame
          cases hSame

/- The walk finds the keys that start with a text. -/
theorem walk_eq_filter
    (start : List Char)
    {es : List (String × α)}
    (hSorted : Sorted es) :
    (es.dropWhile fun e => e.1 < String.ofList start).takeWhile
        (startsWith start) =
      es.filter (startsWith start) := by
  induction es with
  | nil => rfl
  | cons e es ih =>
      rcases List.pairwise_cons.1 hSorted with ⟨hLess, hRest⟩
      by_cases hBelow : e.1 < String.ofList start
      · have hNone : ¬ startsWith start e = true := by
          intro hStarts
          refine Chars.not_lt_of_isPrefix
            (List.isPrefixOf_iff_prefix.1 hStarts) ?_
          have hChars : e.1.toList <
              (String.ofList start).toList := hBelow
          rwa [String.toList_ofList] at hChars
        rw [List.dropWhile_cons_of_pos (by simpa using hBelow),
          List.filter_cons_of_neg hNone]
        exact ih hRest
      · rw [List.dropWhile_cons_of_neg (by simpa using hBelow)]
        refine takeWhile_eq_filter hSorted fun f hf => ?_
        rcases List.mem_cons.1 hf with rfl | hf
        · exact hBelow
        · intro hLt
          exact hBelow (String.lt_trans (hLess f hf) hLt)

end Entries

/- A table lists all keys that start with a text. -/
theorem Table.startingWith_eq_filter
    {α : Type}
    (t : Table α)
    (start : List Char) :
    t.startingWith start =
      t.entries.filter (Entries.startsWith start) :=
  Entries.walk_eq_filter start t.sorted

/- A scan lists what is below a path, in key order. -/
theorem Store.values_eq_filterMap (s : Store) (path : String) :
    s.values path =
      s.entries.entries.filterMap fun e =>
        (Path.relative (Path.scope path) e.1).map (·, e.2) := by
  have hNone (e : String × String)
      (hOther : Entries.startsWith
        (Path.scope path).toList e = false) :
      (Path.relative (Path.scope path) e.1).map (·, e.2) =
        none := by
    unfold Path.relative
    simp only [Entries.startsWith] at hOther
    simp [hOther]
  unfold values
  dsimp only
  rw [Table.startingWith_eq_filter, List.filterMap_filter]
  refine congrArg
    (fun f => List.filterMap f s.entries.entries) (funext ?_)
  intro e
  cases hStarts : Entries.startsWith
      (Path.scope path).toList e with
  | true => simp
  | false => simp [hNone e hStarts]

end Preview
