import Preview.Proofs.Descendants

/-
  Paths put together and taken apart again.

  Joining forgets where one list of segments ends and the
  next begins: it is the same to join two lists at once and
  to join what each of them is joined to.  What was joined to
  a path is found again below it, and what is found below a
  path can be joined to it again.

  Main declarations:
    * `Path.join_join` and `Path.join_append`
    * `Path.Bare.clean_iff` and `Path.clean_join_iff`
    * `Path.validate_eq_self_iff` and `Path.validate_join_iff`
    * `Path.relative_join_append`
    * `Path.relative_eq_some_iff`
    * `Path.join_composes`
-/

namespace Preview

namespace Path

------------------------------------------------------------
-- Ends
------------------------------------------------------------

theorem Bare.reverse
    {cs : List Char}
    (hBare : Bare cs) :
    Bare cs.reverse where
  front := hBare.back
  back := by
    rw [List.reverse_reverse]
    exact hBare.front

theorem Bare.head?_ne
    {cs : List Char}
    (hBare : Bare cs) :
    cs.head? ≠ some '/' := by
  intro hSlash
  have hHead := List.head?_dropWhile_not isSlash cs
  rw [hBare.front, hSlash] at hHead
  exact absurd hHead (by decide)

theorem Bare.getLast?_ne
    {cs : List Char}
    (hBare : Bare cs) :
    cs.getLast? ≠ some '/' := by
  rw [← List.head?_reverse]
  exact hBare.reverse.head?_ne

/- All that can be wrong with such a text are two slashes next
   to each other. -/
theorem Bare.clean_iff
    {cs : List Char}
    (hBare : Bare cs)
    (hSome : cs ≠ []) :
    Clean cs ↔ ¬ ['/', '/'] <:+: cs := by
  constructor
  · exact fun hClean => hClean.normal.hSingle
  · intro hSingle
    exact Normal.clean
      ⟨hSome, hBare.head?_ne, hBare.getLast?_ne, hSingle⟩

------------------------------------------------------------
-- Joining Twice
------------------------------------------------------------

/- A joined path is joined to itself. -/
theorem join_join (segments : List String) :
    join [join segments] = join segments := by
  by_cases hEmpty : join segments = ""
  · rw [hEmpty]
    rfl
  · have hPieces :=
      pieces_of_bare (bare_join segments) (by simpa using hEmpty)
    rw [← String.toList_inj, toList_join, hPieces,
      List.intercalate_singleton]

/- Segments without pieces add nothing in front. -/
theorem join_append_of_none
    {front : List String}
    (hNone : pieces front = [])
    (back : List String) :
    join (front ++ back) = join back := by
  unfold join
  rw [pieces_append, hNone, List.nil_append]

/- It is the same to join two lists at once and to join what
   each of them is joined to. -/
theorem join_append (front back : List String) :
    join (front ++ back) = join [join front, join back] := by
  by_cases hNone : pieces front = []
  · have hEmpty : join front = "" :=
      (join_eq_empty_iff front).2 hNone
    have hFront : pieces [join front] = [] := by
      rwa [← join_eq_empty_iff, join_join]
    calc join (front ++ back)
      _ = join back := join_append_of_none hNone back
      _ = join [join back] := (join_join back).symm
      _ = join [join front, join back] :=
          (join_append_of_none hFront [join back]).symm
  · have hFront : pieces [join front] ≠ [] := by
      rwa [Ne, ← join_eq_empty_iff, join_join,
        join_eq_empty_iff]
    have hTwice := toList_join_append hFront [join back]
    rw [join_join, join_join] at hTwice
    rw [← String.toList_inj, toList_join_append hNone]
    exact hTwice.symm

------------------------------------------------------------
-- Keys
------------------------------------------------------------

/- There is a piece as soon as one segment has more than
   slashes. -/
theorem pieces_ne_nil_iff (segments : List String) :
    pieces segments ≠ [] ↔
      ∃ s ∈ segments, trim s.toList ≠ [] := by
  constructor
  · intro hPieces
    rcases List.exists_mem_of_ne_nil _ hPieces with
      ⟨piece, hPiece⟩
    rcases mem_pieces_iff.1 hPiece with ⟨hSome, s, hs, rfl⟩
    exact ⟨s, hs, hSome⟩
  · rintro ⟨s, hs, hSome⟩
    exact List.ne_nil_of_mem
      (mem_pieces_iff.2 ⟨hSome, s, hs, rfl⟩)

/- A segment with nothing but slashes leaves no piece, and
   does no harm. -/
theorem clean_pieces_iff (segments : List String) :
    (∀ piece ∈ pieces segments, Clean piece) ↔
      ∀ s ∈ segments, ¬ ['/', '/'] <:+: trim s.toList := by
  constructor
  · intro hClean s hs hDouble
    have hSome : trim s.toList ≠ [] := by
      intro hNone
      rw [hNone] at hDouble
      exact absurd (List.infix_nil.1 hDouble) (by simp)
    have hPiece := mem_pieces_iff.2 ⟨hSome, s, hs, rfl⟩
    exact (hClean _ hPiece).normal.hSingle hDouble
  · intro hSingle piece hPiece
    rcases mem_pieces_iff.1 hPiece with ⟨hSome, s, hs, rfl⟩
    exact ((bare_trim _).clean_iff hSome).2 (hSingle s hs)

/- A joined path is clean when something is joined and no
   segment has two slashes in a row inside. -/
theorem clean_join_iff (segments : List String) :
    Clean (join segments).toList ↔
      (∃ s ∈ segments, trim s.toList ≠ []) ∧
        ∀ s ∈ segments, ¬ ['/', '/'] <:+: trim s.toList := by
  rw [← pieces_ne_nil_iff, ← clean_pieces_iff, toList_join]
  constructor
  · intro hClean
    have hSome : pieces segments ≠ [] := by
      intro hNone
      rw [hNone] at hClean
      exact not_clean_nil hClean
    exact ⟨hSome, (clean_intercalate hSome).1 hClean⟩
  · rintro ⟨hSome, hPieces⟩
    exact (clean_intercalate hSome).2 hPieces

/- The clean paths are those that are their own keys. -/
theorem validate_eq_self_iff (path : String) :
    validate path = .ok path ↔ Clean path.toList := by
  constructor
  · intro hKey
    have hClean := clean_of_validate hKey
    rw [eq_of_validate hKey, String.toList_ofList]
    exact hClean
  · exact validate_of_clean

/- A joined path names no entry but its own. -/
theorem validate_join_iff
    (segments : List String)
    (key : String) :
    validate (join segments) = .ok key ↔
      key = join segments ∧ Clean (join segments).toList := by
  constructor
  · intro hKey
    have hSelf := eq_join_of_validate hKey
    subst hSelf
    exact ⟨rfl, (validate_eq_self_iff _).1 hKey⟩
  · rintro ⟨rfl, hClean⟩
    exact validate_of_clean hClean

------------------------------------------------------------
-- Below a Joined Path
------------------------------------------------------------

/- What is no longer than the start does not go on. -/
theorem relative_of_length_le
    {start path : String}
    (hShort : path.toList.length ≤ start.toList.length) :
    relative start path = none := by
  unfold relative
  simp [Nat.not_lt.2 hShort]

/- A path is not below itself. -/
theorem relative_join_self (segments : List String) :
    relative (scope (join segments)) (join segments) = none := by
  apply relative_of_length_le
  by_cases hEmpty : join segments = ""
  · rw [hEmpty]
    exact Nat.zero_le _
  · rw [toList_scope_join hEmpty, List.length_append]
    exact Nat.le_add_right _ _

/- What is joined to a path is found below it, if it is
   anything. -/
theorem relative_join_append (front back : List String) :
    relative (scope (join front)) (join (front ++ back)) =
      if join back = "" then none else some (join back) := by
  split
  · rename_i hEmpty
    have hSame : join (front ++ back) = join front := by
      unfold join
      rw [pieces_append, (join_eq_empty_iff back).1 hEmpty,
        List.append_nil]
    rw [hSame]
    exact relative_join_self front
  · rename_i hSome
    have hMore : (join back).toList ≠ [] := by
      simpa using hSome
    have hPath : join (front ++ back) =
        scope (join front) ++ join back := by
      rw [join_append]
      exact join_below (join front) (bare_join back) hMore
    rw [relative_of_append
      (by rw [hPath, String.toList_append]) hMore,
      String.ofList_toList]

/- What is below any path in a key is a key that can be joined
   to the path again, and there is nothing else. -/
theorem relative_eq_some_iff
    {key : String}
    (hKey : validate key = .ok key)
    (path rest : String) :
    relative (scope path) key = some rest ↔
      validate rest = .ok rest ∧ join [path, rest] = key := by
  rw [validate_eq_self_iff] at hKey ⊢
  constructor
  · intro hRelative
    have hPath := append_of_relative hRelative
    have hWhole : Clean (scope path ++ rest).toList := by
      rwa [hPath]
    have hClean := clean_of_scope hWhole
    refine ⟨hClean, ?_⟩
    rw [join_below path hClean.bare hClean.ne_nil, hPath]
  · rintro ⟨hClean, hJoin⟩
    rw [join_below path hClean.bare hClean.ne_nil] at hJoin
    rw [relative_of_append
      (by rw [← hJoin, String.toList_append]) hClean.ne_nil,
      String.ofList_toList]

end Path

/-
  For any texts as segments: joining composes, a joined path
  has no slash at its ends, and it is the key of its entry if
  and only if there is something in a segment and no two
  slashes next to each other inside of one.  What was joined
  to a path follows its scope, and what follows the scope of
  any path in a key gives the key when it is joined to that
  path.
-/
theorem Path.join_composes (front back : List String) :
    join (front ++ back) = join [join front, join back] ∧
      ((join front).toList.head? ≠ some '/' ∧
        (join front).toList.getLast? ≠ some '/') ∧
      (∀ key, validate (join front) = .ok key ↔
        key = join front ∧
          (∃ s ∈ front, trim s.toList ≠ []) ∧
          ∀ s ∈ front, ¬ ['/', '/'] <:+: trim s.toList) ∧
      relative (scope (join front)) (join (front ++ back)) =
        (if join back = "" then none else some (join back)) ∧
      ∀ path key rest, validate key = .ok key →
        (relative (scope path) key = some rest ↔
          validate rest = .ok rest ∧
            join [path, rest] = key) := by
  constructor
  · exact join_append front back
  constructor
  · have hBare := bare_join front
    exact ⟨hBare.head?_ne, hBare.getLast?_ne⟩
  constructor
  · intro key
    rw [validate_join_iff, clean_join_iff]
  constructor
  · exact relative_join_append front back
  · intro path key rest hKey
    exact relative_eq_some_iff hKey path rest

namespace Path

/- A log below a path that is written with slashes of all
   kinds: the key it is joined to leads back to it. -/
theorem join_composes_log :
    join (["//web/", "", "//"] ++ ["pr-2/", "/log"]) =
        "web/pr-2/log" ∧
      validate "web/pr-2/log" = .ok "web/pr-2/log" ∧
      relative (scope "//web/") "web/pr-2/log" =
        some "pr-2/log" ∧
      validate "pr-2/log" = .ok "pr-2/log" ∧
      join ["//web/", "pr-2/log"] = "web/pr-2/log" := by
  have hKey :
      validate "web/pr-2/log" = .ok "web/pr-2/log" := by
    decide +kernel
  have hBelow : relative (scope "//web/") "web/pr-2/log" =
      some "pr-2/log" := by
    decide +kernel
  rcases join_composes ["//web/", "", "//"] ["pr-2/", "/log"]
    with ⟨hJoined, -, -, -, hApart⟩
  constructor
  · exact hJoined.trans (by decide +kernel)
  constructor
  · exact hKey
  constructor
  · exact hBelow
  · exact (hApart "//web/" _ "pr-2/log" hKey).1 hBelow

end Path

end Preview
