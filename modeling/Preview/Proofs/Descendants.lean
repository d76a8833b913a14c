import Preview.Proofs.Addresses
import Preview.Proofs.Execution
import Preview.Proofs.Mirrors

/-
  What a scan finds below a path.

  Whatever is written, a store keeps texts under clean paths
  only.  So what follows the scope of a path in a key is clean
  as well, and joining it to the path gives the key back.  A
  scan below a path, however that is written, lists exactly
  what can be read below it.

  Main declarations:
    * `Path.Normal`, `Path.Clean.normal` and
      `Path.Normal.clean`
    * `Path.join_below`
    * `Store.performAll`, `Store.Keyed` and
      `Store.performAll_keyed`
    * `Store.mem_values_iff`
    * `Store.values_descendants`
-/

namespace Preview

------------------------------------------------------------
-- Normal Texts
------------------------------------------------------------

namespace Path

/- There is something, and no slash at the ends of it or next
   to another one. -/
structure Normal (cs : List Char) : Prop where
  hSome : cs ≠ []
  hFront : cs.head? ≠ some '/'
  hBack : cs.getLast? ≠ some '/'
  hSingle : ¬ ['/', '/'] <:+: cs

/- A path whose segments are not empty is normal. -/
theorem Clean.normal
    {cs : List Char}
    (hClean : Clean cs) :
    Normal cs where
  hSome := hClean.ne_nil
  hFront hSlash := by
    rcases List.head?_eq_some_iff.1 hSlash with ⟨rest, rfl⟩
    exact not_clean_nil ((clean_append [] rest).1 hClean).1
  hBack hSlash := by
    rcases List.getLast?_eq_some_iff.1 hSlash with ⟨init, rfl⟩
    exact not_clean_nil ((clean_append init []).1 hClean).2
  hSingle hDouble := by
    rcases hDouble with ⟨before, after, rfl⟩
    rw [List.append_assoc] at hClean
    have hRest := ((clean_append before ('/' :: after)).1
      hClean).2
    exact not_clean_nil ((clean_append [] after).1 hRest).1

/- By induction on the length: a text with a slash is cut at
   the first one, and what follows it is normal again. -/
theorem Normal.clean
    {cs : List Char}
    (hNormal : Normal cs) :
    Clean cs := by
  -- the first slash parts a segment from a rest that is normal
  -- and shorter
  by_cases hSlash : '/' ∈ cs
  · rcases List.eq_append_cons_of_mem hSlash with
      ⟨first, rest, rfl, hFirst⟩
    have hSomeFirst : first ≠ [] := by
      rintro rfl
      exact hNormal.hFront rfl
    have hSomeRest : rest ≠ [] := by
      rintro rfl
      exact hNormal.hBack (by simp)
    have hRest : Normal rest := by
      refine ⟨hSomeRest, ?_, ?_, ?_⟩
      · intro hFront
        rcases List.head?_eq_some_iff.1 hFront with
          ⟨more, rfl⟩
        exact hNormal.hSingle ⟨first, more, by simp⟩
      · intro hBack
        apply hNormal.hBack
        rw [List.getLast?_append_of_ne_nil _ (by simp),
          List.getLast?_cons_of_ne_nil hSomeRest, hBack]
      · intro hDouble
        exact hNormal.hSingle
          (hDouble.trans ⟨first ++ ['/'], [], by simp⟩)
    rw [clean_append]
    refine ⟨?_, hRest.clean⟩
    intro piece hPiece
    rw [splitOn_of_not_mem hFirst, List.mem_singleton]
      at hPiece
    rw [hPiece]
    exact hSomeFirst
  · intro piece hPiece
    rw [splitOn_of_not_mem hSlash, List.mem_singleton]
      at hPiece
    rw [hPiece]
    exact hNormal.hSome
termination_by cs.length
decreasing_by
  subst_vars
  rw [List.length_append, List.length_cons]
  omega

------------------------------------------------------------
-- Below a Path
------------------------------------------------------------

/- What is joined to a path follows the scope of the path. -/
theorem join_below
    (path : String)
    {rest : String}
    (hBare : Bare rest.toList)
    (hSome : rest.toList ≠ []) :
    join [path, rest] = scope path ++ rest := by
  have hPieces : pieces [path, rest] =
      pieces [path] ++ [rest.toList] := by
    rw [← pieces_of_bare hBare hSome]
    exact pieces_append [path] [rest]
  rw [← String.toList_inj, toList_join, hPieces,
    String.toList_append]
  unfold scope scopeChars pieces
  rw [String.toList_ofList]
  cases hTrim : trim path.toList with
  | nil => simp [hTrim]
  | cons c cs => simp [hTrim, List.intercalate_cons_cons]

/- What follows a scope in a clean path is clean. -/
theorem clean_of_scope
    {path rest : String}
    (hClean : Clean (scope path ++ rest).toList) :
    Clean rest.toList := by
  rw [String.toList_append] at hClean
  unfold scope scopeChars at hClean
  rw [String.toList_ofList] at hClean
  split at hClean
  · exact hClean
  · rw [List.append_assoc] at hClean
    exact ((clean_append _ _).1 hClean).2

end Path

------------------------------------------------------------
-- Keys of a Store
------------------------------------------------------------

namespace Store

/- A store after some calls, one after the other. -/
def performAll (s : Store) (calls : List Call) : Store :=
  calls.foldl (fun s c => (s.perform c).1) s

/- All keys are clean paths. -/
def Keyed (s : Store) : Prop :=
  ∀ k text, s.entries.get? k = some text → Path.Clean k.toList

/- A key has no empty segment. -/
theorem clean_of_key
    {path k : String}
    (hKey : key path = .ok k) :
    Path.Clean k.toList := by
  have hValid := validate_of_key hKey
  rw [Path.eq_of_validate hValid, String.toList_ofList]
  exact Path.clean_of_validate hValid

namespace Keyed

theorem empty : Keyed empty :=
  fun _ _ hFound => nomatch hFound

/- A write keeps the keys clean, since a path that is not clean
   is no key. -/
theorem insert
    {s : Store}
    (hKeyed : s.Keyed)
    {path k : String}
    (hKey : key path = .ok k)
    (text : String) :
    Keyed ⟨s.entries.insert k text⟩ := by
  intro other found hFound
  rw [Table.get?_insert] at hFound
  split at hFound
  · rename_i hSame
    rw [hSame]
    exact clean_of_key hKey
  · exact hKeyed other found hFound

/- So does a removal. -/
theorem erase
    {s : Store}
    (hKeyed : s.Keyed)
    (k : String) :
    Keyed ⟨s.entries.erase k⟩ := by
  intro other found hFound
  rw [Table.get?_erase] at hFound
  split at hFound
  · cases hFound
  · exact hKeyed other found hFound

/- No call brings in any other key. -/
theorem perform
    {s : Store}
    (hKeyed : s.Keyed)
    (c : Call) :
    (s.perform c).1.Keyed := by
  cases c with
  | value path => exact hKeyed
  | values path => exact hKeyed
  | set path text =>
      dsimp only [Store.perform, Store.set]
      cases hKey : key path with
      | error e => exact hKeyed
      | ok k => exact hKeyed.insert hKey text
  | erase path =>
      dsimp only [Store.perform, Store.erase]
      cases hKey : key path with
      | error e => exact hKeyed
      | ok k => exact hKeyed.erase k
  | swap path expected text =>
      cases hKey : key path with
      | error e =>
          dsimp only [Store.perform, Store.swap]
          rw [hKey]
          exact hKeyed
      | ok k =>
          rw [perform_swap hKey]
          split
          · exact hKeyed.insert hKey text
          · exact hKeyed

end Keyed

/- By induction on the calls. -/
theorem performAll_keyed
    {s : Store}
    (hKeyed : s.Keyed)
    (calls : List Call) :
    (s.performAll calls).Keyed := by
  induction calls generalizing s with
  | nil => exact hKeyed
  | cons c calls ih => exact ih (hKeyed.perform c)

------------------------------------------------------------
-- Scans
------------------------------------------------------------

/- A scan lists the entries whose keys follow the scope of a
   path. -/
theorem mem_values_iff
    (s : Store)
    (path rest text : String) :
    (rest, text) ∈ s.values path ↔
      rest ≠ "" ∧
        s.entries.get? (Path.scope path ++ rest) =
          some text := by
  rw [values_eq_filterMap, List.mem_filterMap]
  constructor
  · rintro ⟨⟨k, found⟩, hEntry, hListed⟩
    rcases Option.map_eq_some_iff.1 hListed with
      ⟨more, hRelative, hSame⟩
    cases hSame
    rw [Path.append_of_relative hRelative]
    refine ⟨?_, (Entries.mem_iff_lookup s.entries.sorted).1
      hEntry⟩
    rintro rfl
    have hSome : (Path.relative (Path.scope path) k).isSome =
        true := Option.isSome_of_mem hRelative
    rcases (Path.relative_isSome_iff _ _).1 hSome with
      ⟨rest, hMore, hKey⟩
    have hPath : Path.scope path ++ "" = k :=
      Path.append_of_relative hRelative
    rw [← hPath, String.toList_append] at hKey
    exact hMore (List.append_cancel_left hKey).symm
  · rintro ⟨hMore, hFound⟩
    refine ⟨(Path.scope path ++ rest, text),
      (Entries.mem_iff_lookup s.entries.sorted).2 hFound, ?_⟩
    rw [Path.relative_of_append
      (String.toList_append ..) (by simpa using hMore),
      String.ofList_toList]
    rfl

/- What a scan lists is in the order of what follows the
   path. -/
theorem values_sorted (s : Store) (path : String) :
    Entries.Sorted (s.values path) := by
  rw [values_eq_filterMap, Entries.Sorted,
    List.pairwise_filterMap]
  refine s.entries.sorted.imp fun {a b} hLess => ?_
  intro c hc d hd
  rcases Option.map_eq_some_iff.1 hc with ⟨_, hFirst, rfl⟩
  rcases Option.map_eq_some_iff.1 hd with ⟨_, hSecond, rfl⟩
  have hChars : a.1.toList < b.1.toList := hLess
  rw [← Path.append_of_relative hFirst,
    ← Path.append_of_relative hSecond, String.toList_append,
    String.toList_append, Chars.append_lt_append_iff] at hChars
  exact hChars

/- What is joined to a path can be read if it is there. -/
theorem value_join_iff
    {s : Store}
    (hKeyed : s.Keyed)
    (path : String)
    {rest : String}
    (hClean : Path.Clean rest.toList)
    (text : String) :
    s.value (Path.join [path, rest]) = .ok (some text) ↔
      s.entries.get? (Path.scope path ++ rest) =
        some text := by
  rw [← Path.join_below path hClean.bare hClean.ne_nil]
  constructor
  · intro hValue
    unfold value at hValue
    cases hKey : key (Path.join [path, rest]) with
    | error e =>
        rw [hKey] at hValue
        cases hValue
    | ok k =>
        rw [hKey] at hValue
        rw [← Path.key_join hKey]
        exact Except.ok.inj hValue
  · intro hFound
    have hKey := key_of_clean (hKeyed _ _ hFound)
    unfold value
    rw [hKey]
    exact congrArg Except.ok hFound

end Store

/-
  After any calls on an empty store, with any paths: a scan
  below a path lists a text under what follows the path, if
  and only if the text can be read at both joined together.
  Nothing but normal texts can follow the path, and what is
  listed is in their order, so that each is listed once.
-/
theorem Store.values_descendants
    (calls : List Store.Call)
    (path : String) :
    let s := Store.empty.performAll calls
    (∀ rest text, Path.Normal rest.toList →
      ((rest, text) ∈ s.values path ↔
        s.value (Path.join [path, rest]) =
          .ok (some text))) ∧
      (∀ e ∈ s.values path, Path.Normal e.1.toList) ∧
      Entries.Sorted (s.values path) := by
  intro s
  have hKeyed : s.Keyed := performAll_keyed .empty calls
  refine ⟨?_, ?_, values_sorted s path⟩
  · intro rest text hNormal
    rw [mem_values_iff,
      value_join_iff hKeyed path hNormal.clean text]
    refine and_iff_right ?_
    rintro rfl
    exact hNormal.hSome rfl
  · rintro ⟨rest, text⟩ hListed
    have hFound := ((mem_values_iff s path rest text).1
      hListed).2
    exact (Path.clean_of_scope (hKeyed _ _ hFound)).normal

namespace Store

/- Calls whose paths are written with slashes of all kinds, on
   entries below `web` and beside it. -/
def siblingCalls : List Store.Call :=
  [.set "/web//" "none", .set "web/pr-1/" "first",
    .swap "/web/pr-2/log" none "second",
    .set "webapp/pr-3" "third", .set "web//pr-4" "fourth",
    .set "web/pr-5" "fifth", .erase "/web/pr-5"]

/- The scan has what is two segments below, and not what is
   beside it. -/
theorem values_descendants_siblings :
    Path.Normal "pr-2/log".toList ∧
      ("pr-2/log", "second") ∈
        (Store.empty.performAll siblingCalls).values "//web/" ∧
      Path.Normal "app/pr-3".toList ∧
      ("app/pr-3", "third") ∉
        (Store.empty.performAll siblingCalls).values
          "//web/" := by
  have hBelow : Path.Normal "pr-2/log".toList :=
    ⟨by decide, by decide, by decide, by decide +kernel⟩
  have hBeside : Path.Normal "app/pr-3".toList :=
    ⟨by decide, by decide, by decide, by decide +kernel⟩
  have hThere :
      (Store.empty.performAll siblingCalls).value
        (Path.join ["//web/", "pr-2/log"]) =
          .ok (some "second") := by
    decide +kernel
  have hAbsent :
      (Store.empty.performAll siblingCalls).value
        (Path.join ["//web/", "app/pr-3"]) ≠
          .ok (some "third") := by
    decide +kernel
  have hScan :=
    (values_descendants siblingCalls "//web/").1
  constructor
  · exact hBelow
  constructor
  · exact (hScan "pr-2/log" "second" hBelow).2 hThere
  constructor
  · exact hBeside
  · intro hListed
    exact hAbsent ((hScan "app/pr-3" "third" hBeside).1 hListed)

end Store

end Preview
