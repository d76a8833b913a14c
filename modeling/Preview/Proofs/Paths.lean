import Mathlib.Data.List.DropRight
import Preview.Repository

/-
  Paths whose segments are not empty.

  Such a path is its own key: it has no slashes at its ends,
  and joining it with others keeps it as it is.  What a path
  covers is decided by its first segments.

  Main declarations:
    * `Path.Clean`
    * `Path.clean_append` and `Path.clean_of_isSegment`
    * `Path.Bare` and `Path.validate_of_clean`
    * `Path.intercalate_append` and `Path.halves_unique`
    * `Path.clean_intercalate` and `Path.bare_join`
    * `Path.scopeChars_of_clean` and `Path.toList_join_concat`
    * `Identity.Plain` and `Identity.label_injective`
    * `Repository.Rooted` and `Repository.key_path`
    * `Repository.rooted_of_key`
    * `Repository.path_injective`
    * `Repository.relative_playbookPath`
-/

namespace Preview

namespace Path

------------------------------------------------------------
-- Clean Paths
------------------------------------------------------------

/- No segment is empty. -/
def Clean (cs : List Char) : Prop :=
  ∀ piece ∈ cs.splitOn '/', piece ≠ []

theorem splitOn_append (a b : List Char) :
    (a ++ '/' :: b).splitOn '/' =
      a.splitOn '/' ++ b.splitOn '/' :=
  List.splitOnP_append_cons a b (by decide)

/- A path is clean when both sides of a slash are. -/
theorem clean_append (a b : List Char) :
    Clean (a ++ '/' :: b) ↔ Clean a ∧ Clean b := by
  unfold Clean
  rw [splitOn_append]
  constructor
  · intro h
    exact ⟨fun piece hp => h piece (List.mem_append_left _ hp),
      fun piece hp => h piece (List.mem_append_right _ hp)⟩
  · rintro ⟨ha, hb⟩ piece hp
    rcases List.mem_append.1 hp with hp | hp
    · exact ha piece hp
    · exact hb piece hp

theorem not_clean_nil : ¬ Clean [] := by
  intro h
  exact h [] (by simp) rfl

theorem Clean.ne_nil {cs : List Char} (hClean : Clean cs) :
    cs ≠ [] := by
  rintro rfl
  exact not_clean_nil hClean

/- A text without slashes is one segment. -/
theorem splitOn_of_not_mem
    {cs : List Char}
    (hSlash : '/' ∉ cs) :
    cs.splitOn '/' = [cs] := by
  have hSplit : (List.intercalate ['/'] [cs]).splitOn '/' =
      [cs] :=
    List.splitOn_intercalate '/' (by simpa using hSlash)
      (by simp)
  rwa [List.intercalate_singleton] at hSplit

/- A text with one slash is cut in one way. -/
theorem halves_unique
    {a b c d : List Char}
    (ha : '/' ∉ a)
    (hb : '/' ∉ b)
    (hSame : a ++ '/' :: b = c ++ '/' :: d) :
    c = a ∧ d = b := by
  have hSplit := congrArg (List.splitOn '/') hSame
  rw [splitOn_append, splitOn_append, splitOn_of_not_mem ha,
    splitOn_of_not_mem hb] at hSplit
  have hc : List.intercalate ['/'] (c.splitOn '/') = c :=
    List.intercalate_splitOn '/'
  have hd : List.intercalate ['/'] (d.splitOn '/') = d :=
    List.intercalate_splitOn '/'
  rcases hFirst : c.splitOn '/' with - | ⟨x, xs⟩
  · exact absurd hFirst (List.splitOn_ne_nil _ _)
  · rcases hLast : d.splitOn '/' with - | ⟨y, ys⟩
    · exact absurd hLast (List.splitOn_ne_nil _ _)
    · rw [hFirst, hLast] at hSplit
      rcases xs with - | ⟨z, zs⟩
      · simp only [List.cons_append, List.nil_append,
          List.cons.injEq, List.nil_eq] at hSplit
        rcases hSplit with ⟨rfl, rfl, rfl⟩
        rw [hFirst, List.intercalate_singleton] at hc
        rw [hLast, List.intercalate_singleton] at hd
        exact ⟨hc.symm, hd.symm⟩
      · have hLength := congrArg List.length hSplit
        simp at hLength

/- A segment has no slash in it. -/
theorem slash_not_mem_of_isSegment
    {s : String}
    (hSegment : isSegment s = true) :
    '/' ∉ s.toList := by
  unfold isSegment at hSegment
  simp only [Bool.and_eq_true, Bool.not_eq_true',
    List.any_eq_false] at hSegment
  intro hSlash
  exact hSegment.2 '/' hSlash rfl

/- A segment is a clean path of its own. -/
theorem clean_of_isSegment
    {s : String}
    (hSegment : isSegment s = true) :
    Clean s.toList := by
  intro piece hPiece
  rw [splitOn_of_not_mem (slash_not_mem_of_isSegment hSegment),
    List.mem_singleton] at hPiece
  rw [hPiece]
  unfold isSegment at hSegment
  simp only [Bool.and_eq_true, Bool.not_eq_true',
    List.isEmpty_eq_false_iff] at hSegment
  exact hSegment.1

------------------------------------------------------------
-- Trimming
------------------------------------------------------------

/- A clean path does not begin or end with a slash. -/
theorem Clean.dropWhile
    {cs : List Char}
    (hClean : Clean cs) :
    cs.dropWhile isSlash = cs := by
  cases cs with
  | nil => rfl
  | cons c cs =>
      have hHead : ¬ isSlash c = true := by
        intro hSlash
        have hc : c = '/' := by
          simpa [isSlash] using hSlash
        subst hc
        exact not_clean_nil ((clean_append [] cs).1 hClean).1
      rw [List.dropWhile_cons, if_neg hHead]

/- A clean path does not end in a slash. -/
theorem Clean.dropWhile_reverse
    {cs : List Char}
    (hClean : Clean cs) :
    cs.reverse.dropWhile isSlash = cs.reverse := by
  rcases List.eq_nil_or_concat cs with rfl | ⟨cs, c, rfl⟩
  · rfl
  · have hLast : ¬ isSlash c = true := by
      intro hSlash
      have hc : c = '/' := by
        simpa [isSlash] using hSlash
      subst hc
      rw [List.concat_eq_append] at hClean
      exact not_clean_nil ((clean_append cs []).1 hClean).2
    rw [List.concat_eq_append, List.reverse_append,
      List.reverse_singleton, List.singleton_append,
      List.dropWhile_cons, if_neg hLast]

/- There is no slash at the ends. -/
structure Bare (cs : List Char) : Prop where
  front : cs.dropWhile isSlash = cs
  back : cs.reverse.dropWhile isSlash = cs.reverse

/- A clean path has no slash at its ends. -/
theorem Clean.bare
    {cs : List Char}
    (hClean : Clean cs) :
    Bare cs :=
  ⟨hClean.dropWhile, hClean.dropWhile_reverse⟩

/- Where there is no slash at the ends, none is trimmed. -/
theorem Bare.trim_eq
    {cs : List Char}
    (hBare : Bare cs) :
    trim cs = cs := by
  unfold trim
  rw [hBare.front, hBare.back, List.reverse_reverse]

/- What is trimmed has no slash left at its ends. -/
theorem bare_trim (cs : List Char) : Bare (trim cs) where
  front := by
    have hPrefix : trim cs <+: cs.dropWhile isSlash := by
      unfold trim
      rw [← List.reverse_suffix, List.reverse_reverse]
      exact List.dropWhile_suffix _
    rcases hPrefix with ⟨rest, hRest⟩
    have hHead := List.head?_dropWhile_not isSlash cs
    cases hTrim : trim cs with
    | nil => rfl
    | cons c more =>
        rw [← hRest, hTrim] at hHead
        exact List.dropWhile_cons_of_neg (by simpa using hHead)
  back := by
    unfold trim
    rw [List.reverse_reverse, List.dropWhile_idempotent]

/- Slashes between them are not at the ends. -/
theorem Bare.append
    {cs ds : List Char}
    (hFirst : Bare cs)
    (hSome : cs ≠ [])
    (hLast : Bare ds)
    (hMore : ds ≠ []) :
    Bare (cs ++ '/' :: ds) where
  front := by
    rw [List.dropWhile_append, hFirst.front, if_neg (by simpa)]
  back := by
    have hReverse : (cs ++ '/' :: ds).reverse =
        ds.reverse ++ '/' :: cs.reverse := by simp
    rw [hReverse, List.dropWhile_append, hLast.back,
      if_neg (by simpa)]

/- The key of a path is clean. -/
theorem clean_of_validate
    {path key : String}
    (hKey : validate path = .ok key) :
    Clean (trim path.toList) := by
  unfold validate at hKey
  dsimp only at hKey
  split at hKey
  · cases hKey
  · split at hKey
    · cases hKey
    · rename_i hFull
      intro piece hPiece hEmpty
      exact hFull (List.any_eq_true.2
        ⟨piece, hPiece, by simp [hEmpty]⟩)

/- The key of a path is the path without the slashes at its
   ends. -/
theorem eq_of_validate
    {path key : String}
    (hKey : validate path = .ok key) :
    key = String.ofList (trim path.toList) := by
  unfold validate at hKey
  dsimp only at hKey
  split at hKey
  · cases hKey
  · split at hKey
    · cases hKey
    · cases hKey
      rfl

/- A clean path is its own key. -/
theorem validate_of_clean
    {path : String}
    (hClean : Clean path.toList) :
    validate path = .ok path := by
  have hFull : (path.toList.splitOn '/').any List.isEmpty =
      false := by
    rw [List.any_eq_false]
    intro piece hPiece hEmpty
    exact hClean piece hPiece (List.isEmpty_iff.1 hEmpty)
  unfold validate
  rw [hClean.bare.trim_eq]
  simp [hClean.ne_nil, hFull]

/- It covers what follows it and a slash. -/
theorem scopeChars_of_clean
    {path : String}
    (hClean : Clean path.toList) :
    scopeChars path = path.toList ++ ['/'] := by
  unfold scopeChars
  rw [hClean.bare.trim_eq]
  cases hChars : path.toList with
  | nil => exact absurd hChars hClean.ne_nil
  | cons c cs => rfl

------------------------------------------------------------
-- Joining
------------------------------------------------------------

theorem pieces_append (xs ys : List String) :
    pieces (xs ++ ys) = pieces xs ++ pieces ys := by
  unfold pieces
  rw [List.map_append, List.filter_append]

/- The pieces are the segments, trimmed, that are not empty
   then. -/
theorem mem_pieces_iff
    {segments : List String}
    {piece : List Char} :
    piece ∈ pieces segments ↔
      piece ≠ [] ∧ ∃ s ∈ segments, trim s.toList = piece := by
  unfold pieces
  rw [List.mem_filter, List.mem_map, and_comm]
  simp

/- Pieces are bare, and none is empty. -/
theorem bare_of_mem_pieces
    {segments : List String}
    {piece : List Char}
    (hPiece : piece ∈ pieces segments) :
    Bare piece ∧ piece ≠ [] := by
  rcases mem_pieces_iff.1 hPiece with ⟨hSome, s, _, rfl⟩
  exact ⟨bare_trim _, hSome⟩

/- A text with no slash at its ends is a piece as it is. -/
theorem pieces_of_bare
    {s : String}
    (hBare : Bare s.toList)
    (hSome : s.toList ≠ []) :
    pieces [s] = [s.toList] := by
  unfold pieces
  rw [List.map_singleton, hBare.trim_eq,
    List.filter_cons_of_pos (by simpa using hSome),
    List.filter_nil]

/- A clean segment is one piece, as it is. -/
theorem pieces_of_clean
    {s : String}
    (hClean : Clean s.toList) :
    pieces [s] = [s.toList] :=
  pieces_of_bare hClean.bare hClean.ne_nil

/- A joined path is its pieces with slashes between them. -/
theorem toList_join (segments : List String) :
    (join segments).toList =
      List.intercalate ['/'] (pieces segments) := by
  unfold join
  rw [String.toList_ofList]

/- Two lists of pieces are joined by one slash. -/
theorem intercalate_append
    {front back : List (List Char)}
    (hFront : front ≠ [])
    (hBack : back ≠ []) :
    List.intercalate ['/'] (front ++ back) =
      List.intercalate ['/'] front ++ '/' ::
        List.intercalate ['/'] back := by
  induction front with
  | nil => exact absurd rfl hFront
  | cons piece front ih =>
      cases front with
      | nil =>
          cases back with
          | nil => exact absurd rfl hBack
          | cons next back =>
              rw [List.singleton_append,
                List.intercalate_cons_cons,
                List.intercalate_singleton]
              simp
      | cons next front =>
          have hTail := ih (by simp)
          rw [List.cons_append] at hTail
          rw [List.cons_append, List.cons_append,
            List.intercalate_cons_cons, hTail,
            List.intercalate_cons_cons]
          simp

/- A last piece follows one slash. -/
theorem intercalate_concat
    {pieces : List (List Char)}
    (hSome : pieces ≠ [])
    (last : List Char) :
    List.intercalate ['/'] (pieces ++ [last]) =
      List.intercalate ['/'] pieces ++ '/' :: last := by
  rw [intercalate_append hSome (by simp),
    List.intercalate_singleton]

/- A clean segment is added to a path after a slash. -/
theorem toList_join_concat
    {segments : List String}
    (hSome : pieces segments ≠ [])
    {s : String}
    (hClean : Clean s.toList) :
    (join (segments ++ [s])).toList =
      (join segments).toList ++ '/' :: s.toList := by
  rw [toList_join, toList_join, pieces_append,
    pieces_of_clean hClean, intercalate_concat hSome]

/- A joined text has the segments of its pieces. -/
theorem clean_intercalate
    {pieces : List (List Char)}
    (hSome : pieces ≠ []) :
    Clean (List.intercalate ['/'] pieces) ↔
      ∀ piece ∈ pieces, Clean piece := by
  induction pieces with
  | nil => exact absurd rfl hSome
  | cons piece rest ih =>
      cases rest with
      | nil =>
          rw [List.intercalate_singleton,
            List.forall_mem_singleton]
      | cons next rest =>
          rw [List.intercalate_cons_cons, List.append_assoc,
            List.singleton_append, clean_append,
            ih (by simp)]
          exact List.forall_mem_cons.symm

/- Joining bare pieces puts no slash at the ends. -/
theorem bare_intercalate
    {pieces : List (List Char)}
    (hPieces : ∀ piece ∈ pieces, Bare piece ∧ piece ≠ [])
    (hSome : pieces ≠ []) :
    Bare (List.intercalate ['/'] pieces) ∧
      List.intercalate ['/'] pieces ≠ [] := by
  induction pieces with
  | nil => exact absurd rfl hSome
  | cons piece rest ih =>
      have hFirst := hPieces piece (List.mem_cons_self ..)
      cases rest with
      | nil =>
          rw [List.intercalate_singleton]
          exact hFirst
      | cons next rest =>
          rcases ih (fun other hOther =>
            hPieces other (List.mem_cons_of_mem _ hOther))
            (by simp) with ⟨hBare, hMore⟩
          rw [show piece :: next :: rest =
              [piece] ++ next :: rest from rfl,
            intercalate_append (by simp) (by simp),
            List.intercalate_singleton]
          exact ⟨hFirst.1.append hFirst.2 hBare hMore,
            by simp⟩

/- A joined path has no slashes at its ends. -/
theorem bare_join (segments : List String) :
    Bare (join segments).toList := by
  rw [toList_join]
  by_cases hNone : pieces segments = []
  · rw [hNone]
    exact ⟨rfl, rfl⟩
  · exact (bare_intercalate
      (fun _ hPiece => bare_of_mem_pieces hPiece)
      hNone).1

/- A joined path need not be trimmed. -/
theorem trim_join (segments : List String) :
    trim (join segments).toList = (join segments).toList :=
  (bare_join segments).trim_eq

/- A joined path is its own key, if it is any. -/
theorem eq_join_of_validate
    {segments : List String}
    {key : String}
    (hKey : validate (join segments) = .ok key) :
    key = join segments := by
  rw [eq_of_validate hKey, trim_join, String.ofList_toList]

------------------------------------------------------------
-- What Follows
------------------------------------------------------------

/- What follows a start is relative to it, unless it is
   nothing. -/
theorem relative_of_append
    {start path : String}
    {rest : List Char}
    (hPath : path.toList = start.toList ++ rest)
    (hSome : rest ≠ []) :
    relative start path = some (String.ofList rest) := by
  have hPrefix : start.toList.isPrefixOf path.toList = true := by
    rw [List.isPrefixOf_iff_prefix, hPath]
    exact List.prefix_append _ _
  have hLonger :
      start.toList.length < path.toList.length := by
    rw [hPath, List.length_append]
    exact Nat.lt_add_of_pos_right (List.length_pos_iff.2 hSome)
  unfold relative
  simp only [hPrefix, hLonger, decide_true, Bool.and_true,
    if_true]
  rw [hPath, List.drop_left]

/- What does not start so has nothing relative to it. -/
theorem relative_eq_none
    {start path : String}
    (hOther : ¬ start.toList <+: path.toList) :
    relative start path = none := by
  have hPrefix :
      ¬ start.toList.isPrefixOf path.toList = true :=
    fun h => hOther (List.isPrefixOf_iff_prefix.1 h)
  unfold relative
  simp [hPrefix]

/- A path is its start and what follows that. -/
theorem append_of_relative
    {start path rest : String}
    (hRelative : relative start path = some rest) :
    start ++ rest = path := by
  unfold relative at hRelative
  dsimp only at hRelative
  split at hRelative
  · rename_i hLonger
    cases hRelative
    have hPrefix := (Bool.and_eq_true_iff.1 hLonger).1
    rcases List.isPrefixOf_iff_prefix.1 hPrefix with
      ⟨more, hPath⟩
    rw [← String.toList_inj, String.toList_append, ← hPath,
      List.drop_left, String.toList_ofList]
  · cases hRelative

/- What a clean path covers begins with it and a slash. -/
theorem toList_scope
    {path : String}
    (hClean : Clean path.toList) :
    (scope path).toList = path.toList ++ ['/'] := by
  unfold scope
  rw [String.toList_ofList, scopeChars_of_clean hClean]

end Path

------------------------------------------------------------
-- Repositories
------------------------------------------------------------

namespace Identity

/- The parts of an identity are segments of a path. -/
def Plain (i : Identity) : Prop :=
  Path.isSegment i.playbook = true ∧ Path.isSegment i.id = true

theorem toList_label (i : Identity) :
    i.label.toList =
      i.playbook.toList ++ '/' :: i.id.toList := by
  unfold label
  rw [String.toList_append, String.toList_append]
  simp

/- The label of a plain identity belongs to it alone. -/
theorem label_injective
    {i j : Identity}
    (hi : i.Plain)
    (hj : j.Plain)
    (hLabel : i.label = j.label) :
    i = j := by
  have hChars := congrArg String.toList hLabel
  rw [toList_label, toList_label] at hChars
  have hHalves := Path.halves_unique
    (Path.slash_not_mem_of_isSegment hi.1)
    (Path.slash_not_mem_of_isSegment hi.2) hChars
  rcases i with ⟨playbook, id⟩
  rcases j with ⟨playbook', id'⟩
  simp only [String.toList_inj] at hHalves
  rw [hHalves.1, hHalves.2]

end Identity

namespace Store

variable {path k : String}

/- Keys are valid paths. -/
theorem validate_of_key
    (hKey : key path = .ok k) :
    Path.validate path = .ok k := by
  unfold key at hKey
  cases hValid : Path.validate path with
  | error e => rw [hValid] at hKey; cases hKey
  | ok k => rw [hValid] at hKey; cases hKey; rfl

/- A clean path is its own key. -/
theorem key_of_clean
    (hClean : Path.Clean path.toList) :
    key path = .ok path := by
  unfold key
  rw [Path.validate_of_clean hClean]
  rfl

/- A key is its own key. -/
theorem key_of_key
    (hKey : key path = .ok k) :
    key k = .ok k := by
  have hValid := validate_of_key hKey
  apply key_of_clean
  rw [Path.eq_of_validate hValid, String.toList_ofList]
  exact Path.clean_of_validate hValid

end Store

namespace Repository

/- The root has no empty segment between its slashes. -/
def Rooted (r : Repository) : Prop :=
  Path.trim r.root.toList = [] ∨
    Path.Clean (Path.trim r.root.toList)

variable {r : Repository}

/- The pieces of the root come first. -/
theorem pieces_root (segments : List String) :
    Path.pieces (r.root :: segments) =
      Path.pieces [r.root] ++ Path.pieces segments :=
  Path.pieces_append [r.root] segments

theorem clean_instances : Path.Clean "instances".toList :=
  Path.clean_of_isSegment (by decide)

theorem pieces_instances :
    Path.pieces [r.root, "instances"] ≠ [] := by
  rw [pieces_root, Path.pieces_of_clean clean_instances]
  simp

theorem clean_instancesPath (hRooted : r.Rooted) :
    Path.Clean r.instancesPath.toList := by
  unfold instancesPath
  rw [Path.toList_join,
    Path.clean_intercalate pieces_instances]
  intro piece hPiece
  rcases Path.mem_pieces_iff.1 hPiece with
    ⟨hSome, s, hs, rfl⟩
  rcases List.mem_pair.1 hs with rfl | rfl
  · exact hRooted.resolve_left hSome
  · rw [clean_instances.bare.trim_eq]
    exact clean_instances

/- The records of a playbook lie below its segment. -/
theorem toList_playbookPath
    {playbook : String}
    (hSegment : Path.isSegment playbook = true) :
    (r.playbookPath playbook).toList =
      r.instancesPath.toList ++ '/' :: playbook.toList :=
  Path.toList_join_concat pieces_instances
    (Path.clean_of_isSegment hSegment)

/- A record lies below all records under its label. -/
theorem toList_path
    {i : Identity}
    (hPlain : i.Plain) :
    (r.path i).toList =
      r.instancesPath.toList ++ '/' :: i.label.toList := by
  have hSome :
      Path.pieces [r.root, "instances", i.playbook] ≠ [] := by
    rw [show [r.root, "instances", i.playbook] =
      [r.root, "instances"] ++ [i.playbook] from rfl,
      Path.pieces_append]
    exact List.append_ne_nil_of_left_ne_nil pieces_instances _
  have hPath : (r.path i).toList =
      (r.playbookPath i.playbook).toList ++ '/' ::
        i.id.toList :=
    Path.toList_join_concat hSome
      (Path.clean_of_isSegment hPlain.2)
  rw [hPath, toList_playbookPath hPlain.1,
    Identity.toList_label]
  simp

/- The path of a plain identity is clean, so that it is its own
   key. -/
theorem clean_path
    (hRooted : r.Rooted)
    {i : Identity}
    (hPlain : i.Plain) :
    Path.Clean (r.path i).toList := by
  rw [toList_path hPlain, Path.clean_append,
    Identity.toList_label, Path.clean_append]
  exact ⟨clean_instancesPath hRooted,
    Path.clean_of_isSegment hPlain.1,
    Path.clean_of_isSegment hPlain.2⟩

/- The path of a record is its key. -/
theorem key_path
    (hRooted : r.Rooted)
    {i : Identity}
    (hPlain : i.Plain) :
    Store.key (r.path i) = .ok (r.path i) :=
  Store.key_of_clean (clean_path hRooted hPlain)

/- The path of an identity is a key only below such a root,
   since the root is one of its pieces. -/
theorem rooted_of_key
    {i : Identity}
    {k : String}
    (hKey : Store.key (r.path i) = .ok k) :
    r.Rooted := by
  by_cases hNone : Path.trim r.root.toList = []
  · exact .inl hNone
  · right
    have hRoot : Path.trim r.root.toList ∈
        Path.pieces [r.root, "instances", i.playbook, i.id] :=
      Path.mem_pieces_iff.2 ⟨hNone, r.root, by simp, rfl⟩
    have hClean :=
      Path.clean_of_validate (Store.validate_of_key hKey)
    unfold path at hClean
    rw [Path.trim_join, Path.toList_join,
      Path.clean_intercalate (List.ne_nil_of_mem hRoot)]
      at hClean
    exact hClean _ hRoot

/- Different identities have different paths. -/
theorem path_injective
    {i j : Identity}
    (hi : i.Plain)
    (hj : j.Plain)
    (hPath : r.path i = r.path j) :
    i = j := by
  have hChars := congrArg String.toList hPath
  rw [toList_path hi, toList_path hj,
    List.append_cancel_left_eq, List.cons.injEq,
    String.toList_inj] at hChars
  exact Identity.label_injective hi hj hChars.2

theorem clean_playbookPath
    (hRooted : r.Rooted)
    {playbook : String}
    (hSegment : Path.isSegment playbook = true) :
    Path.Clean (r.playbookPath playbook).toList := by
  rw [toList_playbookPath hSegment, Path.clean_append]
  exact ⟨clean_instancesPath hRooted,
    Path.clean_of_isSegment hSegment⟩

/- Below the path of a playbook are its own instances. -/
theorem relative_playbookPath
    (hRooted : r.Rooted)
    {i : Identity}
    (hPlain : i.Plain)
    {playbook : String}
    (hSegment : Path.isSegment playbook = true) :
    Path.relative (Path.scope (r.playbookPath playbook))
        (r.path i) =
      if i.playbook = playbook then some i.id else none := by
  have hScope := Path.toList_scope
    (clean_playbookPath hRooted hSegment)
  rw [toList_playbookPath hSegment] at hScope
  have hPath := toList_path (r := r) hPlain
  rw [Identity.toList_label] at hPath
  split
  · rename_i hSame
    subst hSame
    have hId := (Path.clean_of_isSegment hPlain.2).ne_nil
    rw [Path.relative_of_append (by rw [hPath, hScope]; simp)
      hId, String.ofList_toList]
  · rename_i hOther
    apply Path.relative_eq_none
    rintro ⟨rest, hRest⟩
    apply hOther
    rw [hScope, hPath, List.append_assoc, List.append_assoc,
      List.append_cancel_left_eq, List.cons_append,
      List.cons.injEq, List.singleton_append] at hRest
    exact (String.toList_inj.1 (Path.halves_unique
      (Path.slash_not_mem_of_isSegment hPlain.1)
      (Path.slash_not_mem_of_isSegment hPlain.2)
      hRest.2.symm).1).symm

/- Below the path of all instances they have their labels. -/
theorem relative_instancesPath
    (hRooted : r.Rooted)
    {i : Identity}
    (hPlain : i.Plain) :
    Path.relative (Path.scope r.instancesPath) (r.path i) =
      some i.label := by
  have hScope :=
    Path.toList_scope (clean_instancesPath hRooted)
  have hPath : (r.path i).toList =
      (Path.scope r.instancesPath).toList ++ i.label.toList := by
    rw [toList_path hPlain, hScope]
    simp
  have hSome : i.label.toList ≠ [] := by
    rw [Identity.toList_label]
    simp
  rw [Path.relative_of_append hPath hSome,
    String.ofList_toList]

end Repository

end Preview
