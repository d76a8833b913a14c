import Preview.Proofs.Paths

/-
  What two texts that are no segments name.

  Joining drops the slashes at the ends of a text, and texts
  with nothing else.  So the path of any two texts is that of
  the instances followed by an address, and it is the path of
  the instance whose label is that address, if there is one.

  Main declarations:
    * `Path.toList_join_append`
    * `Identity.address` and `Identity.address_of_plain`
    * `Repository.path_eq_iff` and `Repository.key_eq_iff`
    * `Repository.relative_isSome_iff`
-/

namespace Preview

------------------------------------------------------------
-- Joined Paths
------------------------------------------------------------

namespace Path

/- What is joined is empty when no segment has a piece. -/
theorem join_eq_empty_iff (segments : List String) :
    join segments = "" ↔ pieces segments = [] := by
  rw [← String.toList_inj, toList_join]
  constructor
  · intro hEmpty
    by_contra hSome
    exact (bare_intercalate
      (fun _ hPiece => bare_of_mem_pieces hPiece)
      hSome).2 hEmpty
  · intro hNone
    rw [hNone]
    rfl

/- What is joined to a path follows it after a slash, if it is
   anything. -/
theorem toList_join_append
    {front : List String}
    (hFront : pieces front ≠ [])
    (back : List String) :
    (join (front ++ back)).toList =
      if join back = "" then (join front).toList
      else (join front).toList ++ '/' ::
        (join back).toList := by
  rw [toList_join, pieces_append]
  split
  · rename_i hEmpty
    have hNone := (join_eq_empty_iff back).1 hEmpty
    rw [hNone, List.append_nil, toList_join]
  · rename_i hMore
    have hSome : pieces back ≠ [] :=
      fun hNone => hMore ((join_eq_empty_iff back).2 hNone)
    rw [intercalate_append hFront hSome, toList_join,
      toList_join]

/- A joined path that has a key is the key. -/
theorem key_join
    {segments : List String}
    {k : String}
    (hKey : Store.key (join segments) = .ok k) :
    k = join segments :=
  eq_join_of_validate (Store.validate_of_key hKey)

/- What it covers begins with it and a slash. -/
theorem toList_scope_join
    {segments : List String}
    (hSome : join segments ≠ "") :
    (scope (join segments)).toList =
      (join segments).toList ++ ['/'] := by
  unfold scope scopeChars
  rw [trim_join, String.toList_ofList]
  split
  · rename_i hNone
    exact absurd (String.toList_inj.1 hNone) hSome
  · rfl

/- A text of one segment is what it is joined to. -/
theorem join_of_isSegment
    {s : String}
    (hSegment : isSegment s = true) :
    join [s] = s := by
  rw [← String.toList_inj, toList_join,
    pieces_of_clean (clean_of_isSegment hSegment),
    List.intercalate_singleton]

/- Something is relative to a start when it follows it. -/
theorem relative_isSome_iff (start path : String) :
    (relative start path).isSome = true ↔
      ∃ rest, rest ≠ [] ∧
        path.toList = start.toList ++ rest := by
  constructor
  · intro hSome
    rcases Option.isSome_iff_exists.1 hSome with ⟨rest, hRest⟩
    have hPath := append_of_relative hRest
    refine ⟨rest.toList, ?_, ?_⟩
    · intro hNone
      unfold relative at hRest
      dsimp only at hRest
      split at hRest
      · rename_i hLonger
        have hLess := of_decide_eq_true
          (Bool.and_eq_true_iff.1 hLonger).2
        rw [← hPath, String.toList_append, hNone] at hLess
        simp at hLess
      · cases hRest
    · rw [← hPath, String.toList_append]
  · rintro ⟨rest, hMore, hPath⟩
    rw [relative_of_append hPath hMore]
    rfl

end Path

------------------------------------------------------------
-- Addresses
------------------------------------------------------------

/- What a path below the instances names of an identity. -/
def Identity.address (a : Identity) : String :=
  Path.join [a.playbook, a.id]

namespace Identity

/- No label is empty, since each has a slash. -/
theorem label_ne_empty (i : Identity) : i.label ≠ "" := by
  intro hEmpty
  have hChars := congrArg String.toList hEmpty
  rw [toList_label] at hChars
  simp at hChars

/- The address of two segments is their label. -/
theorem address_of_plain
    {i : Identity}
    (hPlain : i.Plain) :
    i.address = i.label := by
  have hBook := Path.clean_of_isSegment hPlain.1
  have hId := Path.clean_of_isSegment hPlain.2
  have hPieces : Path.pieces [i.playbook] ≠ [] := by
    rw [Path.pieces_of_clean hBook]
    simp
  rw [← String.toList_inj, toList_label]
  unfold address
  rw [show [i.playbook, i.id] = [i.playbook] ++ [i.id] from rfl,
    Path.toList_join_concat hPieces hId,
    Path.join_of_isSegment hPlain.1]

end Identity

namespace Repository

variable {r : Repository} {i : Identity}

/- The path of any two texts leads to their address. -/
theorem toList_path_address (r : Repository) (a : Identity) :
    (r.path a).toList =
      if a.address = "" then r.instancesPath.toList
      else r.instancesPath.toList ++ '/' ::
        a.address.toList :=
  Path.toList_join_append pieces_instances [a.playbook, a.id]

/- Any strings name the record of a plain identity exactly if
   they come to its label when joined. -/
theorem path_eq_iff
    (hPlain : i.Plain)
    (a : Identity) :
    r.path a = r.path i ↔ a.address = i.label := by
  rw [← String.toList_inj, toList_path hPlain,
    toList_path_address]
  split
  · rename_i hEmpty
    rw [hEmpty]
    refine iff_of_false ?_ (Ne.symm i.label_ne_empty)
    intro hChars
    have hLength := congrArg List.length hChars
    simp at hLength
  · rw [List.append_cancel_left_eq, List.cons.injEq,
      String.toList_inj]
    simp

/- Any two texts name the entry of the instance whose label is
   their address. -/
theorem key_eq_iff
    (hRooted : r.Rooted)
    (hPlain : i.Plain)
    (a : Identity) :
    Store.key (r.path a) = .ok (r.path i) ↔
      a.address = i.label := by
  rw [← path_eq_iff (r := r) hPlain a]
  constructor
  · exact fun hKey => (Path.key_join hKey).symm
  · intro hPath
    rw [hPath]
    exact key_path hRooted hPlain

/- Below the path of any text are the instances of the playbook
   that it is joined to, or all if it is joined to none. -/
theorem relative_isSome_iff
    (hRooted : r.Rooted)
    (hPlain : i.Plain)
    (playbook : String) :
    (Path.relative (Path.scope (r.playbookPath playbook))
        (r.path i)).isSome = true ↔
      Path.join [playbook] = "" ∨
        i.playbook = Path.join [playbook] := by
  have hBase := Path.toList_join_append
    (pieces_instances (r := r)) [playbook]
  change (r.playbookPath playbook).toList = _ at hBase
  rw [Path.relative_isSome_iff, toList_path hPlain]
  by_cases hNone : Path.join [playbook] = ""
  · rw [if_pos hNone] at hBase
    rw [String.toList_inj.1 hBase]
    change (∃ rest, rest ≠ [] ∧ _ =
      (Path.scope r.instancesPath).toList ++ rest) ↔ _
    rw [Path.toList_scope (clean_instancesPath hRooted)]
    refine iff_of_true ⟨i.label.toList, ?_, by simp⟩ (.inl hNone)
    exact fun hEmpty =>
      i.label_ne_empty (String.toList_inj.1 hEmpty)
  -- a label goes on after a segment and a slash only if its
  -- playbook is that segment
  · rw [if_neg hNone] at hBase
    have hSome : r.playbookPath playbook ≠ "" := by
      intro hEmpty
      rw [hEmpty] at hBase
      simp at hBase
    have hScope :
        (Path.scope (r.playbookPath playbook)).toList =
          r.instancesPath.toList ++ '/' ::
            ((Path.join [playbook]).toList ++ ['/']) := by
      refine (Path.toList_scope_join hSome).trans ?_
      change (r.playbookPath playbook).toList ++ ['/'] = _
      rw [hBase]
      change r.instancesPath.toList ++ '/' :: _ ++ ['/'] = _
      simp
    rw [hScope, Identity.toList_label]
    constructor
    · rintro ⟨rest, -, hRest⟩
      right
      rw [List.append_assoc, List.append_cancel_left_eq,
        List.cons_append, List.cons.injEq, List.append_assoc,
        List.singleton_append] at hRest
      exact (String.toList_inj.1 (Path.halves_unique
        (Path.slash_not_mem_of_isSegment hPlain.1)
        (Path.slash_not_mem_of_isSegment hPlain.2)
        hRest.2).1).symm
    · rintro (hEmpty | hBook)
      · exact absurd hEmpty hNone
      · refine ⟨i.id.toList,
          (Path.clean_of_isSegment hPlain.2).ne_nil, ?_⟩
        rw [hBook]
        simp

end Repository

end Preview
