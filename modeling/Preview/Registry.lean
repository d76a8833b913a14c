/-
  Finite maps over any keys with decidable equality.

  A registry is a list of entries in which no order matters:
  setting a key removes what was there before.

  Key definitions include:
    * `Registry`
    * `Registry.get?`
    * `Registry.set`
    * `Registry.drop`

  Every operation is described through `Registry.get?`:
    * `Registry.get?_set`
    * `Registry.get?_drop`
-/

namespace Preview

/- Entries by key. -/
def Registry (κ α : Type) : Type :=
  List (κ × α)

namespace Registry

variable {κ α : Type} [DecidableEq κ]

/- A registry without keys. -/
omit [DecidableEq κ] in
def empty : Registry κ α :=
  []

instance : Inhabited (Registry κ α) := ⟨empty⟩

/- What is registered under a key; the first entry counts. -/
def get? (r : Registry κ α) (k : κ) : Option α :=
  (r.find? (fun e => e.1 = k)).map (·.2)

/- Whether a key is registered. -/
def contains (r : Registry κ α) (k : κ) : Bool :=
  (r.get? k).isSome

/- Forget a key, in whatever entries it occurs. -/
def drop (r : Registry κ α) (k : κ) : Registry κ α :=
  r.filter (fun e => e.1 ≠ k)

/- Register under a key in place of what was there. -/
def set (r : Registry κ α) (k : κ) (x : α) : Registry κ α :=
  (k, x) :: r.drop k

/- The number of entries, one for each key. -/
omit [DecidableEq κ] in
def size (r : Registry κ α) : Nat :=
  r.length

------------------------------------------------------------
-- Laws
------------------------------------------------------------

@[simp]
theorem get?_empty (k : κ) :
    (empty : Registry κ α).get? k = none := rfl

/- Only the dropped key loses its value. -/
theorem get?_drop
    (r : Registry κ α)
    (k k' : κ) :
    (r.drop k).get? k' =
      if k' = k then none else r.get? k' := by
  induction r with
  | nil => simp [drop, get?]
  | cons hd tl ih =>
      obtain ⟨k'', x⟩ := hd
      simp only [drop, get?, ne_eq] at ih ⊢
      by_cases h : k'' = k
      · by_cases h' : k' = k
        · simp_all
        · have hne : ¬ k'' = k' := fun e => h' (e ▸ h)
          simp_all
      · by_cases h' : k'' = k'
        · have hne : ¬ k' = k := fun e => h (h'.trans e)
          simp_all
        · simp_all

/- Only the set key changes its value. -/
theorem get?_set
    (r : Registry κ α)
    (k k' : κ)
    (x : α) :
    (r.set k x).get? k' =
      if k' = k then some x else r.get? k' := by
  have h := get?_drop r k k'
  unfold get? at h ⊢
  by_cases hk : k' = k
  · subst hk
    simp [set, List.find?]
  · have hne : ¬ k = k' := fun e => hk e.symm
    simp only [set, hk, if_false] at h ⊢
    simpa [List.find?, hne] using h

end Registry

end Preview
