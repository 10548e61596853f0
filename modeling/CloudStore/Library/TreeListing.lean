import CloudStore.Library.Subtree

/-!
# The entries below a path

A walk over a file tree, directory by directory, each directory before what is in it. Links are
entries, and are not followed.
-/

set_option autoImplicit false

namespace CloudStore.Library

variable {t : FileTree} {recursive : Bool}

/-- The paths of the entries below `p`, from `p` on, in the order of a walk: those in `p`, or
those at any depth. -/
def entriesBelow (t : FileTree) (recursive : Bool) : ℕ → Path → List Path
  | 0, _ => []
  | n + 1, p => (t.children p).flatMap fun m =>
    [m] :: if recursive = true ∧ t.entry (p ++ [m]) = some .dir then
      (entriesBelow t recursive n (p ++ [m])).map (m :: ·) else []

/-- An entry in `p`, or at any depth below it. -/
def IsBelow (t : FileTree) (recursive : Bool) (p r : Path) : Prop :=
  r ≠ [] ∧ t.entry (p ++ r) ≠ none ∧ (recursive = false → r.length = 1)

/-- An entry below a directory is in it, or below a directory in it. -/
theorem isBelow_cons {p r : Path} {m : Name} : IsBelow t recursive p (m :: r) ↔
    t.entry (p ++ [m]) ≠ none ∧ (r = [] ∨ (recursive = true ∧ t.entry (p ++ [m]) = some .dir) ∧
      IsBelow t recursive (p ++ [m]) r) := by
  have hpath : p ++ m :: r = p ++ [m] ++ r := by simp
  unfold IsBelow
  rw [hpath]
  constructor
  · rintro ⟨-, hentry, hlen⟩
    by_cases hr : r = []
    · subst hr
      rw [List.append_nil] at hentry
      exact ⟨hentry, Or.inl rfl⟩
    · have hdir : t.entry (p ++ [m]) = some .dir := t.dir_of_below hr hentry
      have hrec : recursive = true := by
        by_contra hne
        have hone := hlen (by simpa using hne)
        rw [List.length_cons] at hone
        exact hr (List.length_eq_zero_iff.mp (by omega))
      refine ⟨by simp [hdir], Or.inr ⟨⟨hrec, hdir⟩, hr, hentry, ?_⟩⟩
      simp [hrec]
  · rintro ⟨hentry, rfl | ⟨⟨hrec, -⟩, -, hbelow, -⟩⟩
    · rw [List.append_nil]
      exact ⟨by simp, hentry, by simp⟩
    · exact ⟨by simp, hbelow, by simp [hrec]⟩

/-- **The walk comes to each entry**, if it may go as deep as the subtree is high. -/
theorem mem_entriesBelow {n : ℕ} {p : Path} (hheight : HeightBelow t p n) (r : Path) :
    r ∈ entriesBelow t recursive n p ↔ IsBelow t recursive p r := by
  induction n generalizing p r with
  | zero =>
      apply iff_of_false
      · simp [entriesBelow]
      · rintro ⟨-, hentry, -⟩
        exact Nat.not_lt_zero _ (hheight r hentry)
  | succ n ih =>
      have hmem : r ∈ entriesBelow t recursive (n + 1) p ↔ ∃ m, t.entry (p ++ [m]) ≠ none ∧
          (r = [m] ∨ (recursive = true ∧ t.entry (p ++ [m]) = some .dir) ∧
            ∃ q ∈ entriesBelow t recursive n (p ++ [m]), m :: q = r) := by
        simp only [entriesBelow, List.mem_flatMap, FileTree.mem_children, List.mem_cons]
        apply exists_congr
        intro m
        split_ifs with hdir <;> simp [hdir]
      rw [hmem]
      constructor
      · rintro ⟨m, hentry, rfl | ⟨hdir, q, hq, rfl⟩⟩
        · exact isBelow_cons.mpr ⟨hentry, Or.inl rfl⟩
        · exact isBelow_cons.mpr ⟨hentry, Or.inr ⟨hdir, (ih (hheight.child m) q).mp hq⟩⟩
      · intro h
        cases r with
        | nil => exact absurd rfl h.1
        | cons m r =>
            obtain ⟨hentry, hrest⟩ := isBelow_cons.mp h
            refine ⟨m, hentry, ?_⟩
            rcases hrest with rfl | ⟨hdir, hbelow⟩
            · exact Or.inl rfl
            · exact Or.inr ⟨hdir, r, (ih (hheight.child m) r).mpr hbelow, rfl⟩

/-- The walk comes to no entry twice. -/
theorem entriesBelow_nodup (n : ℕ) (p : Path) : (entriesBelow t recursive n p).Nodup := by
  induction n generalizing p with
  | zero => exact List.nodup_nil
  | succ n ih =>
      have hne : ∀ k q, ([] : Path) ∉ entriesBelow t recursive k q := by
        intro k q
        cases k with
        | zero => simp [entriesBelow]
        | succ k =>
            simp only [entriesBelow, List.mem_flatMap, not_exists, not_and]
            intro m _
            split_ifs <;> simp
      unfold entriesBelow
      rw [List.nodup_flatMap]
      constructor
      · intro m _
        rw [List.nodup_cons]
        split_ifs
        · refine ⟨?_, (ih (p ++ [m])).map fun a b hab => (List.cons.inj hab).2⟩
          simp [hne]
        · simp
      · apply (List.nodup_dedup _ : (t.children p).Nodup).imp
        intro m k hmk r hr hr'
        have hhead : ∀ j, r ∈ [j] :: (if recursive = true ∧ t.entry (p ++ [j]) = some .dir then
            (entriesBelow t recursive n (p ++ [j])).map (j :: ·) else []) → r.head? = some j := by
          intro j hj
          rcases List.mem_cons.mp hj with rfl | hj
          · rfl
          · split_ifs at hj
            · obtain ⟨q, -, rfl⟩ := List.mem_map.mp hj
              rfl
            · simp at hj
        exact hmk (Option.some.inj ((hhead m hr).symm.trans (hhead k hr')))

end CloudStore.Library
