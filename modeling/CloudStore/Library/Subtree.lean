import CloudStore.Library.TreeFrame

/-!
# Subtrees

What a removal inside a subtree may do to a file tree, how high a subtree is, and texts whose
walk meets no link. All of it holds for trees with any links.
-/

set_option autoImplicit false

namespace CloudStore.Library

open CloudStore.Library.Posix

/-! ## Pruning -/

/-- Entries at `p` and below it are removed, and nothing else is changed. -/
structure Prunes (p : Path) (t t' : FileTree) : Prop where
  sheds : Sheds t t'
  outside : ∀ q, ¬ p <+: q → t'.entry q = t.entry q

namespace Prunes

variable {p : Path} {t t' t'' : FileTree}

theorem refl (p : Path) (t : FileTree) : Prunes p t t := ⟨Sheds.refl t, fun _ _ => rfl⟩

theorem trans (h : Prunes p t t') (h' : Prunes p t' t'') : Prunes p t t'' where
  sheds := h.sheds.trans h'.sheds
  outside q hq := (h'.outside q hq).trans (h.outside q hq)

/-- Pruning below a path is pruning at the path. -/
theorem widen {r : Path} (h : Prunes (p ++ r) t t') : Prunes p t t' where
  sheds := h.sheds
  outside q hq := h.outside q fun hr => hq ((List.prefix_append p r).trans hr)

theorem drop (hne : p ≠ []) (hleaf) : Prunes p t (t.drop p hne hleaf) where
  sheds := Sheds.drop hne hleaf
  outside q hq := by
    rw [FileTree.drop_entry, Function.update_of_ne]
    rintro rfl
    exact hq (List.prefix_refl q)

/-- Files outside keep their bytes. -/
theorem fileAt (h : Prunes p t t') {q : Path} (hq : ¬ p <+: q) : t'.fileAt q = t.fileAt q := by
  unfold FileTree.fileAt
  rw [h.outside q hq, h.sheds.data]

end Prunes

/-- What is left below a removed path is nothing. -/
theorem gone_below {t : FileTree} {p : Path} (h : t.entry p = none) {q : Path} (hq : p <+: q) :
    t.entry q = none := by
  obtain ⟨r, rfl⟩ := hq
  by_cases hr : r = []
  · rw [hr, List.append_nil, h]
  · exact t.entry_below_eq_none hr (by simp [h])

/-! ## Height -/

/-- The paths below `p` that are occupied are shorter than `n` from `p` on. -/
def HeightBelow (t : FileTree) (p : Path) (n : ℕ) : Prop :=
  ∀ q, t.entry (p ++ q) ≠ none → q.length < n

theorem HeightBelow.child {t : FileTree} {p : Path} {n : ℕ} (h : HeightBelow t p (n + 1))
    (m : Name) : HeightBelow t (p ++ [m]) n := by
  intro q hq
  rw [List.append_assoc] at hq
  have hlt := h ([m] ++ q) hq
  rw [List.length_append, List.length_singleton] at hlt
  omega

theorem HeightBelow.shed {t t' : FileTree} {p : Path} {n : ℕ} (h : HeightBelow t p n)
    (hsheds : Sheds t t') : HeightBelow t' p n := by
  intro q hq
  apply h q
  rcases hsheds.entry (p ++ q) with hsame | hnone
  · rwa [hsame] at hq
  · exact absurd hnone hq

/-- The longest path that is listed bounds the height of every subtree. -/
theorem heightBelow_listing (t : FileTree) (p : Path) :
    HeightBelow t p ((t.listing.map List.length).foldr max 0 + 1) := by
  intro q hq
  have hmem := t.listed (p ++ q) hq
  have hle : (p ++ q).length ≤ (t.listing.map List.length).foldr max 0 := by
    generalize t.listing = l at hmem
    induction l with
    | nil => simp at hmem
    | cons r l ih =>
        rw [List.map_cons, List.foldr_cons]
        rcases List.mem_cons.mp hmem with rfl | hmem
        · exact Nat.le_max_left _ _
        · exact Nat.le_trans (ih hmem) (Nat.le_max_right _ _)
  rw [List.length_append] at hle
  omega

/-! ## Texts without links -/

/-- The walk of a text comes to its end without a link to follow. -/
def WalksDirectly (t : FileTree) (follow : Bool) (s : Bytes) : Prop :=
  ∃ rest p, cstr s = 47 :: rest ∧ scan t follow [] (components rest) = .found p

/-- The text of an occupied path is walked directly, unless it ends in a link to follow. -/
theorem walksDirectly_render {t : FileTree} {p : Path} {x : Node} (hp : t.entry p = some x)
    {follow : Bool} (hlink : follow = true → ∀ g, x ≠ .link g) :
    WalksDirectly t follow (render p) := by
  have hplain := t.plain_of_entry (by simp [hp] : t.entry p ≠ none)
  refine ⟨[47].intercalate p, p, cstr_of_zero_not_mem (zero_not_mem_render hplain), ?_⟩
  rcases List.eq_nil_or_concat p with rfl | ⟨d, n, rfl⟩
  · simp [components, scan, t.root_dir]
  · rw [List.concat_eq_append] at *
    have hdir : t.entry d = some .dir := t.closed d n (by simp [hp])
    rw [components_intercalate (by simp) fun m hm => (hplain m hm).2.2.2.1,
      scan_through (by simpa using hdir) [n] fun m hm => hplain m (by simp [hm])]
    apply scan_singleton (by simpa using hdir) (hplain n (by simp))
    intro hfollow g hg
    rw [List.nil_append, hp] at hg
    exact hlink hfollow g (Option.some.inj hg)

/-- The calls see the entry at the text of an occupied path. -/
theorem node_of_entry {t : FileTree} {p : Path} {x : Node} (hp : t.entry p = some x)
    {follow : Bool} (hlink : follow = true → ∀ g, x ≠ .link g) :
    node t follow (render p) = .ok (p, x) := by
  have hloc : locate t follow (render p) = .ok p := by
    rcases List.eq_nil_or_concat p with rfl | ⟨d, n, rfl⟩
    · exact locate_render_nil
    · rw [List.concat_eq_append] at *
      apply locate_render (t.closed d n (by simp [hp])) (t.plain d n (by simp [hp]))
      intro hfollow g hg
      rw [hp] at hg
      exact hlink hfollow g (Option.some.inj hg)
  unfold node
  rw [hloc]
  simp [hp]

/-! ## Removing an entry -/

/-- `unlink` removes the entry of a path that is no directory. -/
theorem unlink_prunes {t : FileTree} {p : Path} {x : Node} (hp : t.entry p = some x)
    (hx : x ≠ .dir) : ∃ t', unlink t (render p) = .ok t' ∧ Prunes p t t' ∧ t'.entry p = none := by
  have hnode := @node_of_entry t p x hp false (by simp)
  obtain ⟨t', ht, hentry⟩ := unlink_entry (node_ok hnode).1 hp hx
  refine ⟨t', ht, ⟨unlink_sheds ht, ?_⟩, by rw [hentry, Function.update_self]⟩
  intro q hq
  rw [hentry, Function.update_of_ne]
  rintro rfl
  exact hq (List.prefix_refl q)

/-- `rmdir` removes the entry of a directory that is empty, or fails. -/
theorem rmdir_prunes {t t' : FileTree} {p : Path} (hp : t.entry p = some .dir)
    (h : rmdir t (render p) = .ok t') : Prunes p t t' ∧ t'.entry p = none := by
  have hnode := @node_of_entry t p .dir hp false (by simp)
  unfold rmdir at h
  rw [hnode] at h
  dsimp only at h
  split_ifs at h with hempty
  obtain rfl := Except.ok.inj h
  exact ⟨Prunes.drop _ _, by rw [FileTree.drop_entry, Function.update_self]⟩

end CloudStore.Library
