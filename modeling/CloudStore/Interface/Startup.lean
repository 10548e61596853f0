import CloudStore.Interface.ServiceViews

/-!
# The start of the server

The directories that the server makes when it starts on an empty disk are the empty store
that runs start from.
-/

set_option autoImplicit false

namespace CloudStore.Interface

open CloudStore.Library (Bytes Name Path Plain FileTree SameFiles Action)
open CloudStore.Library.Action (bind_ok)
open CloudStore.Library.Posix
open CloudStore.Model
open CloudStore.Model.World (usersDir objectsDir tmpDir files)

variable {env : Env}

/-- The tree holds the storage root with some empty directories in it. -/
structure Rooted (env : Env) (names : List Name) (t : FileTree) : Prop where
  links : t.NoLinks
  entry : ∀ q, t.entry q =
    if q <+: env.root ∨ ∃ n ∈ names, q = env.root ++ [n] then some .dir else none

/-- A directory more in the storage root. -/
theorem ensureDir_rooted {names : List Name} {name : Name} (hname : Plain name) {w : World}
    (h : Rooted env names w.fs) :
    ∃ t, ensureDir (files env) (render (env.root ++ [name])) w = (.ok true, { w with fs := t }) ∧
      Rooted env (name :: names) t := by
  have hopen : Open w.fs (env.root ++ [name]) := by
    intro q _
    rw [h.entry]
    split
    · exact Or.inr rfl
    · exact Or.inl rfl
  obtain ⟨t, hrun, hmade⟩ := (@ensureDir_makes env _) (root_dir_plain env hname) h.links hopen
  refine ⟨t, hrun, hmade.links, fun q => ?_⟩
  simp only [hmade.entry, h.entry, List.prefix_concat_iff]
  by_cases hq : q = env.root ++ [name]
  · simp [hq]
  · by_cases hpre : q <+: env.root <;> simp [hq, hpre]

/-- **The server starts on an empty store.** On a disk without anything, the directories that
the server makes are there and empty. -/
theorem makeRoots_start (dirSize : ℕ) (entropy : ℕ → UInt8) :
    Server.Start env
      { world := (Server.makeRoots env { fs := FileTree.bare dirSize, entropy := entropy }).2 } := by
  let w : World := { fs := FileTree.bare dirSize, entropy := entropy }
  have hbare : w.fs.NoLinks := by
    intro p g
    simp only [w, FileTree.bare]
    split <;> simp
  have hopen : Open w.fs env.root := by
    intro q _
    simp only [w, FileTree.bare]
    split <;> simp
  obtain ⟨t₀, h₀, hmade⟩ := (@ensureDir_makes env _) env.root_plain hbare hopen
  have hrooted : Rooted env [] t₀ := by
    refine ⟨hmade.links, fun q => ?_⟩
    rw [hmade.entry]
    by_cases hq : q <+: env.root
    · simp [hq]
    · have hne : q ≠ [] := fun h0 => hq (h0 ▸ List.nil_prefix)
      simp [hq, hne, w, FileTree.bare]
  obtain ⟨t₁, h₁, hrooted₁⟩ := (@ensureDir_rooted env _ (str "users")) (by decide)
    (w := { w with fs := t₀ }) hrooted
  obtain ⟨t₂, h₂, hrooted₂⟩ := (@ensureDir_rooted env _ (str "objects")) (by decide)
    (w := { w with fs := t₁ }) hrooted₁
  obtain ⟨t₃, h₃, hrooted₃⟩ := (@ensureDir_rooted env _ (str "tmp")) (by decide)
    (w := { w with fs := t₂ }) hrooted₂
  have hrun : Server.makeRoots env w = (.ok (), { w with fs := t₃ }) := by
    unfold Server.makeRoots
    rw [env.storageRoot_eq, bind_ok h₀, usersRoot_eq, usersDir]
    refine (bind_ok h₁).trans ?_
    rw [objectsRoot_eq, objectsDir]
    refine (bind_ok h₂).trans ?_
    rw [tmpRoot_eq, tmpDir]
    exact bind_ok h₃
  have hthere : ∀ n ∈ [str "tmp", str "objects", str "users"],
      t₃.entry (env.root ++ [n]) = some .dir := by
    intro n hn
    rw [hrooted₃.entry, if_pos (Or.inr ⟨n, hn, rfl⟩)]
  have hempty : ∀ m n, t₃.entry (env.root ++ [m] ++ [n]) = none := by
    intro m n
    rw [hrooted₃.entry, if_neg]
    rintro (h | ⟨k, -, h⟩)
    · have := h.length_le
      simp at this
    · have := congrArg List.length h
      simp at this
  rw [hrun]
  refine ⟨⟨rfl, rfl, rfl, rfl, hrooted₃.links, hthere _ (by simp), hthere _ (by simp),
    hthere _ (by simp), ?_⟩, fun _ => rfl⟩
  intro d hd n
  simp only [usersDir, objectsDir, tmpDir, List.mem_cons, List.not_mem_nil, or_false] at hd
  rcases hd with rfl | rfl | rfl <;> exact hempty _ n

end CloudStore.Interface
