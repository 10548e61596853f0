import CloudStore.Interface.FileEffects

/-!
# Making directories

What `ensureDir` does on the text of a path whose prefixes are directories or free names:
it makes the missing ones and nothing else. On any text it throws nothing.
-/

set_option autoImplicit false

namespace CloudStore.Interface

open CloudStore.Library (Bytes Name Path Plain FileTree SameFiles Action)
open CloudStore.Library.Action (bind_ok)
open CloudStore.Library.Posix
open CloudStore.Model
open CloudStore.Model.World (files)

/-- The prefixes of `p` have become directories, and nothing else has changed. -/
structure Made (p : Path) (t t' : FileTree) : Prop where
  entry : ∀ q, t'.entry q = if q <+: p then some .dir else t.entry q
  links : t'.NoLinks
  same : SameFiles t t'

/-- The prefixes of `p` are directories or free names. -/
def Open (t : FileTree) (p : Path) : Prop := ∀ q, q <+: p → t.entry q = none ∨ t.entry q = some .dir

theorem Made.refl {t : FileTree} (hl : t.NoLinks) {p : Path} (hp : t.entry p = some .dir) :
    Made p t t where
  entry := by
    intro q
    split
    next hq =>
      obtain ⟨r, rfl⟩ := hq
      by_cases hr : r = []
      · simpa [hr] using hp
      · exact t.dir_of_below hr (by simp [hp])
    · rfl
  links := hl
  same := SameFiles.refl t

theorem Made.trans {p q : Path} {t t' t'' : FileTree} (h : Made p t t') (h' : Made q t' t'')
    (hpq : p <+: q) : Made q t t'' where
  entry := by
    intro r
    rw [h'.entry, h.entry]
    by_cases hr : r <+: q
    · simp [hr]
    · have hrp : ¬ r <+: p := fun h => hr (h.trans hpq)
      simp [hr, hrp]
  links := h'.links
  same := h.same.trans h'.same

/-- `mkdir` of a free name makes a directory there. -/
theorem mkdir_free {t : FileTree} (hl : t.NoLinks) {p : Path} {n : Name}
    (hplain : ∀ m ∈ p ++ [n], Plain m) (hp : t.entry p = some .dir)
    (hfree : t.entry (p ++ [n]) = none) :
    ∃ t', mkdir t (render (p ++ [n])) = .ok t' ∧ Made (p ++ [n]) t t' := by
  have hn : Plain n := hplain n (by simp)
  have hloc : locate t false (render (p ++ [n])) = .ok (p ++ [n]) :=
    locate_render hp hn (by simp)
  have hvac : vacancy t false (render (p ++ [n])) = .ok (p, n) := by
    simp [vacancy, hloc]
  have hmk : mkdir t (render (p ++ [n])) = .ok (t.add p n .dir hp hfree hn (by simp)) := by
    simp only [mkdir, hvac]
    rw [dif_pos hfree, dif_pos ⟨hp, hn⟩]
  refine ⟨_, hmk, ?_, ?_, mkdir_sameFiles hmk⟩
  · intro q
    rw [FileTree.add_entry]
    by_cases hq : q = p ++ [n]
    · simp [hq]
    · rw [Function.update_of_ne hq]
      split
      next hpre =>
        have hqp : q <+: p := (List.prefix_concat_iff.mp hpre).resolve_left hq
        obtain ⟨r, rfl⟩ := hqp
        by_cases hr : r = []
        · simpa [hr] using hp
        · exact t.dir_of_below hr (by simp [hp])
      · rfl
  · intro q g
    rw [FileTree.add_entry]
    by_cases hq : q = p ++ [n]
    · simp [hq]
    · rw [Function.update_of_ne hq]
      exact hl q g

/-- `mkdir` of a directory that is there fails as such. -/
theorem mkdir_there {t : FileTree} {p : Path} {n : Name} (hn : Plain n)
    (hp : t.entry p = some .dir) (hthere : t.entry (p ++ [n]) = some .dir) :
    mkdir t (render (p ++ [n])) = .error .eexist := by
  have hloc : locate t false (render (p ++ [n])) = .ok (p ++ [n]) :=
    locate_render hp hn (by simp)
  have hvac : vacancy t false (render (p ++ [n])) = .ok (p, n) := by
    simp [vacancy, hloc]
  simp [mkdir, hvac, hthere]

variable {env : Env}

/-- The loop of `ensureDir` makes the directories that are missing. -/
theorem ensureDirLoop_makes {cur names : Path} (hplain : ∀ n ∈ cur ++ names, Plain n) {w : World}
    (hl : w.fs.NoLinks) (hcur : w.fs.entry cur = some .dir) (hopen : Open w.fs (cur ++ names)) :
    ∃ t, ensureDirLoop (files env) (render cur) names w = (.ok true, { w with fs := t }) ∧
      Made (cur ++ names) w.fs t := by
  induction names generalizing cur w with
  | nil => exact ⟨w.fs, rfl, by rw [List.append_nil]; exact Made.refl hl hcur⟩
  | cons n names ih =>
      have happ : cur ++ n :: names = cur ++ [n] ++ names := by simp
      rw [happ] at hplain hopen ⊢
      have hn : Plain n := hplain n (by simp)
      have hcurp : ∀ m ∈ cur, Plain m := fun m hm => hplain m (by simp [hm])
      rw [ensureDirLoop_cons hcurp hn]
      cases hopen (cur ++ [n]) (List.prefix_append _ _) with
      | inl hfree =>
          obtain ⟨t, hmk, hmade⟩ := mkdir_free hl (fun m hm => hplain m (List.mem_append_left _ hm)) hcur hfree
          have hcall : (files env).mkdir (render (cur ++ [n])) w =
              (.ok (.ok ()), { w with fs := t }) := by
            simp only [files, World.fileCall, Action.move_apply, hmk]
          obtain ⟨t', hrun, hmade'⟩ := ih (w := { w with fs := t }) hplain hmade.links
            (by rw [hmade.entry]; simp) (by
              intro q hq
              dsimp only
              rw [hmade.entry]
              split
              · exact Or.inr rfl
              · exact hopen q hq)
          refine ⟨t', ?_, hmade.trans hmade' (List.prefix_append _ _)⟩
          rw [bind_ok hcall]
          exact hrun
      | inr hthere =>
          have hmk := mkdir_there hn hcur hthere
          have hcall : (files env).mkdir (render (cur ++ [n])) w = (.ok (.error .eexist), w) := by
            simp only [files, World.fileCall, Action.move_apply]
            rw [hmk]
          obtain ⟨t', hrun, hmade'⟩ := ih hplain hl hthere hopen
          refine ⟨t', ?_, hmade'⟩
          rw [bind_ok hcall]
          exact hrun

/-- **`ensureDir` makes the directories of a path that are missing**, and nothing else. -/
theorem ensureDir_makes {p : Path} (hplain : ∀ n ∈ p, Plain n) {w : World} (hl : w.fs.NoLinks)
    (hopen : Open w.fs p) :
    ∃ t, ensureDir (files env) (render p) w = (.ok true, { w with fs := t }) ∧ Made p w.fs t := by
  have hslash : str "/" = render [] := by decide
  have hne : render p ≠ [] := by simp [render]
  have hhead : (render p).head? = some 47 := rfl
  unfold ensureDir
  rw [if_neg hne, if_pos hhead, split_eq_components]
  by_cases h0 : p = []
  · subst h0
    have h1 : components (render []) = [[], []] := rfl
    refine ⟨w.fs, ?_, Made.refl hl w.fs.root_dir⟩
    rw [h1]
    simp [ensureDirLoop]
  · rw [components_render hplain h0, ensureDirLoop, if_pos (Or.inl rfl), hslash]
    exact (@ensureDirLoop_makes env [] _) hplain hl w.fs.root_dir hopen

theorem ensureDirLoop_ok (cur : Bytes) (parts : List Bytes) (w : World) :
    ∃ ok w', ensureDirLoop (files env) cur parts w = (.ok ok, w') := by
  induction parts generalizing cur w with
  | nil => exact ⟨true, w, rfl⟩
  | cons part parts ih =>
      rw [ensureDirLoop]
      split
      · exact ih cur w
      · rcases hmk : (files env).mkdir _ w with ⟨e | r, w₁⟩
        · simp [files, World.fileCall] at hmk
        · rw [bind_ok hmk]
          cases r with
          | ok _ => exact ih _ w₁
          | error e =>
              dsimp only
              split
              · exact ih _ w₁
              · exact ⟨false, w₁, rfl⟩

/-- `ensureDir` throws nothing. -/
theorem ensureDir_ok (path : Bytes) (w : World) :
    ∃ ok w', ensureDir (files env) path w = (.ok ok, w') := by
  unfold ensureDir
  split
  · exact ⟨false, w, rfl⟩
  · exact ensureDirLoop_ok _ _ w

end CloudStore.Interface
