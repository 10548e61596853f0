import CloudStore.Interface.Frame
import CloudStore.Interface.PlainResolution
import CloudStore.Interface.Requests

/-!
# Paths in a directory that is there

On a tree without links the handlers resolve a path whose directory is there, whether it exists
itself or not. What the handlers of transfers do leaves every directory in its place.
-/

set_option autoImplicit false

namespace CloudStore.Interface

open CloudStore.Library (Bytes Name Path Plain FileTree Node Action)
open CloudStore.Library.Action
open CloudStore.Library.Posix
open CloudStore.Model
open CloudStore.Model.Connection
open CloudStore.Model.PathGuard
open CloudStore.Model.World (files backend)

variable {env : Env} {w : World}

/-! ## Resolution -/

theorem realpath_render {t : FileTree} (hl : t.NoLinks) {p : Path} (hp : t.entry p ≠ none) :
    realpath t (render p) = .ok (render p) := by
  obtain ⟨x, hx⟩ := Option.ne_none_iff_exists'.mp hp
  unfold realpath
  rw [(node_render hl (t.plain_of_entry hp)).1 x hx]
  rfl

/-- The loop of `resolve` says that a path is not found that is missing in its directory. -/
theorem resolveLoop_missing {root cur dir : Path} {norm : Bytes} {n : Name}
    (hroot : ∀ m ∈ root, Plain m) (hcur : w.fs.entry cur ≠ none) (hin : root <+: cur)
    (hdir : w.fs.entry (cur ++ dir) = some .dir) (hn : Plain n)
    (hfree : w.fs.entry (cur ++ dir ++ [n]) = none) :
    ∃ msg, resolveLoop (files env) (render root) norm true (render cur) (dir ++ [n]) w =
      (.error (.cloud .notFound msg), w) := by
  induction dir generalizing cur with
  | nil =>
      rw [List.append_nil] at hdir hfree
      have hsolid : Solid w.fs cur := ⟨.dir, hdir, by simp⟩
      obtain ⟨e, hstat⟩ := @lstat_free env w cur n hsolid hn hfree
      have hjoin : joinPath (render cur) n = render (cur ++ [n]) :=
        joinPath_render (w.fs.plain_of_entry hcur) hn.1 hn.2.2.2.1
      rw [List.nil_append, resolveLoop, if_neg hn.1, hjoin, bind_ok hstat]
      exact ⟨_, rfl⟩
  | cons m dir ih =>
      have hassoc : cur ++ m :: dir = cur ++ [m] ++ dir := by simp
      rw [hassoc] at hdir hfree
      have hbelow : w.fs.entry (cur ++ [m] ++ dir) ≠ none := by
        rw [hdir]
        exact Option.some_ne_none _
      have hm : Plain m := w.fs.plain_of_entry hbelow m (by simp)
      have hnext : w.fs.entry (cur ++ [m]) = some .dir := by
        by_cases hnil : dir = []
        · rwa [hnil, List.append_nil] at hdir
        · exact w.fs.dir_of_below hnil hbelow
      have hoccupied : w.fs.entry (cur ++ [m]) ≠ none := by simp [hnext]
      have hjoin : joinPath (render cur) m = render (cur ++ [m]) :=
        joinPath_render (w.fs.plain_of_entry hcur) hm.1 hm.2.2.2.1
      have hinside : isInside (render (cur ++ [m])) (render root) = true :=
        (startsWithPath_render (w.fs.plain_of_entry hoccupied) hroot).mpr
          (hin.trans (List.prefix_append _ _))
      obtain ⟨msg, hrun⟩ := ih hoccupied (hin.trans (List.prefix_append _ _)) hdir hfree
      refine ⟨msg, ?_⟩
      rw [List.cons_append, resolveLoop, if_neg hm.1, hjoin, bind_ok (lstat_run hnext)]
      simpa only [World.fileStat, hinside, Bool.true_or, if_true] using hrun

/-- A path that a user may name, in a directory that is there. -/
structure Placed (w : World) (root dir : Path) (n : Name) (logical : Bytes) : Prop where
  directory : w.fs.entry (root ++ dir) = some .dir
  plain : Plain n
  normal : normalizeLogical logical = .ok ([47].intercalate (dir ++ [n]))

namespace Placed

variable {root dir : Path} {n : Name} {logical : Bytes} (h : Placed w root dir n logical)
include h

theorem rootThere : w.fs.entry root ≠ none := by
  have hdir := h.directory
  by_cases hnil : dir = []
  · rw [hnil, List.append_nil] at hdir
    simp [hdir]
  · simp [w.fs.dir_of_below (p := root) hnil (by simp [hdir])]

theorem names_plain : ∀ m ∈ dir ++ [n], Plain m := by
  intro m hm
  rcases List.mem_append.mp hm with hm | hm
  · exact w.fs.plain_of_entry (p := root ++ dir) (by simp [h.directory]) m (by simp [hm])
  · exact List.mem_singleton.mp hm ▸ h.plain

variable (hl : w.fs.NoLinks)
include hl

/-- Whether it exists or not, the path can be made. -/
theorem resolves : resolve (files env) (render root) logical false w =
    (.ok (render (root ++ (dir ++ [n]))), w) := by
  have hrun := @resolve_plain env w hl _ logical root (dir ++ [n]) false
    (realpath_render hl h.rootThere) h.rootThere h.names_plain h.normal
  have hreach : Reachable w.fs false root (dir ++ [n]) := Or.inr ⟨rfl, by simp [h.directory]⟩
  rwa [if_pos hreach] at hrun

/-- A path that is missing is not found. -/
theorem missing (hfree : w.fs.entry (root ++ (dir ++ [n])) = none) :
    ∃ msg, resolve (files env) (render root) logical true w = (.error (.cloud .notFound msg), w) := by
  have hreal := realpath_render hl h.rootThere
  obtain ⟨hne, hhead⟩ := absolute_of_realpath hreal
  have hnil : [47].intercalate (dir ++ [n]) ≠ [] := by
    rw [Ne, intercalate_eq_nil h.names_plain]
    simp
  obtain ⟨msg, hrun⟩ := @resolveLoop_missing env w root root dir
    ([47].intercalate (dir ++ [n])) n (w.fs.plain_of_entry h.rootThere) h.rootThere
    (List.prefix_refl _) h.directory h.plain (by rwa [List.append_assoc])
  refine ⟨msg, ?_⟩
  unfold resolve
  rw [if_neg (by simp [hne, hhead])]
  simp only [mustRealpath, Action.bind_apply, files, Action.look_apply, hreal, Action.pure_apply,
    Action.monadLift_apply, h.normal, if_neg hnil]
  rw [split_intercalate (by simp) h.names_plain]
  exact hrun

end Placed

/-! ## Directories stay -/

/-- Every directory is still one. -/
def DirsStay (w w' : World) : Prop := ∀ p, w.fs.entry p = some .dir → w'.fs.entry p = some .dir

theorem unlink_dirs {t t' : FileTree} {s : Bytes} (h : unlink t s = .ok t') {p : Path}
    (hp : t.entry p = some .dir) : t'.entry p = some .dir := by
  rcases (unlink_sheds h).entry p with hsame | hgone
  · rw [hsame, hp]
  · unfold unlink at h
    split at h
    · cases h
    · cases h
    next q x hx hnode =>
      split at h
      next hq =>
        obtain rfl := Except.ok.inj h
        rw [FileTree.drop_entry] at hgone ⊢
        by_cases hpq : p = q
        · subst hpq
          exact absurd ((node_ok hnode).2.symm.trans hp) (by simpa using hx)
        · rw [Function.update_of_ne hpq, hp]
      · cases h

theorem openCreate_dirs {t t' : FileTree} {s : Bytes} {i : ℕ} (h : openCreate t s = .ok (i, t'))
    {p : Path} (hp : t.entry p = some .dir) : t'.entry p = some .dir := by
  unfold openCreate at h
  split at h
  · cases h
  next q n hv =>
    split at h
    · obtain ⟨-, rfl⟩ := Prod.mk.inj (Except.ok.inj h)
      exact hp
    · cases h
    · cases h
    next hfree =>
      split at h
      next hq =>
        obtain ⟨-, rfl⟩ := Prod.mk.inj (Except.ok.inj h)
        have hne : p ≠ q ++ [n] := by
          rintro rfl
          exact absurd (hp.symm.trans hfree) (Option.some_ne_none _)
        rw [FileTree.add_entry, Function.update_of_ne hne, hp]
      · cases h

/-- A transfer leaves every directory in its place. -/
theorem dirs_framed (env : Env) : FramedWriting env DirsStay where
  refl _ _ := id
  trans _ _ _ h h' p hp := h' p (h p hp)
  mkdir s w p hp := by
    simp only [files, World.fileCall, move_apply]
    split
    next t h => exact mkdir_grows h hp
    · exact hp
  unlink s w p hp := by
    simp only [files, World.fileCall, move_apply]
    split
    next t h => exact unlink_dirs h hp
    · exact hp
  redis _ _ _ := id
  rows _ _ _ := id
  users _ _ _ _ := id
  drawn _ _ _ := id
  openCreate s w p hp := by
    simp only [files, World.openCall, move_apply]
    split
    next i t h => exact openCreate_dirs h hp
    · exact hp
  openTrunc s w p hp := by
    simp only [files, World.openCall, move_apply]
    split
    next i t h =>
      unfold openTrunc at h
      cases hcreate : openCreate w.fs s with
      | error e =>
          rw [hcreate] at h
          cases h
      | ok r =>
          rw [hcreate] at h
          obtain ⟨rfl, rfl⟩ := Prod.mk.inj (Except.ok.inj h)
          exact openCreate_dirs hcreate hp
    · exact hp
  ftruncate _ _ _ := id
  pwrite i off bytes w p hp := by
    rcases @pwrite_cases env i off bytes w with ⟨part, -, -, hrun⟩ | ⟨e, hrun⟩
    · rw [hrun]
      exact hp
    · rw [hrun]
      exact hp

end CloudStore.Interface
