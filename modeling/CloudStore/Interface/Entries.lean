import CloudStore.Interface.PathText
import CloudStore.Library.TreeListing
import CloudStore.Model.FileManager
import CloudStore.Model.World

/-!
# The entries of a directory

What `lstat` and `opendir` answer at an occupied path, and what `listDir` lists: the entries in
a directory or below it, each with the path from that directory on.
-/

set_option autoImplicit false

namespace CloudStore.Interface

open CloudStore.Library
open CloudStore.Library.Action (bind_ok bind_apply)
open CloudStore.Library.Posix
open CloudStore.Model
open CloudStore.Model.FileManager
open CloudStore.Model.World (files fileStat)

variable {env : Env} {w : World} {p : Path}

/-! ## The calls at an occupied path -/

theorem lstat_run {x : Node} (hx : w.fs.entry p = some x) :
    (files env).lstat (render p) w = (.ok (.ok (fileStat env w.fs x)), w) := by
  have hnode := @node_of_entry w.fs p x hx false (by simp)
  simp only [files, Action.look_apply, lstat, hnode]
  rfl

theorem opendir_run (hp : w.fs.entry p = some .dir) :
    (files env).opendir (render p) w =
      (.ok (.ok (str "." :: str ".." :: w.fs.children p)), w) := by
  have hnode := @node_of_entry w.fs p .dir hp true (by simp)
  simp only [files, Action.look_apply, readdir, hnode]
  rfl

/-! ## Listing -/

/-- What is listed of the entry at `r` from `p` on; its path starts with `logicalPrefix`. -/
def entryAt (env : Env) (t : FileTree) (p : Path) (logicalPrefix : Bytes) (r : Path) : FileEntry :=
  let x := (t.entry (p ++ r)).getD .dir
  { name := r.getLast?.getD [], path := logicalPrefix ++ render r, type := fileTypeFromMode x
    size := regularSize (fileStat env t x), mtime := env.mtime x }

theorem render_cons (m : Name) {r : Path} (hr : r ≠ []) : render (m :: r) = 47 :: m ++ render r := by
  cases r with
  | nil => exact absurd rfl hr
  | cons k r => simp [render, List.intercalate_cons_cons]

/-- Below a name of the directory, the path goes on behind the name. -/
theorem entryAt_cons (t : FileTree) (logicalPrefix : Bytes) (m : Name) {r : Path} (hr : r ≠ []) :
    entryAt env t p logicalPrefix (m :: r) =
      entryAt env t (p ++ [m]) (logicalPrefix ++ str "/" ++ m) r := by
  have hpath : p ++ m :: r = p ++ [m] ++ r := by simp
  have hlast : (m :: r).getLast? = r.getLast? := List.getLast?_cons_of_ne_nil hr
  have hslash : str "/" = [47] := by decide
  unfold entryAt
  rw [hpath, hlast, render_cons m hr, hslash]
  simp

/-- The loop over the names of a directory. -/
theorem listNames_run {descend : Bytes → Bytes → Act World (List FileEntry)} {recursive : Bool}
    {logicalPrefix : Bytes} {under : Name → List FileEntry}
    (hdescend : ∀ m, recursive = true → w.fs.entry (p ++ [m]) = some .dir →
      descend (render (p ++ [m])) (logicalPrefix ++ str "/" ++ m) w = (.ok (under m), w))
    {names : List Name} (hentry : ∀ m ∈ names, w.fs.entry (p ++ [m]) ≠ none) :
    listNames (files env) descend recursive (render p) logicalPrefix names w =
      (.ok (names.flatMap fun m => entryAt env w.fs p logicalPrefix [m] ::
        if recursive = true ∧ w.fs.entry (p ++ [m]) = some .dir then under m else []), w) := by
  induction names with
  | nil => rfl
  | cons m names ih =>
      have hrest := ih fun k hk => hentry k (List.mem_cons_of_mem _ hk)
      obtain ⟨x, hx⟩ := Option.ne_none_iff_exists'.mp (hentry m List.mem_cons_self)
      have hplain := w.fs.plain p m (by simp [hx])
      have hp : w.fs.entry p ≠ none := by simp [w.fs.closed p m (by simp [hx])]
      have hdots : ¬ (m = str "." ∨ m = str "..") := not_or.mpr ⟨hplain.2.1, hplain.2.2.1⟩
      have hpath : (if logicalPrefix = [] then str "/" ++ m else logicalPrefix ++ str "/" ++ m) =
          logicalPrefix ++ str "/" ++ m := by
        split_ifs with hnil
        · rw [hnil, List.nil_append]
        · rfl
      have hself : entryAt env w.fs p logicalPrefix [m] =
          { name := m, path := logicalPrefix ++ str "/" ++ m, type := fileTypeFromMode x
            size := regularSize (fileStat env w.fs x), mtime := env.mtime x } := by
        have hrender : render [m] = str "/" ++ m := by simp [render, str]
        unfold entryAt
        rw [hx, hrender, ← List.append_assoc]
        rfl
      rw [listNames, if_neg hdots,
        joinPath_render (w.fs.plain_of_entry hp) hplain.1 hplain.2.2.2.1]
      rw [bind_ok (lstat_run hx)]
      dsimp only
      rw [hpath, List.flatMap_cons, hself, hx]
      have hnode : (fileStat env w.fs x).node = x := rfl
      rw [hnode]
      by_cases hdir : recursive = true ∧ x = .dir
      · rw [if_pos hdir, if_pos ⟨hdir.1, congrArg some hdir.2⟩]
        rw [bind_ok (hdescend m hdir.1 (hdir.2 ▸ hx)), bind_ok hrest]
        rfl
      · rw [if_neg hdir, if_neg fun h => hdir ⟨h.1, Option.some.inj h.2⟩]
        exact bind_ok hrest

/-- **The listing of a directory** is that of its entries, from the directory on. -/
theorem listDirRecursive_run {recursive : Bool} {n : ℕ} {logicalPrefix : Bytes}
    (hp : w.fs.entry p = some .dir) (hheight : HeightBelow w.fs p n) :
    listDirRecursive (files env) recursive n (render p) logicalPrefix w =
      (.ok ((entriesBelow w.fs recursive n p).map (entryAt env w.fs p logicalPrefix)), w) := by
  induction n generalizing p logicalPrefix with
  | zero =>
      have := hheight [] (by simp [hp])
      simp at this
  | succ n ih =>
      have hnames := @listNames_run env w p (listDirRecursive (files env) recursive n) recursive
        logicalPrefix _ (fun m _ hm => ih hm (hheight.child m)) (w.fs.children p)
        fun m hm => (w.fs.mem_children p m).mp hm
      have hdots : listNames (files env) (listDirRecursive (files env) recursive n) recursive
          (render p) logicalPrefix (str "." :: str ".." :: w.fs.children p) =
          listNames (files env) (listDirRecursive (files env) recursive n) recursive
            (render p) logicalPrefix (w.fs.children p) := by
        rw [listNames, if_pos (Or.inl rfl), listNames, if_pos (Or.inr rfl)]
      rw [listDirRecursive, bind_ok (opendir_run hp)]
      dsimp only
      rw [hdots, bind_ok hnames]
      apply congrArg (fun l => (Except.ok l, w))
      rw [entriesBelow, List.map_flatMap]
      apply List.flatMap_congr
      intro m hm
      rw [List.map_cons]
      congr 1
      split_ifs
      · rw [List.map_map]
        apply List.map_congr_left
        intro r hr
        have hne := ((mem_entriesBelow (hheight.child m) r).mp hr).1
        exact (entryAt_cons w.fs logicalPrefix m hne).symm
      · rfl

theorem listDir_run {recursive : Bool} (hp : w.fs.entry p = some .dir) :
    listDir (files env) (render p) recursive w =
      (.ok ((entriesBelow w.fs recursive ((w.fs.listing.map List.length).foldr max 0 + 1) p).map
        (entryAt env w.fs p [])), w) :=
  listDirRecursive_run hp (heightBelow_listing w.fs p)

end CloudStore.Interface
