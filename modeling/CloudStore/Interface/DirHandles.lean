import CloudStore.Interface.Entries
import CloudStore.Interface.Related
import CloudStore.Interface.RemoveTree
import CloudStore.Model.DirHandles

/-!
# The handles of a run

`Handles.Sound` holds of every run: a handle that was opened is open or has been closed once. What
is open in the end tells whether a call failed while a directory was open: the run of `listDir`
and that of `removePath` are inductions on the height of the subtree.
-/

set_option autoImplicit false

namespace CloudStore.Interface

open CloudStore.Library
open CloudStore.Library.Action (Meets Moves meets_bind bind_ok bind_error)
open CloudStore.Library.Posix
open CloudStore.Model
open CloudStore.Model.FileManager
open CloudStore.Model.World (files fileStat)

/-! ## What is open and what is closed -/

/-- The handles that are open and those that were closed are those that were opened. -/
def Handles.Sound (h : Handles) : Prop := (h.stack ++ h.closed).Perm (List.range h.opened)

namespace Handles.Sound

variable {h : Handles}

theorem push (hsound : Sound h) : Sound h.push := by
  unfold Sound Handles.push
  rw [List.range_succ, List.cons_append]
  exact (hsound.cons _).trans (List.perm_append_singleton _ _).symm

theorem pop (hsound : Sound h) : Sound h.pop := by
  unfold Sound Handles.pop
  rcases hstack : h.stack with _ | ⟨i, rest⟩
  · exact hsound
  · unfold Sound at hsound
    rw [hstack] at hsound
    exact List.perm_middle.trans hsound

/-- All handles are closed exactly if none is open. -/
theorem balanced_iff (hsound : Sound h) : h.Balanced ↔ h.stack = [] := by
  have hone : ∀ i < h.opened, h.stack.count i + h.closed.count i = 1 := by
    intro i hi
    rw [← List.count_append, hsound.count_eq]
    exact List.count_eq_one_of_mem List.nodup_range (List.mem_range.mpr hi)
  constructor
  · intro hbal
    apply List.eq_nil_iff_forall_not_mem.mpr
    intro i hi
    have hlt : i < h.opened :=
      List.mem_range.mp (hsound.mem_iff.mp (List.mem_append_left _ hi))
    have hpos := List.count_pos_iff.mpr hi
    have := hone i hlt
    have := hbal i hlt
    omega
  · intro hnil i hi
    have := hone i hi
    rw [hnil, List.count_nil] at this
    omega

end Handles.Sound

variable {fails : PathCall → Option Errno}

section Sound

variable {σ : Type}

/-- The programs on the right keep the handles sound. -/
abbrev keepingSound (σ : Type) : Action.Congruence Exn σ (σ × Handles) :=
  Action.moved σ (Q := fun st st' => Handles.Sound st.2 → Handles.Sound st'.2) (fun _ h => h)
    fun _ _ _ h h' hs => h' (h hs)

/-- Every file call keeps the handles sound. -/
theorem handleFiles_related (f : FileCalls σ) :
    FilesRelated (keepingSound σ) f (handleFiles fails f) := by
  have hopening : ∀ (a : Act σ (Except Errno (List Name))),
      Moves (fun st st' : σ × Handles => Handles.Sound st.2 → Handles.Sound st'.2) (opening a) := by
    intro a st hs
    unfold opening
    rcases a st.1 with ⟨_ | _ | x, s⟩
    · exact hs
    · exact hs
    · exact hs.push
  constructor <;> intros
  all_goals first
    | exact fun st hs => hs
    | exact hopening _
    | exact fun st hs => Handles.Sound.pop hs

end Sound

/-! ## The calls at an occupied path -/

section Calls

variable {env : Env} {p : Path} {x : Node} {w : World} {h : Handles}

theorem refusing_some {σ α : Type} {c : PathCall} {e : Errno} (a : Act σ (Except Errno α))
    (hfails : fails c = some e) : refusing fails c a = pure (.error e) := by
  unfold refusing
  rw [hfails]

theorem refusing_none {σ α : Type} {c : PathCall} (a : Act σ (Except Errno α))
    (hfails : fails c = none) : refusing fails c a = a := by
  unfold refusing
  rw [hfails]

theorem handle_lstat_refused (s : Bytes) {e : Errno} (hfails : fails (.lstat s) = some e) :
    (handleFiles fails (files env)).lstat s (w, h) = (.ok (.error e), (w, h)) := by
  show Action.beside (refusing fails _ _) (w, h) = _
  rw [refusing_some _ hfails]
  rfl

theorem handle_lstat (hx : w.fs.entry p = some x) (hfails : fails (.lstat (render p)) = none) :
    (handleFiles fails (files env)).lstat (render p) (w, h) =
      (.ok (.ok (fileStat env w.fs x)), (w, h)) := by
  show Action.beside (refusing fails _ _) (w, h) = _
  rw [refusing_none _ hfails]
  exact Action.beside_run (lstat_run hx) h

theorem handle_opendir_refused (s : Bytes) {e : Errno} (hfails : fails (.opendir s) = some e) :
    (handleFiles fails (files env)).opendir s (w, h) = (.ok (.error e), (w, h)) := by
  show opening (refusing fails _ _) (w, h) = _
  rw [refusing_some _ hfails]
  rfl

theorem handle_opendir (hp : w.fs.entry p = some .dir)
    (hfails : fails (.opendir (render p)) = none) :
    (handleFiles fails (files env)).opendir (render p) (w, h) =
      (.ok (.ok (str "." :: str ".." :: w.fs.children p)), (w, h.push)) := by
  show opening (refusing fails _ _) (w, h) = _
  rw [refusing_none _ hfails]
  unfold opening
  rw [opendir_run hp]

/-- `opendir` fails at an entry that is no directory and leads to none. -/
theorem handle_opendir_other (hx : w.fs.entry p = some x) (hdir : x ≠ .dir)
    (hlink : ∀ g, x ≠ .link g) (hfails : fails (.opendir (render p)) = none) :
    (handleFiles fails (files env)).opendir (render p) (w, h) =
      (.ok (.error .enotdir), (w, h)) := by
  show opening (refusing fails _ _) (w, h) = _
  rw [refusing_none _ hfails]
  have hnode := @node_of_entry w.fs p x hx true fun _ => hlink
  have hreaddir : readdir w.fs (render p) = .error .enotdir := by
    unfold readdir
    rw [hnode]
    cases x with
    | dir => exact absurd rfl hdir
    | file i => rfl
    | link g => rfl
    | special k => rfl
  unfold opening
  simp only [files, Action.look_apply, hreaddir]
  rfl

theorem handle_unlink_refused (s : Bytes) {e : Errno} (hfails : fails (.unlink s) = some e) :
    (handleFiles fails (files env)).unlink s (w, h) = (.ok (.error e), (w, h)) := by
  show Action.beside (refusing fails _ _) (w, h) = _
  rw [refusing_some _ hfails]
  rfl

theorem handle_unlink (hx : w.fs.entry p = some x) (hdir : x ≠ .dir)
    (hfails : fails (.unlink (render p)) = none) :
    ∃ t, (handleFiles fails (files env)).unlink (render p) (w, h) =
      (.ok (.ok ()), ({ w with fs := t }, h)) ∧ Prunes p w.fs t ∧ t.entry p = none := by
  obtain ⟨t, ht, hprunes, hgone⟩ := unlink_prunes hx hdir
  refine ⟨t, ?_, hprunes, hgone⟩
  show Action.beside (refusing fails _ _) (w, h) = _
  rw [refusing_none _ hfails]
  apply Action.beside_run
  simp only [files, World.fileCall, Action.move_apply, ht]

theorem handle_rmdir_refused (s : Bytes) {e : Errno} (hfails : fails (.rmdir s) = some e) :
    (handleFiles fails (files env)).rmdir s (w, h) = (.ok (.error e), (w, h)) := by
  show Action.beside (refusing fails _ _) (w, h) = _
  rw [refusing_some _ hfails]
  rfl

/-- `rmdir` removes a directory with nothing in it, unless it is the root. -/
theorem handle_rmdir (hp : w.fs.entry p = some .dir) (hempty : w.fs.children p = [])
    (hfails : fails (.rmdir (render p)) = none) :
    (p = [] ∧ (handleFiles fails (files env)).rmdir (render p) (w, h) =
      (.ok (.error .enotempty), (w, h))) ∨
    ∃ t, (handleFiles fails (files env)).rmdir (render p) (w, h) =
      (.ok (.ok ()), ({ w with fs := t }, h)) ∧ Prunes p w.fs t ∧ t.entry p = none := by
  have hrun : (handleFiles fails (files env)).rmdir (render p) (w, h) =
      Action.beside ((files env).rmdir (render p)) (w, h) := by
    show Action.beside (refusing fails _ _) (w, h) = _
    rw [refusing_none _ hfails]
  have hnode := @node_of_entry w.fs p .dir hp false (by simp)
  rw [hrun]
  by_cases hroot : p = []
  · refine Or.inl ⟨hroot, Action.beside_run ?_ h⟩
    simp only [files, World.fileCall, Action.move_apply, rmdir, hnode]
    simp [hroot]
  · right
    have hrmdir : ∃ t, rmdir w.fs (render p) = .ok t := by
      unfold rmdir
      rw [hnode]
      simp [hroot, hempty]
    obtain ⟨t, ht⟩ := hrmdir
    refine ⟨t, Action.beside_run ?_ h, rmdir_prunes hp ht⟩
    simp only [files, World.fileCall, Action.move_apply, ht]

end Calls

/-! ## Listing -/

section Listing

variable {env : Env} {recursive : Bool} {p : Path} {w : World} {h : Handles}

/-- On the way from `p` to the path at `r` below it, no `lstat` fails. -/
def Seen (fails : PathCall → Option Errno) (p r : Path) : Prop :=
  ∀ q, q ≠ [] → q <+: r → fails (.lstat (render (p ++ q))) = none

/-- No `opendir` fails at a directory below `p` that a listing comes to. -/
def OpensBelow (fails : PathCall → Option Errno) (t : FileTree) (recursive : Bool) (p : Path) :
    Prop :=
  recursive = true → ∀ r, r ≠ [] → t.entry (p ++ r) = some .dir → Seen fails p r →
    fails (.opendir (render (p ++ r))) = none

/-- Nor does it at `p`. -/
def OpensFrom (fails : PathCall → Option Errno) (t : FileTree) (recursive : Bool) (p : Path) :
    Prop :=
  fails (.opendir (render p)) = none ∧ OpensBelow fails t recursive p

theorem seen_cons {m : Name} {r : Path} : Seen fails p (m :: r) ↔
    fails (.lstat (render (p ++ [m]))) = none ∧ Seen fails (p ++ [m]) r := by
  constructor
  · intro hseen
    refine ⟨hseen [m] (by simp) ⟨r, rfl⟩, fun q hq hprefix => ?_⟩
    have := hseen (m :: q) (by simp) (List.cons_prefix_cons.mpr ⟨rfl, hprefix⟩)
    simpa using this
  · rintro ⟨hm, hseen⟩ q hq hprefix
    obtain ⟨k, q, rfl⟩ := List.exists_cons_of_ne_nil hq
    obtain ⟨rfl, hbelow⟩ := List.cons_prefix_cons.mp hprefix
    by_cases hnil : q = []
    · rwa [hnil]
    · simpa using hseen q hnil hbelow

/-- What a listing comes to below a directory it comes to below the names in it. -/
theorem opensBelow_iff : OpensBelow fails w.fs recursive p ↔
    ∀ m ∈ w.fs.children p, recursive = true → w.fs.entry (p ++ [m]) = some .dir →
      fails (.lstat (render (p ++ [m]))) = none → OpensFrom fails w.fs recursive (p ++ [m]) := by
  constructor
  · intro hopens m _ hrec hdir hlstat
    refine ⟨hopens hrec [m] (by simp) hdir (seen_cons.mpr ⟨hlstat, ?_⟩), ?_⟩
    · intro q hq hprefix
      exact absurd (List.prefix_nil.mp hprefix) hq
    · intro _ r hr hentry hseen
      have := hopens hrec (m :: r) (by simp) (by simpa using hentry) (seen_cons.mpr ⟨hlstat, hseen⟩)
      simpa using this
  · intro hopens hrec r hr hentry hseen
    obtain ⟨m, r, rfl⟩ := List.exists_cons_of_ne_nil hr
    obtain ⟨hlstat, hseen⟩ := seen_cons.mp hseen
    have hpath : p ++ m :: r = p ++ [m] ++ r := by simp
    rw [hpath] at hentry ⊢
    have hdir : w.fs.entry (p ++ [m]) = some .dir := by
      by_cases hnil : r = []
      · rwa [hnil, List.append_nil] at hentry
      · have hne : w.fs.entry (p ++ [m] ++ r) ≠ none := by
          rw [hentry]
          simp
        exact w.fs.dir_of_below hnil hne
    have hfrom := hopens m ((w.fs.mem_children p m).mpr (by simp [hdir])) hrec hdir hlstat
    by_cases hnil : r = []
    · rw [hnil, List.append_nil]
      exact hfrom.1
    · exact hfrom.2 hrec r hnil hentry hseen

/-- What a listing of the directory `p` ends in. -/
def ListsFrom (fails : PathCall → Option Errno) (recursive : Bool) (p : Path) (w : World)
    (h : Handles) (a : Act (World × Handles) (List FileEntry)) : Prop :=
  Meets a (w, h)
    (fun _ st => st.1 = w ∧ st.2.stack = h.stack ∧ OpensFrom fails w.fs recursive p)
    fun e st => e ≠ recursionBound ∧ h.stack <:+ st.2.stack ∧
      (st.2.stack = h.stack ↔ fails (.opendir (render p)) ≠ none) ∧
      ¬ OpensFrom fails w.fs recursive p

/-- The loop over the names of a directory. -/
theorem listNames_handles {descend : Bytes → Bytes → Act (World × Handles) (List FileEntry)}
    {logicalPrefix : Bytes}
    (hdescend : ∀ m h, recursive = true → w.fs.entry (p ++ [m]) = some .dir →
      ListsFrom fails recursive (p ++ [m]) w h
        (descend (render (p ++ [m])) (logicalPrefix ++ str "/" ++ m)))
    {names : List Name} (hentry : ∀ m ∈ names, w.fs.entry (p ++ [m]) ≠ none) :
    Meets (listNames (handleFiles fails (files env)) descend recursive (render p) logicalPrefix
        names) (w, h)
      (fun _ st => st.1 = w ∧ st.2.stack = h.stack ∧ ∀ m ∈ names, recursive = true →
        w.fs.entry (p ++ [m]) = some .dir → fails (.lstat (render (p ++ [m]))) = none →
          OpensFrom fails w.fs recursive (p ++ [m]))
      fun e st => e ≠ recursionBound ∧ h.stack <:+ st.2.stack ∧ ∃ m ∈ names, recursive = true ∧
        w.fs.entry (p ++ [m]) = some .dir ∧ fails (.lstat (render (p ++ [m]))) = none ∧
          ¬ OpensFrom fails w.fs recursive (p ++ [m]) := by
  induction names generalizing h with
  | nil => exact ⟨rfl, rfl, by simp⟩
  | cons m names ih =>
      have hrest := fun {h} => @ih h fun k hk => hentry k (List.mem_cons_of_mem _ hk)
      obtain ⟨x, hx⟩ := Option.ne_none_iff_exists'.mp (hentry m List.mem_cons_self)
      have hplain := w.fs.plain p m (by simp [hx])
      have hp : w.fs.entry p ≠ none := by simp [w.fs.closed p m (by simp [hx])]
      have hdots : ¬ (m = str "." ∨ m = str "..") := not_or.mpr ⟨hplain.2.1, hplain.2.2.1⟩
      have hpath : (if logicalPrefix = [] then str "/" ++ m else logicalPrefix ++ str "/" ++ m) =
          logicalPrefix ++ str "/" ++ m := by
        split_ifs with hnil
        · rw [hnil, List.nil_append]
        · rfl
      rw [listNames, if_neg hdots,
        joinPath_render (w.fs.plain_of_entry hp) hplain.1 hplain.2.2.2.1]
      rcases hlstat : fails (.lstat (render (p ++ [m]))) with _ | e
      · unfold Meets
        rw [bind_ok (handle_lstat hx hlstat)]
        dsimp only
        rw [hpath]
        have hnode : (fileStat env w.fs x).node = x := rfl
        rw [hnode]
        by_cases hdir : recursive = true ∧ x = .dir
        · have hm : w.fs.entry (p ++ [m]) = some .dir := hdir.2 ▸ hx
          rw [if_pos hdir]
          apply meets_bind.mpr
          apply (hdescend m h hdir.1 hm).mono
          · rintro below ⟨w', h'⟩ ⟨hw, hstack, hfrom⟩
            obtain rfl : w' = w := hw
            apply meets_bind.mpr
            apply Meets.mono (@hrest h')
            · rintro out st ⟨hw', hstack', hall⟩
              refine ⟨hw', hstack'.trans hstack, fun k hk => ?_⟩
              rcases List.mem_cons.mp hk with rfl | hk
              · exact fun _ _ _ => hfrom
              · exact hall k hk
            · rintro e st ⟨he, hsuffix, k, hk, hbad⟩
              rw [show h'.stack = h.stack from hstack] at hsuffix
              exact ⟨he, hsuffix, k, List.mem_cons_of_mem _ hk, hbad⟩
          · rintro e st ⟨he, hsuffix, -, hnot⟩
            exact ⟨he, hsuffix, m, List.mem_cons_self, hdir.1, hm, hlstat, hnot⟩
        · rw [if_neg hdir]
          apply meets_bind.mpr
          apply Action.meets_pure.mpr
          apply meets_bind.mpr
          apply Meets.mono hrest
          · rintro out st ⟨hw, hstack, hall⟩
            refine ⟨hw, hstack, fun k hk => ?_⟩
            rcases List.mem_cons.mp hk with rfl | hk
            · intro hrec hm
              rw [hx] at hm
              exact absurd ⟨hrec, Option.some.inj hm⟩ hdir
            · exact hall k hk
          · rintro e st ⟨he, hsuffix, k, hk, hbad⟩
            exact ⟨he, hsuffix, k, List.mem_cons_of_mem _ hk, hbad⟩
      · -- the entry is passed over
        unfold Meets
        rw [bind_ok (handle_lstat_refused _ hlstat)]
        apply Meets.mono hrest
        · rintro out st ⟨hw, hstack, hall⟩
          refine ⟨hw, hstack, fun k hk => ?_⟩
          rcases List.mem_cons.mp hk with rfl | hk
          · simp [hlstat]
          · exact hall k hk
        · rintro e st ⟨he, hstack, k, hk, hbad⟩
          exact ⟨he, hstack, k, List.mem_cons_of_mem _ hk, hbad⟩

/-- **A listing leaves a directory open** exactly if an `opendir` below fails: the induction is on
the height of the subtree. -/
theorem listDirRecursive_handles {n : ℕ} {logicalPrefix : Bytes}
    (hp : w.fs.entry p = some .dir) (hheight : HeightBelow w.fs p n) :
    ListsFrom fails recursive p w h
      (listDirRecursive (handleFiles fails (files env)) recursive n (render p) logicalPrefix) := by
  induction n generalizing p h logicalPrefix with
  | zero =>
      have := hheight [] (by simp [hp])
      simp at this
  | succ n ih =>
      unfold ListsFrom listDirRecursive
      rcases hopendir : fails (.opendir (render p)) with _ | e
      · unfold Meets
        rw [bind_ok (handle_opendir hp hopendir)]
        dsimp only
        rw [listNames, if_pos (Or.inl rfl), listNames, if_pos (Or.inr rfl)]
        apply meets_bind.mpr
        apply Meets.mono (listNames_handles (fun m h _ hm => ih hm (hheight.child m))
          fun m hm => (w.fs.mem_children p m).mp hm)
        · rintro out st ⟨hw, hstack, hall⟩
          refine ⟨hw, ?_, hopendir, opensBelow_iff.mpr hall⟩
          show st.2.pop.stack = h.stack
          unfold Handles.pop
          rw [hstack]
          rfl
        · rintro e st ⟨he, hsuffix, m, hm, hrec, hdir, hlstat, hnot⟩
          refine ⟨he, (List.suffix_cons _ _).trans hsuffix, iff_of_false ?_ (by simp),
            fun hfrom => hnot ?_⟩
          · -- the handle of the directory itself is open
            intro hsame
            rw [hsame] at hsuffix
            have hle := hsuffix.length_le
            simp [Handles.push] at hle
          · exact opensBelow_iff.mp hfrom.2 m hm hrec hdir hlstat
      · unfold Meets
        rw [bind_ok (handle_opendir_refused _ hopendir)]
        refine ⟨by simp, List.suffix_rfl, iff_of_true rfl (by simp), fun hfrom => ?_⟩
        have := hfrom.1
        simp [hopendir] at this

end Listing

/-! ## Removing -/

section Removing

variable {env : Env} {p : Path} {w : World} {h : Handles}

/-- No call fails that removes the entry at `p`. -/
def RemovesAt (fails : PathCall → Option Errno) (t : FileTree) (p : Path) : Prop :=
  fails (.lstat (render p)) = none ∧
    if t.entry p = some .dir then
      fails (.opendir (render p)) = none ∧ fails (.rmdir (render p)) = none
    else fails (.unlink (render p)) = none

/-- No call fails that removes an entry at `p` or below. -/
def RemovesFrom (fails : PathCall → Option Errno) (t : FileTree) (p : Path) : Prop :=
  ∀ r, t.entry (p ++ r) ≠ none → RemovesAt fails t (p ++ r)

/-- No call fails that removes an entry below `p`. -/
def RemovesBelow (fails : PathCall → Option Errno) (t : FileTree) (p : Path) : Prop :=
  ∀ r, r ≠ [] → t.entry (p ++ r) ≠ none → RemovesAt fails t (p ++ r)

theorem removesBelow_iff {t : FileTree} : RemovesBelow fails t p ↔
    ∀ m ∈ t.children p, RemovesFrom fails t (p ++ [m]) := by
  constructor
  · intro hbelow m _ r hentry
    rw [List.append_assoc] at hentry ⊢
    exact hbelow ([m] ++ r) (by simp) hentry
  · intro hall r hr hentry
    obtain ⟨m, r, rfl⟩ := List.exists_cons_of_ne_nil hr
    have hpath : p ++ m :: r = p ++ [m] ++ r := by simp
    rw [hpath] at hentry ⊢
    refine hall m ((t.mem_children p m).mpr ?_) r hentry
    by_cases hnil : r = []
    · rwa [hnil, List.append_nil] at hentry
    · simp [t.dir_of_below hnil hentry]

theorem removesFrom_iff {t : FileTree} (hp : t.entry p ≠ none) :
    RemovesFrom fails t p ↔ RemovesAt fails t p ∧ RemovesBelow fails t p := by
  constructor
  · intro hfrom
    have hat := hfrom [] (by rwa [List.append_nil])
    rw [List.append_nil] at hat
    exact ⟨hat, fun r _ hentry => hfrom r hentry⟩
  · rintro ⟨hat, hbelow⟩ r hentry
    by_cases hnil : r = []
    · rwa [hnil, List.append_nil]
    · exact hbelow r hnil hentry

/-- What is removed below one name makes no difference to another. -/
theorem RemovesFrom.beside {t t' : FileTree} {m k : Name} (hmk : m ≠ k)
    (hprunes : Prunes (p ++ [m]) t t') :
    RemovesFrom fails t' (p ++ [k]) ↔ RemovesFrom fails t (p ++ [k]) := by
  have hentry : ∀ r, t'.entry (p ++ [k] ++ r) = t.entry (p ++ [k] ++ r) := by
    intro r
    apply hprunes.outside
    rw [List.append_assoc, List.prefix_append_right_inj]
    intro hprefix
    exact hmk (List.cons_prefix_cons.mp hprefix).1
  unfold RemovesFrom RemovesAt
  simp only [hentry]

/-- What a removal of `p` ends in. -/
def ClearsFrom (fails : PathCall → Option Errno) (p : Path) (w : World) (h : Handles)
    (a : Act (World × Handles) Unit) : Prop :=
  Meets a (w, h)
    (fun _ st => st.2.stack = h.stack ∧ Prunes p w.fs st.1.fs ∧ st.1.fs.entry p = none ∧
      RemovesFrom fails w.fs p)
    fun e st => e ≠ recursionBound ∧ h.stack <:+ st.2.stack ∧
      (st.2.stack = h.stack ↔ (fails (.lstat (render p)) = none →
        fails (.opendir (render p)) = none → RemovesBelow fails w.fs p)) ∧
      (p ≠ [] → ¬ RemovesFrom fails w.fs p)

/-- The loop over the names of a directory: each round clears one name. -/
theorem removeNames_handles {n : ℕ} {remove : Bytes → Act (World × Handles) Unit}
    (hremove : ∀ m w h, w.fs.entry (p ++ [m]) ≠ none → HeightBelow w.fs (p ++ [m]) n →
      ClearsFrom fails (p ++ [m]) w h (remove (render (p ++ [m]))))
    {names : List Name} (hnodup : names.Nodup)
    (hentry : ∀ m ∈ names, w.fs.entry (p ++ [m]) ≠ none) (hheight : HeightBelow w.fs p (n + 1)) :
    Meets (removeNames remove (render p) names) (w, h)
      (fun _ st => st.2.stack = h.stack ∧ Prunes p w.fs st.1.fs ∧
        st.1.fs.entry p = w.fs.entry p ∧
        ∀ m ∈ names, st.1.fs.entry (p ++ [m]) = none ∧ RemovesFrom fails w.fs (p ++ [m]))
      fun e st => e ≠ recursionBound ∧ h.stack <:+ st.2.stack ∧
        ∃ m ∈ names, ¬ RemovesFrom fails w.fs (p ++ [m]) := by
  induction names generalizing w h with
  | nil => exact ⟨rfl, Prunes.refl p _, rfl, by simp⟩
  | cons m names ih =>
      obtain ⟨hm, hnodup⟩ := List.nodup_cons.mp hnodup
      have hchild := hentry m List.mem_cons_self
      have hplain := w.fs.plain p m hchild
      have hp : w.fs.entry p ≠ none := by simp [w.fs.closed p m hchild]
      have hdots : ¬ (m = str "." ∨ m = str "..") := not_or.mpr ⟨hplain.2.1, hplain.2.2.1⟩
      rw [removeNames, if_neg hdots,
        joinPath_render (w.fs.plain_of_entry hp) hplain.1 hplain.2.2.2.1]
      apply meets_bind.mpr
      apply (hremove m w h hchild (hheight.child m)).mono
      · rintro - ⟨w₁, h₁⟩ ⟨hstack, hprunes, hgone, hfrom⟩
        dsimp only at hstack hprunes hgone
        have hself : w₁.fs.entry p = w.fs.entry p := by
          apply hprunes.outside
          intro hprefix
          have := hprefix.length_le
          simp at this
        have hother : ∀ k ∈ names, m ≠ k := fun k hk hmk => hm (hmk ▸ hk)
        have hkept : ∀ k ∈ names, w₁.fs.entry (p ++ [k]) = w.fs.entry (p ++ [k]) := by
          intro k hk
          apply hprunes.outside
          rw [List.prefix_append_right_inj]
          intro hprefix
          exact hother k hk (List.cons_prefix_cons.mp hprefix).1
        have hloop := @ih w₁ h₁ hnodup
          (fun k hk => by rw [hkept k hk]; exact hentry k (List.mem_cons_of_mem _ hk))
          (hheight.shed hprunes.sheds)
        apply hloop.mono
        · rintro - st ⟨hstack', hprunes', hself', hall⟩
          refine ⟨hstack'.trans hstack, hprunes.widen.trans hprunes', hself'.trans hself, ?_⟩
          intro k hk
          rcases List.mem_cons.mp hk with rfl | hk
          · refine ⟨?_, hfrom⟩
            rcases hprunes'.sheds.entry (p ++ [k]) with hsame | hnone
            · rw [hsame, hgone]
            · exact hnone
          · exact ⟨(hall k hk).1, (RemovesFrom.beside (hother k hk) hprunes).mp (hall k hk).2⟩
        · rintro e st ⟨he, hsuffix, k, hk, hnot⟩
          refine ⟨he, hstack ▸ hsuffix, k, List.mem_cons_of_mem _ hk, fun hfromk => hnot ?_⟩
          exact (RemovesFrom.beside (hother k hk) hprunes).mpr hfromk
      · rintro e st ⟨he, hsuffix, -, hnot⟩
        exact ⟨he, hsuffix, m, List.mem_cons_self, hnot (by simp)⟩

/-- What is left of a removal once its directory is open. -/
theorem removeDir_handles {n : ℕ}
    (hremove : ∀ m w h, w.fs.entry (p ++ [m]) ≠ none → HeightBelow w.fs (p ++ [m]) n →
      ClearsFrom fails (p ++ [m]) w h
        (removeRecursive (handleFiles fails (files env)) n (render (p ++ [m]))))
    (hp : w.fs.entry p = some .dir) (hheight : HeightBelow w.fs p (n + 1))
    (hlstat : fails (.lstat (render p)) = none) (hopendir : fails (.opendir (render p)) = none) :
    Meets
      (do
        removeNames (removeRecursive (handleFiles fails (files env)) n) (render p)
          (str "." :: str ".." :: w.fs.children p)
        (handleFiles fails (files env)).closedir
        match ← (handleFiles fails (files env)).rmdir (render p) with
        | .ok _ => return ()
        | .error e => fail .internal (str "rmdir failed: " ++ strerror e)) (w, h.push)
      (fun _ st => st.2.stack = h.stack ∧ Prunes p w.fs st.1.fs ∧ st.1.fs.entry p = none ∧
        RemovesFrom fails w.fs p)
      fun e st => e ≠ recursionBound ∧ h.stack <:+ st.2.stack ∧
        (st.2.stack = h.stack ↔ (fails (.lstat (render p)) = none →
          fails (.opendir (render p)) = none → RemovesBelow fails w.fs p)) ∧
        (p ≠ [] → ¬ RemovesFrom fails w.fs p) := by
  have hne : w.fs.entry p ≠ none := by simp [hp]
  rw [removeNames, if_pos (Or.inl rfl), removeNames, if_pos (Or.inr rfl)]
  apply meets_bind.mpr
  apply Meets.mono (removeNames_handles hremove (List.nodup_dedup _)
    (fun m hm => (w.fs.mem_children p m).mp hm) hheight)
  · rintro - ⟨w₁, h₁⟩ ⟨hstack, hprunes, hself, hall⟩
    dsimp only at hstack hprunes hself hall
    have hbelow : RemovesBelow fails w.fs p := removesBelow_iff.mpr fun m hm => (hall m hm).2
    have hempty : w₁.fs.children p = [] := by
      apply List.eq_nil_iff_forall_not_mem.mpr
      intro m hm
      have hthere := (w₁.fs.mem_children p m).mp hm
      rcases hprunes.sheds.entry (p ++ [m]) with hsame | hnone
      · exact hthere (hall m ((w.fs.mem_children p m).mpr (hsame ▸ hthere))).1
      · exact hthere hnone
    have hpop : h₁.pop.stack = h.stack := by
      unfold Handles.pop
      rw [hstack]
      rfl
    have hclosedir : (handleFiles fails (files env)).closedir (w₁, h₁) = (.ok (), (w₁, h₁.pop)) :=
      rfl
    unfold Meets
    rw [bind_ok hclosedir]
    rcases hrmdir : fails (.rmdir (render p)) with _ | e
    · rcases @handle_rmdir fails env p w₁ h₁.pop (hself.trans hp) hempty hrmdir with
        ⟨hroot, hrun⟩ | ⟨t, hrun, hprunes', hgone⟩
      · rw [bind_ok hrun]
        refine ⟨by simp, ?_, iff_of_true hpop fun _ _ => hbelow, fun hnot => absurd hroot hnot⟩
        exact hpop ▸ List.suffix_rfl
      · rw [bind_ok hrun]
        refine ⟨hpop, hprunes.trans hprunes', hgone, (removesFrom_iff hne).mpr ⟨?_, hbelow⟩⟩
        unfold RemovesAt
        rw [if_pos hp]
        exact ⟨hlstat, hopendir, hrmdir⟩
    · rw [bind_ok (handle_rmdir_refused _ hrmdir)]
      refine ⟨by simp, hpop ▸ List.suffix_rfl, iff_of_true hpop fun _ _ => hbelow, fun _ hfrom => ?_⟩
      have hat := ((removesFrom_iff hne).mp hfrom).1.2
      rw [if_pos hp, hrmdir] at hat
      simp at hat
  · rintro e st ⟨he, hsuffix, m, hm, hnot⟩
    have hbelow : ¬ RemovesBelow fails w.fs p := by
      intro hbelow
      by_cases hchild : m ∈ w.fs.children p
      · exact hnot (removesBelow_iff.mp hbelow m hchild)
      · exact hchild hm
    refine ⟨he, (List.suffix_cons _ _).trans hsuffix, iff_of_false ?_ ?_, ?_⟩
    · -- the handle of the directory itself is open
      intro hsame
      rw [hsame] at hsuffix
      have hle := hsuffix.length_le
      simp [Handles.push] at hle
    · exact fun h => hbelow (h hlstat hopendir)
    · exact fun _ hfrom => hbelow ((removesFrom_iff hne).mp hfrom).2

/-- **A removal leaves a directory open** exactly if a call fails below it: the induction is on the
height of the subtree. -/
theorem removeRecursive_handles {n : ℕ} (hp : w.fs.entry p ≠ none)
    (hheight : HeightBelow w.fs p n) :
    ClearsFrom fails p w h (removeRecursive (handleFiles fails (files env)) n (render p)) := by
  induction n generalizing p w h with
  | zero =>
      have := hheight [] (by simpa using hp)
      simp at this
  | succ n ih =>
      obtain ⟨x, hx⟩ := Option.ne_none_iff_exists'.mp hp
      have hat := @removesFrom_iff fails p w.fs hp
      unfold ClearsFrom removeRecursive
      by_cases hlstat : fails (.lstat (render p)) = none
      · unfold Meets
        rw [bind_ok (handle_lstat hx hlstat)]
        dsimp only
        have hnode : (fileStat env w.fs x).node = x := rfl
        rw [hnode]
        by_cases hdir : x = .dir
        · rw [if_pos hdir]
          rw [hdir] at hx
          by_cases hopendir : fails (.opendir (render p)) = none
          · rw [bind_ok (handle_opendir hx hopendir)]
            exact removeDir_handles (fun m w h hm hh => ih hm hh) hx hheight hlstat hopendir
          · obtain ⟨e, he⟩ := Option.ne_none_iff_exists'.mp hopendir
            rw [bind_ok (handle_opendir_refused _ he)]
            refine ⟨by simp, List.suffix_rfl, iff_of_true rfl fun _ h => absurd h hopendir, ?_⟩
            intro _ hfrom
            have hboth := (hat.mp hfrom).1.2
            rw [if_pos hx] at hboth
            exact hopendir hboth.1
        · rw [if_neg hdir]
          have hnotdir : w.fs.entry p ≠ some .dir := by simpa [hx] using hdir
          have hbelow : RemovesBelow fails w.fs p :=
            fun r hr hentry => absurd (w.fs.entry_below_eq_none hr hnotdir) hentry
          rcases hunlink : fails (.unlink (render p)) with _ | e
          · obtain ⟨t, hrun, hprunes, hgone⟩ := @handle_unlink fails env p x w h hx hdir hunlink
            rw [bind_ok hrun]
            refine ⟨rfl, hprunes, hgone, hat.mpr ⟨⟨hlstat, ?_⟩, hbelow⟩⟩
            rwa [if_neg hnotdir]
          · rw [bind_ok (handle_unlink_refused _ hunlink)]
            refine ⟨by simp, List.suffix_rfl, iff_of_true rfl fun _ _ => hbelow, fun _ hfrom => ?_⟩
            have hone := (hat.mp hfrom).1.2
            rw [if_neg hnotdir, hunlink] at hone
            simp at hone
      · obtain ⟨e, he⟩ := Option.ne_none_iff_exists'.mp hlstat
        unfold Meets
        rw [bind_ok (handle_lstat_refused _ he)]
        refine ⟨by simp, List.suffix_rfl, iff_of_true rfl fun h => absurd h hlstat, ?_⟩
        exact fun _ hfrom => hlstat (hat.mp hfrom).1.1

end Removing

end CloudStore.Interface
