import CloudStore.Interface.DirHandles
import CloudStore.Interface.Playback

/-!
# Directory handles are closed

An exception passes through the functions that have a directory open, and none of them closes it.
-/

set_option autoImplicit false

namespace CloudStore.Analysis

open CloudStore.Library
open CloudStore.Library.Posix
open CloudStore.Model
open CloudStore.Model.FileManager
open CloudStore.Interface

variable {env : Env} {fails : PathCall → Option Errno} {w : World} {p : Path}

/-- A run from no handles closes them exactly if none is open in the end. -/
theorem balanced_iff_stack {α : Type} {a : Act World α} {a' : Act (World × Handles) α}
    (hrel : (keepingSound World).rel a a') :
    (a' (w, {})).2.2.Balanced ↔ (a' (w, {})).2.2.stack = [] :=
  Handles.Sound.balanced_iff (hrel (w, {}) (List.Perm.refl []))

theorem listDir_balanced_iff (recursive : Bool) (hp : w.fs.entry p ≠ none)
    (hlink : ∀ g, w.fs.entry p ≠ some (.link g)) :
    (listDir (handleFiles fails (World.files env)) (render p) recursive (w, {})).1 ≠
        .error recursionBound ∧
      ((listDir (handleFiles fails (World.files env)) (render p) recursive (w, {})).2.2.Balanced ↔
        (fails (.opendir (render p)) = none → OpensBelow fails w.fs recursive p)) := by
  rw [balanced_iff_stack
    ((handleFiles_related (World.files env)).listDir (render p) recursive)]
  obtain ⟨x, hx⟩ := Option.ne_none_iff_exists'.mp hp
  have hrun : listDir (handleFiles fails (World.files env)) (render p) recursive (w, {}) =
      listDirRecursive (handleFiles fails (World.files env)) recursive
        ((w.fs.listing.map List.length).foldr max 0 + 1) (render p) [] (w, {}) := rfl
  by_cases hdir : x = .dir
  · rw [hdir] at hx
    have hlists := @listDirRecursive_handles fails env recursive p w {} _ [] hx
      (heightBelow_listing w.fs p)
    rw [hrun]
    unfold ListsFrom Action.Meets at hlists
    revert hlists
    rcases listDirRecursive (handleFiles fails (World.files env)) recursive
      ((w.fs.listing.map List.length).foldr max 0 + 1) (render p) [] (w, {}) with ⟨e | out, st⟩
    · rintro ⟨he, -, hsame, hnot⟩
      refine ⟨fun h => he (Except.error.inj h), hsame.trans ?_⟩
      constructor
      · exact fun hrefused hopen => absurd hopen hrefused
      · exact fun hbelow hopen => hnot ⟨hopen, hbelow hopen⟩
    · rintro ⟨-, hstack, hfrom⟩
      exact ⟨by simp, iff_of_true hstack fun _ => hfrom.2⟩
  · -- nothing is opened, and nothing is below
    have hbelow : OpensBelow fails w.fs recursive p := by
      intro _ r hr hentry
      rw [w.fs.entry_below_eq_none hr (by rw [hx]; simpa using hdir)] at hentry
      simp at hentry
    have hopendir : ∃ e, (handleFiles fails (World.files env)).opendir (render p) (w, {}) =
        (.ok (.error e), (w, {})) := by
      by_cases hfails : fails (.opendir (render p)) = none
      · exact ⟨_, handle_opendir_other hx hdir (fun g hg => hlink g (hg ▸ hx)) hfails⟩
      · obtain ⟨e, he⟩ := Option.ne_none_iff_exists'.mp hfails
        exact ⟨e, handle_opendir_refused _ he⟩
    obtain ⟨e, he⟩ := hopendir
    rw [hrun, listDirRecursive, Action.bind_ok he]
    exact ⟨by simp [fail], iff_of_true rfl fun _ => hbelow⟩

theorem removePath_balanced_iff (hp : w.fs.entry p ≠ none) :
    (removePath (handleFiles fails (World.files env)) (render p) (w, {})).1 ≠
        .error recursionBound ∧
      ((removePath (handleFiles fails (World.files env)) (render p) (w, {})).2.2.Balanced ↔
        (fails (.lstat (render p)) = none → fails (.opendir (render p)) = none →
          RemovesBelow fails w.fs p)) := by
  rw [balanced_iff_stack ((handleFiles_related (World.files env)).removePath (render p))]
  have hrun : removePath (handleFiles fails (World.files env)) (render p) (w, {}) =
      removeRecursive (handleFiles fails (World.files env))
        ((w.fs.listing.map List.length).foldr max 0 + 1) (render p) (w, {}) := rfl
  have hclears := @removeRecursive_handles fails env p w {} _ hp (heightBelow_listing w.fs p)
  rw [hrun]
  unfold ClearsFrom Action.Meets at hclears
  revert hclears
  rcases removeRecursive (handleFiles fails (World.files env))
    ((w.fs.listing.map List.length).foldr max 0 + 1) (render p) (w, {}) with ⟨e | out, st⟩
  · rintro ⟨he, -, hsame, -⟩
    exact ⟨fun h => he (Except.error.inj h), hsame⟩
  · rintro ⟨hstack, -, -, hfrom⟩
    exact ⟨by simp, iff_of_true hstack fun _ _ => ((removesFrom_iff hp).mp hfrom).2⟩

/-- **Directory handles are closed on every exit** but where a call fails below a directory that
is open: below the directory that is listed an `opendir`, below the one that is removed any call
of the removal. Neither run comes to the bound of the recursion. -/
theorem handles_closed_iff (env : Env) (fails : PathCall → Option Errno) (w : World) (p : Path)
    (hp : w.fs.entry p ≠ none) :
    (∀ recursive : Bool, (∀ g, w.fs.entry p ≠ some (.link g)) →
      (listDir (handleFiles fails (World.files env)) (render p) recursive (w, {})).1 ≠
          .error recursionBound ∧
        ((listDir (handleFiles fails (World.files env)) (render p) recursive
            (w, {})).2.2.Balanced ↔
          (fails (.opendir (render p)) = none → OpensBelow fails w.fs recursive p))) ∧
      (removePath (handleFiles fails (World.files env)) (render p) (w, {})).1 ≠
          .error recursionBound ∧
        ((removePath (handleFiles fails (World.files env)) (render p) (w, {})).2.2.Balanced ↔
          (fails (.lstat (render p)) = none → fails (.opendir (render p)) = none →
            RemovesBelow fails w.fs p)) :=
  ⟨fun recursive hlink => listDir_balanced_iff recursive hp hlink, removePath_balanced_iff hp⟩

namespace Sample

/-- A directory with a directory in it. -/
def nestedTree : FileTree :=
  ((FileTree.bare 1024).add [] (str "d") .dir rfl rfl (by decide) (by simp)).add [str "d"]
    (str "b") .dir rfl rfl (by decide) (by simp)

/-- The inner directory is not to be opened. -/
def innerRefused : PathCall → Option Errno
  | .opendir s => if s = str "/d/b" then some .eio else none
  | _ => none

end Sample

/-- The outer directory stays open where the inner one cannot be opened. -/
theorem outer_stays_open :
    ¬ (listDir (handleFiles Sample.innerRefused (World.files Sample.env)) (render [str "d"]) true
        ({ fs := Sample.nestedTree, entropy := Sample.entropy }, {})).2.2.Balanced ∧
      ¬ (removePath (handleFiles Sample.innerRefused (World.files Sample.env)) (render [str "d"])
        ({ fs := Sample.nestedTree, entropy := Sample.entropy }, {})).2.2.Balanced := by
  constructor <;> decide +kernel

theorem handles_closed_nested :
    (∀ recursive : Bool,
      (listDir (handleFiles Sample.innerRefused (World.files Sample.env)) (render [str "d"])
          recursive ({ fs := Sample.nestedTree, entropy := Sample.entropy }, {})).1 ≠
          .error recursionBound ∧
        ((listDir (handleFiles Sample.innerRefused (World.files Sample.env)) (render [str "d"])
            recursive ({ fs := Sample.nestedTree, entropy := Sample.entropy }, {})).2.2.Balanced ↔
          (Sample.innerRefused (.opendir (render [str "d"])) = none →
            OpensBelow Sample.innerRefused Sample.nestedTree recursive [str "d"]))) ∧
      (removePath (handleFiles Sample.innerRefused (World.files Sample.env)) (render [str "d"])
          ({ fs := Sample.nestedTree, entropy := Sample.entropy }, {})).1 ≠
          .error recursionBound ∧
        ((removePath (handleFiles Sample.innerRefused (World.files Sample.env))
            (render [str "d"])
            ({ fs := Sample.nestedTree, entropy := Sample.entropy }, {})).2.2.Balanced ↔
          (Sample.innerRefused (.lstat (render [str "d"])) = none →
            Sample.innerRefused (.opendir (render [str "d"])) = none →
              RemovesBelow Sample.innerRefused Sample.nestedTree [str "d"])) :=
  have h := handles_closed_iff Sample.env Sample.innerRefused
    { fs := Sample.nestedTree, entropy := Sample.entropy } [str "d"] (by decide)
  have hdir : Sample.nestedTree.entry [str "d"] = some .dir := by decide
  ⟨fun recursive => h.1 recursive fun g hg => by simp [hdir] at hg, h.2⟩

end CloudStore.Analysis
