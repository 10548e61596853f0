import CloudStore.Interface.Playback
import CloudStore.Interface.RemoveTree

/-!
# A removal stays in its subtree

Any tree, with links to anywhere, and any pattern of failing calls. The parents of a path of
the tree are directories and no links.
-/

set_option autoImplicit false

namespace CloudStore.Analysis

open CloudStore.Library
open CloudStore.Library.Posix
open CloudStore.Model
open CloudStore.Model.FileManager
open CloudStore.Interface

/-- What a removal of `p` from the state `w` is to do. -/
structure RemovalStays (w : World) (p : Path) (result : Except Exn Unit)
    (st : World × CallLog) : Prop where
  /-- The run does not come to the bound of the recursion. -/
  ends : result ≠ .error recursionBound
  /-- Nothing outside is removed or changed, -/
  outside : ∀ q, ¬ p <+: q →
    st.1.fs.entry q = w.fs.entry q ∧ st.1.fs.fileAt q = w.fs.fileAt q
  /-- nor is it between two calls. -/
  between : ∀ x ∈ st.2, ∀ q, ¬ p <+: q →
    x.1.entry q = w.fs.entry q ∧ x.1.fileAt q = w.fs.fileAt q
  /-- Each call is made at a path of the subtree, and no link is followed on the way. -/
  calls : ∀ x ∈ st.2, WalksDirectly x.1 x.2.follows x.2.path ∧
    ∃ q, p <+: q ∧ x.2.path = render q
  /-- After a normal return the subtree is gone. -/
  gone : result = .ok () → ∀ q, p <+: q → st.1.fs.entry q = none

/-- The removal of an occupied path, for every bound that the height of its subtree allows. -/
theorem removeRecursive_stays {env : Env} {fails : ℕ → Option Errno} {w : World} {p : Path}
    {n : ℕ} (hp : w.fs.entry p ≠ none) (hheight : HeightBelow w.fs p n) :
    RemovalStays w p (removeRecursive (removalFiles env fails) n (render p) (w, [])).1
      (removeRecursive (removalFiles env fails) n (render p) (w, [])).2 := by
  have hclears := @removeRecursive_clears env fails n p (w, []) hp hheight
  unfold Clears Action.Meets at hclears
  rcases hrun : removeRecursive (removalFiles env fails) n (render p) (w, []) with ⟨r, st⟩
  rw [hrun] at hclears
  obtain ⟨hstays, hends, hgone⟩ : StaysBelow p (w, []) st ∧ r ≠ .error recursionBound ∧
      (r = .ok () → st.1.fs.entry p = none) := by
    cases r with
    | ok x => exact ⟨hclears.1, by simp, fun _ => hclears.2⟩
    | error e => exact ⟨hclears.1, fun h => hclears.2 (Except.error.inj h), by simp⟩
  obtain ⟨l, hl, hcalls⟩ := hstays.calls
  rw [List.nil_append] at hl
  constructor
  · exact hends
  · exact fun q hq => ⟨hstays.prunes.outside q hq, hstays.prunes.fileAt hq⟩
  · intro x hx q hq
    have hprunes := (hcalls x (hl ▸ hx)).1
    exact ⟨hprunes.outside q hq, hprunes.fileAt hq⟩
  · intro x hx
    obtain ⟨-, q, hq, hpath, hwalk⟩ := hcalls x (hl ▸ hx)
    exact ⟨hpath ▸ hwalk, q, hq, hpath⟩
  · exact fun hok q hq => gone_below (hgone hok) hq

/-- **Recursive removal stays in its subtree.** On every file tree, for every occupied path and
every pattern of failing calls, `removePath` ends, its run being that of every recursion that
is deep enough, and what it does meets `RemovalStays`. -/
theorem removePath_stays (env : Env) (fails : ℕ → Option Errno) (w : World) (p : Path)
    (hp : w.fs.entry p ≠ none) :
    (∃ n, ∀ m ≥ n, removePath (removalFiles env fails) (render p) (w, []) =
      removeRecursive (removalFiles env fails) m (render p) (w, [])) ∧
      RemovalStays w p (removePath (removalFiles env fails) (render p) (w, [])).1
        (removePath (removalFiles env fails) (render p) (w, [])).2 := by
  have hstays := @removeRecursive_stays env fails w p _ hp (heightBelow_listing w.fs p)
  have hpath : removePath (removalFiles env fails) (render p) (w, []) =
      removeRecursive (removalFiles env fails) ((w.fs.listing.map List.length).foldr max 0 + 1)
        (render p) (w, []) := rfl
  rw [hpath]
  refine ⟨⟨(w.fs.listing.map List.length).foldr max 0 + 1, ?_⟩, hstays⟩
  intro m hm
  exact (removeRecursive_extends _ hm (render p) (w, []) hstays.ends).symm

/-- A directory with a link to the root in it. -/
def linkedTree : FileTree :=
  ((FileTree.bare 4096).add [] (str "a") .dir rfl rfl (by decide) (by simp)).add [str "a"]
    (str "up") (.link (str "/")) rfl rfl (by decide) (by simp)

theorem removePath_stays_linked :
    (∃ n, ∀ m ≥ n, removePath (removalFiles Sample.env fun _ => none) (render [str "a"])
        ({ fs := linkedTree, entropy := Sample.entropy }, []) =
      removeRecursive (removalFiles Sample.env fun _ => none) m (render [str "a"])
        ({ fs := linkedTree, entropy := Sample.entropy }, [])) ∧
      RemovalStays { fs := linkedTree, entropy := Sample.entropy } [str "a"]
        (removePath (removalFiles Sample.env fun _ => none) (render [str "a"])
          ({ fs := linkedTree, entropy := Sample.entropy }, [])).1
        (removePath (removalFiles Sample.env fun _ => none) (render [str "a"])
          ({ fs := linkedTree, entropy := Sample.entropy }, [])).2 :=
  removePath_stays Sample.env (fun _ => none) { fs := linkedTree, entropy := Sample.entropy }
    [str "a"] (by decide)

end CloudStore.Analysis
