import CloudStore.Interface.Listing
import CloudStore.Interface.Playback

/-!
# What the index lists of a directory

The rows that `listIndexed` returns are the files of the user that are direct children of the
directory, in the order of the table and each once, whatever wildcards the name of the directory
holds and whatever else LIKE and the comparison of paths select.
-/

set_option autoImplicit false

namespace CloudStore.Analysis

open CloudStore.Library (Bytes Path Plain)
open CloudStore.Library.Posix
open CloudStore.Model
open CloudStore.Model.TransferService
open CloudStore.Model.World (backend)
open CloudStore.Interface

/-- What `listIndexed` returns of a row. -/
def listed (r : FileRow) : PendingFile where
  virtualPath := r.virtualPath
  md5 := r.md5
  size := r.size
  status := if r.status = [] then str "ready" else r.status

/-- A row is a file of the user and a direct child of the directory. -/
def ChildOf (u : ℤ) (dir : Bytes) (r : FileRow) : Prop :=
  r.userId = u ∧ r.isDir = false ∧ IsChild dir r.virtualPath

instance (u : ℤ) (dir : Bytes) (r : FileRow) : Decidable (ChildOf u dir r) :=
  inferInstanceAs (Decidable (_ ∧ _ ∧ _))

/-- A path is a slash and a normal form that is not empty. -/
def FilePath (s : Bytes) : Prop :=
  ∃ a n, PathGuard.normalizeLogical a = .ok n ∧ n ≠ [] ∧ s = str "/" ++ n

/-- What `listIndexed` returns, with the filters of the statement and of its loop. -/
theorem listIndexed_eq (env : Env) (w : World) (u : ℤ) (dir : Bytes) :
    listIndexed (backend env) u dir w =
      (.ok ((w.rows.filter fun r => !nested (dirPrefix dir) r.virtualPath && (r.userId = u &&
        !r.isDir && (env.dialect.samePath r.virtualPath dir ||
          env.dialect.like r.virtualPath (dirPrefix dir ++ str "%")))).map listed), w) := by
  rw [← List.filter_filter]
  rfl

/-- Both filters let through the direct children, among rows of paths below the root. -/
theorem listed_iff_child {env : Env} {fold : UInt8 → UInt8} (hlike : Folds env.dialect fold)
    {dir : Bytes} (hdir : LogicalPath dir) (u : ℤ) {r : FileRow} {q : Path}
    (hr : r.virtualPath = render q) (hq : ∀ n ∈ q, Plain n) (hne : q ≠ []) :
    (!nested (dirPrefix dir) r.virtualPath && (r.userId = u && !r.isDir &&
      (env.dialect.samePath r.virtualPath dir ||
        env.dialect.like r.virtualPath (dirPrefix dir ++ str "%")))) = true ↔ ChildOf u dir r := by
  have hrender := hdir.backslash
  obtain ⟨names, hnames, rfl⟩ := hdir.render
  have hplain : ∀ n ∈ names, Plain n := fun n hn => (hnames n hn).1
  have hback : 92 ∉ dirPrefix (render names) := by
    rw [dirPrefix_render hplain]
    split
    · exact hrender
    · intro hmem
      cases List.mem_append.mp hmem with
      | inl h => exact hrender h
      | inr h => exact absurd h (by decide)
  have hnested := nested_iff hplain hq hne
  rw [← hr] at hnested
  rw [Bool.and_eq_true, Bool.and_eq_true, Bool.and_eq_true, decide_eq_true_eq,
    Bool.not_eq_true', Bool.not_eq_true', hnested]
  unfold ChildOf
  constructor
  · rintro ⟨hchild, ⟨huser, hfile⟩, -⟩
    exact ⟨huser, hfile, hchild⟩
  · rintro ⟨huser, hfile, hchild⟩
    refine ⟨hchild, ⟨huser, hfile⟩, ?_⟩
    -- a direct child begins with the start of the pattern
    obtain ⟨name, -, -, hname⟩ := hchild
    rw [Bool.or_eq_true]
    right
    rw [hname, ← dirPrefix_render hplain]
    exact hlike.prefix_like hback name

/-- **The listing of the index** is that of the direct children. -/
theorem list_indexed_children {env : Env} {fold : UInt8 → UInt8} (hlike : Folds env.dialect fold)
    {w : World} (hrows : ∀ r ∈ w.rows, FilePath r.virtualPath) {dir : Bytes}
    (hdir : LogicalPath dir) (u : ℤ) :
    listIndexed (backend env) u dir w =
      (.ok ((w.rows.filter fun r => decide (ChildOf u dir r)).map listed), w) := by
  rw [listIndexed_eq]
  congr 3
  apply List.filter_congr
  intro r hr
  obtain ⟨a, n, hn, hne, hpath⟩ := hrows r hr
  obtain ⟨q, hq, hqpath⟩ := LogicalPath.render ⟨a, n, hn, hpath⟩
  have hqne : q ≠ [] := by
    rintro rfl
    rw [hpath] at hqpath
    exact hne (List.cons.inj hqpath).2
  rw [Bool.eq_iff_iff, decide_eq_true_eq]
  exact listed_iff_child hlike hdir u hqpath (fun c hc => (hq c hc).1) hqne

/-- A store with a file at `/a%` and one at `/a%/b`. -/
def twoLevels : World where
  fs := Library.FileTree.bare 4096
  entropy := Sample.entropy
  rows := [⟨1, str "/a%", Sample.md5Hex [], 0, false, str "ready"⟩,
    ⟨1, str "/a%/b", Sample.md5Hex [], 0, false, str "ready"⟩]

/-- The listing of `/a%` in that store. -/
theorem list_indexed_two_levels : listIndexed (backend Sample.env) 1 (str "/a%") twoLevels =
    (.ok ((twoLevels.rows.filter fun r => decide (ChildOf 1 (str "/a%") r)).map listed),
      twoLevels) := by
  have hnormal : PathGuard.normalizeLogical (str "a%") = .ok (str "a%") ∧
      PathGuard.normalizeLogical (str "a%/b") = .ok (str "a%/b") := by decide
  apply list_indexed_children exact_folds
  · intro r hr
    simp only [twoLevels, List.mem_cons, List.not_mem_nil, or_false] at hr
    rcases hr with rfl | rfl
    · exact ⟨_, _, hnormal.1, by decide, by decide⟩
    · exact ⟨_, _, hnormal.2, by decide, by decide⟩
  · exact ⟨_, _, hnormal.1, by decide⟩

end CloudStore.Analysis
