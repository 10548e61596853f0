import Mathlib.Data.List.Dedup
import Mathlib.Data.List.Induction
import Mathlib.Logic.Function.Basic
import Mathlib.Tactic.Common

/-!
# File trees

The tree of a file system as a map from paths to nodes. A path is the list of the names
from the root; a node is a directory, a regular file given by its inode, a symbolic link
with its target text, or a special file. The bytes of a regular file belong to its
inode, so a descriptor that holds an inode keeps the bytes when the name is removed.

A `FileTree` carries what makes it a tree: the root is a directory, a node lies in a
directory, names are plain, finitely many paths are occupied, and no two paths share an
inode. Each operation below takes the facts it needs to keep these laws.
-/

set_option autoImplicit false

namespace CloudStore.Library

/-- A string of the program: a list of bytes. -/
abbrev Bytes : Type := List UInt8

/-- The name of a directory entry. -/
abbrev Name : Type := Bytes

/-- The names from the root down. -/
abbrev Path : Type := List Name

/-- The special files. -/
inductive Special where
  | fifo | socket | chr | blk
  deriving DecidableEq, Repr

/-- A node of the tree. -/
inductive Node where
  | dir
  | file (ino : ℕ)
  | link (target : Bytes)
  | special (kind : Special)
  deriving DecidableEq, Repr

/-- A name that a directory entry can have: not empty, `.` or `..`, without a slash or
a zero byte. -/
def Plain (n : Name) : Prop :=
  n ≠ [] ∧ n ≠ [46] ∧ n ≠ [46, 46] ∧ 47 ∉ n ∧ 0 ∉ n

instance (n : Name) : Decidable (Plain n) :=
  inferInstanceAs (Decidable (_ ∧ _ ∧ _ ∧ _ ∧ _))

/-- A file tree. -/
structure FileTree where
  entry : Path → Option Node
  data : ℕ → Bytes
  /-- The size reported for a directory; the file system chooses it. -/
  dirSize : ℕ
  /-- No inode from here on is in use. -/
  fresh : ℕ
  /-- Every occupied path, possibly among others. -/
  listing : List Path
  root_dir : entry [] = some .dir
  closed : ∀ p n, entry (p ++ [n]) ≠ none → entry p = some .dir
  plain : ∀ p n, entry (p ++ [n]) ≠ none → Plain n
  listed : ∀ p, entry p ≠ none → p ∈ listing
  ino_lt : ∀ p i, entry p = some (.file i) → i < fresh
  ino_inj : ∀ p q i, entry p = some (.file i) → entry q = some (.file i) → p = q

namespace FileTree

variable (t : FileTree)

/-- The tree that holds the root only. -/
def bare (dirSize : ℕ) : FileTree where
  entry p := if p = [] then some .dir else none
  data _ := []
  dirSize := dirSize
  fresh := 0
  listing := [[]]
  root_dir := rfl
  closed := by simp
  plain := by simp
  listed := by simp
  ino_lt := by
    intro p i h
    split at h <;> simp at h
  ino_inj := by
    intro p q i h
    split at h <;> simp at h

/-- The tree has no symbolic links. -/
def NoLinks : Prop := ∀ p target, t.entry p ≠ some (.link target)

/-- The bytes of the regular file at a path. -/
def fileAt (p : Path) : Option Bytes :=
  match t.entry p with
  | some (.file i) => some (t.data i)
  | _ => none

/-- The names in a directory. -/
def children (p : Path) : List Name :=
  ((t.listing.filter fun r => r ≠ [] ∧ r.dropLast = p ∧ (t.entry r).isSome).filterMap
    List.getLast?).dedup

theorem mem_children (p : Path) (n : Name) :
    n ∈ t.children p ↔ t.entry (p ++ [n]) ≠ none := by
  simp only [children, List.mem_dedup, List.mem_filterMap, List.mem_filter, decide_eq_true_eq]
  constructor
  · rintro ⟨r, ⟨-, hne, rfl, hr⟩, hlast⟩
    rw [List.getLast?_eq_some_getLast hne, Option.some.injEq] at hlast
    subst hlast
    rwa [List.dropLast_append_getLast, ne_eq, ← Option.not_isSome_iff_eq_none, not_not]
  · intro h
    refine ⟨p ++ [n], ⟨t.listed _ h, by simp, by simp, ?_⟩, by simp⟩
    exact Option.isSome_iff_ne_none.mpr h

/-- A node below a path makes the path a directory. -/
theorem dir_of_below {p q : Path} (hq : q ≠ []) (h : t.entry (p ++ q) ≠ none) :
    t.entry p = some .dir := by
  induction q using List.reverseRecOn with
  | nil => exact absurd rfl hq
  | append_singleton q n ih =>
      rw [← List.append_assoc] at h
      have hdir := t.closed _ _ h
      by_cases hq' : q = []
      · simpa [hq'] using hdir
      · exact ih hq' (by simp [hdir])

/-- Names on the way to a node are plain. -/
theorem plain_of_entry {p : Path} (h : t.entry p ≠ none) : ∀ n ∈ p, Plain n := by
  induction p using List.reverseRecOn with
  | nil => simp
  | append_singleton q n ih =>
      intro m hm
      rcases List.mem_append.mp hm with hm | hm
      · exact ih (by simp [t.closed q n h]) m hm
      · rw [List.mem_singleton.mp hm]
        exact t.plain q n h

/-- Nothing lies below a path that is not a directory. -/
theorem entry_below_eq_none {p q : Path} (hq : q ≠ []) (h : t.entry p ≠ some .dir) :
    t.entry (p ++ q) = none :=
  not_not.mp fun hne => h (t.dir_of_below hq hne)

/-! ## Operations -/

/-- Replace the bytes of an inode. -/
def write (i : ℕ) (bytes : Bytes) : FileTree :=
  { t with data := Function.update t.data i bytes }

/-- Add a node under a free name of a directory; a new file takes the fresh inode. -/
def add (p : Path) (n : Name) (node : Node) (hdir : t.entry p = some .dir)
    (hfree : t.entry (p ++ [n]) = none) (hplain : Plain n)
    (hino : ∀ i, node = .file i → i = t.fresh) : FileTree where
  entry := Function.update t.entry (p ++ [n]) (some node)
  data := Function.update t.data t.fresh []
  dirSize := t.dirSize
  fresh := t.fresh + 1
  listing := (p ++ [n]) :: t.listing
  root_dir := by
    rw [Function.update_of_ne (by simp)]
    exact t.root_dir
  closed := by
    intro q m h
    by_cases hq : q = p ++ [n]
    · -- nothing lies below a free name
      subst hq
      rw [Function.update_of_ne (by simp)] at h
      exact absurd (t.entry_below_eq_none (by simp) (by simp [hfree])) h
    · rw [Function.update_of_ne hq]
      by_cases hqm : q ++ [m] = p ++ [n]
      · obtain ⟨rfl, -⟩ := List.append_inj' hqm rfl
        exact hdir
      · rw [Function.update_of_ne hqm] at h
        exact t.closed q m h
  plain := by
    intro q m h
    by_cases hqm : q ++ [m] = p ++ [n]
    · obtain ⟨-, h'⟩ := List.append_inj' hqm rfl
      rw [List.cons.injEq] at h'
      exact h'.1 ▸ hplain
    · rw [Function.update_of_ne hqm] at h
      exact t.plain q m h
  listed := by
    intro q h
    by_cases hq : q = p ++ [n]
    · simp [hq]
    · rw [Function.update_of_ne hq] at h
      exact List.mem_cons_of_mem _ (t.listed q h)
  ino_lt := by
    intro q i h
    by_cases hq : q = p ++ [n]
    · subst hq
      rw [Function.update_self, Option.some.injEq] at h
      rw [hino i h]
      exact Nat.lt_succ_self _
    · rw [Function.update_of_ne hq] at h
      exact Nat.lt_succ_of_lt (t.ino_lt q i h)
  ino_inj := by
    intro a b i ha hb
    by_cases hap : a = p ++ [n] <;> by_cases hbp : b = p ++ [n]
    · rw [hap, hbp]
    · rw [hap, Function.update_self, Option.some.injEq] at ha
      rw [Function.update_of_ne hbp] at hb
      exact absurd (t.ino_lt b i hb) (by simp [hino i ha])
    · rw [hbp, Function.update_self, Option.some.injEq] at hb
      rw [Function.update_of_ne hap] at ha
      exact absurd (t.ino_lt a i ha) (by simp [hino i hb])
    · rw [Function.update_of_ne hap] at ha
      rw [Function.update_of_ne hbp] at hb
      exact t.ino_inj a b i ha hb

/-- Remove a node with nothing below it. -/
def drop (p : Path) (hne : p ≠ []) (hleaf : ∀ n, t.entry (p ++ [n]) = none) : FileTree where
  entry := Function.update t.entry p none
  data := t.data
  dirSize := t.dirSize
  fresh := t.fresh
  listing := t.listing
  root_dir := by
    rw [Function.update_of_ne hne.symm]
    exact t.root_dir
  closed := by
    intro q m h
    by_cases hqm : q ++ [m] = p
    · exact absurd (by rw [hqm, Function.update_self]) h
    · rw [Function.update_of_ne hqm] at h
      by_cases hq : q = p
      · exact absurd (hq ▸ hleaf m) h
      · rw [Function.update_of_ne hq]
        exact t.closed q m h
  plain := by
    intro q m h
    by_cases hqm : q ++ [m] = p
    · exact absurd (by rw [hqm, Function.update_self]) h
    · rw [Function.update_of_ne hqm] at h
      exact t.plain q m h
  listed := by
    intro q h
    by_cases hq : q = p
    · exact absurd (by rw [hq, Function.update_self]) h
    · rw [Function.update_of_ne hq] at h
      exact t.listed q h
  ino_lt := by
    intro q i h
    by_cases hq : q = p
    · simp [hq] at h
    · rw [Function.update_of_ne hq] at h
      exact t.ino_lt q i h
  ino_inj := by
    intro a b i ha hb
    by_cases hap : a = p
    · simp [hap] at ha
    by_cases hbp : b = p
    · simp [hbp] at hb
    rw [Function.update_of_ne hap] at ha
    rw [Function.update_of_ne hbp] at hb
    exact t.ino_inj a b i ha hb

/-- Where the nodes are after the subtree of `p` has been moved to `q`. -/
def moved (p q r : Path) : Option Node :=
  if q <+: r then t.entry (p ++ r.drop q.length)
  else if p <+: r then none
  else t.entry r

/-- Move a subtree to a name of a directory outside it. -/
def move (p q : Path) (n : Name) (hdir : t.entry q = some .dir)
    (hplain : Plain n) (hout : ¬ p <+: q) : FileTree where
  entry := t.moved p (q ++ [n])
  data := t.data
  dirSize := t.dirSize
  fresh := t.fresh
  listing := t.listing ++ t.listing.map fun r => (q ++ [n]) ++ r.drop p.length
  root_dir := by
    have hp : ¬ p <+: [] := by
      intro h
      rw [List.prefix_nil] at h
      exact hout (h ▸ List.nil_prefix)
    simp [moved, hp, t.root_dir]
  closed := by
    intro r m h
    by_cases hr : (q ++ [n]) <+: r
    · -- below the new place: the tree was closed below the old one
      have hrm : (q ++ [n]) <+: r ++ [m] := hr.trans (List.prefix_append r [m])
      simp only [moved, hr, hrm, if_true] at h ⊢
      rw [List.drop_append_of_le_length hr.length_le, ← List.append_assoc] at h
      exact t.closed _ _ h
    · by_cases hrm : (q ++ [n]) <+: r ++ [m]
      · -- the new place itself: its parent is the directory `q`
        rcases List.prefix_concat_iff.mp hrm with heq | hpre
        · obtain ⟨rfl, -⟩ := List.append_inj' heq rfl
          simp [moved, hr, hout, hdir]
        · exact absurd hpre hr
      · simp only [moved, hr, hrm, if_false] at h ⊢
        have hpm : ¬ p <+: r ++ [m] := fun hp => by simp [hp] at h
        have hp : ¬ p <+: r := fun hp => hpm (hp.trans (List.prefix_append r [m]))
        simp only [hpm, hp, if_false] at h ⊢
        exact t.closed r m h
  plain := by
    intro r m h
    by_cases hr : (q ++ [n]) <+: r
    · have hrm : (q ++ [n]) <+: r ++ [m] := hr.trans (List.prefix_append r [m])
      simp only [moved, hrm, if_true] at h
      rw [List.drop_append_of_le_length hr.length_le, ← List.append_assoc] at h
      exact t.plain _ _ h
    · by_cases hrm : (q ++ [n]) <+: r ++ [m]
      · rcases List.prefix_concat_iff.mp hrm with heq | hpre
        · obtain ⟨-, heq'⟩ := List.append_inj' heq rfl
          rw [List.cons.injEq] at heq'
          exact heq'.1 ▸ hplain
        · exact absurd hpre hr
      · simp only [moved, hrm, if_false] at h
        have hpm : ¬ p <+: r ++ [m] := fun hp => by simp [hp] at h
        simp only [hpm, if_false] at h
        exact t.plain r m h
  listed := by
    intro r h
    by_cases hr : (q ++ [n]) <+: r
    · obtain ⟨s, rfl⟩ := hr
      simp only [moved, List.prefix_append, if_true, List.drop_left] at h
      refine List.mem_append_right _ (List.mem_map.mpr ⟨_, t.listed _ h, ?_⟩)
      simp
    · simp only [moved, hr, if_false] at h
      have hp : ¬ p <+: r := fun hp => by simp [hp] at h
      simp only [hp, if_false] at h
      exact List.mem_append_left _ (t.listed r h)
  ino_lt := by
    intro r i h
    unfold moved at h
    split_ifs at h
    · exact t.ino_lt _ i h
    · exact t.ino_lt _ i h
  ino_inj := by
    intro a b i ha hb
    unfold moved at ha hb
    split_ifs at ha hb with h1 h2 h3 h4 h5 h6
    · obtain ⟨x, rfl⟩ := h1
      obtain ⟨y, rfl⟩ := h2
      have := t.ino_inj _ _ i ha hb
      simpa using this
    · exact absurd (t.ino_inj _ _ i ha hb ▸ List.prefix_append p _) h3
    · exact absurd (t.ino_inj _ _ i hb ha ▸ List.prefix_append p _) h4
    · exact t.ino_inj _ _ i ha hb

/-! ## What the operations change -/

@[simp] theorem write_entry (i : ℕ) (b : Bytes) : (t.write i b).entry = t.entry := rfl

@[simp] theorem write_data (i : ℕ) (b : Bytes) :
    (t.write i b).data = Function.update t.data i b := rfl

theorem write_write (i : ℕ) (b b' : Bytes) : (t.write i b).write i b' = t.write i b' := by
  simp [write]

/-- Writing the bytes of a file over themselves changes nothing. -/
theorem write_self {i : ℕ} {b : Bytes} (h : t.data i = b) : t.write i b = t := by
  rw [write, ← h, Function.update_eq_self]

@[simp] theorem add_entry {p : Path} {n : Name} {node : Node} (h₁ h₂ h₃ h₄) :
    (t.add p n node h₁ h₂ h₃ h₄).entry = Function.update t.entry (p ++ [n]) (some node) := rfl

@[simp] theorem drop_entry {p : Path} (h₁ h₂) :
    (t.drop p h₁ h₂).entry = Function.update t.entry p none := rfl

@[simp] theorem drop_data {p : Path} (h₁ h₂) : (t.drop p h₁ h₂).data = t.data := rfl

@[simp] theorem move_entry {p q : Path} {n : Name} (h₁ h₂ h₃) :
    (t.move p q n h₁ h₂ h₃).entry = t.moved p (q ++ [n]) := rfl

@[simp] theorem move_data {p q : Path} {n : Name} (h₁ h₂ h₃) :
    (t.move p q n h₁ h₂ h₃).data = t.data := rfl

/-- A used inode keeps its bytes when a node is added. -/
theorem add_data_of_lt {p : Path} {n : Name} {node : Node} (h₁ h₂ h₃ h₄) {i : ℕ}
    (hi : i < t.fresh) : (t.add p n node h₁ h₂ h₃ h₄).data i = t.data i :=
  Function.update_of_ne (Nat.ne_of_lt hi) _ _

/-- Outside the old and the new place nothing moves. -/
theorem moved_of_not_prefix {p q r : Path} (hq : ¬ q <+: r) (hp : ¬ p <+: r) :
    t.moved p q r = t.entry r := by
  simp [moved, hq, hp]

end FileTree

end CloudStore.Library
