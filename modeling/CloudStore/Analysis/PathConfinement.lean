import CloudStore.Interface.FileEffects
import CloudStore.Interface.Calls

/-!
# Path confinement

What `PathGuard::resolve` returns is the text of a path at or below the real root of the
user, without dots and without a symbolic link on the way, so every file call on the text
acts inside the real root.
-/

set_option autoImplicit false

namespace CloudStore.Analysis

open CloudStore.Library (Bytes Path Plain FileTree)
open CloudStore.Library.Posix
open CloudStore.Model
open CloudStore.Model.World (files)
open CloudStore.Interface

/-- The text of `p` stays inside the directory `root`. -/
structure Confined (t : FileTree) (root p : Path) : Prop where
  /-- It is the root, or extends it by whole components. -/
  below : root <+: p
  /-- No component is empty, `.` or `..`, or holds a slash or a zero byte. -/
  plain : ∀ n ∈ p, Plain n
  no_dots : ∀ c ∈ components (render p), c ≠ str "." ∧ c ≠ str ".."
  /-- No link is among its components. -/
  no_link : ∀ q, q <+: p → ∀ g, t.entry q ≠ some (.link g)
  /-- File calls on the text lead to `p` or nowhere. -/
  leads : ∀ follow q, locate t follow (render p) = .ok q → q = p

/-- A plain path has no dots in its text. -/
theorem components_render_plain {p : Path} (hp : ∀ n ∈ p, Plain n) :
    ∀ c ∈ components (render p), c ≠ str "." ∧ c ≠ str ".." := by
  have hempty : ([] : Bytes) ≠ str "." ∧ ([] : Bytes) ≠ str ".." := by decide
  intro c hc
  by_cases h0 : p = []
  · subst h0
    have hroot : components (render []) = [[], []] := rfl
    rw [hroot] at hc
    have hnil : c = [] := by simpa using hc
    exact hnil ▸ hempty
  · rw [components_render hp h0] at hc
    cases List.mem_cons.mp hc with
    | inl h => exact h ▸ hempty
    | inr h => exact ⟨(hp c h).2.1, (hp c h).2.2.1⟩

/-- A path that is reached without links is confined to what it lies below. -/
theorem confined_of_grounded {t : FileTree} {root p : Path} (h : Grounded t p)
    (hbelow : root <+: p) : Confined t root p where
  below := hbelow
  plain := h.plain
  no_dots := components_render_plain h.plain
  no_link := fun _ hq => h.no_link_prefix hq
  leads := fun _ _ hq => h.locate hq

/-- **Path confinement.** On every file tree, for every user root and every logical path,
`resolve` throws, or returns the text of a path that is confined to the real root; it
changes nothing. -/
theorem path_confinement (env : Env) (w : World) (userRoot logical : Bytes) (mustExist : Bool) :
    (∃ e, PathGuard.resolve (files env) userRoot logical mustExist w = (.error e, w)) ∨
      ∃ root p, PathGuard.resolve (files env) userRoot logical mustExist w = (.ok (render p), w) ∧
        realpath w.fs userRoot = .ok (render root) ∧ Confined w.fs root p := by
  rcases hresolve : PathGuard.resolve (files env) userRoot logical mustExist w with ⟨e | result, w'⟩
  · have hsame := (@resolve_reads env userRoot logical mustExist).end_eq hresolve
    exact Or.inl ⟨e, by rw [hsame]⟩
  · obtain ⟨rfl, root, p, hreal, -, hground, hin, rfl⟩ := resolve_spec env hresolve
    exact Or.inr ⟨root, p, rfl, hreal, confined_of_grounded hground hin⟩

end CloudStore.Analysis
