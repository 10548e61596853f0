import CloudStore.Library.PathWalk
import CloudStore.Model.PathGuard

/-!
# Path texts of the server

What `split`, `joinPath`, `startsWithPath` and `normalizeLogical` do on the texts of
paths: they are the list operations on the names of the path.
-/

set_option autoImplicit false

namespace CloudStore.Interface

open CloudStore.Library (Bytes Name Path Plain)
open CloudStore.Library.Posix
open CloudStore.Model

/-- The loop of `split` puts the part read so far in front of the first component. -/
theorem splitLoop_eq (cur s : Bytes) :
    splitLoop 47 cur s = (components s).modifyHead (cur ++ ·) := by
  induction s generalizing cur with
  | nil => simp [splitLoop, components]
  | cons c s ih =>
      rw [splitLoop, components, List.splitOn_cons_eq_if_modifyHead]
      by_cases hc : c = 47
      · cases hcs : List.splitOn 47 s <;> simp [hc, ih, components, hcs]
      · have hl := components_ne_nil s
        rw [if_neg hc, if_neg (by simpa using hc), ih]
        cases hcs : components s with
        | nil => exact absurd hcs hl
        | cons d ds =>
            rw [components] at hcs
            simp [hcs]

theorem split_eq_components (s : Bytes) : split s 47 = components s := by
  rw [split, splitLoop_eq]
  cases h : components s with
  | nil => rfl
  | cons d ds => simp

theorem joinStack_eq (st : List Bytes) : PathGuard.joinStack st = [47].intercalate st := by
  induction st with
  | nil => rfl
  | cons c st ih =>
      cases st with
      | nil => simp [PathGuard.joinStack]
      | cons d st =>
          rw [PathGuard.joinStack, ih, List.intercalate_cons_cons]
          · rfl
          · simp

/-! ## Normal forms -/

/-- The loop of `normalizeLogical` only keeps plain names. -/
theorem normalizeLoop_plain {st parts out : List Bytes} (hst : ∀ n ∈ st, Plain n)
    (hparts : ∀ n ∈ parts, (47 : UInt8) ∉ n ∧ (0 : UInt8) ∉ n)
    (h : PathGuard.normalizeLoop st parts = .ok out) : ∀ n ∈ out, Plain n := by
  induction parts generalizing st with
  | nil =>
      simp only [PathGuard.normalizeLoop, Except.ok.injEq] at h
      exact h ▸ hst
  | cons c parts ih =>
      have hrest : ∀ n ∈ parts, (47 : UInt8) ∉ n ∧ (0 : UInt8) ∉ n :=
        fun n hn => hparts n (List.mem_cons_of_mem _ hn)
      rw [PathGuard.normalizeLoop] at h
      split_ifs at h with h1 h2 h3 h4
      · exact ih hst hrest h
      · exact ih (fun n hn => hst n (List.mem_of_mem_dropLast hn)) hrest h
      · refine ih (fun n hn => ?_) hrest h
        rcases List.mem_append.mp hn with hn | hn
        · exact hst n hn
        · rw [List.mem_singleton.mp hn]
          rw [not_or] at h1
          exact ⟨h1.1, h1.2, h2, (hparts c (by simp)).1, (hparts c (by simp)).2⟩

/-- **A normal form is a list of plain names**, joined by slashes. -/
theorem normalizeLogical_ok {s norm : Bytes} (h : PathGuard.normalizeLogical s = .ok norm) :
    ∃ names : Path, (∀ n ∈ names, Plain n) ∧ norm = [47].intercalate names ∧
      PathGuard.normalizeLoop [] (components s) = .ok names := by
  unfold PathGuard.normalizeLogical at h
  split_ifs at h with hnul
  rw [split_eq_components] at h
  cases hloop : PathGuard.normalizeLoop [] (components s) with
  | error e => simp [hloop, Except.map] at h
  | ok names =>
      simp only [hloop, Except.map, Except.ok.injEq] at h
      refine ⟨names, ?_, by rw [← h, joinStack_eq], rfl⟩
      refine normalizeLoop_plain (by simp) (fun n hn => ?_) hloop
      have hzero : (0 : UInt8) ∉ s := by
        simpa [PathGuard.hasNul] using hnul
      exact ⟨fun hb => (mem_component hn hb).2 rfl, fun hb => hzero (mem_component hn hb).1⟩

/-- The parts of a normal form are its names. -/
theorem split_intercalate {names : Path} (hne : names ≠ []) (hplain : ∀ n ∈ names, Plain n) :
    split ([47].intercalate names) 47 = names := by
  rw [split_eq_components]
  exact components_intercalate hne fun n hn => (hplain n hn).2.2.2.1

theorem intercalate_eq_nil {names : Path} (hplain : ∀ n ∈ names, Plain n) :
    [47].intercalate names = [] ↔ names = [] := by
  constructor
  · intro h
    cases names with
    | nil => rfl
    | cons n names =>
        have hn := (hplain n (by simp)).1
        cases names with
        | nil => simp [hn] at h
        | cons m names => simp [List.intercalate_cons_cons] at h
  · rintro rfl
    rfl

/-- A slash and a normal form are the text of a path. -/
theorem slash_normal {names : Path} : str "/" ++ [47].intercalate names = render names := rfl

/-! ## Rendered paths -/

theorem components_render {p : Path} (hp : ∀ n ∈ p, Plain n) (hne : p ≠ []) :
    components (render p) = [] :: p := by
  have := components_append_slash [] ([47].intercalate p)
  rw [components_intercalate hne fun n hn => (hp n hn).2.2.2.1] at this
  exact this

/-- The text of a path other than the root does not end in a slash. -/
theorem getLast?_render {p : Path} (hp : ∀ n ∈ p, Plain n) (hne : p ≠ []) :
    (render p).getLast? ≠ some 47 := by
  induction p using List.reverseRecOn with
  | nil => exact absurd rfl hne
  | append_singleton q n _ =>
      have hn := hp n (by simp)
      have hlast : ∀ s : Bytes, (s ++ 47 :: n).getLast? = n.getLast? := by
        intro s
        rw [← List.singleton_append, ← List.append_assoc,
          List.getLast?_append_of_ne_nil _ hn.1]
      have hslash : n.getLast? ≠ some 47 := fun h => hn.2.2.2.1 (List.mem_of_getLast? h)
      rw [render_append_singleton]
      split_ifs with hq
      · have := hlast []
        rw [List.nil_append] at this
        rwa [this]
      · rwa [hlast]

/-- `joinPath` appends a name to the text of a path. -/
theorem joinPath_render {p : Path} (hp : ∀ n ∈ p, Plain n) {n : Name} (hne : n ≠ [])
    (hslash : (47 : UInt8) ∉ n) : joinPath (render p) n = render (p ++ [n]) := by
  have hhead : n.head? ≠ some 47 := fun h => hslash (List.mem_of_head? h)
  rw [render_append_singleton]
  by_cases hp0 : p = []
  · subst hp0
    simp [joinPath, hne, hhead]
  · have hr : render p ≠ [] := by simp [render]
    simp [joinPath, hr, hne, hhead, hp0, getLast?_render hp hp0, str]

/-- **`startsWithPath` compares whole components.** -/
theorem startsWithPath_render {p r : Path} (hp : ∀ n ∈ p, Plain n) (hr : ∀ n ∈ r, Plain n) :
    startsWithPath (render p) (render r) = true ↔ r <+: p := by
  unfold startsWithPath
  by_cases hpr : render p = render r
  · simp [render_injective hp hr hpr]
  · rw [if_neg hpr]
    by_cases hr0 : r = []
    · subst hr0
      simp [render]
    · rw [if_neg (getLast?_render hr hr0)]
      have hslash : str "/" = [47] := by decide
      simp only [hslash, List.isPrefixOf_iff_prefix]
      constructor
      · rintro ⟨rest, hrest⟩
        -- cut both texts at their slashes
        have hcomp : components (render p) = components (render r) ++ components rest := by
          rw [← hrest, List.append_assoc]
          exact components_append_slash _ _
        have hcr : ∀ q : Path, (∀ n ∈ q, Plain n) → q ≠ [] → components (render q) = [] :: q := by
          intro q hq hq0
          have := components_append_slash [] ([47].intercalate q)
          rw [components_intercalate hq0 fun n hn => (hq n hn).2.2.2.1] at this
          exact this
        have hp0 : p ≠ [] := by
          rintro rfl
          have : (render r).length < 1 := by
            have := congrArg List.length hrest
            simp at this
            omega
          simp [render] at this
        rw [hcr p hp hp0, hcr r hr hr0, List.cons_append, List.cons.injEq] at hcomp
        exact ⟨_, hcomp.2.symm⟩
      · rintro ⟨rest, rfl⟩
        cases rest with
        | nil => simp at hpr
        | cons n rest =>
            refine ⟨[47].intercalate (n :: rest), ?_⟩
            rw [render, render, List.cons_append, List.cons_append, List.cons.injEq]
            refine ⟨rfl, ?_⟩
            clear hpr hp hr
            induction r with
            | nil => exact absurd rfl hr0
            | cons m r ih =>
                cases r with
                | nil => simp [List.intercalate_cons_cons]
                | cons m' r =>
                    have := ih (by simp)
                    simp only [List.cons_append, List.intercalate_cons_cons,
                      List.append_assoc] at this ⊢
                    simpa using this

end CloudStore.Interface
