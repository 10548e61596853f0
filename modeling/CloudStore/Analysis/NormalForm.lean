import CloudStore.Interface.NormalForm

/-!
# Normal forms of logical paths

What `normalizeLogical` returns is a list of names joined by slashes, is its own normal form,
and stands for the path in front of any other. It throws at the first offence: a `..` without a
component left, or an illegal one.
-/

set_option autoImplicit false

namespace CloudStore.Analysis

open CloudStore.Library (Bytes)
open CloudStore.Library.Posix (components)
open CloudStore.Library.StackWalk
open CloudStore.Model
open CloudStore.Model.PathGuard
open CloudStore.Interface

/-- **Normal forms of logical paths.** -/
theorem normal_form_canonical (a : Bytes) :
    (∀ n, normalizeLogical a = .ok n → Normal n ∧ normalizeLogical n = .ok n ∧
      ∀ b, normalizeLogical (a ++ 47 :: b) = normalizeLogical (n ++ 47 :: b)) ∧
    ((∃ e, normalizeLogical a = .error e) ↔ 0 ∈ a ∨
      ∃ before c after, split a 47 = before ++ c :: after ∧ Offends componentMove before c) := by
  by_cases hzero : 0 ∈ a
  · have hthrows : normalizeLogical a = .error (.cloud .forbidden (str "invalid path")) := by
      unfold normalizeLogical
      rw [if_pos (show hasNul a = true by simpa [hasNul] using hzero)]
    constructor
    · intro n h
      rw [hthrows] at h
      simp at h
    · exact iff_of_true ⟨_, hthrows⟩ (Or.inl hzero)
  constructor
  · intro n h
    rw [normalizeLogical_eq hzero] at h
    cases hwalk : walk componentMove [] (components a) with
    | error e => simp [hwalk, Except.map] at h
    | ok names =>
        have hnames := names_of_walk hzero hwalk
        rw [hwalk] at h
        obtain rfl : [47].intercalate names = n := by simpa [Except.map] using h
        have hclean : 0 ∉ [47].intercalate names := by
          intro hb
          have hrender : (0 : UInt8) ∈ Library.Posix.render names := List.mem_cons_of_mem _ hb
          rcases Library.Posix.mem_render hrender with hslash | ⟨c, hc, hb⟩
          · exact absurd hslash (by decide)
          · exact (hnames c hc).2.2 hb
        have hjoined : walk componentMove [] (components ([47].intercalate names)) = .ok names :=
          walk_joined hnames []
        refine ⟨⟨names, rfl, fun c hc => ?_⟩, ?_, fun b => ?_⟩
        · obtain ⟨hkeep, hslash, hnul⟩ := hnames c hc
          obtain ⟨hnil, hdot, hup, htilde, hback⟩ := keep_of_move hkeep
          exact ⟨hnil, hdot, hup, htilde, hslash, hback, hnul⟩
        · rw [normalizeLogical_eq hclean, hjoined]
          rfl
        · by_cases hb : 0 ∈ b
          · unfold normalizeLogical
            rw [if_pos (show hasNul (a ++ 47 :: b) = true by simp [hasNul, hb]),
              if_pos (show hasNul ([47].intercalate names ++ 47 :: b) = true by simp [hasNul, hb])]
          · rw [normalizeLogical_eq (by simp [hzero, hb]), normalizeLogical_eq (by simp [hclean, hb]),
              Library.Posix.components_append_slash, Library.Posix.components_append_slash,
              walk_append, walk_append, hwalk, hjoined]
  · rw [split_eq_components, ← walk_error_iff, or_iff_right hzero, normalizeLogical_eq hzero]
    cases walk componentMove [] (components a) with
    | error e => simp [Except.map]
    | ok names => simp [Except.map]

end CloudStore.Analysis
