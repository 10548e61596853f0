import CloudStore.Interface.PathText
import CloudStore.Library.StackWalk

/-!
# Normal forms

`normalizeLogical` walks over the components of a path with a stack; what remains are names.
-/

set_option autoImplicit false

namespace CloudStore.Interface

open CloudStore.Library (Bytes Path Plain)
open CloudStore.Library.Posix (components render)
open CloudStore.Library.StackWalk
open CloudStore.Model
open CloudStore.Model.PathGuard

/-- A component with `~` as its text or with a backslash. -/
def Illegal (c : Bytes) : Prop := c = str "~" ∨ c.contains 92

instance (c : Bytes) : Decidable (Illegal c) := inferInstanceAs (Decidable (_ ∨ _))

/-- What `normalizeLogical` does with a component. -/
def componentMove (c : Bytes) : Move Exn :=
  if c = [] ∨ c = str "." then .skip
  else if c = str ".." then .up (.cloud .forbidden (str "path traversal denied"))
  else if Illegal c then .refuse (.cloud .forbidden (str "illegal path component"))
  else .keep

theorem normalizeLoop_eq (st parts : List Bytes) :
    normalizeLoop st parts = walk componentMove st parts := by
  induction parts generalizing st with
  | nil => rfl
  | cons c parts ih =>
      unfold componentMove
      rw [normalizeLoop, walk]
      by_cases hskip : c = [] ∨ c = str "."
      · simp only [if_pos hskip]
        exact ih st
      by_cases hup : c = str ".."
      · simp only [if_neg hskip, if_pos hup, List.isEmpty_iff]
        split
        · rfl
        · exact ih st.dropLast
      by_cases hbad : Illegal c
      · simp only [if_neg hskip, if_neg hup, if_pos hbad]
        exact if_pos hbad
      · simp only [if_neg hskip, if_neg hup, if_neg hbad]
        exact (if_neg hbad).trans (ih (st ++ [c]))

/-- Names joined by slashes, none of them empty, `.`, `..` or `~`, or with a slash, a backslash
or a zero byte. -/
def Normal (n : Bytes) : Prop :=
  ∃ names : List Bytes, n = [47].intercalate names ∧ ∀ c ∈ names,
    c ≠ [] ∧ c ≠ str "." ∧ c ≠ str ".." ∧ c ≠ str "~" ∧ 47 ∉ c ∧ 92 ∉ c ∧ 0 ∉ c

theorem keep_of_move {c : Bytes} (h : componentMove c = .keep) :
    c ≠ [] ∧ c ≠ str "." ∧ c ≠ str ".." ∧ c ≠ str "~" ∧ 92 ∉ c := by
  unfold componentMove at h
  split_ifs at h with hskip hup hbad
  obtain ⟨hnil, hdot⟩ := not_or.mp hskip
  obtain ⟨htilde, hback⟩ := not_or.mp hbad
  exact ⟨hnil, hdot, hup, htilde, by simpa using hback⟩

/-- The result of a walk over the components of a path, if the path has no zero byte. -/
theorem normalizeLogical_eq {a : Bytes} (hzero : 0 ∉ a) :
    normalizeLogical a = (walk componentMove [] (components a)).map ([47].intercalate ·) := by
  have hnul : ¬ hasNul a = true := by simpa [hasNul] using hzero
  unfold normalizeLogical
  rw [if_neg hnul, split_eq_components, normalizeLoop_eq]
  exact congrArg (fun f => (walk componentMove [] (components a)).map f) (funext joinStack_eq)

/-- What remains of a path without a zero byte are names that are kept. -/
theorem names_of_walk {a : Bytes} (hzero : 0 ∉ a) {names : List Bytes}
    (h : walk componentMove [] (components a) = .ok names) : ∀ c ∈ names,
    componentMove c = .keep ∧ 47 ∉ c ∧ 0 ∉ c := by
  have hplain := @normalizeLoop_plain [] _ _ (by simp) (fun c hc =>
    ⟨fun hb => (Library.Posix.mem_component hc hb).2 rfl,
      fun hb => hzero (Library.Posix.mem_component hc hb).1⟩) ((normalizeLoop_eq _ _).trans h)
  intro c hc
  obtain ⟨-, -, -, hslash, hnul⟩ := hplain c hc
  exact ⟨walk_kept h (by simp) c hc, hslash, hnul⟩

/-- The components of names joined by slashes put the names on the stack. -/
theorem walk_joined {names : List Bytes}
    (h : ∀ c ∈ names, componentMove c = .keep ∧ 47 ∉ c ∧ 0 ∉ c) (st : List Bytes) :
    walk componentMove st (components ([47].intercalate names)) = .ok (st ++ names) := by
  by_cases hne : names = []
  · subst hne
    rw [List.append_nil]
    apply walk_skips
    intro c hc
    have hnil : c = [] := by simpa [components] using hc
    subst hnil
    rfl
  · rw [Library.Posix.components_intercalate hne fun c hc => (h c hc).2.1]
    exact walk_keeps (fun c hc => (h c hc).1) st

/-! ## Texts of paths -/

/-- A plain name is kept, unless it is illegal. -/
theorem componentMove_plain {c : Bytes} (hc : Plain c) : componentMove c =
    if Illegal c then .refuse (.cloud .forbidden (str "illegal path component")) else .keep := by
  have hskip : ¬ (c = [] ∨ c = str ".") := not_or.mpr ⟨hc.1, hc.2.1⟩
  have hup : c ≠ str ".." := hc.2.2.1
  unfold componentMove
  rw [if_neg hskip, if_neg hup]

/-- The text of a path of legal names is its own normal form, behind a slash. -/
theorem normalizeLogical_render {p : Path} (hp : ∀ n ∈ p, Plain n) (hlegal : ∀ n ∈ p, ¬ Illegal n) :
    normalizeLogical (render p) = .ok ([47].intercalate p) := by
  have hsplit : components (render p) = [] :: components ([47].intercalate p) :=
    Library.Posix.components_append_slash [] _
  have hkept : ∀ c ∈ p, componentMove c = .keep ∧ 47 ∉ c ∧ 0 ∉ c := by
    intro c hc
    rw [componentMove_plain (hp c hc), if_neg (hlegal c hc)]
    exact ⟨rfl, (hp c hc).2.2.2.1, (hp c hc).2.2.2.2⟩
  rw [normalizeLogical_eq (Library.Posix.zero_not_mem_render hp), hsplit, walk]
  show (walk componentMove [] (components ([47].intercalate p))).map _ = _
  rw [walk_joined hkept]
  rfl

/-- A path whose text has a normal form has legal names. -/
theorem legal_of_normalizeLogical {p : Path} (hp : ∀ n ∈ p, Plain n) {norm : Bytes}
    (h : normalizeLogical (render p) = .ok norm) : ∀ n ∈ p, ¬ Illegal n := by
  intro n hn hbad
  have hne : p ≠ [] := List.ne_nil_of_mem hn
  have hsplit : components (render p) = [] :: components ([47].intercalate p) :=
    Library.Posix.components_append_slash [] _
  rw [Library.Posix.components_intercalate hne fun m hm => (hp m hm).2.2.2.1] at hsplit
  rw [normalizeLogical_eq (Library.Posix.zero_not_mem_render hp), hsplit] at h
  cases hwalk : walk componentMove [] ([] :: p) with
  | error e => simp [hwalk, Except.map] at h
  | ok names =>
      have hrefused := walk_not_refused hwalk n (List.mem_cons_of_mem _ hn)
      rw [componentMove_plain (hp n hn), if_pos hbad] at hrefused
      exact hrefused _ rfl

end CloudStore.Interface
