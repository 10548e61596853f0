import Mathlib.Data.List.Basic
import Mathlib.Data.List.Infix
import Mathlib.Data.List.Induction
import Mathlib.Tactic.Common

/-!
# Walks with a stack

A list is read from the left with a stack: an item is skipped, pushed, takes the last item off
the stack, or stops the walk with an error. The remaining items are those on the stack.
-/

set_option autoImplicit false

namespace CloudStore.Library.StackWalk

variable {α ε : Type}

/-- What an item does to the stack. -/
inductive Move (ε : Type) where
  | skip
  | keep
  /-- Take the last item off; there must be one. -/
  | up (e : ε)
  | refuse (e : ε)

/-- The stack behind a list of items. -/
def walk (move : α → Move ε) : List α → List α → Except ε (List α)
  | st, [] => .ok st
  | st, c :: items =>
    match move c with
    | .skip => walk move st items
    | .keep => walk move (st ++ [c]) items
    | .up e => if st.isEmpty then .error e else walk move st.dropLast items
    | .refuse e => .error e

/-- The items `st` remain of what is read without an offence. -/
inductive Reads (move : α → Move ε) : List α → List α → Prop
  | nil : Reads move [] []
  | skip {items st : List α} {c : α} (h : Reads move items st) (hc : move c = .skip) :
      Reads move (items ++ [c]) st
  | keep {items st : List α} {c : α} (h : Reads move items st) (hc : move c = .keep) :
      Reads move (items ++ [c]) (st ++ [c])
  | up {items st : List α} {c d : α} {e : ε} (h : Reads move items (st ++ [d]))
      (hc : move c = .up e) : Reads move (items ++ [c]) st

/-- An item is the first offence behind others. -/
inductive Offends (move : α → Move ε) (items : List α) (c : α) : Prop
  | up {e : ε} (h : Reads move items []) (hc : move c = .up e) : Offends move items c
  | refuse {st : List α} {e : ε} (h : Reads move items st) (hc : move c = .refuse e) :
      Offends move items c

variable {move : α → Move ε}

theorem walk_append (st items more : List α) :
    walk move st (items ++ more) = (walk move st items).bind fun st' => walk move st' more := by
  induction items generalizing st with
  | nil => rfl
  | cons c items ih =>
      rw [List.cons_append, walk, walk]
      cases move c with
      | skip => exact ih st
      | keep => exact ih (st ++ [c])
      | up e =>
          dsimp only
          split
          · rfl
          · exact ih st.dropLast
      | refuse e => rfl

/-- Items that are kept are pushed. -/
theorem walk_keeps {items : List α} (h : ∀ c ∈ items, move c = .keep) (st : List α) :
    walk move st items = .ok (st ++ items) := by
  induction items generalizing st with
  | nil => simp [walk]
  | cons c items ih =>
      rw [walk, h c List.mem_cons_self]
      dsimp only
      rw [ih (fun d hd => h d (List.mem_cons_of_mem _ hd))]
      simp

/-- Items that are skipped leave the stack. -/
theorem walk_skips {items : List α} (h : ∀ c ∈ items, move c = .skip) (st : List α) :
    walk move st items = .ok st := by
  induction items generalizing st with
  | nil => rfl
  | cons c items ih =>
      rw [walk, h c List.mem_cons_self]
      exact ih (fun d hd => h d (List.mem_cons_of_mem _ hd)) st

/-- What remains has been kept. -/
theorem walk_kept {items st out : List α} (h : walk move st items = .ok out)
    (hst : ∀ c ∈ st, move c = .keep) : ∀ c ∈ out, move c = .keep := by
  induction items generalizing st with
  | nil =>
      simp only [walk, Except.ok.injEq] at h
      exact h ▸ hst
  | cons c items ih =>
      rw [walk] at h
      cases hmove : move c with
      | skip =>
          rw [hmove] at h
          exact ih h hst
      | keep =>
          rw [hmove] at h
          apply ih h
          intro d hd
          rcases List.mem_append.mp hd with hd | hd
          · exact hst d hd
          · rw [List.mem_singleton.mp hd]
            exact hmove
      | up e =>
          rw [hmove] at h
          dsimp only at h
          split at h
          · simp at h
          · exact ih h fun d hd => hst d (List.mem_of_mem_dropLast hd)
      | refuse e => simp [hmove] at h

/-- A walk that ends comes to no item that is refused. -/
theorem walk_not_refused {items st out : List α} (h : walk move st items = .ok out) :
    ∀ c ∈ items, ∀ e, move c ≠ .refuse e := by
  induction items generalizing st with
  | nil => simp
  | cons c items ih =>
      rw [walk] at h
      intro d hd
      rcases List.mem_cons.mp hd with rfl | hd
      · rintro e he
        simp [he] at h
      · cases hmove : move c with
        | skip =>
            rw [hmove] at h
            exact ih h d hd
        | keep =>
            rw [hmove] at h
            exact ih h d hd
        | up e =>
            rw [hmove] at h
            dsimp only at h
            split at h
            · simp at h
            · exact ih h d hd
        | refuse e => simp [hmove] at h

/-- **A walk that ends has read everything.** -/
theorem walk_ok_iff {items st : List α} : walk move [] items = .ok st ↔ Reads move items st := by
  constructor
  · intro h
    induction items using List.reverseRecOn generalizing st with
    | nil =>
        simp only [walk, Except.ok.injEq] at h
        exact h ▸ Reads.nil
    | append_singleton items c ih =>
        rw [walk_append] at h
        cases hwalk : walk move [] items with
        | error e => simp [hwalk, Except.bind] at h
        | ok st' =>
            rw [hwalk] at h
            simp only [Except.bind, walk] at h
            cases hmove : move c with
            | skip =>
                simp only [hmove, Except.ok.injEq] at h
                exact h ▸ (ih hwalk).skip hmove
            | keep =>
                simp only [hmove, Except.ok.injEq] at h
                exact h ▸ (ih hwalk).keep hmove
            | up e =>
                simp only [hmove] at h
                split at h
                · simp at h
                next hne =>
                  simp only [Except.ok.injEq] at h
                  subst h
                  have hne' : st' ≠ [] := by simpa using hne
                  apply Reads.up _ hmove
                  · exact st'.getLast hne'
                  · rw [List.dropLast_append_getLast]
                    exact ih hwalk
            | refuse e => simp [hmove] at h
  · intro h
    induction h with
    | nil => rfl
    | skip h hc ih => simp [walk_append, ih, Except.bind, walk, hc]
    | keep h hc ih => simp [walk_append, ih, Except.bind, walk, hc]
    | up h hc ih => simp [walk_append, ih, Except.bind, walk, hc]

/-- **A walk fails at the first offence.** -/
theorem walk_error_iff {items : List α} : (∃ e, walk move [] items = .error e) ↔
    ∃ before c after, items = before ++ c :: after ∧ Offends move before c := by
  constructor
  · rintro ⟨e, h⟩
    induction items using List.reverseRecOn with
    | nil => simp [walk] at h
    | append_singleton items c ih =>
        cases hwalk : walk move [] items with
        | error e' =>
            have heq : e' = e := by
              rw [walk_append, hwalk] at h
              simpa [Except.bind] using h
            obtain ⟨before, d, after, hitems, hoffends⟩ := ih (heq ▸ hwalk)
            exact ⟨before, d, after ++ [c], by simp [hitems], hoffends⟩
        | ok st =>
            rw [walk_append, hwalk] at h
            simp only [Except.bind, walk] at h
            have hreads := walk_ok_iff.mp hwalk
            refine ⟨items, c, [], rfl, ?_⟩
            cases hmove : move c with
            | skip => simp [hmove] at h
            | keep => simp [hmove] at h
            | up e' =>
                simp only [hmove] at h
                split at h
                next hempty =>
                  have hst : st = [] := by simpa using hempty
                  exact Offends.up (hst ▸ hreads) hmove
                · simp at h
            | refuse e' => exact Offends.refuse hreads hmove
  · rintro ⟨before, c, after, rfl, hoffends⟩
    rw [show before ++ c :: after = before ++ ([c] ++ after) from rfl, ← List.append_assoc,
      walk_append, walk_append]
    cases hoffends with
    | up h hc => exact ⟨_, by simp [walk_ok_iff.mpr h, Except.bind, walk, hc]; rfl⟩
    | refuse h hc => exact ⟨_, by simp [walk_ok_iff.mpr h, Except.bind, walk, hc]; rfl⟩

end CloudStore.Library.StackWalk
