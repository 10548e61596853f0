import Mathlib.Logic.Basic
import Mathlib.Logic.Relation

/-!
# Actions: programs with a state and exceptions

An `Action ε σ α` is a function from a state to an answer and the state reached. The
answer is a value or an exception, and the state reached stays in both cases: an
exception undoes nothing. A program that works on a part of a larger state is carried
there by `Action.zoom`.

Two judgments are set up. `Action.Moves R a` says that every run of `a` relates the
state it starts from to the state it ends in; `Action.Meets` is the postcondition
judgment, with one postcondition for values and one for exceptions. Both have one rule
for each way of building an action.
-/

set_option autoImplicit false

namespace CloudStore.Library

/-- A program over states `σ` that answers with a value or with an exception. -/
def Action (ε σ α : Type) : Type := σ → Except ε α × σ

namespace Action

variable {ε σ τ α β : Type}

/-- The program that answers `x` and leaves the state alone. -/
def pure (x : α) : Action ε σ α := fun s => (.ok x, s)

/-- Run `a`, then the rest; an exception of `a` skips the rest. -/
def bind (a : Action ε σ α) (f : α → Action ε σ β) : Action ε σ β := fun s =>
  match a s with
  | (.ok x, s') => f x s'
  | (.error e, s') => (.error e, s')

instance : Monad (Action ε σ) where
  pure := Action.pure
  bind := Action.bind

/-- Stop with an exception. -/
def raise (e : ε) : Action ε σ α := fun s => (.error e, s)

/-- Run `a`; an exception of `a` starts the handler in the state `a` left. -/
def rescue (a : Action ε σ α) (h : ε → Action ε σ α) : Action ε σ α := fun s =>
  match a s with
  | (.ok x, s') => (.ok x, s')
  | (.error e, s') => h e s'

instance : MonadExceptOf ε (Action ε σ) where
  throw := Action.raise
  tryCatch := Action.rescue

/-- Answer with a function of the state. -/
def look (f : σ → α) : Action ε σ α := fun s => (.ok (f s), s)

/-- Change the state. -/
def change (f : σ → σ) : Action ε σ Unit := fun s => (.ok (), f s)

/-- Answer with, and move to, a function of the state. -/
def move (f : σ → α × σ) : Action ε σ α := fun s => (.ok (f s).1, (f s).2)

/-- Answer with a value computed beforehand, or stop with its exception. -/
def lift (x : Except ε α) : Action ε σ α := fun s => (x, s)

instance : MonadLift (Except ε) (Action ε σ) where
  monadLift := Action.lift

/-- Run a program of the part `get` of a larger state and put the part back. -/
def zoom (get : σ → τ) (put : τ → σ → σ) (a : Action ε τ α) : Action ε σ α := fun s =>
  ((a (get s)).1, put (a (get s)).2 s)

/-- Run `f` on each element in turn. -/
def each (f : β → Action ε σ Unit) : List β → Action ε σ Unit
  | [] => Action.pure ()
  | x :: xs => Action.bind (f x) fun _ => each f xs

/-! ## Running -/

@[simp] theorem pure_apply (x : α) (s : σ) :
    (Pure.pure x : Action ε σ α) s = (.ok x, s) := rfl

theorem bind_apply (a : Action ε σ α) (f : α → Action ε σ β) (s : σ) :
    (a >>= f) s = match a s with
      | (.ok x, s') => f x s'
      | (.error e, s') => (.error e, s') := rfl

@[simp] theorem throw_apply (e : ε) (s : σ) :
    (throw e : Action ε σ α) s = (.error e, s) := rfl

@[simp] theorem raise_apply (e : ε) (s : σ) :
    (raise e : Action ε σ α) s = (.error e, s) := rfl

theorem tryCatch_apply (a : Action ε σ α) (h : ε → Action ε σ α) (s : σ) :
    (tryCatch a h) s = match a s with
      | (.ok x, s') => (.ok x, s')
      | (.error e, s') => h e s' := rfl

@[simp] theorem look_apply (f : σ → α) (s : σ) :
    (look f : Action ε σ α) s = (.ok (f s), s) := rfl

@[simp] theorem change_apply (f : σ → σ) (s : σ) :
    (change f : Action ε σ Unit) s = (.ok (), f s) := rfl

@[simp] theorem move_apply (f : σ → α × σ) (s : σ) :
    (move f : Action ε σ α) s = (.ok (f s).1, (f s).2) := rfl

@[simp] theorem lift_apply (x : Except ε α) (s : σ) :
    (lift x : Action ε σ α) s = (x, s) := rfl

@[simp] theorem monadLift_apply (x : Except ε α) (s : σ) :
    (liftM x : Action ε σ α) s = (x, s) := rfl

@[simp] theorem zoom_apply (get : σ → τ) (put : τ → σ → σ) (a : Action ε τ α) (s : σ) :
    zoom get put a s = ((a (get s)).1, put (a (get s)).2 s) := rfl

@[simp] theorem each_nil (f : β → Action ε σ Unit) (s : σ) : each f [] s = (.ok (), s) := rfl

theorem each_cons (f : β → Action ε σ Unit) (x : β) (xs : List β) (s : σ) :
    each f (x :: xs) s = (f x >>= fun _ => each f xs) s := rfl

/-- Three parts in a row. -/
theorem bind_bind {γ : Type} (a : Action ε σ α) (f : α → Action ε σ β) (g : β → Action ε σ γ) :
    a >>= f >>= g = a >>= fun x => f x >>= g := by
  funext s
  simp only [bind_apply]
  rcases a s with ⟨_ | _, _⟩ <;> rfl

/-- A value of the first part is handed to the second. -/
theorem bind_ok {a : Action ε σ α} {f : α → Action ε σ β} {s s' : σ} {x : α}
    (h : a s = (.ok x, s')) : (a >>= f) s = f x s' := by
  rw [bind_apply, h]

/-- An exception of the first part is the answer of the whole. -/
theorem bind_error {a : Action ε σ α} {f : α → Action ε σ β} {s s' : σ} {e : ε}
    (h : a s = (.error e, s')) : (a >>= f) s = (.error e, s') := by
  rw [bind_apply, h]

/-- A sequence that answers with a value went through both parts. -/
theorem bind_eq_ok {a : Action ε σ α} {f : α → Action ε σ β} {s s' : σ} {y : β}
    (h : (a >>= f) s = (.ok y, s')) : ∃ x s₁, a s = (.ok x, s₁) ∧ f x s₁ = (.ok y, s') := by
  rcases hs : a s with ⟨e | x, s₁⟩
  · rw [bind_error hs] at h
    simp at h
  · rw [bind_ok hs] at h
    exact ⟨x, s₁, rfl, h⟩

/-! ## Related states -/

/-- Every run of `a` leads from a state to a related one. -/
def Moves (R : σ → σ → Prop) (a : Action ε σ α) : Prop := ∀ s, R s (a s).2

section Moves

variable {R : σ → σ → Prop}

theorem Moves.of_pure (hrefl : ∀ s, R s s) (x : α) :
    Moves R (Pure.pure x : Action ε σ α) := fun s => hrefl s

theorem Moves.of_throw (hrefl : ∀ s, R s s) (e : ε) :
    Moves R (throw e : Action ε σ α) := fun s => hrefl s

theorem Moves.of_look (hrefl : ∀ s, R s s) (f : σ → α) :
    Moves R (look f : Action ε σ α) := fun s => hrefl s

theorem Moves.of_lift (hrefl : ∀ s, R s s) (x : Except ε α) :
    Moves R (lift x : Action ε σ α) := fun s => hrefl s

/-- The sequencing rule, for a transitive relation. -/
theorem Moves.bind (htrans : ∀ s t u, R s t → R t u → R s u) {a : Action ε σ α}
    {f : α → Action ε σ β} (ha : Moves R a) (hf : ∀ x, Moves R (f x)) :
    Moves R (a >>= f) := by
  intro s
  have h := ha s
  rcases hs : a s with ⟨_ | x, s'⟩
  · rw [bind_error hs]
    rwa [hs] at h
  · rw [bind_ok hs]
    rw [hs] at h
    exact htrans _ _ _ h (hf x s')

/-- The sequencing rule from one state: the rest starts where the first part ends. -/
theorem bind_at (htrans : ∀ s t u, R s t → R t u → R s u) {a : Action ε σ α}
    {f : α → Action ε σ β} {s : σ} (ha : R s (a s).2)
    (hf : ∀ x s', a s = (.ok x, s') → R s' (f x s').2) : R s ((a >>= f) s).2 := by
  rcases hs : a s with ⟨_ | x, s'⟩
  · rw [bind_error hs]
    rwa [hs] at ha
  · rw [bind_ok hs]
    rw [hs] at ha
    exact htrans _ _ _ ha (hf x s' hs)

/-- The sequencing rule behind a program that changes nothing. -/
theorem read_bind {a : Action ε σ α} {f : α → Action ε σ β} {s : σ} (hrefl : R s s)
    (hread : (a s).2 = s) (hf : ∀ x, a s = (.ok x, s) → R s (f x s).2) :
    R s ((a >>= f) s).2 := by
  rcases hs : a s with ⟨_ | x, s'⟩
  · rw [bind_error hs]
    have hs' : s' = s := by rw [hs] at hread; exact hread
    exact hs' ▸ hrefl
  · rw [bind_ok hs]
    have hs' : s' = s := by rw [hs] at hread; exact hread
    subst hs'
    exact hf x hs

/-- The handler rule. -/
theorem Moves.tryCatch (htrans : ∀ s t u, R s t → R t u → R s u) {a : Action ε σ α}
    {h : ε → Action ε σ α} (ha : Moves R a) (hh : ∀ e, Moves R (h e)) :
    Moves R (tryCatch a h) := by
  intro s
  have hs := ha s
  rw [tryCatch_apply]
  rcases hr : a s with ⟨e | x, s'⟩
  · rw [hr] at hs
    exact htrans _ _ _ hs (hh e s')
  · rwa [hr] at hs

/-- The loop rule: induction on the list, one run of the body for each element. -/
theorem Moves.each (hrefl : ∀ s, R s s) (htrans : ∀ s t u, R s t → R t u → R s u)
    {f : β → Action ε σ Unit} (hf : ∀ x, Moves R (f x)) (xs : List β) :
    Moves R (each f xs) := by
  induction xs with
  | nil => exact fun s => hrefl s
  | cons x xs ih => exact Moves.bind htrans (hf x) fun _ => ih

end Moves

/-! ## Programs that change nothing -/

/-- No run of `a` changes the state. -/
abbrev Reads (a : Action ε σ α) : Prop := Moves (fun s t => t = s) a

theorem Reads.of_pure (x : α) : Reads (Pure.pure x : Action ε σ α) := fun _ => rfl

theorem Reads.of_throw (e : ε) : Reads (throw e : Action ε σ α) := fun _ => rfl

theorem Reads.of_look (f : σ → α) : Reads (look f : Action ε σ α) := fun _ => rfl

theorem Reads.of_lift (x : Except ε α) : Reads (liftM x : Action ε σ α) := fun _ => rfl

theorem Reads.bind {a : Action ε σ α} {f : α → Action ε σ β} (ha : Reads a)
    (hf : ∀ x, Reads (f x)) : Reads (a >>= f) :=
  Moves.bind (fun _ _ _ h h' => h'.trans h) ha hf

theorem Reads.tryCatch {a : Action ε σ α} {h : ε → Action ε σ α} (ha : Reads a)
    (hh : ∀ e, Reads (h e)) : Reads (tryCatch a h) :=
  Moves.tryCatch (fun _ _ _ h h' => h'.trans h) ha hh

/-- A program that changes nothing ends where it started. -/
theorem Reads.end_eq {a : Action ε σ α} (ha : Reads a) {s s' : σ} {r : Except ε α}
    (h : a s = (r, s')) : s' = s := by
  have hs := ha s
  rwa [h] at hs

/-! ## Postconditions -/

/-- From the state `s`, a value of `a` meets `Q` and an exception meets `E`. -/
def Meets (a : Action ε σ α) (s : σ) (Q : α → σ → Prop) (E : ε → σ → Prop) : Prop :=
  match a s with
  | (.ok x, s') => Q x s'
  | (.error e, s') => E e s'

section Meets

variable {Q : α → σ → Prop} {E : ε → σ → Prop} {s : σ}

@[simp] theorem meets_pure {x : α} : Meets (Pure.pure x : Action ε σ α) s Q E ↔ Q x s := Iff.rfl

@[simp] theorem meets_look {f : σ → α} :
    Meets (look f : Action ε σ α) s Q E ↔ Q (f s) s := Iff.rfl

@[simp] theorem meets_change {f : σ → σ} {Q : Unit → σ → Prop} :
    Meets (change f : Action ε σ Unit) s Q E ↔ Q () (f s) := Iff.rfl

@[simp] theorem meets_move {f : σ → α × σ} :
    Meets (move f : Action ε σ α) s Q E ↔ Q (f s).1 (f s).2 := Iff.rfl

/-- The sequencing rule: what the first part leaves is where the second part starts. -/
theorem meets_bind {a : Action ε σ α} {f : α → Action ε σ β} {Q : β → σ → Prop} :
    Meets (a >>= f) s Q E ↔ Meets a s (fun x s' => Meets (f x) s' Q E) E := by
  unfold Meets
  rw [bind_apply]
  rcases a s with ⟨_ | _, _⟩ <;> exact Iff.rfl

theorem meets_tryCatch {a : Action ε σ α} {h : ε → Action ε σ α} :
    Meets (tryCatch a h) s Q E ↔ Meets a s Q (fun e s' => Meets (h e) s' Q E) := by
  unfold Meets
  rw [tryCatch_apply]
  rcases a s with ⟨_ | _, _⟩ <;> exact Iff.rfl

/-- A lifted value is read off, an exception is the answer. -/
theorem meets_lift {x : Except ε α} :
    Meets (lift x : Action ε σ α) s Q E ↔
      (∀ y, x = .ok y → Q y s) ∧ (∀ e, x = .error e → E e s) := by
  cases x <;> simp [Meets, lift]

/-- What holds wherever a run ends, it meets with values and exceptions. -/
theorem meets_end {a : Action ε σ α} {P : σ → Prop} :
    Meets a s (fun _ s' => P s') (fun _ s' => P s') ↔ P (a s).2 := by
  unfold Meets
  rcases a s with ⟨_ | _, _⟩ <;> exact Iff.rfl

theorem Meets.mono {a : Action ε σ α} {Q' : α → σ → Prop} {E' : ε → σ → Prop}
    (h : Meets a s Q E) (hQ : ∀ x s', Q x s' → Q' x s') (hE : ∀ e s', E e s' → E' e s') :
    Meets a s Q' E' := by
  revert h
  unfold Meets
  rcases a s with ⟨e | x, s'⟩
  · exact hE e s'
  · exact hQ x s'

/-- The sequencing rule, with what holds between the parts. -/
theorem Meets.bind {a : Action ε σ α} {f : α → Action ε σ β} {Q' : β → σ → Prop}
    (ha : Meets a s Q E) (hf : ∀ x s', Q x s' → Meets (f x) s' Q' E) :
    Meets (a >>= f) s Q' E :=
  meets_bind.mpr (ha.mono hf fun _ _ h => h)

end Meets

end Action

end CloudStore.Library
