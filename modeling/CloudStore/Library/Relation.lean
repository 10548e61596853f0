import CloudStore.Library.Action

/-!
# Relations between programs

A relation between programs over two state types is a congruence if it relates the
programs without effects to themselves and is kept by sequencing and by handlers. Programs
written over an interface of calls are then related as soon as the calls are.

Three congruences are set up: `moved` holds of the programs on the right that move as a
reflexive, transitive relation says, `projected` of those that do to the image of a state what
the program on the left does to it, and `lifted` relates a program of a part of a state to the
same program beside the rest of the state.
-/

set_option autoImplicit false

namespace CloudStore.Library

namespace Action

/-- A relation between programs that sequencing and handlers keep. -/
structure Congruence (ε σ τ : Type) where
  rel : ∀ {α : Type}, Action ε σ α → Action ε τ α → Prop
  pure : ∀ {α : Type} (x : α), rel (Pure.pure x) (Pure.pure x)
  throw : ∀ {α : Type} (e : ε), rel (throw e : Action ε σ α) (throw e)
  bind : ∀ {α β : Type} {a : Action ε σ α} {a' : Action ε τ α} {f : α → Action ε σ β}
    {f' : α → Action ε τ β}, rel a a' → (∀ x, rel (f x) (f' x)) → rel (a >>= f) (a' >>= f')
  tryCatch : ∀ {α : Type} {a : Action ε σ α} {a' : Action ε τ α} {h : ε → Action ε σ α}
    {h' : ε → Action ε τ α}, rel a a' → (∀ e, rel (h e) (h' e)) →
      rel (tryCatch a h) (tryCatch a' h')

namespace Congruence

variable {ε σ τ : Type} (R : Congruence ε σ τ)

/-- A value computed beforehand, or its exception. -/
theorem lift {α : Type} (x : Except ε α) :
    R.rel (liftM x : Action ε σ α) (liftM x : Action ε τ α) := by
  cases x with
  | ok x => exact R.pure x
  | error e => exact R.throw e

/-- A computed value handed on. -/
theorem lift_bind {α β : Type} {x : Except ε α} {f : α → Action ε σ β} {f' : α → Action ε τ β}
    (hf : ∀ y, R.rel (f y) (f' y)) :
    R.rel ((liftM x : Action ε σ α) >>= f) ((liftM x : Action ε τ α) >>= f') :=
  R.bind (R.lift x) hf

/-- A test that both programs make. -/
theorem ite {α : Type} {c : Prop} [Decidable c] {a b : Action ε σ α} {a' b' : Action ε τ α}
    (ha : c → R.rel a a') (hb : ¬ c → R.rel b b') :
    R.rel (if c then a else b) (if c then a' else b') := by
  by_cases hc : c
  · rw [if_pos hc, if_pos hc]
    exact ha hc
  · rw [if_neg hc, if_neg hc]
    exact hb hc

/-- A loop over a list: induction on the list. -/
theorem each {β : Type} {f : β → Action ε σ Unit} {f' : β → Action ε τ Unit}
    (hf : ∀ x, R.rel (f x) (f' x)) (xs : List β) :
    R.rel (Action.each f xs) (Action.each f' xs) := by
  induction xs with
  | nil => exact R.pure ()
  | cons x xs ih => exact R.bind (hf x) fun _ => ih

end Congruence

variable {ε σ τ : Type}

/-- The programs on the right move as `Q` says. -/
def moved (σ : Type) {Q : τ → τ → Prop} (hrefl : ∀ t, Q t t)
    (htrans : ∀ t t' t'', Q t t' → Q t' t'' → Q t t'') : Congruence ε σ τ where
  rel _ a' := Moves Q a'
  pure x := Moves.of_pure hrefl x
  throw e := Moves.of_throw hrefl e
  bind ha hf := Moves.bind htrans ha hf
  tryCatch ha hh := Moves.tryCatch htrans ha hh

/-- The programs on the right keep `I`, and where it holds they are under `f` those on the
left. -/
def projected (ε : Type) (I : τ → Prop) (f : τ → σ) : Congruence ε σ τ where
  rel a a' := ∀ t, I t → a (f t) = ((a' t).1, f (a' t).2) ∧ I (a' t).2
  pure _ _ ht := ⟨rfl, ht⟩
  throw _ _ ht := ⟨rfl, ht⟩
  bind := by
    intro α β a a' g g' ha hg t ht
    obtain ⟨hrun, hkept⟩ := ha t ht
    rw [bind_apply, bind_apply, hrun]
    revert hkept
    rcases a' t with ⟨e | x, t'⟩
    · exact fun hkept => ⟨rfl, hkept⟩
    · exact hg x t'
  tryCatch := by
    intro α a a' g g' ha hg t ht
    obtain ⟨hrun, hkept⟩ := ha t ht
    rw [tryCatch_apply, tryCatch_apply, hrun]
    revert hkept
    rcases a' t with ⟨e | x, t'⟩
    · exact hg e t'
    · exact fun hkept => ⟨rfl, hkept⟩

/-- A program of the first part of a state. -/
def beside {α : Type} (a : Action ε σ α) : Action ε (σ × τ) α :=
  zoom Prod.fst (fun s t => (s, t.2)) a

@[simp] theorem beside_apply {α : Type} (a : Action ε σ α) (s : σ) (t : τ) :
    beside a (s, t) = ((a s).1, ((a s).2, t)) := rfl

/-- A run beside the rest of the state. -/
theorem beside_run {α : Type} {a : Action ε σ α} {s s' : σ} {r : Except ε α} (h : a s = (r, s'))
    (t : τ) : beside a (s, t) = (r, (s', t)) := by
  rw [beside_apply, h]

/-- The programs on the right are those on the left, beside the rest of the state. -/
def lifted (ε σ τ : Type) : Congruence ε σ (σ × τ) where
  rel a a' := a' = beside a
  pure _ := rfl
  throw _ := rfl
  bind := by
    rintro α β a _ f f' rfl hf
    funext ⟨s, t⟩
    rw [bind_apply, beside_apply, beside_apply, bind_apply]
    rcases a s with ⟨e | x, s'⟩
    · rfl
    · simp only [hf, beside_apply]
  tryCatch := by
    rintro α a _ h h' rfl hh
    funext ⟨s, t⟩
    rw [tryCatch_apply, beside_apply, beside_apply, tryCatch_apply]
    rcases a s with ⟨e | x, s'⟩
    · simp only [hh, beside_apply]
    · rfl

end Action

end CloudStore.Library
