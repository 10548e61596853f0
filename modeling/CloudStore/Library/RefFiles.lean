import CloudStore.Library.RefStore

/-!
# The files of a content store

What a reference-counted store is for: a map from keys to contents. In a coherent store each
operation changes the map at its own keys only, although keys with the same content share one
object.
-/

set_option autoImplicit false

namespace CloudStore.Library.RefStore

variable {κ ρ δ β : Type}

/-- The content of the file at a key. -/
def files (s : RefStore κ ρ δ β) (k : κ) : Option β :=
  match s.row k with
  | some (.file d _) => s.object d
  | _ => none

variable {s s' : RefStore κ ρ δ β} {k k' : κ} {d : δ} {n : ℕ} {x : β}

variable {c : RefScheme κ ρ δ β}

theorem files_empty : (empty c).files = fun _ => none := rfl

variable [DecidableEq κ]

variable [DecidableEq ρ] [DecidableEq δ]

/-- The object of a digest that the key does not have stays. -/
theorem Coherent.object_cleared (h : s.Coherent c) (hblank : ¬ c.stored c.blank)
    (hother : ∀ n, s.row k ≠ some (.file d n))
    (hcleared : (∃ d n, s.row k = some (.file d n)) ∧ s' = s.detach c k ∨
      (∀ d n, s.row k ≠ some (.file d n)) ∧ s' = s) :
    s'.object d = s.object d := by
  rcases hcleared with ⟨⟨e, n, hrow⟩, hs'⟩ | ⟨-, hs'⟩
  · have he : e ≠ d := by
      rintro rfl
      exact hother n hrow
    rw [hs', RefStore.detach_object, (h.released_eq hblank hrow).1, if_neg fun hd => he hd.1.symm]
  · rw [hs']

end CloudStore.Library.RefStore
