import CloudStore.Model.FailingRemoval

/-!
# Directory handles

File calls that keep account of the handles that `opendir` hands out, and of which those of
`FileManager` fail in a pattern. A run makes no call twice at one path, so a pattern is a function
of the call and its path.
-/

set_option autoImplicit false

namespace CloudStore.Model

open CloudStore.Library (Bytes Errno Action)

/-- The handles of a run: how many were opened, those that are open, the latest first, and those
that were closed. -/
structure Handles where
  opened : ℕ := 0
  stack : List ℕ := []
  closed : List ℕ := []

namespace Handles

/-- A handle is opened. -/
def push (h : Handles) : Handles :=
  { h with opened := h.opened + 1, stack := h.opened :: h.stack }

/-- The handle opened last is closed. Each function closes the handle that it has opened, and the
functions it has called have closed theirs. -/
def pop (h : Handles) : Handles :=
  match h.stack with
  | [] => h
  | i :: rest => { h with stack := rest, closed := i :: h.closed }

/-- Every handle that was opened has been closed exactly once. -/
def Balanced (h : Handles) : Prop := ∀ i < h.opened, h.closed.count i = 1

instance (h : Handles) : Decidable h.Balanced := inferInstanceAs (Decidable (∀ _ < _, _))

end Handles

variable {σ α : Type} (fails : PathCall → Option Errno)

/-- A call that fails where the pattern says so. -/
def refusing (c : PathCall) (a : Act σ (Except Errno α)) : Act σ (Except Errno α) :=
  match fails c with
  | some e => return .error e
  | none => a

/-- A call that opens a handle if it succeeds. -/
def opening (a : Act σ (Except Errno α)) : Act (σ × Handles) (Except Errno α) := fun st =>
  match a st.1 with
  | (.ok (.ok x), s) => (.ok (.ok x), (s, st.2.push))
  | (r, s) => (r, (s, st.2))

/-- File calls beside the handles. -/
def handleFiles (f : FileCalls σ) : FileCalls (σ × Handles) :=
  { f.beside Handles with
    lstat := fun s => Action.beside (refusing fails (.lstat s) (f.lstat s))
    opendir := fun s => opening (refusing fails (.opendir s) (f.opendir s))
    closedir := Action.change fun st => (st.1, st.2.pop)
    unlink := fun s => Action.beside (refusing fails (.unlink s) (f.unlink s))
    rmdir := fun s => Action.beside (refusing fails (.rmdir s) (f.rmdir s)) }

end CloudStore.Model
