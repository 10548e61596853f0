import CloudStore.Model.Beside

/-!
# File calls that may fail during a removal

The calls that `removeRecursive` makes are written down with the file tree that each of them
sees, and a pattern says which of them fail. A failing call changes nothing and answers with
the error number of the pattern.
-/

set_option autoImplicit false

namespace CloudStore.Model

open CloudStore.Library (Bytes FileTree Errno)

/-- A call that `removeRecursive` makes, with its path. -/
inductive PathCall where
  | lstat (s : Bytes)
  | opendir (s : Bytes)
  | unlink (s : Bytes)
  | rmdir (s : Bytes)

namespace PathCall

/-- The path that is passed to the call. -/
def path : PathCall → Bytes
  | lstat s => s
  | opendir s => s
  | unlink s => s
  | rmdir s => s

/-- The call follows a link in the last place. -/
def follows : PathCall → Bool
  | opendir _ => true
  | _ => false

end PathCall

/-- The calls so far, each with the tree it was made on. -/
abbrev CallLog : Type := List (FileTree × PathCall)

/-- A call that is written down, the `n`-th where `n` calls were made before. -/
def logged {σ α : Type} (fails : ℕ → Option Errno) (tree : σ → FileTree) (c : PathCall)
    (a : Act σ (Except Errno α)) : Act (σ × CallLog) (Except Errno α) := fun st =>
  let log := st.2 ++ [(tree st.1, c)]
  match fails st.2.length with
  | some e => (.ok (.error e), (st.1, log))
  | none => ((a st.1).1, ((a st.1).2, log))

/-- File calls where those of a removal are written down and fail in a pattern. -/
def failingRemovals {σ : Type} (fails : ℕ → Option Errno) (tree : σ → FileTree)
    (f : FileCalls σ) : FileCalls (σ × CallLog) :=
  { f.beside CallLog with
    lstat := fun s => logged fails tree (.lstat s) (f.lstat s)
    opendir := fun s => logged fails tree (.opendir s) (f.opendir s)
    unlink := fun s => logged fails tree (.unlink s) (f.unlink s)
    rmdir := fun s => logged fails tree (.rmdir s) (f.rmdir s) }

end CloudStore.Model
