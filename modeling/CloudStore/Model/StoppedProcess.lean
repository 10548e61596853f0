import CloudStore.Model.Beside

/-!
# A process that may be stopped

A backend whose calls are counted. A pattern says for each call how many bytes it moves if it is
a read or a write, or that it fails, and before which call the process is stopped. What is stopped
leaves the state as it is: nothing catches the exception.
-/

set_option autoImplicit false

namespace CloudStore.Model

open CloudStore.Library (Bytes Action)

/-- What may go wrong. -/
structure Faults where
  /-- The `n`-th call, if it is a read: it fails, or moves at most so many bytes and one more. -/
  reads : ℕ → Option ℕ
  /-- Likewise if it is a write. -/
  writes : ℕ → Option ℕ
  /-- The process is stopped before the call of this number. -/
  stop : Option ℕ

/-- How far a run has come: the calls so far, and whether `open` with `O_TRUNC` has succeeded. -/
structure Progress where
  calls : ℕ := 0
  opened : Bool := false

/-- What ends a run that is stopped. -/
def stopped : Exn := .std (str "stopped")

section

variable {σ α : Type} (faults : Faults)

/-- A call, which may depend on its number. -/
def counted (a : ℕ → Act σ α) : Act (σ × Progress) α := fun st =>
  if faults.stop = some st.2.calls then (.error stopped, st)
  else ((a st.2.calls st.1).1, ((a st.2.calls st.1).2, { st.2 with calls := st.2.calls + 1 }))

/-- `open` with `O_TRUNC`, where it succeeds, is noted. -/
def noted (a : Act (σ × Progress) (Except Library.Errno α)) :
    Act (σ × Progress) (Except Library.Errno α) := fun st =>
  match a st with
  | (.ok (.ok x), st') => (.ok (.ok x), (st'.1, { st'.2 with opened := true }))
  | (r, st') => (r, st')

/-- The file calls of a process that may be stopped. -/
def FileCalls.faulty (f : FileCalls σ) : FileCalls (σ × Progress) where
  lstat s := counted faults fun _ => f.lstat s
  stat s := counted faults fun _ => f.stat s
  realpath s := counted faults fun _ => f.realpath s
  mkdir s := counted faults fun _ => f.mkdir s
  rmdir s := counted faults fun _ => f.rmdir s
  unlink s := counted faults fun _ => f.unlink s
  chmod s := counted faults fun _ => f.chmod s
  rename s s' := counted faults fun _ => f.rename s s'
  opendir s := counted faults fun _ => f.opendir s
  closedir := counted faults fun _ => f.closedir
  openRead s := counted faults fun _ => f.openRead s
  openCreate s := counted faults fun _ => f.openCreate s
  openTrunc s := noted (counted faults fun _ => f.openTrunc s)
  fstat i := counted faults fun _ => f.fstat i
  ftruncate i := counted faults fun _ => f.ftruncate i
  pread x off len := counted faults fun n =>
    match faults.reads n with
    | none => return .error .eio
    | some most => f.pread x off (min len (most + 1))
  pwrite i off bytes := counted faults fun n =>
    match faults.writes n with
    | none => return .error .eio
    | some most => f.pwrite i off (bytes.take (most + 1))
  readAll x := counted faults fun _ => f.readAll x
  reads x := Action.beside (f.reads x)
  depth := Action.beside f.depth

/-- The Redis commands of a process that may be stopped. -/
def RedisCalls.faulty (r : RedisCalls σ) : RedisCalls (σ × Progress) where
  cmdGet key := counted faults fun _ => r.cmdGet key
  cmdSet key value := counted faults fun _ => r.cmdSet key value
  cmdSetEx key value ttl := counted faults fun _ => r.cmdSetEx key value ttl
  cmdDel key := counted faults fun _ => r.cmdDel key
  cmdSAdd key value := counted faults fun _ => r.cmdSAdd key value
  cmdSRem key value := counted faults fun _ => r.cmdSRem key value
  cmdSCard key := counted faults fun _ => r.cmdSCard key
  getJson key := counted faults fun _ => r.getJson key
  setJsonEx key value ttl := counted faults fun _ => r.setJsonEx key value ttl
  delJson key := counted faults fun _ => r.delJson key

/-- A backend for a process that may be stopped. Publishing executes no statement. -/
def Backend.faulty (b : Backend σ) : Backend (σ × Progress) :=
  { b.beside fun a => a with
    files := b.files.faulty faults
    redis := b.redis.faulty faults }

end

end CloudStore.Model
