import CloudStore.Interface.Coherence
import CloudStore.Interface.Related

/-!
# Removing paths

A removal takes rows away and adds none. Which rows are left is then what the view has left.
-/

set_option autoImplicit false

namespace CloudStore.Interface

open CloudStore.Library (Bytes Path Entry RefStore Action)
open CloudStore.Library.Action (Moves Reads bind_ok bind_eq_ok)
open CloudStore.Library.Posix
open CloudStore.Model
open CloudStore.Model.RedisStore
open CloudStore.Model.TransferService
open CloudStore.Model.World (backend files redisCalls)

variable {env : Env} {u : ℤ} {w w' : World}

/-! ## Rows that stay -/

/-- No row is new. -/
def RowsWithin (w w' : World) : Prop := ∀ r ∈ w'.rows, r ∈ w.rows

theorem RowsWithin.refl (w : World) : RowsWithin w w := fun _ hr => hr

theorem RowsWithin.trans (w w' w'' : World) (h : RowsWithin w w') (h' : RowsWithin w' w'') :
    RowsWithin w w'' := fun r hr => h r (h' r hr)

section

variable (hexact : env.dialect = Dialect.exact)
include hexact

variable {session : UserSession} {physical : Path} {p : Bytes}

end

end CloudStore.Interface
