import CloudStore.Model.Beside
import CloudStore.Model.MysqlPool

/-!
# A backend with a pool of connections

The scope of a connection acquires it from a pool and gives it back, on any path out. A run
that would wait for a connection is noted, and goes on without one.
-/

set_option autoImplicit false

namespace CloudStore.Model

open CloudStore.Library (Bytes Action)

variable {σ : Type}

/-- A pool, and whether an `acquire` has found its queue empty. -/
structure PoolState where
  pool : MysqlPool
  waited : Bool := false

namespace PoolState

/-- The scope of a connection: the `Conn` object is destroyed on any path out. Every ping
succeeds. -/
def scope {α : Type} (a : Act (σ × PoolState) α) : Act (σ × PoolState) α := fun st =>
  match MysqlPool.acquire {} st.2.pool with
  | (.ok (some c), p) =>
    match a (st.1, { st.2 with pool := p }) with
    | (r, (s, q)) => (r, (s, { q with pool := (c.destroy q.pool).2 }))
  | (.ok none, _) => a (st.1, { st.2 with waited := true })
  | (.error e, p) => (.error e, (st.1, { st.2 with pool := p }))

/-- A backend whose connections come from a pool. -/
def pooled (b : Backend σ) : Backend (σ × PoolState) := b.beside scope

end PoolState

end CloudStore.Model
