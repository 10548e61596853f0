import CloudStore.Model.Common
import CloudStore.Library.Machine

/-!
# MysqlPool

`src/mysql_pool.cpp`. A `MYSQL*` is a number. What the client library answers while a
connection is acquired is an input of the call, and a call that has to wait answers with
nothing. The pool is a machine together with the `Conn` objects that live: they are
acquired, moved and destroyed, on any path out of their scopes.
-/

set_option autoImplicit false

namespace CloudStore.Model

open CloudStore.Library (Bytes Action Machine)

/-- What the MySQL client library answers while one connection is acquired. -/
structure Driver where
  /-- `mysql_ping(m) == 0`. -/
  pings : Bool := true
  /-- `mysql_init(nullptr)`, unless it is null. -/
  init : Option ℕ := none
  /-- `mysql_error(m)`, if `mysql_real_connect` fails. -/
  refusal : Option Bytes := none

/-- `MysqlPool::Conn`. -/
structure Conn where
  pool : Bool := false
  mysql : Option ℕ := none

/-- `class MysqlPool`. -/
structure MysqlPool where
  idle : List ℕ := []
  created : ℕ := 0
  stopping : Bool := false

namespace MysqlPool

/-- `connectOne()`. -/
def connectOne (d : Driver) : Except Exn ℕ :=
  match d.init with
  | none => .error (.std (str "mysql_init failed"))
  | some m =>
    match d.refusal with
    | none => .ok m
    | some err => .error (.std (str "mysql connect failed: " ++ err))

/-- The loop of `MysqlPool(cfg)`, with the answers to each of its connections. -/
def construct : List Driver → MysqlPool → Except Exn MysqlPool
  | [], p => .ok p
  | d :: ds, p =>
    match connectOne d with
    | .error e => .error e
    | .ok m => construct ds { p with idle := p.idle ++ [m], created := p.created + 1 }

/-- `acquire()`; nothing is answered while the caller waits. -/
def acquire (d : Driver) : Act MysqlPool (Option Conn) := do
  let p ← Action.look id
  if p.stopping then throw (.std (str "mysql pool stopping"))
  else
    match p.idle with
    | [] => return none
    | m :: rest =>
      Action.change fun p => { p with idle := rest }
      if d.pings then return some { pool := true, mysql := some m }
      else
        let m ← connectOne d
        return some { pool := true, mysql := some m }

/-- `release(mysql)`. -/
def release (m : ℕ) : Act MysqlPool Unit := Action.change fun p => { p with idle := p.idle ++ [m] }

end MysqlPool

namespace Conn

/-- The connection that an object gives back. -/
def held (c : Conn) : Option ℕ := if c.pool then c.mysql else none

/-- `Conn(Conn&&)`: the object that is constructed. -/
def moved (c : Conn) : Conn := { pool := c.pool, mysql := c.mysql }

/-- `Conn(Conn&&)`: what is left of the other object. -/
def emptied (_ : Conn) : Conn := { pool := false, mysql := none }

/-- `~Conn()`. -/
def destroy (c : Conn) : Act MysqlPool Unit := do
  match c.held with
  | some m => MysqlPool.release m
  | none => return ()

end Conn

/-- A pool and the `Conn` objects that live. -/
structure Pooled where
  pool : MysqlPool
  conns : List Conn := []

namespace Pooled

/-- What callers do: acquire a connection, move a `Conn` object, destroy one. -/
inductive Event where
  | acquire (d : Driver)
  | move (i : ℕ)
  | destroy (i : ℕ)

/-- One step, and whether it was an `acquire` that waits. -/
def step (s : Pooled) : Event → Pooled × Bool
  | .acquire d =>
    match MysqlPool.acquire d s.pool with
    | (.ok (some c), p) => ({ pool := p, conns := s.conns ++ [c] }, false)
    | (.ok none, p) => ({ s with pool := p }, true)
    | (.error _, p) => ({ s with pool := p }, false)
  | .move i =>
    match s.conns[i]? with
    | some c => ({ s with conns := s.conns.set i c.emptied ++ [c.moved] }, false)
    | none => (s, false)
  | .destroy i =>
    match s.conns[i]? with
    | some c => ({ pool := (c.destroy s.pool).2, conns := s.conns.eraseIdx i }, false)
    | none => (s, false)

/-- The pool at work. -/
def machine : Machine Pooled Event Bool := ⟨step⟩

/-- The connections held by live `Conn` objects. -/
def held (s : Pooled) : List ℕ := s.conns.filterMap Conn.held

end Pooled

end CloudStore.Model
