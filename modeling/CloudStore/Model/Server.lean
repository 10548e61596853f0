import CloudStore.Library.Machine
import CloudStore.Model.World

/-!
# The server

All connections over one world, as a machine. An event is a new connection, the end of
one, a frame on one, the end of the life of a Redis key that was set with one, or a change
of the faults of the disk. The event loop of `src/server.cpp` handles one event after the other.
-/

set_option autoImplicit false

namespace CloudStore.Model

open CloudStore.Library (Bytes Machine)

/-- The state of the server. -/
structure ServerState where
  world : World
  conns : ℕ → Option Connection := fun _ => none

/-- What happens to the server. -/
inductive Event where
  | connect (id : ℕ) (ip : Bytes)
  | close (id : ℕ)
  | frame (id : ℕ) (f : Frame)
  /-- A session or a challenge reaches the end of its time. -/
  | expire (key : Bytes)
  /-- From now on the disk fails in this way. -/
  | disk (d : Disk)

/-- What a frame leads to: the replies, in order, and the calls, newest first. -/
structure Output where
  sent : List Reply := []
  calls : List (CallRecord World) := []

namespace Server

variable (env : Env)

/-- Handle a frame of a connection. -/
def frameTurn (w : World) (c : Connection) (f : Frame) : Turn World :=
  (Connection.onFrame (World.backend env) f { sys := w, conn := c }).2

/-- Drop a key that was set with a time to live. -/
def expireKey (w : World) (key : Bytes) : World :=
  let redis := { w.redis with sessions := Function.update w.redis.sessions key none }
  if (str "cs:chal:").isPrefixOf key then
    { w with redis := { redis with strings := Function.update w.redis.strings key [] } }
  else { w with redis := redis }

/-- One event. A frame of a connection that is closed is not read. -/
def step (s : ServerState) : Event → ServerState × Output
  | .connect id ip =>
    match s.conns id with
    | none => ({ s with conns := Function.update s.conns id (some { peerIp := ip }) }, {})
    | some _ => (s, {})
  | .close id => ({ s with conns := Function.update s.conns id none }, {})
  | .expire key => ({ s with world := expireKey s.world key }, {})
  | .disk d => ({ s with world := { s.world with disk := d } }, {})
  | .frame id f =>
    match s.conns id with
    | none => (s, {})
    | some c =>
      let t := frameTurn env s.world c f
      ({ world := t.sys, conns := Function.update s.conns id (some t.conn) },
        { sent := t.sent, calls := t.calls })

/-- The server as a machine. -/
def machine : Machine ServerState Event Output := ⟨step env⟩

/-- The directories that the constructor of `Server` makes. -/
def makeRoots : Act World Unit := do
  let _ ← ensureDir (World.files env) env.cfg.storageRoot
  let _ ← ensureDir (World.files env) env.cfg.usersRoot
  let _ ← ensureDir (World.files env) env.cfg.objectsRoot
  let _ ← ensureDir (World.files env) env.cfg.tmpRoot

/-- The server as it starts: no connections, an empty store. -/
def Start (s : ServerState) : Prop := World.Empty env s.world ∧ ∀ id, s.conns id = none

end Server

end CloudStore.Model
