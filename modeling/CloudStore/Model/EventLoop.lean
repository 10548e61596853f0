import CloudStore.Model.Server
import CloudStore.Model.Wire

/-!
# The event loop

The connections of `src/server.cpp` with their input buffers: `onAccept` with its limit, the
callbacks of a connection, and the end of the loop. `parseJson` is a parameter.
-/

set_option autoImplicit false

namespace CloudStore.Model

open CloudStore.Library (Bytes Machine)

/-- A connection with the bytes in its input buffer. -/
structure Peer where
  conn : Connection
  input : Bytes := []

/-- The server with its buffers. A connection is known by its number, in the order of
acceptance. -/
structure LoopState where
  world : World
  connections : List (ℕ × Peer) := []
  accepted : ℕ := 0
  running : Bool := true

/-- The flags that `onEvent` looks at. -/
structure BevEvent where
  eof : Bool := false
  error : Bool := false
  timeout : Bool := false

/-- What the loop calls back for; keys expire and the disk fails besides. -/
inductive LoopEvent where
  /-- A connection of an IPv4 address, or of another one; `made` if its `bufferevent` is made. -/
  | accept (addr : Option Bytes) (made : Bool)
  | bytes (id : ℕ) (piece : Bytes)
  | event (id : ℕ) (what : BevEvent)
  /-- `SIGINT` or `SIGTERM`. -/
  | signal
  | expire (key : Bytes)
  | disk (d : Disk)

/-- The frames that were handled and the replies that were sent, each with its connection. -/
structure LoopOutput where
  frames : List (ℕ × RawFrame) := []
  sent : List (ℕ × Reply) := []

/-- A frame as `handleFrame` and `handleJson` see it. -/
def RawFrame.parsed (parse : Bytes → JsonText) (f : RawFrame) : Frame :=
  if f.type = Wire.jsonType then .json (parse f.payload)
  else if f.type = Wire.chunkType then .chunk f.payload
  else .other f.type

/-- What the frames of a connection act on, and what came of them. -/
structure Serving where
  world : World
  conn : Connection
  frames : List RawFrame := []
  sent : List Reply := []

namespace EventLoop

variable (env : Env) (maxConnections : ℤ) (parse : Bytes → JsonText)

/-- A frame that was cut out of the input buffer. -/
def handle (st : Serving) (f : RawFrame) : Serving :=
  let t := Server.frameTurn env st.world st.conn (f.parsed parse)
  { world := t.sys, conn := t.conn, frames := st.frames ++ [f], sent := st.sent ++ t.sent }

/-- `onAccept(fd, addr, socklen)`. -/
def onAccept (addr : Option Bytes) (made : Bool) (s : LoopState) : LoopState :=
  if s.connections.length ≥ maxConnections then s
  else if made then
    { s with
      connections := (s.accepted, { conn := { peerIp := addr.getD (str "unknown") } }) ::
        s.connections
      accepted := s.accepted + 1 }
  else s

/-- `removeConnection(conn)`. -/
def removeConnection (id : ℕ) (s : LoopState) : LoopState :=
  { s with connections := s.connections.filter fun c => c.1 ≠ id }

/-- The fields and the buffer of a connection change. -/
def putConnection (id : ℕ) (p : Peer) (s : LoopState) : LoopState :=
  { s with connections := s.connections.map fun c => if c.1 = id then (id, p) else c }

/-- `onRead()`, after bytes were added to the input buffer. -/
def onRead (id : ℕ) (p : Peer) (piece : Bytes) (s : LoopState) : LoopState × LoopOutput :=
  let r := Wire.onRead (handle env parse)
    { state := { world := s.world, conn := p.conn }, input := p.input } piece
  let s := { s with world := r.state.world }
  (if r.closed then removeConnection id s else putConnection id ⟨r.state.conn, r.input⟩ s,
    { frames := r.state.frames.map fun f => (id, f), sent := r.state.sent.map fun r => (id, r) })

/-- `onEvent(what)`. -/
def onEvent (id : ℕ) (what : BevEvent) (s : LoopState) : LoopState :=
  if what.eof || what.error || what.timeout then removeConnection id s else s

/-- One callback. A connection that was removed is not called back. -/
def step (s : LoopState) : LoopEvent → LoopState × LoopOutput
  | .accept addr made => (if s.running then onAccept maxConnections addr made s else s, {})
  | .bytes id piece =>
    match s.connections.lookup id with
    | none => (s, {})
    | some p => onRead env parse id p piece s
  | .event id what => (onEvent id what s, {})
  | .signal => ({ s with running := false, connections := [] }, {})
  | .expire key => ({ s with world := Server.expireKey s.world key }, {})
  | .disk d => ({ s with world := { s.world with disk := d } }, {})

/-- The server with its buffers as a machine. -/
def machine : Machine LoopState LoopEvent LoopOutput := ⟨step env maxConnections parse⟩

/-- The loop as it starts. -/
def Start (s : LoopState) : Prop := World.Empty env s.world ∧ s.connections = []

/-- The server without the buffers. -/
def unbuffered (s : LoopState) : ServerState where
  world := s.world
  conns id := (s.connections.lookup id).map Peer.conn

end EventLoop

end CloudStore.Model
