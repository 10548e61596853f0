import CloudStore.Model.CloudClient

/-!
# A client and its connection

The client on one end of a connection, the server's side of it on the other. A frame that the
client sends is handled before the client goes on, with what others may do to the system before
it. Replies wait in their order until the client receives them; each keeps the number of the
frame that it answers.
-/

set_option autoImplicit false

namespace CloudStore.Model

open CloudStore.Library (Bytes Action)

/-- A frame of the client, and the state that it was handled in. -/
structure HandledFrame (σ : Type) where
  sys : σ
  conn : Connection
  frame : Frame

/-- A reply that was received, with the last request then and the number of the frame that the
reply answers. -/
structure Taken where
  asked : Option (ℕ × Frame)
  answers : ℕ
  reply : Received

/-- The server's side of a connection, and what the client runs on besides. -/
structure Link (σ τ : Type) where
  sys : σ
  conn : Connection
  desk : τ
  /-- The frames that were handled, the last first. -/
  handled : List (HandledFrame σ) := []
  /-- The last request, with its number. -/
  asked : Option (ℕ × Frame) := none
  /-- The replies under way, each with the number of the frame that it answers. -/
  inbox : List (ℕ × Received) := []
  /-- The replies that were received, the last first. -/
  taken : List Taken := []

namespace Link

variable {σ τ : Type} (b : Backend σ) (others : ℕ → σ → σ)

/-- A reply, as the client receives it. -/
def received : Reply → Received
  | .json v => .json true v
  | .chunk fileId offset data => .other (Wire.chunkPayload fileId offset data)

/-- A frame that the client waits for a reply to. -/
def isRequest : Frame → Bool
  | .json _ => true
  | _ => false

/-- What the server makes of the next frame: others have changed the system before. -/
def served (frame : Frame) (s : Link σ τ) : Turn σ :=
  (Connection.onFrame b frame { sys := others s.handled.length s.sys, conn := s.conn }).2

/-- The server handles a frame. -/
def accept (frame : Frame) (s : Link σ τ) : Link σ τ :=
  let t := served b others frame s
  let n := s.handled.length
  { s with
    sys := t.sys
    conn := t.conn
    handled := ⟨others n s.sys, s.conn, frame⟩ :: s.handled
    asked := if isRequest frame then some (n, frame) else s.asked
    inbox := s.inbox ++ t.sent.map fun r => (n, received r) }

/-- The next reply is received. -/
def take : Act (Link σ τ) Received := fun s =>
  match s.inbox with
  | [] => (.error (.std (str "connection closed while receiving")), s)
  | (n, r) :: rest => (.ok r, { s with inbox := rest, taken := ⟨s.asked, n, r⟩ :: s.taken })

/-- A program of the machine that the client runs on. -/
def onDesk {α : Type} (a : Act τ α) : Act (Link σ τ) α :=
  Action.zoom Link.desk (fun d s => { s with desk := d }) a

/-- The calls of the client; files and the callback are those of `base`. -/
def calls (base : ClientCalls τ) : ClientCalls (Link σ τ) where
  connect host port := onDesk (base.connect host port)
  send frame := Action.change (accept b others frame)
  recv := take
  rounds := onDesk base.rounds
  fileExists path := onDesk (base.fileExists path)
  fileSize path := onDesk (base.fileSize path)
  md5File path := onDesk (base.md5File path)
  md5FileRange path off len := onDesk (base.md5FileRange path off len)
  ensureDir path := onDesk (base.ensureDir path)
  readAt path off len := onDesk (base.readAt path off len)
  create path := onDesk (base.create path)
  append path x := onDesk (base.append path x)
  remove path := onDesk (base.remove path)
  progress current total phase := onDesk (base.progress current total phase)

/-- Whether the next frame is delivered: a connection may break down after so many frames. -/
def delivers (limit : Option ℕ) (s : Link σ τ) : Bool := limit.all fun k => s.handled.length < k

/-- The calls of the client on a connection that may break down. A frame that is sent then is
lost, and no reply to it comes. -/
def cutCalls (limit : Option ℕ) (base : ClientCalls τ) : ClientCalls (Link σ τ) :=
  { calls b others base with
    send := fun frame => Action.change fun s =>
      if delivers limit s then accept b others frame s else s }

end Link

/-- A call of the client on an open connection. -/
inductive ClientCall where
  | login (user pass : Bytes)
  | signup (user pass : Bytes)
  | logout
  | listEntries (path : Bytes) (recursive : Bool)
  | makeDir (path : Bytes)
  | removePath (path : Bytes)
  | statPath (path : Bytes)
  | renamePath (source dest : Bytes)
  | put (localPath remotePath : Bytes) (overwrite : Bool)
  | get (remotePath localPath : Bytes)

/-- The program of a call. -/
def ClientCall.run {σ : Type} (calls : ClientCalls σ) : ClientCall → CloudClient.Prog σ Json
  | .login user pass => CloudClient.login calls user pass
  | .signup user pass => CloudClient.signup calls user pass
  | .logout => CloudClient.logout calls >>= fun _ => return .null
  | .listEntries path recursive => CloudClient.listEntries calls path recursive
  | .makeDir path => CloudClient.makeDir calls path
  | .removePath path => CloudClient.removePath calls path
  | .statPath path => CloudClient.statPath calls path
  | .renamePath source dest => CloudClient.renamePath calls source dest
  | .put localPath remotePath overwrite => CloudClient.put calls localPath remotePath overwrite
  | .get remotePath localPath => CloudClient.get calls remotePath localPath

/-- The state after some calls, of which any may throw. -/
def ClientCall.runAll {σ : Type} (calls : ClientCalls σ) (ops : List ClientCall)
    (st : σ × CloudClient) : σ × CloudClient :=
  ops.foldl (fun st op => (op.run calls st).2) st

end CloudStore.Model
