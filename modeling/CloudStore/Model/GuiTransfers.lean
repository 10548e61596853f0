import CloudStore.Library.Machine
import CloudStore.Model.Gui

/-!
# Transfers of cloud_gui side by side

The handlers of `/api/upload` and `/api/download`, cut into the steps that other handlers can come
between: what they do with their temporary file, and the section under `state.mu`. Where the
server is correct, a `put` that returns has stored the bytes of the local file, and a `get` that
returns has left the content of the remote path in the local file.
-/

set_option autoImplicit false

namespace CloudStore.Model

open CloudStore.Library (Bytes Machine)

/-- A request for a transfer. -/
inductive Transfer where
  | upload (content path : Bytes)
  | download (path : Bytes)
  deriving DecidableEq

/-- How far the handler of a transfer is. -/
inductive TransferPhase where
  | start
  /-- The temporary file of an upload is written. -/
  | written
  /-- `put` has returned, and has stored these bytes at the remote path. -/
  | stored (x : Bytes)
  /-- `get` has returned, and these bytes were the content of the remote path. -/
  | fetched (x : Bytes)
  /-- Behind `fetched x`, the temporary file was read. -/
  | read (x y : Bytes)
  /-- The upload has answered with `jsonOk`. -/
  | uploaded (x : Bytes)
  /-- The download has answered with the bytes `y`. -/
  | downloaded (x y : Bytes)
  /-- The handler has answered with an error. -/
  | failed
  deriving DecidableEq

/-- What becomes of a section under the lock: it returns, or the server refuses it, or the
connection breaks, before the last reply of `put` or after so many bytes of `get`. -/
inductive SectionEnd where
  | returns
  | refused
  | breaks (n : ℕ)
  deriving DecidableEq

/-- Local files, the files of the server, and the handlers. -/
structure GuiProcess (ι : Type) where
  files : Bytes → Option Bytes
  remote : Bytes → Option Bytes
  phase : ι → TransferPhase

/-- A handler takes its next step; the outcome is that of a section under the lock. -/
structure GuiStep (ι : Type) where
  who : ι
  outcome : SectionEnd := .returns

namespace GuiProcess

variable {ι : Type} [DecidableEq ι] (env : GuiEnv) (requests : ι → Transfer)

/-- `tmpPath` of `/api/upload`. -/
def upPath : Bytes := Gui.tempPath env "cloudstore_up_"

/-- `tmpPath` of `/api/download`. -/
def downPath : Bytes := Gui.tempPath env "cloudstore_dl_"

/-- The handler goes on. -/
def goTo (s : GuiProcess ι) (i : ι) (phase : TransferPhase) : GuiProcess ι :=
  { s with phase := Function.update s.phase i phase }

/-- A local file is written, or removed. -/
def setFile (s : GuiProcess ι) (path : Bytes) (x : Option Bytes) : GuiProcess ι :=
  { s with files := Function.update s.files path x }

/-- A file of the server is written. -/
def setRemote (s : GuiProcess ι) (path x : Bytes) : GuiProcess ι :=
  { s with remote := Function.update s.remote path (some x) }

/-- `client.put(tmpPath, path, overwrite)` under the lock. -/
def putStep (s : GuiProcess ι) (i : ι) (path : Bytes) (outcome : SectionEnd) : GuiProcess ι :=
  match s.files (upPath env), outcome with
  | some x, .returns => (s.setRemote path x).goTo i (.stored x)
  | some x, .breaks _ => (s.setRemote path x).goTo i .failed
  | _, _ => s.goTo i .failed

/-- What `get` writes to the local file, if it writes it. -/
def fetch (content : Option Bytes) : SectionEnd → Option Bytes
  | .returns => content
  | .refused => none
  | .breaks n => content.map (List.take n)

/-- `client.get(path, tmpPath)` under the lock. -/
def getStep (s : GuiProcess ι) (i : ι) (path : Bytes) (outcome : SectionEnd) : GuiProcess ι :=
  match fetch (s.remote path) outcome with
  | none => s.goTo i .failed
  | some y =>
    (s.setFile (downPath env) (some y)).goTo i (if outcome = .returns then .fetched y else .failed)

/-- The next step of a handler. -/
def advance (s : GuiProcess ι) (e : GuiStep ι) : GuiProcess ι :=
  match requests e.who, s.phase e.who with
  | .upload content _, .start => (s.setFile (upPath env) (some content)).goTo e.who .written
  | .upload _ path, .written => putStep env s e.who path e.outcome
  | .upload _ _, .stored x => (s.setFile (upPath env) none).goTo e.who (.uploaded x)
  | .download path, .start => getStep env s e.who path e.outcome
  | .download _, .fetched x => s.goTo e.who (.read x ((s.files (downPath env)).getD []))
  | .download _, .read x y => (s.setFile (downPath env) none).goTo e.who (.downloaded x y)
  | _, _ => s

/-- The handlers of the requests, in any order of their steps. -/
def machine : Machine (GuiProcess ι) (GuiStep ι) Unit := ⟨fun s e => (advance env requests s e, ())⟩

/-- No handler has begun. -/
def NoneBegun (s : GuiProcess ι) : Prop := ∀ i, s.phase i = .start

end GuiProcess

end CloudStore.Model
