import CloudStore.Library.Lock
import CloudStore.Model.Desk

/-!
# cloud_gui

`client/gui_main.cpp`: the handlers of the local web server, over one client that they share. The
state keeps what happens to the mutex. A request body is given by what `parseJson` answers and
leaves, a form by the fields that are read.
-/

set_option autoImplicit false

namespace CloudStore.Model

open CloudStore.Library (Bytes Action LockEvent Lock.guarded)

/-- `struct GuiState` without the client, and the machine that the client runs on. What happened
to `mu` is kept with the last event first. -/
structure GuiState where
  desk : Desk := {}
  mu : List LockEvent := []
  progressPhase : Bytes := []
  progressCurrent : ℕ := 0
  progressTotal : ℕ := 0

namespace GuiState

/-- `state.mu.lock()` or `state.mu.unlock()`. -/
def record (e : LockEvent) : Act GuiState Unit :=
  Action.change fun s => { s with mu := e :: s.mu }

/-- A program of the machine. -/
def onDesk {α : Type} (a : Act Desk α) : Act GuiState α :=
  Action.zoom GuiState.desk (fun d s => { s with desk := d }) a

/-- The assignments to `progressCurrent`, `progressTotal` and `progressPhase`. -/
def setProgress (current total : ℕ) (phase : Bytes) : Act GuiState Unit :=
  Action.change fun s =>
    { s with progressCurrent := current, progressTotal := total, progressPhase := phase }

/-- The callback that `main` passes to `setProgressCallback`. -/
def progressCallback (current total : ℕ) (phase : Bytes) : Act GuiState Unit :=
  Lock.guarded record (setProgress current total phase)

/-- The calls of the client in `cloud_gui`. -/
def calls (md5Hex : Bytes → Bytes) : ClientCalls GuiState where
  connect host port := onDesk ((Desk.calls md5Hex).connect host port)
  send _ := return ()
  recv := onDesk Desk.recv
  rounds := onDesk (Desk.calls md5Hex).rounds
  fileExists path := onDesk ((Desk.calls md5Hex).fileExists path)
  fileSize path := onDesk ((Desk.calls md5Hex).fileSize path)
  md5File path := onDesk ((Desk.calls md5Hex).md5File path)
  md5FileRange path off len := onDesk ((Desk.calls md5Hex).md5FileRange path off len)
  ensureDir path := onDesk ((Desk.calls md5Hex).ensureDir path)
  readAt path off len := onDesk ((Desk.calls md5Hex).readAt path off len)
  create path := onDesk ((Desk.calls md5Hex).create path)
  append path x := onDesk ((Desk.calls md5Hex).append path x)
  remove path := onDesk ((Desk.calls md5Hex).remove path)
  progress := progressCallback

end GuiState

/-- A request to one of the handlers. -/
inductive GuiRequest where
  | options
  | connect (parses : Bool) (body : Json)
  | status
  | login (body : Json)
  | register (body : Json)
  | logout
  | ls (path : Bytes)
  | mkdir (body : Json)
  | rm (body : Json)
  | rename (body : Json)
  | upload (file path overwrite : Option Bytes)
  | download (path : Bytes)

/-- The body of an answer. -/
inductive Content where
  | none
  | json (text : JsonText)
  | bytes (x : Bytes)

/-- `httplib::Response`, as the handlers fill it in. -/
structure GuiResponse where
  status : ℕ := 200
  headers : List (Bytes × Bytes) := []
  content : Content := .none

/-- What `main` has from its arguments and from the system. -/
structure GuiEnv where
  serverHost : Bytes := str "127.0.0.1"
  serverPort : ℕ := 9000
  /-- `fs::temp_directory_path()`. -/
  tempDir : Bytes := str "/tmp"
  /-- `getpid()`. -/
  pid : ℕ := 1

namespace Gui

/-- `jsonOk(data)`. -/
def jsonOk (data : Json) : Json := .obj [(str "data", data), (str "ok", .bool true)]

/-- `jsonErr(msg)`. -/
def jsonErr (msg : Bytes) : Json := .obj [(str "error", .str msg), (str "ok", .bool false)]

/-- The headers of `setCors(res)`. -/
def corsHeaders : List (Bytes × Bytes) :=
  [(str "Access-Control-Allow-Origin", str "*"),
    (str "Access-Control-Allow-Methods", str "GET, POST, OPTIONS"),
    (str "Access-Control-Allow-Headers", str "Content-Type")]

/-- An answer with a JSON text. -/
def answer (status : ℕ) (root : Json) : GuiResponse where
  status := status
  headers := corsHeaders ++ [(str "Content-Type", str "application/json")]
  content := .json (dumpJson root)

/-- A program of a handler. -/
abbrev Handler (α : Type) : Type := CloudClient.Prog GuiState α

/-- Run `a` and answer an exception with its text. -/
def caught (status : ℕ) (a : Handler GuiResponse) : Handler GuiResponse :=
  tryCatch a fun e => return answer status (jsonErr e.what)

/-- Run `a` under a `lock_guard` of `state.mu`. -/
def locked {α : Type} (a : Handler α) : Handler α :=
  Lock.guarded (fun e => Action.beside (GuiState.record e)) a

variable (md5Hex : Bytes → Bytes) (env : GuiEnv)

/-- The name of a temporary file; `fs::path` joins it as `joinPath` does. -/
def tempPath (stem : String) : Bytes := joinPath env.tempDir (str stem ++ toDecimal env.pid)

/-- `/api/connect`. -/
def connect (parses : Bool) (body : Json) : Handler GuiResponse :=
  caught 500 do
    if parses then
      let host ← (← body.get (str "host") (.str env.serverHost)).asString
      let port ← (← body.get (str "port") (.int env.serverPort)).asUInt
      locked do
        CloudClient.close
        CloudClient.connectTo (GuiState.calls md5Hex) host (port % 2 ^ 16)
        return answer 200 (jsonOk (.obj [(str "host", .str host),
          (str "port", .int (port % 2 ^ 16 : ℕ))]))
    else return answer 400 (jsonErr (str "bad json"))

/-- `/api/status`. -/
def status : Handler GuiResponse :=
  locked do
    let s ← Action.look Prod.fst
    let c ← Action.look Prod.snd
    return answer 200 (jsonOk (.obj [(str "connected", .bool c.connected), (str "host", .str c.host),
      (str "logged_in", .bool (c.token ≠ [])), (str "port", .int c.port),
      (str "progress_current", .int s.progressCurrent), (str "progress_phase", .str s.progressPhase),
      (str "progress_total", .int s.progressTotal), (str "username", .str c.username)]))

/-- `connectTo`, unless the client is connected. -/
def connectIfNeeded : Handler Unit := do
  if (← Action.look Prod.snd).connected then return ()
  else CloudClient.connectTo (GuiState.calls md5Hex) env.serverHost env.serverPort

/-- A handler that makes one call of the client under the lock and answers with its result. -/
def single (failure : ℕ) (a : Handler Json) : Handler GuiResponse :=
  caught failure (locked do
    let data ← a
    return answer 200 (jsonOk data))

/-- `/api/login`. -/
def login (body : Json) : Handler GuiResponse :=
  single 401 do
    connectIfNeeded md5Hex env
    let username ← (← body.ref (str "username")).asString
    let password ← (← body.ref (str "password")).asString
    CloudClient.login (GuiState.calls md5Hex) username password

/-- `/api/register`. -/
def register (body : Json) : Handler GuiResponse :=
  single 400 do
    connectIfNeeded md5Hex env
    let username ← (← body.ref (str "username")).asString
    let password ← (← body.ref (str "password")).asString
    CloudClient.signup (GuiState.calls md5Hex) username password

/-- `/api/logout`. -/
def logout : Handler GuiResponse :=
  locked do
    CloudClient.logout (GuiState.calls md5Hex)
    return answer 200 (jsonOk .null)

/-- `/api/ls`. -/
def ls (path : Bytes) : Handler GuiResponse :=
  single 500 (CloudClient.listEntries (GuiState.calls md5Hex)
    (if path = [] then str "/" else path) false)

/-- `/api/mkdir`. -/
def mkdir (body : Json) : Handler GuiResponse :=
  single 500 do
    let path ← (← body.ref (str "path")).asString
    CloudClient.makeDir (GuiState.calls md5Hex) path

/-- `/api/rm`. -/
def rm (body : Json) : Handler GuiResponse :=
  single 500 do
    let path ← (← body.ref (str "path")).asString
    CloudClient.removePath (GuiState.calls md5Hex) path

/-- `/api/rename`. -/
def rename (body : Json) : Handler GuiResponse :=
  single 500 do
    let source ← (← body.ref (str "from")).asString
    let dest ← (← body.ref (str "to")).asString
    CloudClient.renamePath (GuiState.calls md5Hex) source dest

/-- The part of `/api/upload` under the lock. -/
def uploadLocked (tmpPath remotePath : Bytes) (overwrite : Bool) : Handler Json :=
  locked do
    Action.beside (GuiState.setProgress 0 0 (str "starting"))
    CloudClient.put (GuiState.calls md5Hex) tmpPath remotePath overwrite

/-- `/api/upload`. -/
def upload (file path overwrite : Option Bytes) : Handler GuiResponse :=
  caught 500 (
    match file, path with
    | some content, some remotePath => do
      let tmpPath := tempPath env "cloudstore_up_"
      Action.beside ((GuiState.calls md5Hex).create tmpPath)
      Action.beside ((GuiState.calls md5Hex).append tmpPath content)
      let result ← uploadLocked md5Hex tmpPath remotePath (overwrite = some (str "true"))
      Action.beside ((GuiState.calls md5Hex).remove tmpPath)
      return answer 200 (jsonOk result)
    | _, _ => return answer 400 (jsonErr (str "missing file or path")))

/-- The part of `/api/download` under the lock. -/
def downloadLocked (path tmpPath : Bytes) : Handler Json :=
  locked (CloudClient.get (GuiState.calls md5Hex) path tmpPath)

/-- The answer of `/api/download`. -/
def attachment (path content : Bytes) : GuiResponse where
  headers := corsHeaders ++ [(str "Content-Type", str "application/octet-stream"),
    (str "Content-Disposition", str "attachment; filename=\"" ++ baseName path ++ str "\"")]
  content := .bytes content

/-- `/api/download`. -/
def download (path : Bytes) : Handler GuiResponse :=
  caught 500 (
    if path = [] then return answer 400 (jsonErr (str "missing path"))
    else do
      let tmpPath := tempPath env "cloudstore_dl_"
      let _ ← downloadLocked md5Hex path tmpPath
      let content ← Action.look fun s => (s.1.desk.files tmpPath).getD []
      Action.beside ((GuiState.calls md5Hex).remove tmpPath)
      return attachment path content)

/-- The handler of a request. -/
def handle : GuiRequest → Handler GuiResponse
  | .options => return { status := 204, headers := corsHeaders }
  | .connect parses body => connect md5Hex env parses body
  | .status => status
  | .login body => login md5Hex env body
  | .register body => register md5Hex env body
  | .logout => logout md5Hex
  | .ls path => ls md5Hex path
  | .mkdir body => mkdir md5Hex body
  | .rm body => rm md5Hex body
  | .rename body => rename md5Hex body
  | .upload file path overwrite => upload md5Hex env file path overwrite
  | .download path => download md5Hex env path

end Gui

end CloudStore.Model
