import CloudStore.Model.CloudClient

/-!
# The machine of a client

Local files by their paths, which can be read and written, and the frames that the server sends,
in their order. A connection that is closed is noticed where a frame is to be received.
-/

set_option autoImplicit false

namespace CloudStore.Model

open CloudStore.Library (Bytes Action)

/-- Local files and the frames to be received; a frame that is `none` is a bad one, or stands for
the end of the connection. -/
structure Desk where
  files : Bytes → Option Bytes := fun _ => none
  replies : List (Option Received) := []
  /-- What making a connection throws, if it fails. -/
  refuses : Bytes → ℕ → Option Bytes := fun _ _ => none

namespace Desk

/-- The bytes of a local file, or an exception. -/
def readFile (what : String) (path : Bytes) : Act Desk Bytes := do
  match (← Action.look Desk.files) path with
  | none => throw (.std (str what ++ path))
  | some x => return x

/-- The bytes of a file from an offset on. -/
def part (x : Bytes) (off len : ℕ) : Bytes := (x.drop off).take len

/-- What is written to a file. -/
def write (path : Bytes) (x : Option Bytes) (d : Desk) : Desk :=
  { d with files := Function.update d.files path x }

/-- The next frame. -/
def recv : Act Desk Received := fun d =>
  match d.replies with
  | [] => (.error (.std (str "connection closed while receiving")), d)
  | none :: rest => (.error (.std (str "bad server frame")), { d with replies := rest })
  | some r :: rest => (.ok r, { d with replies := rest })

/-- The calls of the client on the machine. -/
def calls (md5Hex : Bytes → Bytes) : ClientCalls Desk where
  connect host port := do
    match (← Action.look Desk.refuses) host port with
    | some what => throw (.std what)
    | none => return ()
  send _ := return ()
  recv := recv
  rounds := Action.look fun d => d.replies.length
  fileExists path := Action.look fun d => (d.files path).isSome
  fileSize path := Action.look fun d => ((d.files path).getD []).length
  md5File path := do
    return md5Hex (← readFile "cannot open file for md5: " path)
  md5FileRange path off len := do
    let x ← readFile "cannot open file for md5 range: " path
    if 2 ^ 63 ≤ off then throw (.std (str "seek failed for md5 range: " ++ path))
    else if (part x off len).length = len then return md5Hex (part x off len)
    else throw (.std (str "short read for md5 range: " ++ path))
  ensureDir path := return path ≠ []
  readAt path off len := Action.look fun d => part ((d.files path).getD []) off len
  create path := Action.change (write path (some []))
  append path x := Action.change fun d => write path (some ((d.files path).getD [] ++ x)) d
  remove path := Action.change (write path none)
  progress _ _ _ := return ()

/-- The calls of the client, with a bound on the number of frames that it still takes. -/
def bounded (md5Hex : Bytes → Bytes) (rounds : ℕ) : ClientCalls Desk :=
  { calls md5Hex with rounds := return rounds }

end Desk

end CloudStore.Model
