import CloudStore.Interface.Effects
import CloudStore.Interface.Startup

/-!
# Playing events back

A list of events that is handled one after the other from the start of the server is a
run, and whether its events meet a condition can be decided. At the end a sample
environment, with the digests of the texts that are used with it.
-/

set_option autoImplicit false

namespace CloudStore.Interface

open CloudStore.Library (Bytes FileTree Machine)
open CloudStore.Model

section

variable (env : Env)

/-- Over the finitely many files of a tree, collisions can be searched for. -/
instance (w : World) : Decidable (World.CollisionFree env w) :=
  decidable_of_iff
    (∀ p ∈ w.fs.listing, ∀ q ∈ w.fs.listing, ∀ x ∈ w.fs.fileAt p, ∀ y ∈ w.fs.fileAt q,
      env.md5Hex x = env.md5Hex y → x = y) <| by
    have hlisted : ∀ p x, w.fs.fileAt p = some x → p ∈ w.fs.listing := by
      intro p x hx
      refine w.fs.listed p fun hnone => ?_
      simp [FileTree.fileAt, hnone] at hx
    constructor
    · intro h p q x y hx hy
      exact h p (hlisted p x hx) q (hlisted q y hy) x hx y hy
    · intro h p _ q _ x hx y hy
      exact h p q x y hx hy

instance (s : ServerState) (e : Event) : Decidable (NoCollision env s e) :=
  inferInstanceAs (Decidable (∀ r ∈ (Server.step env s e).2.calls, _))

instance (bad : World → Connection → Call → Prop) [∀ w c call, Decidable (bad w c call)]
    (s : ServerState) (e : Event) : Decidable (Avoids env bad s e) :=
  inferInstanceAs (Decidable (∀ r ∈ (Server.step env s e).2.calls, _))

/-- The server right after its start. -/
def started (dirSize : ℕ) (entropy : ℕ → UInt8) : ServerState :=
  { world := (Server.makeRoots env { fs := FileTree.bare dirSize, entropy := entropy }).2 }

/-- The history and the state that events lead to from there. -/
def playback (dirSize : ℕ) (entropy : ℕ → UInt8) (es : List Event) :
    List (Machine.Record ServerState Event Output) × ServerState :=
  (Server.machine env).replay [] (started env dirSize entropy) es

variable {env} in
/-- **Events that meet a condition make a run.** -/
theorem playback_run {ok : ServerState → Event → Prop} {dirSize : ℕ} {entropy : ℕ → UInt8}
    {es : List Event} (h : (Server.machine env).Allows ok (started env dirSize entropy) es) :
    (Server.machine env).Run (Server.Start env) ok (playback env dirSize entropy es).1
      (playback env dirSize entropy es).2 :=
  Machine.Run.replay (Machine.Run.start (makeRoots_start dirSize entropy)) h

end

/-! ## A sample environment -/

/-- A frame with a request. -/
def request (cmd : String) (data : List (String × Json)) : Frame :=
  .json (.ok (.obj [(str "cmd", .str (str cmd)),
    (str "data", .obj (data.map fun d => (str d.1, d.2))), (str "seq", .int 1)]))

namespace Sample

/-- The MD5 digests of the contents that are uploaded. -/
def md5Hex (bytes : Bytes) : Bytes :=
  if bytes = [] then str "d41d8cd98f00b204e9800998ecf8427e"
  else if bytes = str "a" then str "0cc175b9c0f1b6a831c399e269772661"
  else if bytes = str "ab" then str "187ef4436122d1cc2f40dc2b92f0eba0"
  else str "00000000000000000000000000000000"

/-- The SHA-256 digest of the password of the first user behind its salt. -/
def sha256Hex (bytes : Bytes) : Bytes :=
  if bytes = str "000102030405060708090a0b0c0d0e0fsecret" then
    str "602d66d880900ddaaa1791dec41b4863c5998dc2712e83417634b64f920f15ef"
  else []

/-- Texts are taken as they are, below `/data`. -/
def env : Env where
  cfg := { storageRoot := str "/data" }
  dialect := Dialect.exact
  md5Hex := md5Hex
  sha256Hex := sha256Hex
  mtime _ := 0
  root := [str "data"]
  root_ne := by simp
  root_plain := by decide
  storageRoot_eq := by decide
  md5_hex := by
    intro bytes
    unfold md5Hex
    split_ifs <;> decide +kernel

/-- Random bytes that count up. -/
def entropy (n : ℕ) : UInt8 := UInt8.ofNat n

/-- What events lead to. -/
abbrev after (es : List Event) : ServerState := (playback env 4096 entropy es).2

/-- A user registers and logs in on the connection `0`. -/
def login : List Event :=
  let account := [("username", Json.str (str "alice")), ("password", Json.str (str "secret"))]
  [.connect 0 [], .frame 0 (request "register" account), .frame 0 (request "login" account)]

/-- An upload of no bytes to a path. -/
def uploadEmpty (path : String) : List Event :=
  [.frame 0 (request "upload_begin" [("path", .str (str path)), ("md5", .str (md5Hex [])),
      ("size", .int 0)]),
    .frame 0 (request "upload_end" [])]

/-- The id that a transfer gets after `n` random bytes. -/
def fileId (n : ℕ) : Bytes := toHex ((List.range 16).map fun k => entropy (n + k))

/-- An upload of some bytes to a path in one chunk. -/
def upload (path : String) (content fileId : Bytes) : List Event :=
  [.frame 0 (request "upload_begin" [("path", .str (str path)), ("md5", .str (md5Hex content)),
      ("size", .int content.length)]),
    .frame 0 (.chunk (fileId ++ List.replicate 8 0 ++ content)),
    .frame 0 (request "upload_end" [])]

/-- An instant upload of no bytes to a path. -/
def instantEmpty (path : String) : List Event :=
  [.frame 0 (request "instant_query" [("md5", .str (md5Hex [])), ("size", .int 0)]),
    .frame 0 (request "instant_upload" [("path", .str (str path)), ("md5", .str (md5Hex [])),
      ("size", .int 0), ("challenge_offset", .int 0), ("overwrite", .bool true)])]

end Sample

end CloudStore.Interface
