import CloudStore.Interface.ClientRuns
import CloudStore.Interface.Downloads
import CloudStore.Interface.Framing
import CloudStore.Interface.Requests

/-!
# Requests of a client that the server answers

The client's request frames, as the server reads them: if the service behind a command answers, the
frame leads to the world and the connection of its handler, and one reply is sent.
-/

set_option autoImplicit false

namespace CloudStore.Interface

open CloudStore.Library (Bytes Action)
open CloudStore.Library.Action (bind_apply bind_ok)
open CloudStore.Model
open CloudStore.Model.Connection
open CloudStore.Model.CloudClient (requestRoot chunkRoot)
open CloudStore.Model.World (files backend)

variable {env : Env}

/-! ## The length of a text -/

theorem escape_length_le (c : UInt8) : (Json.escape c).length ≤ 6 := by
  have hshort : (str "\\b").length = 2 ∧ (str "\\f").length = 2 ∧ (str "\\n").length = 2 ∧
      (str "\\r").length = 2 ∧ (str "\\t").length = 2 ∧ (str "\\u").length = 2 ∧
      (str "00").length = 2 := by
    decide +kernel
  have hcode : (str "\\u" ++ str "00" ++ toHex [c]).length = 6 := by
    rw [List.length_append, List.length_append, toHex_length, List.length_singleton]
    omega
  unfold Json.escape
  split_ifs
  · simp
  · omega
  · omega
  · omega
  · omega
  · omega
  · omega
  · simp

theorem quote_length_le (s : Bytes) : (Json.quote s).length ≤ 6 * s.length + 2 := by
  have hbody : (s.flatMap Json.escape).length ≤ 6 * s.length := by
    induction s with
    | nil => simp
    | cons c s ih =>
        have hc := escape_length_le c
        rw [List.flatMap_cons, List.length_append, List.length_cons]
        omega
  rw [Json.quote, List.length_append, List.length_cons, List.length_cons, List.length_nil]
  omega

/-- A bound for the text of the members of an object. -/
def membersBound (ms : List (Bytes × Json)) : ℕ :=
  (ms.map fun m => 6 * m.1.length + m.2.dumpText.length + 4).sum

theorem dumpMembers_length_le (ms : List (Bytes × Json)) :
    (Json.dumpMembers ms).length ≤ membersBound ms := by
  induction ms with
  | nil => simp [Json.dumpMembers]
  | cons m ms ih =>
      obtain ⟨key, v⟩ := m
      have hkey := quote_length_le key
      have hbound : membersBound ((key, v) :: ms) =
          6 * key.length + v.dumpText.length + 4 + membersBound ms := by
        simp [membersBound]
      rw [hbound]
      cases ms with
      | nil =>
          rw [Json.dumpMembers, List.length_append, List.length_cons]
          omega
      | cons m' ms =>
          rw [Json.dumpMembers, List.length_append, List.length_cons, List.length_append,
            List.length_cons]
          · omega
          · simp

theorem obj_length_le (ms : List (Bytes × Json)) :
    (Json.dumpText (.obj ms)).length ≤ membersBound ms + 2 := by
  have hms := dumpMembers_length_le ms
  rw [Json.dumpText, List.length_append, List.length_cons, List.length_cons, List.length_nil]
  omega

theorem str_length_le (s : Bytes) : (Json.dumpText (.str s)).length ≤ 6 * s.length + 2 := by
  rw [Json.dumpText]
  exact quote_length_le s

theorem nat_length_le {n : ℕ} (h : n < 2 ^ 64) : (Json.dumpText (.int n)).length ≤ 20 := by
  rw [Json.dumpText, toDecimalInt_natCast]
  exact toDecimal_length (by norm_num) (lt_of_lt_of_le h (by norm_num))

theorem bool_length_le (b : Bool) : (Json.dumpText (.bool b)).length ≤ 5 := by
  cases b <;> decide +kernel

/-- A reply is sent, if its data are not long. -/
theorem sendOk_run {t : Turn World} {seq : ℕ} {data : Json} (hseq : seq < 2 ^ 64)
    (hdata : data.dumpText.length + 2000 ≤ kMaxFrameSize) :
    sendOk seq data t =
      (.ok (), { t with sent := t.sent ++ [.json (makeReply seq 0 (str "ok") data)] }) := by
  have hkeys : (str "code").length = 4 ∧ (str "data").length = 4 ∧ (str "msg").length = 3 ∧
      (str "seq").length = 3 ∧ (Json.dumpText (.str (str "ok"))).length = 4 ∧
      (Json.dumpText (.int 0)).length = 1 := by
    decide +kernel
  have hseqLength := nat_length_le hseq
  have hlength : (makeReply seq 0 (str "ok") data).dumpText.length ≤ data.dumpText.length + 2000 := by
    apply (obj_length_le _).trans
    simp only [membersBound, List.map_cons, List.map_nil, List.sum_cons, List.sum_nil]
    omega
  have hencode : Protocol.encode (makeReply seq 0 (str "ok") data).dumpText.length = .ok () := by
    unfold Protocol.encode
    rw [if_neg (by omega)]
  unfold sendOk sendJson
  rw [bind_apply, Action.monadLift_apply, hencode]
  rfl

/-! ## Requests -/

section

variable {cmd : String} {data : Json} {seq : ℕ} {token : Bytes} {w w' : World} {c : Connection}

theorem requestRoot_cmd : stringArg (requestRoot cmd data seq token) "cmd" "" = .ok (str cmd) := rfl

theorem requestRoot_data : (requestRoot cmd data seq token).item (str "data") = .ok data := rfl

/-- A natural number of 64 bits is read back. -/
theorem asUInt64_nat {n : ℕ} (h : n < 2 ^ 64) : (Json.int n).asUInt64 = .ok n := by
  simp only [Json.asUInt64, Json.asIntegral]
  rw [if_pos (by omega)]
  rfl

theorem asUInt_nat {n : ℕ} (h : n < 2 ^ 32) : (Json.int n).asUInt = .ok n := by
  simp only [Json.asUInt, Json.asIntegral]
  rw [if_pos (by omega)]
  rfl

theorem requestRoot_seq (hseq : seq < 2 ^ 64) :
    uint64Arg (requestRoot cmd data seq token) "seq" = .ok seq := by
  have hget : (requestRoot cmd data seq token).get (str "seq") (.int 0) = .ok (.int seq) := rfl
  unfold uint64Arg
  rw [hget]
  exact asUInt64_nat hseq

/-- A frame of a client that its token does not log in runs the handler of its command. -/
theorem frameTurn_handled {root : Json} {name : Bytes} {k : Command}
    (hname : stringArg root "cmd" "" = .ok name) (hk : Command.ofText name = some k)
    (hseq : uint64Arg root "seq" = .ok seq) (htoken : implicitToken c.authed root name = .ok none)
    {t : Turn World} (hrun : handler (backend env) k root seq { sys := w, conn := c } = (.ok (), t)) :
    Server.frameTurn env w c (.json (.ok root)) = t := by
  simp only [Server.frameTurn, onFrame, handleFrame, handleJson, Action.tryCatch_apply, bind_apply,
    Action.monadLift_apply, hname, hseq, tokenLogin, fields, Action.look_apply, htoken,
    Action.pure_apply, hk, hrun]

/-- The client is logged in already. -/
theorem implicitToken_authed (hauthed : c.authed = true) (root : Json) (name : Bytes) :
    implicitToken c.authed root name = .ok none := by
  rw [hauthed]
  rfl

/-- Where the server is led to by a frame, and what it sends. -/
structure IsServed (t : Turn World) (w : World) (c : Connection) (sent : List Reply) : Prop where
  sys : t.sys = w
  conn : t.conn = c
  sent : t.sent = sent

/-- The server has answered a request with these data. -/
abbrev Answers (t : Turn World) (seq : ℕ) (w : World) (c : Connection) (data : Json) : Prop :=
  IsServed t w c [.json (makeReply seq 0 (str "ok") data)]

/-- The last step of a handler is its reply. -/
theorem answers_of_handler {k : Command} (hk : Command.ofText (str cmd) = some k)
    (htoken : implicitToken c.authed (requestRoot cmd data seq token) (str cmd) = .ok none)
    (hseq : seq < 2 ^ 64) {t : Turn World} {reply : Json}
    (hrun : handler (backend env) k (requestRoot cmd data seq token) seq { sys := w, conn := c } =
      sendOk seq reply t) (hsent : t.sent = []) (hreply : reply.dumpText.length + 2000 ≤ kMaxFrameSize) :
    Answers (Server.frameTurn env w c (.json (dumpJson (requestRoot cmd data seq token)))) seq
      t.sys t.conn reply := by
  rw [sendOk_run hseq hreply] at hrun
  unfold dumpJson
  rw [frameTurn_handled requestRoot_cmd hk (requestRoot_seq hseq) htoken hrun]
  exact ⟨rfl, rfl, by rw [hsent]; rfl⟩

theorem answers_of_sendOk {k : Command} (hk : Command.ofText (str cmd) = some k)
    (hauthed : c.authed = true) (hseq : seq < 2 ^ 64) {t : Turn World} {reply : Json}
    (hrun : handler (backend env) k (requestRoot cmd data seq token) seq { sys := w, conn := c } =
      sendOk seq reply t) (hsent : t.sent = []) (hreply : reply.dumpText.length ≤ 2000) :
    Answers (Server.frameTurn env w c (.json (dumpJson (requestRoot cmd data seq token)))) seq
      t.sys t.conn reply := by
  have hmax : kMaxFrameSize = 2097152 := by decide
  exact answers_of_handler hk (implicitToken_authed hauthed _ _) hseq hrun hsent (by omega)

end

/-! ## The requests -/

theorem record_run {α : Type} {t : Turn World} (call : Call) (k : Unit → Act (Turn World) α) :
    (record call >>= k) t = k () { t with calls := ⟨t.sys, t.conn, call⟩ :: t.calls } := rfl

theorem assign_run {α : Type} {t : Turn World} (f : Connection → Connection)
    (k : Unit → Act (Turn World) α) : (assign f >>= k) t = k () { t with conn := f t.conn } := rfl

/-- A number of 64 bits among the members of an object. -/
theorem uint64Arg_nat {ms : List (Bytes × Json)} {key : String} {n : ℕ}
    (hget : (Json.obj ms).get (str key) (.int 0) = .ok (.int n)) (hn : n < 2 ^ 64) :
    uint64Arg (.obj ms) key = .ok n := by
  unfold uint64Arg
  rw [hget]
  exact asUInt64_nat hn

/-- The data of `instant_query`. -/
abbrev queryData (md5 : Bytes) (size : ℕ) : Json :=
  .obj [(str "md5", .str md5), (str "size", .int size)]

/-- The data of its reply. -/
def queryReply (q : InstantQuery) : Json :=
  .obj [(str "challenge_len", .int q.challengeLen), (str "challenge_offset", .int q.challengeOffset),
    (str "hit", .bool q.hit), (str "size", .int q.size)]

/-- The data of `instant_upload`. -/
abbrev instantData (offset : ℕ) (md5 : Bytes) (overwrite : Bool) (path proof : Bytes) (size : ℕ) :
    Json :=
  .obj [(str "challenge_offset", .int offset), (str "md5", .str md5),
    (str "overwrite", .bool overwrite), (str "path", .str path), (str "proof_md5", .str proof),
    (str "size", .int size)]

/-- The data of its reply. -/
def instantReply : Json :=
  .obj [(str "instant", .bool true),
    (str "msg", .str (str "instant upload via reference counting; content shared in object store")),
    (str "readable", .bool true), (str "status", .str (str "ready"))]

/-- The data of `upload_begin`. -/
abbrev uploadData (md5 path : Bytes) (size : ℕ) : Json :=
  .obj [(str "md5", .str md5), (str "path", .str path), (str "size", .int size)]

/-- The data of its reply. -/
def uploadReply (cfg : Config) (st : UploadSession) : Json :=
  .obj [(str "chunk_size", .int cfg.chunkSize), (str "file_id", .str st.fileId),
    (str "offset", .int st.received)]

/-- The data of the reply to `upload_end`. -/
def endReply (st : UploadSession) : Json :=
  .obj [(str "md5", .str st.md5), (str "size", .int st.totalSize),
    (str "status", .str (str "ready"))]

section

variable {seq size : ℕ} {token md5 path norm phys : Bytes} {w w' : World} {c : Connection}

/-- The keys of the replies. -/
theorem reply_keys : (str "challenge_len").length = 13 ∧ (str "challenge_offset").length = 16 ∧
    (str "hit").length = 3 ∧ (str "size").length = 4 ∧ (str "chunk_size").length = 10 ∧
    (str "file_id").length = 7 ∧ (str "offset").length = 6 ∧ (str "md5").length = 3 ∧
    (str "status").length = 6 ∧ (str "ready").length = 5 := by
  decide +kernel

/-- What `login` asks. -/
def loginData (username password : Bytes) : Json :=
  .obj [(str "password", .str password), (str "username", .str username)]

/-- What `login` is answered with. -/
def loginReply (s : UserSession) : Json :=
  .obj [(str "root", .str (str "/")), (str "token", .str s.token), (str "user_id", .int s.userId),
    (str "username", .str s.username)]

/-- `login` is answered. -/
theorem login_answered {username password : Bytes} (hauthed : c.authed = false) (hseq : seq < 2 ^ 64)
    {s : UserSession}
    (hrun : AuthService.login (backend env) username password c.peerIp w = (.ok s, w'))
    (hreply : (loginReply s).dumpText.length + 2000 ≤ kMaxFrameSize) :
    Answers (Server.frameTurn env w c
      (.json (dumpJson (requestRoot "login" (loginData username password) seq [])))) seq w'
      { c with session := s, authed := true } (loginReply s) := by
  have htoken : implicitToken c.authed (requestRoot "login" (loginData username password) seq [])
      (str "login") = .ok none := by
    rw [hauthed]
    rfl
  have hname : stringArg (loginData username password) "username" "" = .ok username := rfl
  have hpassword : stringArg (loginData username password) "password" "" = .ok password := rfl
  have hhandler : handler (backend env) .login
      (requestRoot "login" (loginData username password) seq []) seq { sys := w, conn := c } =
      sendOk seq (loginReply s)
        { sys := w', conn := { c with session := s, authed := true }
          calls := [⟨w, c, .login username password c.peerIp⟩] } := by
    show onLogin (backend env) _ seq _ = _
    unfold onLogin
    rw [lifted_run requestRoot_data, lifted_run hname, lifted_run hpassword, fields_run,
      called_ok hrun]
    rfl
  exact answers_of_handler (by decide) htoken hseq hhandler rfl hreply

/-- `instant_query` is answered. -/
theorem instantQuery_answered (hauthed : c.authed = true) (hseq : seq < 2 ^ 64)
    (hsize : size < 2 ^ 64) {q : InstantQuery}
    (hrun : TransferService.queryInstant (backend env) c.session md5 size w = (.ok q, w'))
    (hq : q.size < 2 ^ 64 ∧ q.challengeOffset < 2 ^ 64 ∧ q.challengeLen < 2 ^ 64) :
    Answers (Server.frameTurn env w c
      (.json (dumpJson (requestRoot "instant_query" (queryData md5 size) seq token)))) seq w' c
      (queryReply q) := by
  have hreply : (queryReply q).dumpText.length ≤ 2000 := by
    have hkeys := reply_keys
    have hnumbers := And.intro (nat_length_le hq.1) (And.intro (nat_length_le hq.2.1)
      (nat_length_le hq.2.2))
    have hbool := bool_length_le q.hit
    apply (obj_length_le _).trans
    simp only [membersBound, List.map_cons, List.map_nil, List.sum_cons, List.sum_nil]
    omega
  have hmd5 : stringArg (queryData md5 size) "md5" "" = .ok md5 := rfl
  have hnat : uint64Arg (queryData md5 size) "size" = .ok size := uint64Arg_nat rfl hsize
  have hhandler : handler (backend env) .instantQuery
      (requestRoot "instant_query" (queryData md5 size) seq token) seq { sys := w, conn := c } =
      sendOk seq (queryReply q)
        { sys := w', conn := c, calls := [⟨w, c, .queryInstant c.session md5 size⟩] } := by
    show onInstantQuery (backend env) _ seq _ = _
    unfold onInstantQuery
    rw [bind_ok (requireLogin_run hauthed), lifted_run requestRoot_data, lifted_run hmd5,
      lifted_run hnat, fields_run, called_ok hrun]
    rfl
  exact answers_of_sendOk (by decide) hauthed hseq hhandler rfl hreply

/-- `instant_upload` is answered. -/
theorem instantUpload_answered (hauthed : c.authed = true) (hseq : seq < 2 ^ 64)
    (hsize : size < 2 ^ 64) {offset : ℕ} (hoffset : offset < 2 ^ 64) {proof : Bytes}
    {overwrite : Bool} (hnorm : PathGuard.normalizeLogical path = .ok norm)
    (hphys : PathGuard.resolve (files env) c.session.rootDir path false w = (.ok phys, w))
    (hrun : TransferService.instantUpload (backend env) c.session phys (str "/" ++ norm) md5 size
      offset proof overwrite w = (.ok (), w')) :
    Answers (Server.frameTurn env w c (.json (dumpJson (requestRoot "instant_upload"
      (instantData offset md5 overwrite path proof size) seq token)))) seq w' c instantReply := by
  have hreply : instantReply.dumpText.length ≤ 2000 := by decide +kernel
  have hpath : stringArg (instantData offset md5 overwrite path proof size) "path" "" = .ok path := rfl
  have hmd5 : stringArg (instantData offset md5 overwrite path proof size) "md5" "" = .ok md5 := rfl
  have hproof : stringArg (instantData offset md5 overwrite path proof size) "proof_md5" "" =
      .ok proof := rfl
  have hover : boolArg (instantData offset md5 overwrite path proof size) "overwrite" =
      .ok overwrite := rfl
  have hnat : uint64Arg (instantData offset md5 overwrite path proof size) "size" = .ok size :=
    uint64Arg_nat rfl hsize
  have hnat' : uint64Arg (instantData offset md5 overwrite path proof size) "challenge_offset" =
      .ok offset := uint64Arg_nat rfl hoffset
  have hhandler : handler (backend env) .instantUpload
      (requestRoot "instant_upload" (instantData offset md5 overwrite path proof size) seq token) seq
      { sys := w, conn := c } =
      sendOk seq instantReply { sys := w', conn := c, calls := [⟨w, c, .instantUpload c.session phys
        (str "/" ++ norm) md5 size offset proof overwrite⟩] } := by
    show onInstantUpload (backend env) _ seq _ = _
    unfold onInstantUpload
    rw [bind_ok (requireLogin_run hauthed), lifted_run requestRoot_data, lifted_run hpath,
      lifted_run hnorm, resolved_run hauthed hphys, lifted_run hmd5, lifted_run hnat,
      lifted_run hnat', lifted_run hproof, lifted_run hover, fields_run, called_ok hrun]
    rfl
  exact answers_of_sendOk (by decide) hauthed hseq hhandler rfl hreply

/-- `upload_begin` is answered. -/
theorem uploadBegin_answered (hauthed : c.authed = true) (hseq : seq < 2 ^ 64)
    (hsize : size < 2 ^ 64) (hnorm : PathGuard.normalizeLogical path = .ok norm)
    (hphys : PathGuard.resolve (files env) c.session.rootDir path false w = (.ok phys, w))
    {st : UploadSession}
    (hrun : TransferService.beginUpload (backend env) c.session phys (str "/" ++ norm) md5 size w =
      (.ok st, w')) (hid : st.fileId.length = 32) (hreceived : st.received < 2 ^ 64)
    (hchunk : env.cfg.chunkSize < 2 ^ 64) :
    Answers (Server.frameTurn env w c
      (.json (dumpJson (requestRoot "upload_begin" (uploadData md5 path size) seq token)))) seq w'
      { c with upload := st } (uploadReply env.cfg st) := by
  have hreply : (uploadReply env.cfg st).dumpText.length ≤ 2000 := by
    have hkeys := reply_keys
    have hnumbers := And.intro (nat_length_le hreceived) (nat_length_le hchunk)
    have htext := str_length_le st.fileId
    apply (obj_length_le _).trans
    simp only [membersBound, List.map_cons, List.map_nil, List.sum_cons, List.sum_nil]
    omega
  have hpath : stringArg (uploadData md5 path size) "path" "" = .ok path := rfl
  have hmd5 : stringArg (uploadData md5 path size) "md5" "" = .ok md5 := rfl
  have hnat : uint64Arg (uploadData md5 path size) "size" = .ok size := uint64Arg_nat rfl hsize
  have hhandler : ∃ calls, handler (backend env) .uploadBegin
      (requestRoot "upload_begin" (uploadData md5 path size) seq token) seq { sys := w, conn := c } =
      sendOk seq (uploadReply env.cfg st)
        { sys := w', conn := { c with upload := st }, calls := calls } := by
    apply Exists.intro
    show onUploadBegin (backend env) _ seq _ = _
    unfold onUploadBegin
    rw [bind_ok (requireLogin_run hauthed), lifted_run requestRoot_data, lifted_run hpath,
      lifted_run hnorm, record_run, assign_run, resolved_run hauthed hphys, lifted_run hmd5,
      lifted_run hnat, fields_run, called_ok hrun, assign_run]
    rfl
  obtain ⟨calls, hhandler⟩ := hhandler
  exact answers_of_sendOk (by decide) hauthed hseq hhandler rfl hreply

/-- `upload_end` is answered. -/
theorem uploadEnd_answered (hauthed : c.authed = true) (hseq : seq < 2 ^ 64) {st : UploadSession}
    (hrun : TransferService.finishUpload (backend env) c.session (w, c.upload) = (.ok (), w', st))
    (hmd5 : st.md5.length = 32) (hsize : st.totalSize < 2 ^ 64) :
    Answers (Server.frameTurn env w c
      (.json (dumpJson (requestRoot "upload_end" .null seq token)))) seq w' { c with upload := {} }
      (endReply st) := by
  have hreply : (endReply st).dumpText.length ≤ 2000 := by
    have hkeys := reply_keys
    have hnumber := nat_length_le hsize
    have htext := str_length_le st.md5
    have hready := str_length_le (str "ready")
    apply (obj_length_le _).trans
    simp only [membersBound, List.map_cons, List.map_nil, List.sum_cons, List.sum_nil]
    omega
  have hupload : ∀ (t : Turn World) (k : Unit → Act (Turn World) Unit), t.sys = w → t.conn = c →
      (withUpload (TransferService.finishUpload (backend env) c.session) >>= k) t =
        k () { t with sys := w', conn := { c with upload := st } } := by
    rintro t k rfl rfl
    apply bind_ok
    unfold withUpload
    rw [Action.zoom_apply, hrun]
  have hhandler : ∃ calls, handler (backend env) .uploadEnd
      (requestRoot "upload_end" .null seq token) seq { sys := w, conn := c } =
      sendOk seq (endReply st)
        { sys := w', conn := { c with upload := {} }, calls := calls } := by
    apply Exists.intro
    show onUploadEnd (backend env) seq _ = _
    unfold onUploadEnd
    rw [bind_ok (requireLogin_run hauthed), fields_run, record_run, hupload _ _ rfl rfl, fields_run,
      assign_run]
    rfl
  obtain ⟨calls, hhandler⟩ := hhandler
  exact answers_of_sendOk (by decide) hauthed hseq hhandler rfl hreply

/-- A chunk that is written is not answered. -/
theorem chunk_taken (hauthed : c.authed = true) (hid : c.upload.fileId.length = 32) {offset : ℕ}
    (hoffset : offset < 2 ^ 64) {data : Bytes} {st : UploadSession}
    (hrun : TransferService.writeChunk (backend env) offset data (w, c.upload) = (.ok (), w', st)) :
    IsServed (Server.frameTurn env w c (.chunk (Wire.chunkPayload c.upload.fileId offset data))) w'
      { c with upload := st } [] := by
  have hdecode := @decodeChunk_payload c.upload.fileId hid offset hoffset data
  have hne : c.upload.fileId ≠ [] := by
    intro hnil
    simp [hnil] at hid
  have hrun' : handleFrame (backend env) (.chunk (Wire.chunkPayload c.upload.fileId offset data))
      { sys := w, conn := c } = (.ok (), { sys := w', conn := { c with upload := st }
                                           calls := [⟨w, c, .writeChunk offset data⟩] }) := by
    unfold handleFrame
    dsimp only
    rw [hdecode]
    dsimp only
    unfold handleChunk
    rw [fields_run]
    dsimp only
    rw [if_neg (by simp [hauthed]), if_neg (by simp [hne]), record_run]
    unfold withUpload
    rw [Action.zoom_apply, hrun]
  unfold Server.frameTurn onFrame
  rw [Action.tryCatch_apply, hrun']
  exact ⟨rfl, rfl, rfl⟩

end

end CloudStore.Interface
