import CloudStore.Interface.RelatedServices

/-!
# Handlers over related backends

A handler reaches the system only through the calls that it records and the resolution of
paths. If a congruence relates these over two backends, and the effects on the connection,
it relates what the backends do with a frame.
-/

set_option autoImplicit false

namespace CloudStore.Interface

open CloudStore.Library (Bytes Action)
open CloudStore.Library.Action (Congruence)
open CloudStore.Model
open CloudStore.Model.Connection

variable {σ τ : Type}

/-- A recorded call of a service. -/
def serve {α : Type} (c : Call) (a : Act σ α) : Act (Turn σ) α := do
  record c
  system a

/-- A recorded call of a service on the upload session. -/
def serveUpload {α : Type} (c : Call) (a : Act (σ × UploadSession) α) : Act (Turn σ) α := do
  record c
  withUpload a

/-- The calls of the handlers over two backends are related. -/
structure Handled (T : Congruence Exn (Turn σ) (Turn τ)) (b : Backend σ) (b' : Backend τ) :
    Prop where
  cfg : b'.cfg = b.cfg
  fields : T.rel fields fields
  assign : ∀ f, T.rel (assign f) (assign f)
  send : ∀ r : Reply, T.rel (Action.change fun t => { t with sent := t.sent ++ [r] })
    (Action.change fun t => { t with sent := t.sent ++ [r] })
  closing : ∀ c ∈ [Call.closeUpload, Call.closeDownload], T.rel (record c) (record c)
  resolve : ∀ root path mustExist, T.rel (system (PathGuard.resolve b.files root path mustExist))
    (system (PathGuard.resolve b'.files root path mustExist))
  registerUser : ∀ u p, T.rel (serve (.registerUser u p) (AuthService.registerUser b u p))
    (serve (.registerUser u p) (AuthService.registerUser b' u p))
  login : ∀ u p ip, T.rel (serve (.login u p ip) (AuthService.login b u p ip))
    (serve (.login u p ip) (AuthService.login b' u p ip))
  checkToken : ∀ t, T.rel (serve (.checkToken t) (AuthService.checkToken b t))
    (serve (.checkToken t) (AuthService.checkToken b' t))
  logout : ∀ t, T.rel (serve (.logout t) (AuthService.logout b t))
    (serve (.logout t) (AuthService.logout b' t))
  listDir : ∀ p r, T.rel (serve (.listDir p r) (FileManager.listDir b.files p r))
    (serve (.listDir p r) (FileManager.listDir b'.files p r))
  statPath : ∀ p, T.rel (serve (.statPath p) (FileManager.statPath b.files p))
    (serve (.statPath p) (FileManager.statPath b'.files p))
  makeDir : ∀ p, T.rel (serve (.makeDir p) (FileManager.makeDir b.files p))
    (serve (.makeDir p) (FileManager.makeDir b'.files p))
  indexFile : ∀ u p m n d s,
    T.rel (serve (.indexFile u p m n d s) (TransferService.indexFile b u p m n d s))
      (serve (.indexFile u p m n d s) (TransferService.indexFile b' u p m n d s))
  lookupFile : ∀ u p, T.rel (serve (.lookupFile u p) (TransferService.lookupPlainFile b u p))
    (serve (.lookupFile u p) (TransferService.lookupPlainFile b' u p))
  listIndexed : ∀ u p, T.rel (serve (.listIndexed u p) (TransferService.listIndexed b u p))
    (serve (.listIndexed u p) (TransferService.listIndexed b' u p))
  removeUserPath : ∀ s p v,
    T.rel (serve (.removeUserPath s p v) (TransferService.removeUserPath b s p v))
      (serve (.removeUserPath s p v) (TransferService.removeUserPath b' s p v))
  renameUserPath : ∀ s p v p' v',
    T.rel (serve (.renameUserPath s p v p' v') (TransferService.renameUserPath b s p v p' v'))
      (serve (.renameUserPath s p v p' v') (TransferService.renameUserPath b' s p v p' v'))
  queryInstant : ∀ s m n,
    T.rel (serve (.queryInstant s m n) (TransferService.queryInstant b s m n))
      (serve (.queryInstant s m n) (TransferService.queryInstant b' s m n))
  instantUpload : ∀ s p v m n off proof o,
    T.rel
      (serve (.instantUpload s p v m n off proof o)
        (TransferService.instantUpload b s p v m n off proof o))
      (serve (.instantUpload s p v m n off proof o)
        (TransferService.instantUpload b' s p v m n off proof o))
  beginUpload : ∀ s p v m n,
    T.rel (serve (.beginUpload s p v m n) (TransferService.beginUpload b s p v m n))
      (serve (.beginUpload s p v m n) (TransferService.beginUpload b' s p v m n))
  writeChunk : ∀ off x,
    T.rel (serveUpload (.writeChunk off x) (TransferService.writeChunk b off x))
      (serveUpload (.writeChunk off x) (TransferService.writeChunk b' off x))
  finishUpload : ∀ s,
    T.rel (serveUpload (.finishUpload s) (TransferService.finishUpload b s))
      (serveUpload (.finishUpload s) (TransferService.finishUpload b' s))
  beginDownload : ∀ s p v,
    T.rel (serve (.beginDownload s p v) (TransferService.beginDownload b s v))
      (serve (.beginDownload s p v) (TransferService.beginDownload b' s v))
  readChunk : ∀ d off len,
    T.rel (serve (.readChunk off len) (TransferService.readChunk b d off len))
      (serve (.readChunk off len) (TransferService.readChunk b' d off len))

/-- The calls of services that take a connection while they hold one. -/
def Nesting : Call → Bool
  | .login .. => true
  | .removeUserPath .. => true
  | _ => false

/-- A congruence of turns relates what a turn does beside the calls that nest. -/
structure TurnRelated (R : Congruence Exn σ τ)
    (U : Congruence Exn (σ × UploadSession) (τ × UploadSession))
    (T : Congruence Exn (Turn σ) (Turn τ)) : Prop where
  fields : T.rel fields fields
  assign : ∀ f, T.rel (assign f) (assign f)
  send : ∀ r : Reply, T.rel (Action.change fun t => { t with sent := t.sent ++ [r] })
    (Action.change fun t => { t with sent := t.sent ++ [r] })
  record : ∀ c, Nesting c = false → T.rel (record c) (record c)
  system : ∀ {α : Type} (a : Act σ α) (a' : Act τ α), R.rel a a' → T.rel (system a) (system a')
  serve : ∀ c {α : Type} (a : Act σ α) (a' : Act τ α), Nesting c = false → R.rel a a' →
    T.rel (serve c a) (serve c a')
  serveUpload : ∀ c {α : Type} (a : Act (σ × UploadSession) α) (a' : Act (τ × UploadSession) α),
    Nesting c = false → U.rel a a' → T.rel (serveUpload c a) (serveUpload c a')

/-- Related services make related handlers, but for the calls that nest. -/
theorem handled_of {R : ℕ → Congruence Exn σ τ}
    {U : Congruence Exn (σ × UploadSession) (τ × UploadSession)}
    {T : Congruence Exn (Turn σ) (Turn τ)} {b : Backend σ} {b' : Backend τ}
    (h : Related R b b') (hs : SelectsRelated R b b') (hU : SessionRelated (R 1) U)
    (hT : TurnRelated (R 1) U T)
    (hlogin : ∀ u p ip, T.rel (serve (.login u p ip) (AuthService.login b u p ip))
      (serve (.login u p ip) (AuthService.login b' u p ip)))
    (hremove : ∀ s p v,
      T.rel (serve (.removeUserPath s p v) (TransferService.removeUserPath b s p v))
        (serve (.removeUserPath s p v) (TransferService.removeUserPath b' s p v))) :
    Handled T b b' where
  cfg := h.cfg
  fields := hT.fields
  assign := hT.assign
  send := hT.send
  closing c hc := by
    apply hT.record
    simp only [List.mem_cons, List.not_mem_nil, or_false] at hc
    rcases hc with rfl | rfl <;> rfl
  resolve _ _ _ := hT.system _ _ ((h.files 1).resolve _ _ _)
  registerUser _ _ := hT.serve _ _ _ rfl (h.registerUser 0 _ _)
  login := hlogin
  checkToken _ := hT.serve _ _ _ rfl (h.checkToken 1 _)
  logout _ := hT.serve _ _ _ rfl ((h.redis 1).delJson _)
  listDir _ _ := hT.serve _ _ _ rfl ((h.files 1).listDir _ _)
  statPath _ := hT.serve _ _ _ rfl ((h.files 1).statPath _)
  makeDir _ := hT.serve _ _ _ rfl ((h.files 1).makeDir _)
  indexFile _ _ _ _ _ _ := hT.serve _ _ _ rfl (h.indexFile 0 _ _ _ _ _ _)
  lookupFile _ _ := hT.serve _ _ _ rfl (h.lookupPlainFile 0 hs _ _)
  listIndexed _ _ := hT.serve _ _ _ rfl (h.listIndexed 0 hs _ _)
  removeUserPath := hremove
  renameUserPath _ _ _ _ _ := hT.serve _ _ _ rfl (h.renameUserPath 0 hs _ _ _ _ _)
  queryInstant _ _ _ := hT.serve _ _ _ rfl (h.queryInstant 1 _ _ _)
  instantUpload _ _ _ _ _ _ _ _ := hT.serve _ _ _ rfl (h.instantUpload 0 hs _ _ _ _ _ _ _ _)
  beginUpload _ _ _ _ _ := hT.serve _ _ _ rfl (h.beginUpload 1 _ _ _ _ _)
  writeChunk _ _ := hT.serveUpload _ _ _ rfl (h.writeChunk 1 hU _ _)
  finishUpload _ := hT.serveUpload _ _ _ rfl (h.finishUpload 0 hs hU _)
  beginDownload _ _ _ := hT.serve _ _ _ rfl (h.beginDownload 0 hs _ _)
  readChunk _ _ _ := hT.serve _ _ _ rfl (h.readChunk 1 _ _ _)

namespace Handled

variable {T : Congruence Exn (Turn σ) (Turn τ)} {b : Backend σ} {b' : Backend τ}
  (h : Handled T b b')

/-! ## Sequences -/

/-- A recorded call, and what follows. -/
theorem serve_bind {α β : Type} {c : Call} {a : Act σ α} {a' : Act τ α} {g : α → Act (Turn σ) β}
    {g' : α → Act (Turn τ) β} (hcall : T.rel (serve c a) (serve c a'))
    (hg : ∀ x, T.rel (g x) (g' x)) :
    T.rel (record c >>= fun _ => system a >>= g) (record c >>= fun _ => system a' >>= g') := by
  have hassoc : ∀ {ρ : Type} (x : Act ρ α) (k : α → Act (Turn ρ) β),
      (record c >>= fun _ => system x >>= k) = serve c x >>= k := fun _ _ => rfl
  rw [hassoc, hassoc]
  exact T.bind hcall hg

theorem serveUpload_bind {β : Type} {c : Call} {a : Act (σ × UploadSession) Unit}
    {a' : Act (τ × UploadSession) Unit} {g : Unit → Act (Turn σ) β} {g' : Unit → Act (Turn τ) β}
    (hcall : T.rel (serveUpload c a) (serveUpload c a')) (hg : ∀ x, T.rel (g x) (g' x)) :
    T.rel (record c >>= fun _ => withUpload a >>= g)
      (record c >>= fun _ => withUpload a' >>= g') := by
  have hassoc : ∀ {ρ : Type} (x : Act (ρ × UploadSession) Unit) (k : Unit → Act (Turn ρ) β),
      (record c >>= fun _ => withUpload x >>= k) = serveUpload c x >>= k := fun _ _ => rfl
  rw [hassoc, hassoc]
  exact T.bind hcall hg

theorem fail {α : Type} (code : ErrorCode) (msg : Bytes) :
    T.rel (Model.fail code msg : Act (Turn σ) α) (Model.fail code msg : Act (Turn τ) α) := T.throw _

include h

theorem sendJson (v : Json) : T.rel (sendJson v) (Connection.sendJson v) :=
  T.lift_bind fun _ => h.send (.json v)

theorem sendError (seq : ℕ) (code : ErrorCode) (msg : Bytes) :
    T.rel (sendError seq code msg) (Connection.sendError seq code msg) := h.sendJson _

theorem sendOk (seq : ℕ) (data : Json) : T.rel (sendOk seq data) (Connection.sendOk seq data) :=
  h.sendJson _

theorem sendChunk (fileId : Bytes) (offset : ℕ) (data : Bytes) :
    T.rel (sendChunk fileId offset data) (Connection.sendChunk fileId offset data) :=
  T.lift_bind fun _ => h.send (.chunk fileId offset data)

theorem requireLogin : T.rel requireLogin Connection.requireLogin := by
  apply T.bind h.fields
  intro c
  exact T.ite (fun _ => fail _ _) fun _ => T.pure ()

theorem resolveUserPath (path : Bytes) (mustExist : Bool) :
    T.rel (resolveUserPath b path mustExist) (Connection.resolveUserPath b' path mustExist) := by
  apply T.bind h.requireLogin
  intro _
  exact T.bind h.fields fun c => h.resolve _ _ _

theorem resolveExistingOrNew (path : Bytes) :
    T.rel (resolveExistingOrNew b path) (Connection.resolveExistingOrNew b' path) := by
  apply T.tryCatch (h.resolveUserPath path true)
  intro e
  cases e with
  | std what => exact T.throw _
  | cloud code msg =>
      cases code
      case notFound => exact h.resolveUserPath path false
      all_goals exact T.throw _

/-! ## The handlers -/

theorem onRegister (root : Json) (seq : ℕ) :
    T.rel (onRegister b root seq) (Connection.onRegister b' root seq) := by
  apply T.lift_bind
  intro data
  apply T.lift_bind
  intro username
  apply T.lift_bind
  intro password
  apply serve_bind (h.registerUser _ _)
  exact fun s => h.sendOk _ _

theorem onLogin (root : Json) (seq : ℕ) :
    T.rel (onLogin b root seq) (Connection.onLogin b' root seq) := by
  apply T.lift_bind
  intro data
  apply T.lift_bind
  intro username
  apply T.lift_bind
  intro password
  apply T.bind h.fields
  intro c
  apply serve_bind (h.login _ _ _)
  intro s
  exact T.bind (h.assign _) fun _ => h.sendOk _ _

theorem onLogout (seq : ℕ) : T.rel (onLogout b seq) (Connection.onLogout b' seq) := by
  apply T.bind h.requireLogin
  intro _
  apply T.bind h.fields
  intro c
  apply serve_bind (h.logout _)
  intro _
  exact T.bind (h.assign _) fun _ => h.sendOk _ _

theorem onList (root : Json) (seq : ℕ) :
    T.rel (onList b root seq) (Connection.onList b' root seq) := by
  apply T.bind h.requireLogin
  intro _
  apply T.lift_bind
  intro data
  apply T.lift_bind
  intro path
  apply T.lift_bind
  intro data'
  apply T.lift_bind
  intro recursive
  apply T.lift_bind
  intro logical
  apply T.bind
  · apply T.tryCatch
    · exact T.bind (h.resolveUserPath _ _) fun phys => h.listDir phys recursive
    · intro e
      cases e with
      | std what => exact T.throw _
      | cloud code msg =>
          cases code
          case notFound => exact T.pure []
          all_goals exact T.throw _
  · intro entries
    apply T.bind h.fields
    intro c
    exact serve_bind (h.listIndexed _ _) fun indexed => h.sendOk _ _

theorem onMkdir (root : Json) (seq : ℕ) :
    T.rel (onMkdir b root seq) (Connection.onMkdir b' root seq) := by
  apply T.bind h.requireLogin
  intro _
  apply T.lift_bind
  intro data
  apply T.lift_bind
  intro path
  apply T.bind (h.resolveUserPath _ _)
  intro phys
  apply serve_bind (h.makeDir _)
  intro _
  apply T.lift_bind
  intro logical
  apply T.bind h.fields
  intro c
  exact serve_bind (h.indexFile _ _ _ _ _ _) fun _ => h.sendOk _ _

theorem onRm (root : Json) (seq : ℕ) : T.rel (onRm b root seq) (Connection.onRm b' root seq) := by
  apply T.bind h.requireLogin
  intro _
  apply T.lift_bind
  intro data
  apply T.lift_bind
  intro path
  apply T.lift_bind
  intro logical
  apply T.ite
  · exact fun _ => fail _ _
  · intro _
    apply T.bind (h.resolveUserPath _ _)
    intro phys
    apply T.bind h.fields
    intro c
    exact serve_bind (h.removeUserPath _ _ _) fun _ => h.sendOk _ _

theorem onStat (root : Json) (seq : ℕ) :
    T.rel (onStat b root seq) (Connection.onStat b' root seq) := by
  apply T.bind h.requireLogin
  intro _
  apply T.lift_bind
  intro data
  apply T.lift_bind
  intro path
  apply T.lift_bind
  intro logical
  apply T.bind h.fields
  intro c
  apply serve_bind (h.lookupFile _ _)
  intro indexed
  cases indexed with
  | some indexed => exact h.sendOk _ _
  | none =>
      apply T.bind (h.resolveUserPath _ _)
      intro phys
      exact serve_bind (h.statPath _) fun e => h.sendOk _ _

theorem onRename (root : Json) (seq : ℕ) :
    T.rel (onRename b root seq) (Connection.onRename b' root seq) := by
  apply T.bind h.requireLogin
  intro _
  apply T.lift_bind
  intro data
  apply T.lift_bind
  intro source
  apply T.lift_bind
  intro data'
  apply T.lift_bind
  intro dest
  apply T.lift_bind
  intro fromNorm
  apply T.lift_bind
  intro toNorm
  apply T.bind (h.resolveExistingOrNew _)
  intro fromPhys
  apply T.bind (h.resolveUserPath _ _)
  intro toPhys
  apply T.bind h.fields
  intro c
  exact serve_bind (h.renameUserPath _ _ _ _ _) fun _ => h.sendOk _ _

theorem onInstantQuery (root : Json) (seq : ℕ) :
    T.rel (onInstantQuery b root seq) (Connection.onInstantQuery b' root seq) := by
  apply T.bind h.requireLogin
  intro _
  apply T.lift_bind
  intro d
  apply T.lift_bind
  intro md5
  apply T.lift_bind
  intro size
  apply T.bind h.fields
  intro c
  exact serve_bind (h.queryInstant _ _ _) fun q => h.sendOk _ _

theorem onInstantUpload (root : Json) (seq : ℕ) :
    T.rel (onInstantUpload b root seq) (Connection.onInstantUpload b' root seq) := by
  apply T.bind h.requireLogin
  intro _
  apply T.lift_bind
  intro d
  apply T.lift_bind
  intro path
  apply T.lift_bind
  intro logical
  apply T.bind (h.resolveUserPath _ _)
  intro phys
  apply T.lift_bind
  intro md5
  apply T.lift_bind
  intro size
  apply T.lift_bind
  intro offset
  apply T.lift_bind
  intro proof
  apply T.lift_bind
  intro overwrite
  apply T.bind h.fields
  intro c
  exact serve_bind (h.instantUpload _ _ _ _ _ _ _ _) fun _ => h.sendOk _ _

theorem onUploadBegin (root : Json) (seq : ℕ) :
    T.rel (onUploadBegin b root seq) (Connection.onUploadBegin b' root seq) := by
  unfold Connection.onUploadBegin
  rw [h.cfg]
  apply T.bind h.requireLogin
  intro _
  apply T.lift_bind
  intro d
  apply T.lift_bind
  intro path
  apply T.lift_bind
  intro logical
  apply T.bind (h.closing _ (by simp))
  intro _
  apply T.bind (h.assign _)
  intro _
  apply T.bind (h.resolveUserPath _ _)
  intro phys
  apply T.lift_bind
  intro md5
  apply T.lift_bind
  intro size
  apply T.bind h.fields
  intro c
  apply serve_bind (h.beginUpload _ _ _ _ _)
  intro st
  exact T.bind (h.assign _) fun _ => h.sendOk _ _

theorem handleChunk (chunk : ChunkPayload) :
    T.rel (handleChunk b chunk) (Connection.handleChunk b' chunk) := by
  apply T.bind h.fields
  intro c
  apply T.ite
  · exact fun _ => fail _ _
  · intro _
    apply T.ite
    · exact fun _ => fail _ _
    · exact fun _ => h.writeChunk _ _

theorem onUploadEnd (seq : ℕ) : T.rel (onUploadEnd b seq) (Connection.onUploadEnd b' seq) := by
  apply T.bind h.requireLogin
  intro _
  apply T.bind h.fields
  intro c
  apply serveUpload_bind (h.finishUpload _)
  intro _
  apply T.bind h.fields
  intro c'
  exact T.bind (h.assign _) fun _ => h.sendOk _ _

theorem onDownloadBegin (root : Json) (seq : ℕ) :
    T.rel (onDownloadBegin b root seq) (Connection.onDownloadBegin b' root seq) := by
  unfold Connection.onDownloadBegin
  rw [h.cfg]
  apply T.bind h.requireLogin
  intro _
  apply T.lift_bind
  intro data
  apply T.lift_bind
  intro path
  apply T.lift_bind
  intro logical
  apply T.bind (h.closing _ (by simp))
  intro _
  apply T.bind (h.assign _)
  intro _
  apply T.bind (h.resolveExistingOrNew _)
  intro phys
  apply T.bind h.fields
  intro c
  apply serve_bind (h.beginDownload _ _ _)
  intro d
  exact T.bind (h.assign _) fun _ => h.sendOk _ _

theorem onDownloadChunk (root : Json) (seq : ℕ) :
    T.rel (onDownloadChunk b root seq) (Connection.onDownloadChunk b' root seq) := by
  unfold Connection.onDownloadChunk
  rw [h.cfg]
  apply T.bind h.requireLogin
  intro _
  apply T.lift_bind
  intro d
  apply T.bind h.fields
  intro c
  apply T.lift_bind
  intro fileId
  apply T.ite
  · exact fun _ => fail _ _
  · intro _
    apply T.lift_bind
    intro offset
    apply T.lift_bind
    intro value
    apply T.lift_bind
    intro length
    apply serve_bind (h.readChunk _ _ _)
    intro bytes
    exact T.ite (fun _ => h.sendOk _ _) fun _ => h.sendChunk _ _ _

/-! ## Frames -/

theorem handler (cmd : Command) (root : Json) (seq : ℕ) :
    T.rel (handler b cmd root seq) (Connection.handler b' cmd root seq) := by
  cases cmd with
  | register => exact h.onRegister root seq
  | login => exact h.onLogin root seq
  | logout => exact h.onLogout seq
  | ls => exact h.onList root seq
  | mkdir => exact h.onMkdir root seq
  | rm => exact h.onRm root seq
  | stat => exact h.onStat root seq
  | rename => exact h.onRename root seq
  | instantQuery => exact h.onInstantQuery root seq
  | instantUpload => exact h.onInstantUpload root seq
  | uploadBegin => exact h.onUploadBegin root seq
  | uploadEnd => exact h.onUploadEnd seq
  | downloadBegin => exact h.onDownloadBegin root seq
  | downloadChunk => exact h.onDownloadChunk root seq

theorem tokenLogin (root : Json) (cmd : Bytes) :
    T.rel (tokenLogin b root cmd) (Connection.tokenLogin b' root cmd) := by
  apply T.bind h.fields
  intro c
  apply T.lift_bind
  intro token
  cases token with
  | none => exact T.pure ()
  | some token => exact serve_bind (h.checkToken token) fun s => h.assign _

theorem handleJson (payload : JsonText) :
    T.rel (handleJson b payload) (Connection.handleJson b' payload) := by
  cases payload with
  | error err => exact h.sendError _ _ _
  | ok root =>
      apply T.lift_bind
      intro cmd
      apply T.lift_bind
      intro seq
      apply T.bind (h.tokenLogin root cmd)
      intro _
      apply T.tryCatch
      · cases Command.ofText cmd with
        | none => exact h.sendError _ _ _
        | some c => exact h.handler c root seq
      · intro e
        cases e with
        | std what => exact T.throw _
        | cloud code msg => exact h.sendError _ _ _

/-- **What the two backends do with a frame is related.** -/
theorem onFrame (frame : Frame) : T.rel (onFrame b frame) (Connection.onFrame b' frame) := by
  apply T.tryCatch
  · cases frame with
    | json text => exact h.handleJson text
    | chunk payload =>
        unfold handleFrame
        dsimp only
        cases Protocol.decodeChunk payload with
        | none => exact fail _ _
        | some chunk => exact h.handleChunk chunk
    | other type => exact fail _ _
  · intro e
    cases e with
    | std what => exact h.sendError _ _ _
    | cloud code msg => exact h.sendError _ _ _

end Handled

end CloudStore.Interface
