import CloudStore.Interface.PoolUse
import CloudStore.Interface.Playback
import CloudStore.Interface.ServiceViews
import CloudStore.Model.Server

/-!
# The event thread and its connections

A request that runs alone on the event thread waits for itself if it needs more connections
than the pool has. Two are enough for every request, over any backend. With one, a login
waits once it writes its log, the removal of a directory once it releases a file below, and
the start once it seeds a user.
-/

set_option autoImplicit false

namespace CloudStore.Analysis

open CloudStore.Library (Bytes Action Node)
open CloudStore.Library.Action (Congruence Moves)
open CloudStore.Interface
open CloudStore.Model
open CloudStore.Model.Connection
open CloudStore.Model.PoolState (scope pooled)
open CloudStore.Model.World (backend)

/-- What runs on the event thread. -/
inductive Work where
  | frame (c : Connection) (f : Frame)
  | start

/-- Whether an `acquire` finds the queue empty while the work is done. -/
def Work.waits {σ : Type} (b : Backend σ) (s : σ) (p : PoolState) : Work → Bool
  | .frame c f => (onFrame (pooled b) f { sys := (s, p), conn := c }).2.sys.2.waited
  | .start => (AuthService.ensureDefaultUsers (pooled b) (s, p)).2.2.waited

section

variable (env : Env)

/-- The root directory of a user is there or can be made. -/
def CanMakeRoot (w : World) (username : Bytes) : Prop :=
  (ensureDir (World.files env) (joinPath env.cfg.usersRoot username) w).1 = .ok true

/-- The release of a path ends with `bad md5`: its path key holds a text of one character,
of which there is neither another reference nor an object key. -/
def Stranded (w : World) (userId : ℤ) (virtualPath : Bytes) : Prop :=
  let arg := env.dialect.arg
  let md5 := w.redis.strings (RedisStore.pathKey userId (arg virtualPath))
  md5.length = 1 ∧
    (w.redis.sets (RedisStore.refsKey (arg md5))).erase
      (RedisStore.refMember userId (arg virtualPath)) = ∅ ∧
    w.redis.strings (RedisStore.objKey (arg md5)) = []

/-- The paths of the files that the index has below a directory. -/
def indexedBelow (w : World) (userId : ℤ) (dirVirtual : Bytes) : List Bytes :=
  (w.rows.filter fun r => r.userId = userId && !r.isDir &&
    env.dialect.like r.virtualPath (TransferService.dirPrefix dirVirtual ++ str "%")).map
      FileRow.virtualPath

/-- A call that takes a connection while it holds one. -/
def Nests (w : World) : Call → Prop
  | .login username password _ =>
      ∀ row, w.users.find? (fun r => env.dialect.sameName username r.username) = some row →
        verifyPassword (backend env) row.salt password row.passwordHash = true →
          CanMakeRoot env w username
  | .removeUserPath session physical virtualPath =>
      (w.rows.find? (World.isRow env session.userId virtualPath)).filter (fun r => !r.isDir) = none ∧
        (Library.Posix.lstat w.fs physical) = .ok .dir ∧
        ∃ first, (indexedBelow env w session.userId virtualPath).head? = some first ∧
          ¬ Stranded env w session.userId first
  | _ => False

/-- Work that takes a connection while it holds one. -/
def Work.nests (w : World) : Work → Prop
  | .frame c f => ∃ r ∈ (Server.frameTurn env w c f).calls, Nests env r.sys r.call
  | .start => w.users = [] ∧ CanMakeRoot env w (str "admin")

end

variable {env : Env}

/-! ## The stores beside the pool -/

/-- The programs that do to the stores what a program without a pool does. -/
def onStores (σ : Type) : Congruence Exn σ (σ × PoolState) :=
  Action.projected Exn (fun st => st.2.pool.stopping = false) Prod.fst

/-- The scope of a connection does what its body does. -/
theorem scope_onStores {σ α : Type} {a : Act σ α} {a' : Act (σ × PoolState) α}
    (h : (onStores σ).rel a a') : (onStores σ).rel a (scope a') := by
  rintro ⟨s, p⟩ hp
  cases hidle : p.pool.idle with
  | nil =>
      have hacquire : MysqlPool.acquire {} p.pool = (.ok none, p.pool) := by
        simp [MysqlPool.acquire, Action.bind_apply, hidle, show p.pool.stopping = false from hp]
      unfold scope
      simp only [hacquire]
      exact h (s, { p with waited := true }) hp
  | cons m rest =>
      have hacquire : MysqlPool.acquire {} p.pool =
          (.ok (some ⟨true, some m⟩), { p.pool with idle := rest }) := by
        simp [MysqlPool.acquire, Action.bind_apply, hidle, show p.pool.stopping = false from hp]
      unfold scope
      simp only [hacquire]
      exact h (s, { p with pool := { p.pool with idle := rest } }) hp

theorem stores_related : Related (fun _ => onStores World) (backend env) (pooled (backend env)) :=
  beside_related (fun _ _ _ _ ht => ⟨rfl, ht⟩) fun _ _ _ _ h => scope_onStores h

theorem stores_selects :
    SelectsRelated (fun _ => onStores World) (backend env) (pooled (backend env)) :=
  beside_selects fun _ _ _ _ ht => ⟨rfl, ht⟩

/-- A turn, without the pool. -/
def stores {σ : Type} (t : Turn (σ × PoolState)) : Turn σ where
  sys := t.sys.1
  conn := t.conn
  sent := t.sent
  calls := t.calls.map fun r => ⟨r.sys.1, r.conn, r.call⟩

/-- The same, beside an upload session. -/
def onStoresBeside (σ : Type) :
    Congruence Exn (σ × UploadSession) ((σ × PoolState) × UploadSession) :=
  Action.projected Exn (fun st => st.1.2.pool.stopping = false) fun st => (st.1.1, st.2)

/-- The same, for turns. -/
def onTurns (σ : Type) : Congruence Exn (Turn σ) (Turn (σ × PoolState)) :=
  Action.projected Exn (fun t => t.sys.2.pool.stopping = false) stores

theorem session_stores (σ : Type) : SessionRelated (onStores σ) (onStoresBeside σ) where
  look _ ht := ⟨rfl, ht⟩
  setSession _ _ ht := ⟨rfl, ht⟩
  onSystem a a' h := by
    rintro ⟨st, up⟩ ht
    obtain ⟨hrun, hkept⟩ := h st ht
    exact ⟨by simp [TransferService.onSystem, hrun], hkept⟩

theorem serve_stores {σ α : Type} (c : Call) {a : Act σ α} {a' : Act (σ × PoolState) α}
    (h : (onStores σ).rel a a') : (onTurns σ).rel (serve c a) (serve c a') := by
  intro t ht
  obtain ⟨hrun, hkept⟩ := h t.sys ht
  have hrun : a t.sys.1 = ((a' t.sys).1, (a' t.sys).2.1) := hrun
  refine ⟨?_, hkept⟩
  simp [serve, Action.bind_apply, record, Connection.system, hrun, stores]

theorem turn_stores (σ : Type) : TurnRelated (onStores σ) (onStoresBeside σ) (onTurns σ) where
  fields _ ht := ⟨rfl, ht⟩
  assign _ _ ht := ⟨rfl, ht⟩
  send _ _ ht := ⟨rfl, ht⟩
  record _ _ _ ht := ⟨rfl, ht⟩
  system a a' h := by
    intro t ht
    obtain ⟨hrun, hkept⟩ := h t.sys ht
    have hrun : a t.sys.1 = ((a' t.sys).1, (a' t.sys).2.1) := hrun
    exact ⟨by simp [Connection.system, hrun, stores], hkept⟩
  serve c _ _ _ _ h := serve_stores c h
  serveUpload c _ a a' _ h := by
    intro t ht
    obtain ⟨hrun, hkept⟩ := h (t.sys, t.conn.upload) ht
    have hrun : a (t.sys.1, t.conn.upload) =
      ((a' (t.sys, t.conn.upload)).1, ((a' (t.sys, t.conn.upload)).2.1.1,
        (a' (t.sys, t.conn.upload)).2.2)) := hrun
    refine ⟨?_, hkept⟩
    simp [serveUpload, Action.bind_apply, record, Connection.withUpload, hrun, stores]

/-- The handlers do to the stores what they do without a pool. -/
theorem frame_stores (f : Frame) (t : Turn (World × PoolState))
    (ht : t.sys.2.pool.stopping = false) :
    stores (onFrame (pooled (backend env)) f t).2 = (onFrame (backend env) f (stores t)).2 := by
  have hhandled : Handled (onTurns World) (backend env) (pooled (backend env)) :=
    handled_of stores_related stores_selects (session_stores World) (turn_stores World)
      (fun u p ip => serve_stores _ (stores_related.login 0 stores_selects u p ip))
      fun s p v => serve_stores _ (stores_related.removeUserPath 0 stores_selects s p v)
  exact (congrArg Prod.snd (hhandled.onFrame f t ht).1).symm

/-! ## Calls that nest -/

/-- What a program of the pool does to the stores, read off the program without a pool. -/
theorem run_stores {α : Type} {a : Act World α} {a' : Act (World × PoolState) α}
    (h : (onStores World).rel a a') {k : ℕ} (hk : (spares World k).rel a a') {w w' : World}
    {n : ℕ} {p : PoolState} (hp : Free n p) {r : Except Exn α} (hrun : a w = (r, w')) :
    ∃ p', a' (w, p) = (r, (w', p')) ∧ Spares k p p' := by
  have hstores := (h (w, p) hp.running).1
  rw [hrun] at hstores
  refine ⟨(a' (w, p)).2.2, ?_, hk (w, p)⟩
  rw [Prod.ext_iff] at hstores
  exact Prod.ext hstores.1.symm (Prod.ext hstores.2.symm rfl)

/-- What follows a wait. -/
theorem waits_bind {σ α β : Type} (k : ℕ) {a : Act (σ × PoolState) α}
    {f : α → Act (σ × PoolState) β} {st : σ × PoolState} (ha : (a st).2.2.waited = true)
    (hf : ∀ x, Sparing k (f x)) :
    ((a >>= f) st).2.2.waited = true := by
  rw [Action.bind_apply]
  rcases hrun : a st with ⟨e | x, st'⟩
  · rw [hrun] at ha
    exact ha
  · rw [hrun] at ha
    exact (hf x st').stays ha

/-- What follows needs no more connections than are idle: it does not wait by itself. -/
theorem waits_bind_iff {σ α β : Type} {k k' n : ℕ} (hkn : k ≤ n) {a : Act (σ × PoolState) α}
    {f : α → Act (σ × PoolState) β} {st : σ × PoolState} (hst : Free n st.2)
    (ha : Sparing k' a)
    (hf : ∀ x, Sparing k (f x)) :
    ((a >>= f) st).2.2.waited = true ↔ (a st).2.2.waited = true := by
  cases hw : (a st).2.2.waited with
  | true => simp [waits_bind k hw hf]
  | false =>
      have hkept := (ha st).kept n hst hw
      rw [Action.bind_apply]
      rcases hrun : a st with ⟨e | x, st'⟩
      · rw [hrun] at hkept
        simpa using hkept.ready
      · rw [hrun] at hkept
        simp [(hf x st').calm n hkn hkept]

/-- With no connection idle, a scope waits. -/
theorem scope_waits {σ α : Type} {k : ℕ} {a : Act (σ × PoolState) α}
    (ha : Sparing k a) (s : σ) {p : PoolState}
    (hp : Free 0 p) : (scope a (s, p)).2.2.waited = true := by
  rw [scope_empty hp]
  exact (ha _).stays rfl

/-- A handler of exceptions does not undo a wait. -/
theorem waits_tryCatch {σ α : Type} (k : ℕ) {a : Act (σ × PoolState) α}
    {h : Exn → Act (σ × PoolState) α} {st : σ × PoolState} (ha : (a st).2.2.waited = true)
    (hh : ∀ e, Sparing k (h e)) :
    ((tryCatch a h) st).2.2.waited = true := by
  rw [Action.tryCatch_apply]
  rcases hrun : a st with ⟨e | x, st'⟩
  · rw [hrun] at ha
    exact (hh e st').stays ha
  · rw [hrun] at ha
    exact ha

theorem logLogin_waits {σ : Type} (b : Backend σ) (userId : ℤ) (ip : Bytes) (ok : Bool) (s : σ)
    {p : PoolState} (hp : Free 0 p) :
    (AuthService.logLogin (pooled b) userId ip ok (s, p)).2.2.waited = true := by
  have hrel := pooled_related b
  have hbody := Sparing.bind
    (hrel.prepare 0 "INSERT INTO login_log(user_id, ip, success) VALUES(?, ?, ?)")
    fun _ => hrel.insertLoginLog 0 userId ip ok
  exact waits_tryCatch 0 (scope_waits hbody s hp) fun _ => Sparing.pure ()

theorem unindex_waits {σ : Type} (b : Backend σ) (userId : ℤ) (virtualPath : Bytes) (s : σ)
    {p : PoolState} (hp : Free 0 p) :
    (TransferService.unindex (pooled b) userId virtualPath (s, p)).2.2.waited = true := by
  have hrel := pooled_related b
  exact scope_waits (Sparing.bind (hrel.prepare 0 _) fun _ =>
    Sparing.bind (hrel.deleteFile 0 _ _) fun _ => (hrel.redis 0).cmdDel _) s hp

theorem lookupFile_waits {σ : Type} (b : Backend σ) (userId : ℤ) (virtualPath : Bytes) (s : σ)
    {p : PoolState} (hp : Free 0 p) :
    (TransferService.lookupFile (pooled b) userId virtualPath (s, p)).2.2.waited = true := by
  have hrel := pooled_related b
  exact scope_waits (Sparing.bind (hrel.prepare 0 _) fun _ =>
    Sparing.tryCatch ((pooled_selects b).selectFile 0 _ _) fun _ => Sparing.pure none) s hp

/-- A program that answers, and what follows it. -/
theorem run_bind {k n : ℕ} (hkn : k ≤ n) {α β : Type} {a : Act World α}
    {a' : Act (World × PoolState) α} (h : (onStores World).rel a a')
    (hk : (spares World k).rel a a') {f : α → Act (World × PoolState) β} {w w' : World}
    {q : PoolState} (hq : Free n q) {x : α} (hrun : a w = (.ok x, w')) :
    ∃ q', Free n q' ∧ (a' >>= f) (w, q) = f x (w', q') := by
  obtain ⟨q', hrun', hspares⟩ := run_stores h hk hq hrun
  exact ⟨q', hspares.kept n hq (hspares.calm n hkn hq), Action.bind_ok hrun'⟩

/-- A program that throws, before anything. -/
theorem calm_error {α β : Type} {a : Act World α} {a' : Act (World × PoolState) α}
    (h : (onStores World).rel a a') (hk : (spares World 0).rel a a')
    {f : α → Act (World × PoolState) β} {w w' : World} {q : PoolState} (hq : Free 0 q) {e : Exn}
    (hrun : a w = (.error e, w')) : ¬ ((a' >>= f) (w, q)).2.2.waited = true := by
  obtain ⟨q', hrun', hspares⟩ := run_stores h hk hq hrun
  rw [Action.bind_error hrun']
  simp [hspares.calm 0 le_rfl hq]

theorem ensureUserRoot_ok (username : Bytes) (w : World) :
    (∃ root, (AuthService.ensureUserRoot (backend env) username w).1 = .ok root) ↔
      CanMakeRoot env w username := by
  unfold AuthService.ensureUserRoot CanMakeRoot
  rw [World.backend_files, World.backend_cfg]
  rcases hmade : ensureDir (World.files env) (joinPath env.cfg.usersRoot username) w with ⟨e | made, w'⟩
  · rw [Action.bind_error hmade]
    simp
  · rw [Action.bind_ok hmade]
    cases made with
    | true => exact ⟨fun _ => rfl, fun _ => ⟨_, rfl⟩⟩
    | false => exact ⟨fun ⟨_, h⟩ => (by cases h), fun h => (by cases h)⟩

/-- A login waits, unless the root directory of a user who is let in cannot be made. -/
theorem login_exactly (username password ip : Bytes) :
    Exactly (Nests env) 1 (.login username password ip)
      (AuthService.login (pooled (backend env)) username password ip) := by
  rintro ⟨w, p⟩
  have hspares := (pooled_related (backend env)).login 0 (pooled_selects (backend env)) username password
    ip (w, p)
  refine ⟨hspares.stays, fun hfree => ⟨hspares.kept 1 hfree, ?_⟩⟩
  obtain ⟨q, hq, hscope⟩ := @scope_waited World 0 p hfree
  unfold AuthService.login
  change (scope _ (w, p)).2.2.waited = true ↔ _
  rw [hscope]
  have hselect : (pooled (backend env)).sql.selectUser username (w, q) =
      (.ok (w.users.find? fun r => env.dialect.sameName username r.username), (w, q)) := rfl
  rw [Action.bind_ok hselect]
  cases hrow : w.users.find? fun r => env.dialect.sameName username r.username with
  | none =>
      refine iff_of_true ?_ (fun row h => by rw [hrow] at h; cases h)
      exact waits_bind 1 (logLogin_waits _ _ _ _ w hq) fun _ => Sparing.fail _ _
  | some row =>
      dsimp only
      cases hpass : verifyPassword (backend env) row.salt password row.passwordHash with
      | false =>
          refine iff_of_true ?_ (fun r h hr => ?_)
          · have hpass' : verifyPassword (pooled (backend env)) row.salt password row.passwordHash =
              false := hpass
            rw [hpass', if_pos (show (!false) = true from rfl)]
            exact waits_bind 1 (logLogin_waits _ _ _ _ w hq) fun _ => Sparing.fail _ _
          · rw [hrow] at h
            cases h
            rw [hpass] at hr
            cases hr
      | true =>
          have hpass' : verifyPassword (pooled (backend env)) row.salt password row.passwordHash =
            true := hpass
          rw [hpass', if_neg (by simp)]
          have hnests : Nests env w (.login username password ip) ↔ CanMakeRoot env w username :=
            ⟨fun h => h row hrow hpass, fun h _ _ _ => h⟩
          rw [hnests]
          have hrel := pooled_related (backend env)
          have hroot := @ensureUserRoot_ok env username w
          rcases hrun : AuthService.ensureUserRoot (backend env) username w with ⟨e | root, w'⟩
          · rw [hrun] at hroot
            refine iff_of_false ?_ fun h => ?_
            · exact calm_error (stores_related.ensureUserRoot 0 username)
                (hrel.ensureUserRoot 0 username) hq hrun
            · obtain ⟨root, h⟩ := hroot.mpr h
              cases h
          · rw [hrun] at hroot
            refine iff_of_true ?_ (hroot.mp ⟨root, rfl⟩)
            obtain ⟨q₁, hq₁, heq⟩ := run_bind le_rfl (stores_related.ensureUserRoot 0 username)
              (hrel.ensureUserRoot 0 username) hq hrun
            rw [heq]
            rcases htoken : randomHex (backend env) 32 w' with ⟨e | token, w₂⟩
            · cases htoken
            obtain ⟨q₂, hq₂, heq⟩ := run_bind le_rfl (stores_related.randomHex 0 32)
              (hrel.randomHex 0 32) hq₁ htoken
            rw [heq]
            unfold RedisStore.setSession
            obtain ⟨q₃, hq₃, heq⟩ := run_bind le_rfl
              ((stores_related.redis 0).setJsonEx (RedisStore.sessionKey token)
                (dumpJson (AuthService.sessionJson
                  { userId := row.id, username := username, rootDir := root, token := token }))
                env.cfg.sessionTtlSec)
              ((hrel.redis 0).setJsonEx _ _ _) hq₂ rfl
            refine (congrArg (fun r : Except Exn UserSession × World × PoolState => r.2.2.waited)
              heq).trans ?_
            exact waits_bind 1 (logLogin_waits _ _ _ _ _ hq₃) fun _ => Sparing.pure _

/-- The place of an object is known, if its digest is long enough or it has a key. -/
theorem resolveObjectPath_answers (md5 : Bytes) (w : World) :
    if md5.length < 2 ∧ w.redis.strings (RedisStore.objKey (env.dialect.arg md5)) = [] then
      ∃ e, TransferService.resolveObjectPath (backend env) md5 w = (.error e, w)
    else ∃ obj, TransferService.resolveObjectPath (backend env) md5 w = (.ok obj, w) := by
  unfold TransferService.resolveObjectPath
  rw [World.backend_redis, Action.bind_ok (getObjectPath_eq md5 w)]
  by_cases hcached : w.redis.strings (RedisStore.objKey (env.dialect.arg md5)) = []
  · rw [if_neg (not_not.mpr hcached)]
    unfold TransferService.objectPathFor
    by_cases hlen : md5.length < 2
    · rw [if_pos ⟨hlen, hcached⟩, if_pos hlen]
      exact ⟨_, rfl⟩
    · rw [if_neg fun h => hlen h.1, if_neg hlen]
      exact ⟨_, rfl⟩
  · rw [if_pos hcached, if_neg fun h => hcached h.2]
    exact ⟨_, rfl⟩

theorem collectObject_answers {md5 obj : Bytes} {w : World}
    (h : TransferService.resolveObjectPath (backend env) md5 w = (.ok obj, w)) :
    ∃ w', TransferService.collectObject (backend env) md5 w = (.ok (), w') := by
  obtain ⟨there, hthere⟩ := @fileExists_ok env obj w
  unfold TransferService.collectObject
  rw [Action.bind_ok h, World.backend_files, World.backend_redis, Action.bind_ok hthere]
  cases there with
  | false => exact ⟨_, deleteObjectMeta_eq md5 w⟩
  | true =>
      cases hunlink : Library.Posix.unlink w.fs obj <;>
        simp [Action.bind_apply, World.files, World.fileCall, hunlink, deleteObjectMeta_eq]

/-- With no connection idle, the release of a path waits, unless it is stranded; then it
throws. -/
theorem releaseContentRef_waits (userId : ℤ) (virtualPath : Bytes) (w : World) {q : PoolState}
    (hq : Free 0 q) :
    ((TransferService.releaseContentRef (pooled (backend env)) userId virtualPath
        (w, q)).2.2.waited = true ↔ ¬ Stranded env w userId virtualPath) ∧
      (Stranded env w userId virtualPath → ∃ e,
        (TransferService.releaseContentRef (backend env) userId virtualPath w).1 = .error e) := by
  have hrel := pooled_related (backend env)
  have hstores := @stores_related env
  have hunindex : ∀ w' q', Free 0 q' →
      (TransferService.unindex (pooled (backend env)) userId virtualPath (w', q')).2.2.waited =
        true := fun w' _ hq' => unindex_waits _ _ _ w' hq'
  have hget := @getPathMd5_eq env userId virtualPath w
  have hget' : RedisStore.getPathMd5 (pooled (backend env)).redis userId virtualPath (w, q) =
      (.ok (w.redis.strings (RedisStore.pathKey userId (env.dialect.arg virtualPath))), (w, q)) := by
    have h : RedisStore.getPathMd5 (pooled (backend env)).redis userId virtualPath =
      Action.beside (RedisStore.getPathMd5 (World.redisCalls env) userId virtualPath) := rfl
    rw [h, Action.beside_apply, hget]
  unfold Stranded
  dsimp only
  set key := w.redis.strings (RedisStore.pathKey userId (env.dialect.arg virtualPath)) with hkey
  by_cases hnil : key = []
  · have hlen : key.length ≠ 1 := by rw [hnil]; decide
    refine ⟨iff_of_true ?_ fun h => hlen h.1, fun h => (hlen h.1).elim⟩
    have hreleased : (TransferService.releasedMd5 (pooled (backend env)) userId virtualPath
        (w, q)).2.2.waited = true := by
      unfold TransferService.releasedMd5
      rw [Action.bind_ok hget', if_pos hnil]
      have hlookup : (TransferService.lookupPlainFile (pooled (backend env)) userId virtualPath
          (w, q)).2.2.waited = true :=
        waits_bind 1 (lookupFile_waits _ _ _ w hq) fun _ => Sparing.pure _
      refine waits_bind 1 hlookup fun info => ?_
      cases info <;> exact Sparing.pure _
    exact waits_bind 1 hreleased fun md5 => hrel.releaseMd5 0 userId virtualPath md5
  · have hreleased : TransferService.releasedMd5 (backend env) userId virtualPath w =
        (.ok key, w) := by
      unfold TransferService.releasedMd5
      rw [World.backend_redis, Action.bind_ok hget, if_neg hnil]
      rfl
    have hreleased' : TransferService.releasedMd5 (pooled (backend env)) userId virtualPath (w, q) =
        (.ok key, (w, q)) := by
      unfold TransferService.releasedMd5
      rw [Action.bind_ok hget', if_neg hnil]
      rfl
    unfold TransferService.releaseContentRef
    rw [Action.bind_ok hreleased', Action.bind_ok hreleased]
    dsimp only
    rw [if_pos hnil, if_pos hnil]
    have hremove := @removeRef_eq env userId key virtualPath w
    obtain ⟨q₁, hq₁, heq⟩ := run_bind le_rfl ((hstores.redis 0).removeRef key userId virtualPath)
      ((hrel.redis 0).removeRef key userId virtualPath) hq hremove
    rw [heq, World.backend_redis, Action.bind_ok hremove]
    have hlen : key.length < 2 ↔ key.length = 1 := by
      have := List.length_pos_iff.mpr hnil
      omega
    have hresolve := @resolveObjectPath_answers env key (setSet w
      (RedisStore.refsKey (env.dialect.arg key))
      ((w.redis.sets (RedisStore.refsKey (env.dialect.arg key))).erase
        (RedisStore.refMember userId (env.dialect.arg virtualPath))))
    by_cases hempty : (w.redis.sets (RedisStore.refsKey (env.dialect.arg key))).erase
        (RedisStore.refMember userId (env.dialect.arg virtualPath)) = ∅
    · have hcard : ((((w.redis.sets (RedisStore.refsKey (env.dialect.arg key))).erase
          (RedisStore.refMember userId (env.dialect.arg virtualPath))).card : ℕ) : ℤ) ≤ 0 := by
        rw [hempty]
        rfl
      rw [if_pos hcard, if_pos hcard]
      split_ifs at hresolve with hcut
      · obtain ⟨e, hresolve⟩ := hresolve
        have hcollect : ∃ e w', TransferService.collectObject (backend env) key (setSet w
            (RedisStore.refsKey (env.dialect.arg key))
            ((w.redis.sets (RedisStore.refsKey (env.dialect.arg key))).erase
              (RedisStore.refMember userId (env.dialect.arg virtualPath)))) = (.error e, w') :=
          ⟨e, _, Action.bind_error hresolve⟩
        obtain ⟨e, w', hcollect⟩ := hcollect
        refine ⟨iff_of_false ?_ fun h => h ⟨hlen.mp hcut.1, hempty, hcut.2⟩, fun _ => ⟨e, ?_⟩⟩
        · exact calm_error (hstores.collectObject 0 key) (hrel.collectObject 0 key) hq₁ hcollect
        · rw [Action.bind_error hcollect]
      · obtain ⟨obj, hresolve⟩ := hresolve
        obtain ⟨w', hcollect⟩ := collectObject_answers hresolve
        have hnot : ¬ (key.length = 1 ∧ (w.redis.sets (RedisStore.refsKey (env.dialect.arg key))).erase
            (RedisStore.refMember userId (env.dialect.arg virtualPath)) = ∅ ∧
            w.redis.strings (RedisStore.objKey (env.dialect.arg key)) = []) :=
          fun h => hcut ⟨hlen.mpr h.1, h.2.2⟩
        refine ⟨iff_of_true ?_ hnot, fun h => (hnot h).elim⟩
        obtain ⟨q₂, hq₂, heq⟩ := run_bind le_rfl (hstores.collectObject 0 key) (hrel.collectObject 0 key)
          hq₁ hcollect
        exact (congrArg (fun r : Except Exn Unit × World × PoolState => r.2.2.waited) heq).trans
          (hunindex w' q₂ hq₂)
    · have hcard : ¬ ((((w.redis.sets (RedisStore.refsKey (env.dialect.arg key))).erase
          (RedisStore.refMember userId (env.dialect.arg virtualPath))).card : ℕ) : ℤ) ≤ 0 := by
        have := Finset.card_pos.mpr (Finset.nonempty_iff_ne_empty.mpr hempty)
        omega
      rw [if_neg hcard]
      exact ⟨iff_of_true (hunindex _ q₁ hq₁) fun h => hempty h.2.1, fun h => (hempty h.2.1).elim⟩

/-- With one connection idle, the release of what the index has below a directory waits if
there is a path and the first is not stranded. -/
theorem releaseIndexedUnderPrefix_waits (userId : ℤ) (dir : Bytes) (w : World) {p : PoolState}
    (hp : Free 1 p) :
    (TransferService.releaseIndexedUnderPrefix (pooled (backend env)) userId dir
        (w, p)).2.2.waited = true ↔
      ∃ first, (indexedBelow env w userId dir).head? = some first ∧
        ¬ Stranded env w userId first := by
  have hrel := pooled_related (backend env)
  obtain ⟨q, hq, hscope⟩ := @scope_waited World 0 p hp
  have hselect : (pooled (backend env)).sql.selectPathsLike userId
      (TransferService.dirPrefix dir ++ str "%") (w, q) =
        (.ok (indexedBelow env w userId dir), (w, q)) := rfl
  unfold TransferService.releaseIndexedUnderPrefix
  change (scope _ (w, p)).2.2.waited = true ↔ _
  rw [hscope, Action.bind_ok hselect]
  cases hpaths : indexedBelow env w userId dir with
  | nil =>
      rw [Action.each_nil]
      simp [hq.ready]
  | cons first rest =>
      obtain ⟨hwaits, hthrows⟩ := @releaseContentRef_waits env userId first w _ hq
      rw [Action.each_cons]
      by_cases hstranded : Stranded env w userId first
      · obtain ⟨e, herror⟩ := hthrows hstranded
        have hcalm : ¬ ((TransferService.releaseContentRef (pooled (backend env)) userId first
          (w, q)).2.2.waited = true) := fun h => hwaits.mp h hstranded
        have hstores := ((@stores_related env).releaseContentRef 0 stores_selects userId first
          (w, q) hq.running).1
        rw [Prod.ext_iff] at hstores
        rw [hstores.1] at herror
        rcases hrun : TransferService.releaseContentRef (pooled (backend env)) userId first (w, q)
          with ⟨r, st⟩
        rw [hrun] at herror hcalm
        simp only at herror
        subst herror
        rw [Action.bind_error hrun]
        refine iff_of_false hcalm ?_
        rintro ⟨first', hfirst, hnot⟩
        cases hfirst
        exact hnot hstranded
      · refine iff_of_true ?_ ⟨first, rfl, hstranded⟩
        refine waits_bind 1 (hwaits.mpr hstranded) fun _ => ?_
        exact (spares World 1).each (fun vp =>
          hrel.releaseContentRef 0 (pooled_selects (backend env)) userId vp) rest

/-- A removal waits once it releases a file below a directory. -/
theorem removeUserPath_exactly (session : UserSession) (physical virtualPath : Bytes) :
    Exactly (Nests env) 1 (.removeUserPath session physical virtualPath)
      (TransferService.removeUserPath (pooled (backend env)) session physical virtualPath) := by
  rintro ⟨w, p⟩
  have hrel := pooled_related (backend env)
  have hsel := pooled_selects (backend env)
  have hspares := hrel.removeUserPath 0 hsel session physical virtualPath (w, p)
  refine ⟨hspares.stays, fun hfree => ⟨hspares.kept 1 hfree, ?_⟩⟩
  obtain ⟨p', hp', heq⟩ := run_bind (k := 1) (n := 1) le_rfl
    (stores_related.lookupPlainFile 0 stores_selects session.userId virtualPath)
    (hrel.lookupPlainFile 0 hsel session.userId virtualPath) hfree (lookupPlainFile_eq virtualPath w)
  unfold TransferService.removeUserPath
  rw [heq]
  have hrelease := hrel.releaseContentRef 0 hsel session.userId virtualPath
  -- where no directory is removed, one connection is enough
  have hplain : ∀ {a : Act (World × PoolState) Unit},
      Sparing 1 a →
      ¬ Nests env w (.removeUserPath session physical virtualPath) →
      ((a (w, p')).2.2.waited = true ↔ Nests env w (.removeUserPath session physical virtualPath)) := by
    intro a ha hnot
    refine iff_of_false ?_ hnot
    rw [(ha (w, p')).calm 1 le_rfl hp']
    simp
  cases hrow : (w.rows.find? (World.isRow env session.userId virtualPath)).filter fun r => !r.isDir with
  | some row =>
      refine hplain ?_ fun h => ?_
      · refine Sparing.bind hrelease fun _ => ?_
        refine Sparing.bind ((hrel.files 1).fileExists physical) fun there => ?_
        refine Sparing.ite ?_ (Sparing.pure ())
        exact Sparing.bind ((hrel.files 1).unlink physical) fun _ => Sparing.pure ()
      · rw [h.1] at hrow
        cases hrow
  | none =>
      have hlstat : (pooled (backend env)).files.lstat physical (w, p') =
        (.ok ((Library.Posix.lstat w.fs physical).map (World.fileStat env w.fs)), (w, p')) := rfl
      dsimp only
      rw [Action.bind_ok hlstat]
      cases hnode : Library.Posix.lstat w.fs physical with
      | error e =>
          refine hplain hrelease fun h => ?_
          rw [h.2.1] at hnode
          cases hnode
      | ok node =>
          simp only [Except.map, World.fileStat]
          by_cases hdir : node = .dir
          · rw [if_pos hdir]
            have hunder := @releaseIndexedUnderPrefix_waits env session.userId virtualPath w _ hp'
            rw [waits_bind_iff (k := 1) le_rfl hp' (hrel.releaseIndexedUnderPrefix 0 hsel _ _), hunder]
            · subst hdir
              exact ⟨fun h => ⟨hrow, hnode, h⟩, fun h => h.2.2⟩
            · intro _
              refine Sparing.bind ((hrel.files 1).removePath physical) fun _ => ?_
              exact hrel.unindex 0 _ _
          · rw [if_neg hdir]
            refine hplain ?_ fun h => ?_
            · refine Sparing.bind ((hrel.files 1).unlink physical) fun r => ?_
              cases r with
              | ok _ => exact hrelease
              | error e =>
                  exact Sparing.ite hrelease (Sparing.fail _ _)
            · rw [h.2.1] at hnode
              cases hnode
              exact hdir rfl

/-! ## The start -/

/-- The programs that do not read how much randomness was drawn. -/
def unread (drawn : ℕ) : Congruence Exn World World :=
  Action.projected Exn (fun _ => True) fun w => { w with drawn := drawn }

theorem fileCall_unread (drawn : ℕ)
    (f : Library.FileTree → Except Library.Errno Library.FileTree) :
    (unread drawn).rel (World.fileCall f) (World.fileCall f) := by
  intro w _
  refine ⟨?_, trivial⟩
  simp only [World.fileCall, Action.move_apply]
  cases f w.fs <;> rfl

theorem openCall_unread (drawn : ℕ)
    (f : Library.FileTree → Except Library.Errno (ℕ × Library.FileTree)) :
    (unread drawn).rel (World.openCall f) (World.openCall f) := by
  intro w _
  refine ⟨?_, trivial⟩
  simp only [World.openCall, Action.move_apply]
  cases f w.fs <;> rfl

theorem files_unread (drawn : ℕ) :
    FilesRelated (unread drawn) (World.files env) (World.files env) where
  lstat _ _ _ := ⟨rfl, trivial⟩
  stat _ _ _ := ⟨rfl, trivial⟩
  realpath _ _ _ := ⟨rfl, trivial⟩
  mkdir s := fileCall_unread drawn fun t => Library.Posix.mkdir t s
  rmdir s := fileCall_unread drawn fun t => Library.Posix.rmdir t s
  unlink s := fileCall_unread drawn fun t => Library.Posix.unlink t s
  chmod _ _ _ := ⟨rfl, trivial⟩
  rename s s' := fileCall_unread drawn fun t => Library.Posix.rename t s s'
  opendir _ _ _ := ⟨rfl, trivial⟩
  closedir _ _ := ⟨rfl, trivial⟩
  openRead _ _ _ := ⟨rfl, trivial⟩
  openCreate s := openCall_unread drawn fun t => Library.Posix.openCreate t s
  openTrunc s := openCall_unread drawn fun t => Library.Posix.openTrunc t s
  fstat _ _ _ := ⟨rfl, trivial⟩
  ftruncate i := fileCall_unread drawn fun t => .ok (t.write i [])
  pread _ _ _ _ _ := ⟨rfl, trivial⟩
  pwrite i off bytes := by
    intro w _
    refine ⟨?_, trivial⟩
    simp only [World.files, Action.move_apply]
    split_ifs <;> rfl
  readAll _ _ _ := ⟨rfl, trivial⟩
  reads _ _ _ := ⟨rfl, trivial⟩
  depth _ _ := ⟨rfl, trivial⟩

theorem canMakeRoot_drawn (w : World) (drawn : ℕ) (username : Bytes) :
    CanMakeRoot env { w with drawn := drawn } username ↔ CanMakeRoot env w username := by
  have h := ((@files_unread env drawn).ensureDir (joinPath env.cfg.usersRoot username) w trivial).1
  unfold CanMakeRoot
  rw [h]

/-- With no connection idle, a registration waits once the user has a root directory. -/
theorem registerUser_waits {username password : Bytes}
    (hvalid : (!validUsername username || decide (password.length < 6)) = false) (w : World)
    {q : PoolState} (hq : Free 0 q) :
    ((AuthService.registerUser (pooled (backend env)) username password (w, q)).2.2.waited = true ↔
        CanMakeRoot env w username) ∧
      (¬ CanMakeRoot env w username → ∃ e,
        (AuthService.registerUser (pooled (backend env)) username password (w, q)).1 = .error e) := by
  have hrel := pooled_related (backend env)
  unfold AuthService.registerUser
  rw [if_neg (by simp [hvalid])]
  rcases hsalt : randomHex (backend env) 16 w with ⟨e | salt, w₁⟩
  · cases hsalt
  obtain ⟨q₁, hq₁, heq⟩ := run_bind le_rfl (stores_related.randomHex 0 16)
    (hrel.randomHex 0 16) hq hsalt
  rw [heq]
  have hdrawn : w₁ = { w with drawn := w.drawn + 16 } := (congrArg Prod.snd hsalt).symm
  have hroot := @ensureUserRoot_ok env username w₁
  rw [hdrawn, canMakeRoot_drawn, ← hdrawn] at hroot
  rcases hrun : AuthService.ensureUserRoot (backend env) username w₁ with ⟨e | root, w₂⟩
  · rw [hrun] at hroot
    have hnot : ¬ CanMakeRoot env w username := fun h => by
      obtain ⟨root, h⟩ := hroot.mpr h
      cases h
    refine ⟨iff_of_false (calm_error (stores_related.ensureUserRoot 0 username)
      (hrel.ensureUserRoot 0 username) hq₁ hrun) hnot, fun _ => ⟨e, ?_⟩⟩
    obtain ⟨q₂, hrun', -⟩ := run_stores (stores_related.ensureUserRoot 0 username)
      (hrel.ensureUserRoot 0 username) hq₁ hrun
    rw [Action.bind_error hrun']
  · rw [hrun] at hroot
    have hmade := hroot.mp ⟨root, rfl⟩
    refine ⟨iff_of_true ?_ hmade, fun h => (h hmade).elim⟩
    obtain ⟨q₂, hq₂, heq⟩ := run_bind le_rfl (stores_related.ensureUserRoot 0 username)
      (hrel.ensureUserRoot 0 username) hq₁ hrun
    rw [heq]
    refine scope_waits (k := 0) ?_ w₂ hq₂
    refine Sparing.bind (Sparing.tryCatch ?_ fun e => ?_) fun _ => Sparing.pure _
    · exact Sparing.bind (hrel.prepare 0 _) fun _ => hrel.insertUser 0 _ _ _ _
    · exact Sparing.ite (Sparing.fail _ _) (Sparing.fail _ _)

/-- The start waits if it seeds a user. -/
theorem ensureDefaultUsers_waits (w : World) {p : PoolState} (hp : Free 1 p) :
    (AuthService.ensureDefaultUsers (pooled (backend env)) (w, p)).2.2.waited = true ↔
      w.users = [] ∧ CanMakeRoot env w (str "admin") := by
  have hrel := pooled_related (backend env)
  obtain ⟨q, hq, hscope⟩ := @scope_waited World 0 p hp
  have hcount : (pooled (backend env)).sql.countUsers (w, q) = (.ok (w.users.length : ℤ), (w, q)) :=
    rfl
  unfold AuthService.ensureDefaultUsers
  change (scope _ (w, p)).2.2.waited = true ↔ _
  rw [hscope, Action.bind_ok hcount]
  by_cases hnone : w.users = []
  · rw [if_neg (by simp [hnone])]
    obtain ⟨hwaits, hthrows⟩ := @registerUser_waits env (str "admin") (str "admin123") (by decide) w
      _ hq
    by_cases hmade : CanMakeRoot env w (str "admin")
    · refine iff_of_true ?_ ⟨hnone, hmade⟩
      refine waits_bind 1 (hwaits.mpr hmade) fun _ => ?_
      refine Sparing.bind (hrel.registerUser 0 _ _) fun _ => ?_
      exact Sparing.bind (hrel.registerUser 0 _ _) fun _ => Sparing.pure ()
    · obtain ⟨e, herror⟩ := hthrows hmade
      rcases hrun : AuthService.registerUser (pooled (backend env)) (str "admin") (str "admin123")
        (w, q) with ⟨r, st⟩
      rw [hrun] at herror hwaits
      simp only at herror
      subst herror
      rw [Action.bind_error hrun]
      exact iff_of_false (fun h => hmade (hwaits.mp h)) fun h => hmade h.2
  · have hpos : (0 : ℤ) < w.users.length := by
      exact_mod_cast List.length_pos_iff.mpr hnone
    rw [if_pos hpos]
    exact iff_of_false (by simp [hq.ready]) fun h => hnone h.1

/-! ## The event thread -/

theorem nests_serving {s : World} {c : Call} (hc : Nesting c = false) : ¬ Nests env s c := by
  intro h
  cases c <;> first | exact h | cases hc

/-- **The event thread and its connections.** With two connections, all idle, nothing waits,
over any backend. With one, what waits is the work that nests. -/
theorem event_thread_waits {n : ℕ} (hn : 1 ≤ n) {p : PoolState} (hp : Free n p) :
    (2 ≤ n → ∀ {σ : Type} (b : Backend σ) (s : σ) (work : Work), work.waits b s p = false) ∧
    ∀ (env : Env) (w : World) (work : Work),
      work.waits (backend env) w p = false ↔ 2 ≤ n ∨ ¬ work.nests env w := by
  have henough : 2 ≤ n → ∀ {σ : Type} (b : Backend σ) (s : σ) (work : Work),
      work.waits b s p = false := by
    intro hn σ b s work
    cases work with
    | frame c f => exact onFrame_spares b hn hp c f
    | start => exact ((pooled_related b).ensureDefaultUsers 0 (pooled_selects b) (s, p)).calm n hn hp
  refine ⟨henough, fun env w work => ?_⟩
  rcases Nat.lt_or_ge n 2 with hlt | hge
  · obtain rfl : n = 1 := by omega
    rw [or_iff_right (by omega), ← Bool.not_eq_true, not_iff_not]
    cases work with
    | start => exact ensureDefaultUsers_waits w hp
    | frame c f =>
        obtain ⟨new, hnew, -, huse⟩ := @onFrame_uses World (Nests env) 1 (backend env) le_rfl
          (fun _ _ => nests_serving) login_exactly removeUserPath_exactly f
          { sys := (w, p), conn := c }
        have hstores := @frame_stores env f { sys := (w, p), conn := c } hp.running
        have hcalls : (Server.frameTurn env w c f).calls =
            new.map fun r => ⟨r.sys.1, r.conn, r.call⟩ := by
          refine (congrArg Turn.calls hstores).symm.trans ?_
          simp [stores, hnew]
        refine (huse hp).2.trans ⟨?_, ?_⟩
        · rintro ⟨r, hr, hnests⟩
          exact ⟨_, hcalls ▸ List.mem_map_of_mem hr, hnests⟩
        · rintro ⟨r, hr, hnests⟩
          rw [hcalls, List.mem_map] at hr
          obtain ⟨r, hr, rfl⟩ := hr
          exact ⟨r, hr, hnests⟩
  · exact iff_of_true (henough hge _ w work) (Or.inl hge)

/-- A pool with these connections idle. -/
def idlePool (idle : List ℕ) : PoolState := { pool := { idle := idle, created := idle.length } }

theorem idlePool_free (idle : List ℕ) : Free idle.length (idlePool idle) := ⟨rfl, rfl, rfl⟩

/-- A request of a stranger to log in. -/
def strangerLogin : Work :=
  .frame { peerIp := [] } (request "login"
    [("username", .str (str "eve")), ("password", .str (str "secret"))])

/-- Two connections are enough for it. -/
theorem event_thread_waits_two :
    strangerLogin.waits (backend Sample.env) (Sample.after []).world (idlePool [7, 8]) = false :=
  ((event_thread_waits (by decide) (idlePool_free [7, 8])).2 _ _ _).mpr (Or.inl (by decide))

/-- With one, it waits for the connection that it holds itself. -/
theorem event_thread_waits_one :
    ∃ idle, 1 ≤ idle.length ∧ Free idle.length (idlePool idle) ∧
      strangerLogin.waits (backend Sample.env) (Sample.after []).world (idlePool idle) = true :=
  ⟨[7], by decide, idlePool_free [7], by decide +kernel⟩

end CloudStore.Analysis
