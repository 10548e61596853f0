import CloudStore.Interface.Trace

/-!
# Sessions

What the calls do to the sessions that Redis stores and to the session of a connection.
A stored session was stored by a login that succeeded, and no logout has removed it since;
a connection that is logged in holds the session of a login, or one that was stored when
its token was presented.
-/

set_option autoImplicit false

namespace CloudStore.Interface

open CloudStore.Library (Bytes Action)
open CloudStore.Library.Action (Moves Reads bind_ok bind_error bind_eq_ok read_bind)
open CloudStore.Model
open CloudStore.Model.RedisStore
open CloudStore.Model.World (files redisCalls backend)

variable {env : Env} {u : ℤ} {w w' : World}

/-! ## Operations -/

theorem IdleOp.sessions (h : IdleOp env w w') : w'.redis.sessions = w.redis.sessions := by
  cases h <;> rfl

theorem StoreOp.sessions (h : StoreOp env u w w') : w'.redis.sessions = w.redis.sessions := by
  cases h with
  | idle h => exact h.sessions
  | _ => rfl

/-- Operations of a user leave the sessions alone. -/
theorem UploadOps.sessions {free : Prop} (h : UploadOps env free u w w') :
    w'.redis.sessions = w.redis.sessions := by
  induction h with
  | refl => rfl
  | tail _ h ih =>
      rw [← ih]
      cases h with
      | op h => exact h.sessions
      | replace => rfl

/-! ## Calls on accounts -/

/-- The program leaves Redis alone. -/
abbrev SameRedis (w w' : World) : Prop := w'.redis = w.redis

theorem SameRedis.trans (w w' w'' : World) (h : SameRedis w w') (h' : SameRedis w' w'') :
    SameRedis w w'' := Eq.trans h' h

theorem ensureUserRoot_sameRedis (name : Bytes) :
    Moves SameRedis (AuthService.ensureUserRoot (backend env) name) := by
  refine Moves.bind SameRedis.trans
    (ensureDir_moves (R := SameRedis) (fun _ => rfl) SameRedis.trans (fun s w => ?_) _) fun ok => ?_
  · simp only [World.backend_files, files, World.fileCall, Action.move_apply]
    split <;> rfl
  · cases ok <;> exact fun _ => rfl

theorem randomHex_sameRedis (n : ℕ) : Moves SameRedis (randomHex (backend env) n) := fun _ => rfl

theorem registerUser_sameRedis (username password : Bytes) :
    Moves SameRedis (AuthService.registerUser (backend env) username password) := by
  unfold AuthService.registerUser
  split
  · exact fun _ => rfl
  · refine Moves.bind SameRedis.trans (randomHex_sameRedis 16) fun salt => ?_
    refine Moves.bind SameRedis.trans (ensureUserRoot_sameRedis username) fun root => ?_
    refine Moves.bind SameRedis.trans (Moves.tryCatch SameRedis.trans (fun w => ?_) fun e => ?_)
      fun id => fun _ => rfl
    · have hprepare : ∀ (k : Unit → Act World ℤ) (s : String),
          ((backend env).sql.prepare s >>= k) w = k () w := fun _ _ => rfl
      rw [hprepare]
      simp only [World.backend_sql, World.sqlCalls]
      split <;> rfl
    · split <;> exact fun _ => rfl

/-- A login that fails leaves Redis alone. -/
theorem login_fails {username password ip : Bytes} {e : Exn}
    (h : AuthService.login (backend env) username password ip w = (.error e, w')) :
    w'.redis = w.redis := by
  have hfail : ∀ userId, ((do
      AuthService.logLogin (backend env) userId ip false
      fail .unauthorized (str "invalid username or password") : Act World UserSession) w).2 = w :=
    fun _ => rfl
  rw [login_eq] at h
  cases hrow : w.users.find? fun r => env.dialect.sameName username r.username with
  | none =>
      simp only [hrow] at h
      have hsame := hfail 0
      rw [h] at hsame
      exact congrArg World.redis hsame
  | some row =>
      simp only [hrow] at h
      split at h
      · have hsame := hfail row.id
        rw [h] at hsame
        exact congrArg World.redis hsame
      · have hroot := @ensureUserRoot_sameRedis env username w
        rcases hrun : AuthService.ensureUserRoot (backend env) username w with ⟨e' | root, w₁⟩
        · rw [bind_error hrun, Prod.mk.injEq] at h
          rw [hrun] at hroot
          exact h.2 ▸ hroot
        · -- what comes behind the directory of the user does not fail
          rw [bind_ok hrun] at h
          simp [randomHex, backend, Action.bind_apply, setSession, redisCalls, World.redisCall,
            AuthService.logLogin, World.sqlCalls, Action.tryCatch_apply] at h

/-- **A login** stores the session that it answers with, unless sessions have no time to live. -/
theorem login_sessions {username password ip : Bytes} {s : UserSession}
    (h : AuthService.login (backend env) username password ip w = (.ok s, w')) (k : Bytes) :
    w'.redis.sessions k = w.redis.sessions k ∨
      k = sessionKey s.token ∧ w'.redis.sessions k = some (.ok (AuthService.sessionJson s)) := by
  obtain ⟨row, bytes, w₁, -, -, -, -, rfl, hroot, rfl⟩ := login_ok h
  have hsame : w₁.redis = w.redis := by
    rw [← hroot]
    exact ensureUserRoot_sameRedis username w
  have htoken : env.dialect.arg (toHex bytes) = toHex bytes :=
    arg_of_zero_not_mem _ (toHex_clean bytes).2
  simp only [setSession, redisCalls, World.redisCall, Action.change_apply, arg_sessionKey, htoken]
  split
  · by_cases hk : k = sessionKey (toHex bytes)
    · exact Or.inr ⟨hk, by simp [hk]⟩
    · exact Or.inl (by simp [Function.update_of_ne hk, hsame])
  · exact Or.inl (by rw [hsame])

/-- A login by token leaves the stored sessions as they are. -/
theorem checkToken_sessions (token : Bytes) (w : World) :
    (AuthService.checkToken (backend env) token w).2.redis.sessions = w.redis.sessions := by
  unfold AuthService.checkToken
  split
  · rfl
  · refine read_bind (R := fun w w' : World => w'.redis.sessions = w.redis.sessions) rfl rfl ?_
    intro stored hstored
    have hread : w.redis.sessions (env.dialect.arg (sessionKey token)) = stored := by
      simpa [getSession, redisCalls] using hstored
    cases stored with
    | none => rfl
    | some raw =>
        cases raw with
        | error _ => rfl
        | ok js =>
            refine read_bind (R := fun w w' : World => w'.redis.sessions = w.redis.sessions) rfl rfl
              fun s _ => ?_
            have hset : (setSession (redisCalls env) token (.ok js) env.cfg.sessionTtlSec
                w).2.redis.sessions = w.redis.sessions := by
              simp only [setSession, redisCalls, World.redisCall, Action.change_apply]
              split
              · dsimp only
                rw [← hread, Function.update_eq_self]
              · rfl
            exact hset

/-! ## Calls that need a login -/

/-- The calls of `TransferService` and `FileManager`, and `AuthService::logout`. -/
def Gated : Call → Bool
  | .registerUser .. | .login .. | .checkToken .. => false
  | _ => true

/-- A call that needs a login is not made without one. -/
theorem gated_authed {w : World} {c : Connection} {call : Call} (h : Issued env w c call)
    (hgated : Gated call = true) : c.authed = true := by
  cases h with
  | registerUser => simp [Gated] at hgated
  | login => simp [Gated] at hgated
  | checkToken => simp [Gated] at hgated
  | listDir recursive h => exact h.1
  | statPath h => exact h.1
  | makeDir h => exact h.1
  | removeUserPath hnorm hne h => exact h.1
  | renameUserPath hfrom hto hsource hdest => exact hsource.1
  | instantUpload md5 size proofOffset proofMd5 overwrite hnorm h => exact h.1
  | beginUpload md5 size hnorm h => exact h.1
  | beginDownload hnorm h => exact h.1
  | _ => assumption

/-! ## The sessions of a run -/

/-- A logout removes the session. -/
theorem logout_sessions (token : Bytes) (c : Connection) :
    (runCall env w c (.logout token)).1.redis.sessions =
      Function.update w.redis.sessions (sessionKey (env.dialect.arg token)) none := by
  rw [runCall, settle_fst]
  simp [AuthService.logout, delSession, redisCalls, World.redisCall, arg_sessionKey]

/-- **What any other call does to the stored sessions**: a login may add one, every other call
leaves them alone. -/
theorem call_sessions {c : Connection} {call : Call} (hw : Sound env w) (hc : ConnOk env w c)
    (hissued : Issued env w c call) (hlogout : ∀ token, call ≠ .logout token) :
    (runCall env w c call).1.redis.sessions = w.redis.sessions ∨
      ∃ username password ip s w', call = .login username password ip ∧
        AuthService.login (backend env) username password ip w = (.ok s, w') ∧
        (runCall env w c call).1 = w' := by
  cases hcall : OnAccounts call with
  | false => exact Or.inl (call_uploads hw hc hissued hcall).2.sessions
  | true =>
      cases call with
      | registerUser username password =>
          left
          rw [runCall, settle_fst]
          exact congrArg Redis.sessions (registerUser_sameRedis username password w)
      | login username password ip =>
          rw [runCall, settle_fst]
          rcases h : AuthService.login (backend env) username password ip w with ⟨e | s, w'⟩
          · exact Or.inl (congrArg Redis.sessions (login_fails h))
          · exact Or.inr ⟨username, password, ip, s, w', rfl, h, rfl⟩
      | checkToken token =>
          left
          rw [runCall, settle_fst]
          exact checkToken_sessions token w
      | logout token => exact absurd rfl (hlogout token)
      | _ => simp [OnAccounts] at hcall

variable (env) in
/-- The session was stored by a login that succeeded, and since then no logout has named its
token. -/
inductive Stored : List TraceEntry → UserSession → Prop
  | login {tr : List TraceEntry} {id : ℕ} {w w' : World} {c : Connection}
      {username password ip : Bytes} {s : UserSession}
      (h : AuthService.login (backend env) username password ip w = (.ok s, w')) :
      Stored (.call id ⟨w, c, .login username password ip⟩ :: tr) s
  | later {tr : List TraceEntry} {s : UserSession} (e : TraceEntry) (h : Stored tr s)
      (hkept : ∀ id r token, e = .call id r → r.call = .logout token →
        env.dialect.arg token ≠ s.token) : Stored (e :: tr) s

variable (env) in
/-- The connection `id` holds the session: it logged in with a password, or it presented the
token of a stored session, and since then it was neither opened anew nor logged out. -/
inductive Holds (id : ℕ) : List TraceEntry → UserSession → Prop
  | password {tr : List TraceEntry} {w w' : World} {c : Connection} {username password ip : Bytes}
      {s : UserSession} {row : UserRow}
      (h : AuthService.login (backend env) username password ip w = (.ok s, w'))
      (hrow : row ∈ w.users) (hname : env.dialect.sameName username row.username = true)
      (hverify : verifyPassword (backend env) row.salt password row.passwordHash = true)
      (hid : s.userId = row.id) :
      Holds id (.call id ⟨w, c, .login username password ip⟩ :: tr) s
  | token {tr : List TraceEntry} {w w' : World} {c : Connection} {token : Bytes} {stored : UserSession}
      (h : AuthService.checkToken (backend env) token w = (.ok { stored with token := token }, w'))
      (hstored : Stored env tr stored) (htoken : stored.token = env.dialect.arg token) :
      Holds id (.call id ⟨w, c, .checkToken token⟩ :: tr) { stored with token := token }
  | later {tr : List TraceEntry} {s : UserSession} (e : TraceEntry) (h : Holds id tr s)
      (hopened : e ≠ .opened id)
      (hlogout : ∀ r token, e = .call id r → r.call ≠ .logout token) : Holds id (e :: tr) s

/-- A stored session is read off its text. -/
theorem sessionJson_injective {s s' : UserSession}
    (h : AuthService.sessionJson s = AuthService.sessionJson s') : s = s' := by
  cases s
  cases s'
  simp only [AuthService.sessionJson, Json.obj.injEq, List.cons.injEq, Prod.mk.injEq, Json.str.injEq,
    Json.int.injEq, true_and, and_true] at h
  obtain ⟨hroot, htoken, hid, hname⟩ := h
  simp [hroot, htoken, hid, hname]

variable (env) in
/-- Every stored session was stored by a login, and every connection that is logged in holds
its session. -/
structure Entitled (tr : List TraceEntry) (s : ServerState) : Prop where
  stored : ∀ k raw, s.world.redis.sessions k = some raw → ∃ stored,
    raw = .ok (AuthService.sessionJson stored) ∧ k = sessionKey stored.token ∧
      Stored env tr stored
  holds : ∀ id c, s.conns id = some c → c.authed = true → Holds env id tr c.session

/-- A call that leaves the login of its connection alone. -/
theorem runCall_session {c : Connection} {call : Call}
    (hlogin : ∀ username password ip, call ≠ .login username password ip)
    (htoken : ∀ token, call ≠ .checkToken token) (hlogout : ∀ token, call ≠ .logout token) :
    (runCall env w c call).2.session = c.session ∧ (runCall env w c call).2.authed = c.authed := by
  have hsame : ∀ {α : Type} {f : α → Connection → Connection} {r : Except Exn α × World},
      (∀ x, (f x c).session = c.session ∧ (f x c).authed = c.authed) →
        (settle c f r).2.session = c.session ∧ (settle c f r).2.authed = c.authed := by
    intro α f r h
    exact settle_snd (P := fun c' => c'.session = c.session ∧ c'.authed = c.authed) ⟨rfl, rfl⟩
      fun x _ _ => h x
  cases call with
  | login => exact absurd rfl (hlogin _ _ _)
  | checkToken => exact absurd rfl (htoken _)
  | logout => exact absurd rfl (hlogout _)
  | finishUpload session =>
      unfold runCall
      dsimp only
      split <;> exact ⟨rfl, rfl⟩
  | closeUpload => exact ⟨rfl, rfl⟩
  | closeDownload => exact ⟨rfl, rfl⟩
  | writeChunk => exact ⟨rfl, rfl⟩
  | _ => exact hsame fun _ => ⟨rfl, rfl⟩

variable (env) in
/-- The call logs its connection in under the session. -/
def LogsIn (r : CallRecord World) (s : UserSession) : Prop :=
  (∃ username password ip w', r.call = .login username password ip ∧
    AuthService.login (backend env) username password ip r.sys = (.ok s, w')) ∨
  ∃ token w', r.call = .checkToken token ∧
    AuthService.checkToken (backend env) token r.sys = (.ok s, w')

/-- What a login does to its connection. -/
theorem runCall_login {c : Connection} {call : Call} {s : UserSession}
    (h : LogsIn env ⟨w, c, call⟩ s) : (runCall env w c call).2 = loggedIn s c := by
  rcases h with ⟨username, password, ip, w', hcall, hlogin⟩ | ⟨token, w', hcall, hcheck⟩
  · dsimp only at hcall hlogin
    rw [hcall, runCall, hlogin, settle]
  · dsimp only at hcall hcheck
    rw [hcall, runCall, hcheck, settle]

/-- A connection that is logged in after any other call was so before, under the same session,
and the call was no logout. -/
theorem runCall_kept {c : Connection} {call : Call}
    (h : ∀ s, ¬ LogsIn env ⟨w, c, call⟩ s) (hauthed : (runCall env w c call).2.authed = true) :
    (runCall env w c call).2.session = c.session ∧ c.authed = true ∧
      ∀ token, call ≠ .logout token := by
  have hother : (∀ username password ip, call ≠ .login username password ip) →
      (∀ token, call ≠ .checkToken token) → (∀ token, call ≠ .logout token) →
        (runCall env w c call).2.session = c.session ∧ c.authed = true ∧
          ∀ token, call ≠ .logout token := by
    intro hlogin htoken hlogout
    obtain ⟨hsession, hsame⟩ := @runCall_session env w c _ hlogin htoken hlogout
    exact ⟨hsession, hsame ▸ hauthed, hlogout⟩
  cases call with
  | login username password ip =>
      rcases hlogin : AuthService.login (backend env) username password ip w with ⟨e | s, w'⟩
      · simp only [runCall, hlogin, settle] at hauthed ⊢
        exact ⟨trivial, hauthed, by simp⟩
      · exact absurd (Or.inl ⟨_, _, _, w', rfl, hlogin⟩) (h s)
  | checkToken token =>
      rcases hcheck : AuthService.checkToken (backend env) token w with ⟨e | s, w'⟩
      · simp only [runCall, hcheck, settle] at hauthed ⊢
        exact ⟨trivial, hauthed, by simp⟩
      · exact absurd (Or.inr ⟨_, w', rfl, hcheck⟩) (h s)
  | logout token => simp [runCall, AuthService.logout, delSession, redisCalls, World.redisCall,
      settle] at hauthed
  | _ => exact hother (by simp) (by simp) (by simp)

/-- The stored sessions after a call. -/
theorem Entitled.call_stored {tr : List TraceEntry} {s : ServerState} {id : ℕ} {c : Connection}
    {call : Call} (h : Entitled env tr s) (hsafe : Safe env s) (hid : s.conns id = some c)
    (hissued : Issued env s.world c call) {k : Bytes} {raw : JsonText}
    (hk : (runCall env s.world c call).1.redis.sessions k = some raw) :
    ∃ stored, raw = .ok (AuthService.sessionJson stored) ∧ k = sessionKey stored.token ∧
      Stored env (.call id ⟨s.world, c, call⟩ :: tr) stored := by
  by_cases hlogout : ∃ token, call = .logout token
  · obtain ⟨token, rfl⟩ := hlogout
    rw [logout_sessions] at hk
    have hne : k ≠ sessionKey (env.dialect.arg token) := by
      rintro rfl
      simp at hk
    rw [Function.update_of_ne hne] at hk
    obtain ⟨stored, hraw, hkey, hstored⟩ := h.stored k raw hk
    refine ⟨stored, hraw, hkey, .later _ hstored ?_⟩
    rintro id' r token' heq hcall harg
    obtain ⟨rfl, rfl⟩ := TraceEntry.call.inj heq
    obtain rfl := Call.logout.inj hcall
    exact hne (by rw [hkey, harg])
  · rw [not_exists] at hlogout
    have hlater : ∀ stored, Stored env tr stored →
        Stored env (.call id ⟨s.world, c, call⟩ :: tr) stored := by
      refine fun stored hstored => .later _ hstored ?_
      rintro id' r token heq hcall
      obtain ⟨rfl, rfl⟩ := TraceEntry.call.inj heq
      exact absurd hcall (hlogout token)
    have hold : s.world.redis.sessions k = some raw → ∃ stored,
        raw = .ok (AuthService.sessionJson stored) ∧ k = sessionKey stored.token ∧
          Stored env (.call id ⟨s.world, c, call⟩ :: tr) stored := by
      intro hk
      obtain ⟨stored, hraw, hkey, hstored⟩ := h.stored k raw hk
      exact ⟨stored, hraw, hkey, hlater stored hstored⟩
    rcases call_sessions hsafe.world (hsafe.conns id c hid) hissued hlogout with hsame | hlogin
    · exact hold (by rwa [hsame] at hk)
    · obtain ⟨username, password, ip, sess, w', rfl, hlogin, heq⟩ := hlogin
      rw [heq] at hk
      cases login_sessions hlogin k with
      | inl hsame => exact hold (by rwa [hsame] at hk)
      | inr hnew =>
          refine ⟨sess, ?_, hnew.1, .login hlogin⟩
          rw [hnew.2, Option.some.injEq] at hk
          exact hk.symm

/-- The login of a connection after its call. -/
theorem Entitled.call_holds {tr : List TraceEntry} {s : ServerState} {id : ℕ} {c : Connection}
    {call : Call} (h : Entitled env tr s) (hsafe : Safe env s) (hid : s.conns id = some c)
    (hauthed : (runCall env s.world c call).2.authed = true) :
    Holds env id (.call id ⟨s.world, c, call⟩ :: tr) (runCall env s.world c call).2.session := by
  by_cases hlogin : ∃ sess, LogsIn env ⟨s.world, c, call⟩ sess
  · obtain ⟨sess, hlogin⟩ := hlogin
    rw [runCall_login hlogin]
    rcases hlogin with ⟨username, password, ip, w', hcall, hlogin⟩ | ⟨token, w', hcall, hcheck⟩
    · dsimp only at hcall hlogin
      subst hcall
      obtain ⟨row, bytes, w₁, -, hrow, hname, hverify, hsess, -, -⟩ := login_ok hlogin
      exact .password hlogin hrow hname hverify (congrArg UserSession.userId hsess)
    · dsimp only at hcall hcheck
      subst hcall
      obtain ⟨stored, hread, htoken, rfl, -⟩ := checkToken_ok hsafe.world hcheck
      obtain ⟨stored', hraw, -, hstored⟩ := h.stored _ _ hread
      obtain rfl := sessionJson_injective (Except.ok.inj hraw)
      exact .token hcheck hstored htoken
  · rw [not_exists] at hlogin
    obtain ⟨hsession, hauthed₀, hlogout⟩ := runCall_kept hlogin hauthed
    rw [hsession]
    refine .later _ (h.holds id c hid hauthed₀) (by simp) ?_
    rintro r token heq
    obtain ⟨-, rfl⟩ := TraceEntry.call.inj heq
    exact hlogout token

/-- **Every stored session and every login come from a login that succeeded.** -/
theorem entitled_invariant : TraceInvariant env (Entitled env) where
  start := by
    intro s h
    exact ⟨fun k raw hk => by simp [h.1.redis] at hk, fun id c hid => by simp [h.2 id] at hid⟩
  opened := by
    rintro tr s id ip ⟨hstored, hholds⟩ hnone
    refine ⟨fun k raw hk => ?_, fun id' c hid' hauthed => ?_⟩
    · obtain ⟨stored, hraw, hkey, h⟩ := hstored k raw hk
      exact ⟨stored, hraw, hkey, .later _ h (by simp)⟩
    · by_cases heq : id' = id
      · simp only [heq, Function.update_self, Option.some.injEq] at hid'
        simp [← hid'] at hauthed
      · simp only [Function.update_of_ne heq] at hid'
        exact .later _ (hholds id' c hid' hauthed) (by simpa using Ne.symm heq) (by simp)
  closed := by
    rintro tr s id ⟨hstored, hholds⟩
    refine ⟨hstored, fun id' c hid' hauthed => ?_⟩
    by_cases heq : id' = id
    · simp [heq] at hid'
    · simp only [Function.update_of_ne heq] at hid'
      exact hholds id' c hid' hauthed
  expired := by
    rintro tr s key ⟨hstored, hholds⟩
    refine ⟨fun k raw hk => hstored k raw ?_, hholds⟩
    have hsessions : (Server.expireKey s.world key).redis.sessions =
        Function.update s.world.redis.sessions key none := by
      unfold Server.expireKey
      dsimp only
      split <;> rfl
    simp only [hsessions] at hk
    by_cases heq : k = key
    · simp [heq] at hk
    · rwa [Function.update_of_ne heq] at hk
  disk := fun tr s d h => ⟨h.stored, h.holds⟩
  call := by
    intro tr s id c call hsafe h hid hissued
    refine ⟨fun k raw hk => h.call_stored hsafe hid hissued hk, fun id' c' hid' hauthed => ?_⟩
    by_cases heq : id' = id
    · subst heq
      simp only [afterCall, Function.update_self, Option.some.injEq] at hid'
      subst hid'
      exact h.call_holds hsafe hid hauthed
    · simp only [afterCall, Function.update_of_ne heq] at hid'
      refine .later _ (h.holds id' c' hid' hauthed) (by simp) ?_
      rintro r token hcall
      exact absurd (TraceEntry.call.inj hcall).1.symm heq

end CloudStore.Interface
