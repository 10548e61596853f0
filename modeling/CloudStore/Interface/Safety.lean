import CloudStore.Interface.Handlers
import CloudStore.Interface.Services

/-!
# The invariant of the server

`ConnOk` is what holds of a connection: its session, if it has one, is that of an
account, and its open part file is no object. One lemma says of every call that its
handlers issue which operations it is made of and that the connection stays in order.
The server keeps `Safe`: the stores are sound and every connection is in order.
-/

set_option autoImplicit false

namespace CloudStore.Interface

open CloudStore.Library (Bytes Path Plain FileTree Keeps Action)
open CloudStore.Library.Action (Moves Reads bind_ok bind_error bind_apply bind_eq_ok bind_at
  read_bind)
open CloudStore.Library.Posix
open CloudStore.Model
open CloudStore.Model.RedisStore
open CloudStore.Model.World (objectPath files redisCalls backend)

variable {env : Env} {u : ℤ}

/-! ## Accounts -/

theorem validUsername_name {name : Bytes} (h : validUsername name = true) : NameOk name := by
  obtain ⟨hslash, hzero, hdot, -⟩ := Dialect.validUsername_plain h
  exact ⟨hdot, hslash, hzero⟩

theorem AccountOps.trans (w w' w'' : World) (h : AccountOps env w w') (h' : AccountOps env w' w'') :
    AccountOps env w w'' := Relation.ReflTransGen.trans h h'

/-- Making the directory of a user. -/
theorem ensureUserRoot_ops {name : Bytes} (hname : NameOk name) {w : World} (hw : Sound env w) :
    AccountOps env w (AuthService.ensureUserRoot (backend env) name w).2 := by
  have hquiet := @ensureDir_userRoot_quiet env _ hname w hw.links
  have hsame := @ensureDir_sameFiles env (joinPath env.cfg.usersRoot name) w
  have hfirst : AccountOps env w (ensureDir (files env) (joinPath env.cfg.usersRoot name) w).2 := by
    rw [hquiet.2]
    exact Relation.ReflTransGen.single (AccountOp.tree w hquiet.1 hsame)
  refine bind_at (R := AccountOps env) AccountOps.trans hfirst fun ok w' _ => ?_
  cases ok <;> exact Relation.ReflTransGen.refl

theorem ensureUserRoot_ok {name root : Bytes} {w w' : World}
    (h : AuthService.ensureUserRoot (backend env) name w = (.ok root, w')) :
    root = joinPath env.cfg.usersRoot name := by
  obtain ⟨ok, w₁, -, h⟩ := bind_eq_ok h
  cases ok with
  | true =>
      simp only [if_true, Action.pure_apply, Prod.mk.injEq, Except.ok.injEq] at h
      exact h.1.symm
  | false => simp [fail] at h

theorem registerUser_ops (username password : Bytes) {w : World} (hw : Sound env w) :
    AccountOps env w (AuthService.registerUser (backend env) username password w).2 := by
  unfold AuthService.registerUser
  split
  · exact Relation.ReflTransGen.refl
  next hinvalid =>
    have hvalid : validUsername username = true := by
      simp only [Bool.or_eq_true, not_or, Bool.not_eq_true', Bool.not_eq_false] at hinvalid
      exact hinvalid.1
    have hdraw : AccountOps env w (randomHex (backend env) 16 w).2 :=
      Relation.ReflTransGen.single (AccountOp.draw w _)
    refine bind_at (R := AccountOps env) AccountOps.trans hdraw fun salt w₁ h₁ => ?_
    have hw₁ : Sound env w₁ := by
      rw [h₁] at hdraw
      exact hdraw.sound hw
    refine bind_at (R := AccountOps env) AccountOps.trans
      (ensureUserRoot_ops (validUsername_name hvalid) hw₁) fun root w₂ hroot => ?_
    obtain rfl := ensureUserRoot_ok hroot
    -- the insertion, and the answer made of it
    have hinsert : AccountOps env w₂ ((tryCatch
        (do
          (backend env).sql.prepare
            "INSERT INTO users(username, password_hash, salt, root_dir) VALUES(?, ?, ?, ?)"
          (backend env).sql.insertUser username (hashPassword (backend env) salt password) salt
            (joinPath env.cfg.usersRoot username))
        fun e =>
          if containsText e.what (str "Duplicate") then fail .conflict (str "username exists")
          else fail .internal (str "register failed: " ++ e.what) : Act World ℤ) w₂).2 := by
      have hprepare : ∀ (k : Unit → Act World ℤ) (s : String),
          ((backend env).sql.prepare s >>= k) w₂ = k () w₂ := fun _ _ => rfl
      rw [Action.tryCatch_apply, hprepare]
      simp only [World.backend_sql, World.sqlCalls]
      split_ifs with hdup
      · split
        · simp_all
        next h =>
          simp only [Prod.mk.injEq] at h
          obtain ⟨-, rfl⟩ := h
          split <;> exact Relation.ReflTransGen.refl
      · refine Relation.ReflTransGen.single (AccountOp.user w₂ _ _ ⟨hvalid, rfl, rfl, rfl, ?_⟩)
        intro r' hr'
        rw [Bool.not_eq_true, List.any_eq_false] at hdup
        exact Bool.eq_false_iff.mpr (hdup r' hr')
    exact bind_at (R := AccountOps env) AccountOps.trans hinsert
      fun _ w₃ _ => Relation.ReflTransGen.refl

/-- A token is a text of hexadecimal digits. -/
theorem toHex_clean (bytes : Bytes) : 58 ∉ toHex bytes ∧ 0 ∉ toHex bytes := by
  have hdigit : ∀ n < 16, hexDigit n ≠ 58 ∧ hexDigit n ≠ 0 := by decide
  have key : ∀ c ∈ toHex bytes, c ≠ 58 ∧ c ≠ 0 := by
    intro c hc
    unfold toHex at hc
    rw [List.mem_flatMap] at hc
    obtain ⟨b, -, hc⟩ := hc
    simp only [List.mem_cons, List.not_mem_nil, or_false] at hc
    have hb := b.toNat_lt
    rcases hc with rfl | rfl
    · exact hdigit _ (by omega)
    · exact hdigit _ (by omega)
  exact ⟨fun h => (key _ h).1 rfl, fun h => (key _ h).2 rfl⟩

theorem logLogin_reads (userId : ℤ) (ip : Bytes) (ok : Bool) :
    Reads (AuthService.logLogin (backend env) userId ip ok) := fun _ => rfl

/-- `setSession` stores a session, or with no time to live does nothing. -/
theorem setSession_ops {s : UserSession} (hcolon : 58 ∉ s.token) (hzero : 0 ∉ s.token)
    (hs : SessionOk env s) {token : Bytes} (htoken : env.dialect.arg token = s.token) (ttl : ℤ)
    (w : World) :
    AccountOps env w (setSession (redisCalls env) token (.ok (AuthService.sessionJson s)) ttl w).2 := by
  simp only [setSession, redisCalls, World.redisCall, Action.change_apply, arg_sessionKey, htoken]
  split
  · exact Relation.ReflTransGen.single (AccountOp.login w s hcolon hzero hs)
  · exact Relation.ReflTransGen.refl

/-- `login`, with the row of the account read. -/
theorem login_eq (username password ip : Bytes) (w : World) :
    AuthService.login (backend env) username password ip w =
      (match w.users.find? fun r => env.dialect.sameName username r.username with
      | none => do
        AuthService.logLogin (backend env) 0 ip false
        fail .unauthorized (str "invalid username or password")
      | some row =>
        if !verifyPassword (backend env) row.salt password row.passwordHash then do
          AuthService.logLogin (backend env) row.id ip false
          fail .unauthorized (str "invalid username or password")
        else do
          let root ← AuthService.ensureUserRoot (backend env) username
          let token ← randomHex (backend env) 32
          let s : UserSession :=
            { userId := row.id, username := username, rootDir := root, token := token }
          setSession (redisCalls env) token (dumpJson (AuthService.sessionJson s))
            env.cfg.sessionTtlSec
          AuthService.logLogin (backend env) row.id ip true
          return s : Act World UserSession) w := by
    unfold AuthService.login
    rfl

/-- A login that succeeds: the password was verified, and the session carries the id of the
account and a token made of random bytes. -/
theorem login_ok {username password ip : Bytes} {w w' : World} {s : UserSession}
    (h : AuthService.login (backend env) username password ip w = (.ok s, w')) :
    ∃ row bytes w₁, w.users.find? (fun r => env.dialect.sameName username r.username) = some row ∧
      row ∈ w.users ∧ env.dialect.sameName username row.username = true ∧
      verifyPassword (backend env) row.salt password row.passwordHash = true ∧
      s = { userId := row.id, username := username
            rootDir := joinPath env.cfg.usersRoot username, token := toHex bytes } ∧
      (AuthService.ensureUserRoot (backend env) username w).2 = w₁ ∧
      w' = (setSession (redisCalls env) s.token (.ok (AuthService.sessionJson s))
        env.cfg.sessionTtlSec { w₁ with drawn := w₁.drawn + 32 }).2 := by
  rw [login_eq] at h
  cases hrow : w.users.find? fun r => env.dialect.sameName username r.username with
  | none =>
      simp only [hrow] at h
      obtain ⟨_, w₁, -, h⟩ := bind_eq_ok h
      simp [fail] at h
  | some row =>
      simp only [hrow] at h
      split at h
      · obtain ⟨_, w₁, -, h⟩ := bind_eq_ok h
        simp [fail] at h
      next hverify =>
        obtain ⟨root, w₁, hroot, h⟩ := bind_eq_ok h
        obtain ⟨token, w₂, htoken, h⟩ := bind_eq_ok h
        obtain ⟨_, w₃, hset, h⟩ := bind_eq_ok h
        obtain ⟨_, w₄, hlog, h⟩ := bind_eq_ok h
        obtain rfl := ensureUserRoot_ok hroot
        have hlog' := (logLogin_reads row.id ip true).end_eq hlog
        simp only [Action.pure_apply, Prod.mk.injEq, Except.ok.injEq] at h
        obtain ⟨rfl, rfl⟩ := h
        have htoken' : token = toHex ((List.range 32).map fun k => w₁.entropy (w₁.drawn + k)) ∧
            w₂ = { w₁ with drawn := w₁.drawn + 32 } := by
          simp only [randomHex, backend, bind_apply, Action.move_apply, Action.pure_apply,
            Prod.mk.injEq, Except.ok.injEq] at htoken
          exact ⟨htoken.1.symm, htoken.2.symm⟩
        obtain ⟨htok, rfl⟩ := htoken'
        have hsame := List.find?_some
          (p := fun r : UserRow => env.dialect.sameName username r.username) hrow
        refine ⟨row, (List.range 32).map fun k => w₁.entropy (w₁.drawn + k), w₁, rfl,
          List.mem_of_find?_eq_some hrow, hsame, by simpa using hverify, ?_, ?_, ?_⟩
        · rw [htok]
        · rw [hroot]
        · rw [hlog']
          exact (congrArg Prod.snd hset).symm

/-- What a session of an account looks like. -/
theorem sessionOk_of_name {s : UserSession} (hname : NameOk s.username)
    (hroot : s.rootDir = joinPath env.cfg.usersRoot s.username) : SessionOk env s :=
  ⟨⟨s.username, hname, hroot⟩, hname⟩

theorem login_session {username password ip : Bytes} {w w' : World} {s : UserSession}
    (hw : Sound env w) (h : AuthService.login (backend env) username password ip w = (.ok s, w')) :
    SessionOk env s ∧ 58 ∉ s.token ∧ 0 ∉ s.token := by
  obtain ⟨row, bytes, w₁, -, hrow, hsame, -, rfl, -, -⟩ := login_ok h
  have hname : NameOk username :=
    env.dialect.sameName_plain _ _ hsame (hw.users row hrow)
  exact ⟨sessionOk_of_name hname rfl, toHex_clean bytes⟩

/-- **A login** is made of operations on accounts. -/
theorem login_ops (username password ip : Bytes) {w : World} (hw : Sound env w) :
    AccountOps env w (AuthService.login (backend env) username password ip w).2 := by
  rw [login_eq]
  have hfail : ∀ userId ok, AccountOps env w ((do
      AuthService.logLogin (backend env) userId ip ok
      fail .unauthorized (str "invalid username or password") : Act World UserSession) w).2 := by
    intro userId ok
    exact read_bind (R := AccountOps env) Relation.ReflTransGen.refl (logLogin_reads _ _ _ w)
      fun _ _ => Relation.ReflTransGen.refl
  cases hrow : w.users.find? fun r => env.dialect.sameName username r.username with
  | none => exact hfail _ _
  | some row =>
      dsimp only
      split
      · exact hfail _ _
      · have hsame := List.find?_some (p := fun r : UserRow => env.dialect.sameName username r.username) hrow
        have hname : NameOk username := env.dialect.sameName_plain _ _ hsame
          (hw.users row (List.mem_of_find?_eq_some hrow))
        refine bind_at (R := AccountOps env) AccountOps.trans (ensureUserRoot_ops hname hw)
          fun root w₁ hroot => ?_
        obtain rfl := ensureUserRoot_ok hroot
        have hdraw : AccountOps env w₁ (randomHex (backend env) 32 w₁).2 :=
          Relation.ReflTransGen.single (AccountOp.draw w₁ _)
        refine bind_at (R := AccountOps env) AccountOps.trans hdraw fun token w₂ htoken => ?_
        have hclean : 58 ∉ token ∧ 0 ∉ token := by
          simp only [randomHex, backend, bind_apply, Action.move_apply, Action.pure_apply,
            Prod.mk.injEq, Except.ok.injEq] at htoken
          exact htoken.1 ▸ toHex_clean _
        have hset := @setSession_ops env
          { userId := row.id, username := username
            rootDir := joinPath env.cfg.usersRoot username, token := token }
          hclean.1 hclean.2 (sessionOk_of_name hname rfl) _ (arg_of_zero_not_mem _ hclean.2)
          env.cfg.sessionTtlSec w₂
        refine bind_at (R := AccountOps env) AccountOps.trans hset fun _ w₃ _ => ?_
        exact read_bind (R := AccountOps env) Relation.ReflTransGen.refl (logLogin_reads _ _ _ w₃)
          fun _ _ => Relation.ReflTransGen.refl

/-- What `readSession` makes of a stored session. -/
theorem readSession_stored {token : Bytes} {s s' : UserSession}
    (h : AuthService.readSession token (AuthService.sessionJson s) = .ok s') :
    s' = { s with token := token } := by
  have hid : (AuthService.sessionJson s).get (str "user_id") (.int 0) = .ok (.int s.userId) := rfl
  have hname : (AuthService.sessionJson s).get (str "username") (.str []) =
    .ok (.str s.username) := rfl
  have hroot : (AuthService.sessionJson s).get (str "root_dir") (.str []) =
    .ok (.str s.rootDir) := rfl
  unfold AuthService.readSession at h
  simp only [hid, hname, hroot, bind, Except.bind, Json.asString, Json.asInt,
    Json.asIntegral] at h
  split_ifs at h with hrange
  simpa [pure, Except.pure] using h.symm

/-- **A login by token** reads a session that is stored under the token as Redis receives
it. -/
theorem checkToken_ok {token : Bytes} {w w' : World} {s : UserSession} (hw : Sound env w)
    (h : AuthService.checkToken (backend env) token w = (.ok s, w')) :
    ∃ stored, w.redis.sessions (sessionKey (env.dialect.arg token)) =
        some (.ok (AuthService.sessionJson stored)) ∧ stored.token = env.dialect.arg token ∧
      s = { stored with token := token } ∧ SessionOk env stored ∧ 58 ∉ stored.token ∧
      0 ∉ stored.token ∧
      w' = (setSession (redisCalls env) token (.ok (AuthService.sessionJson stored))
        env.cfg.sessionTtlSec w).2 := by
  unfold AuthService.checkToken at h
  split at h
  · simp [fail] at h
  · have hget : getSession (backend env).redis token w =
        (.ok (w.redis.sessions (sessionKey (env.dialect.arg token))), w) := by
      simp [getSession, redisCalls, arg_sessionKey]
    rw [bind_ok hget] at h
    cases hstored : w.redis.sessions (sessionKey (env.dialect.arg token)) with
    | none => simp [hstored, fail] at h
    | some raw =>
        obtain ⟨stored, rfl, hkey, hcolon, hzero, hok⟩ := hw.sessions _ _ hstored
        have htoken : stored.token = env.dialect.arg token := (sessionKey_injective hkey).symm
        simp only [hstored] at h
        obtain ⟨s₁, w₁, h₁, h⟩ := bind_eq_ok h
        simp only [Action.monadLift_apply, Prod.mk.injEq] at h₁
        obtain ⟨hread, rfl⟩ := h₁
        obtain ⟨_, w₂, h₂, h⟩ := bind_eq_ok h
        simp only [Action.pure_apply, Prod.mk.injEq, Except.ok.injEq] at h
        obtain ⟨rfl, rfl⟩ := h
        exact ⟨stored, rfl, htoken, readSession_stored hread, hok, hcolon, hzero,
          (congrArg Prod.snd h₂).symm⟩

theorem checkToken_ops (token : Bytes) {w : World} (hw : Sound env w) :
    AccountOps env w (AuthService.checkToken (backend env) token w).2 := by
  unfold AuthService.checkToken
  split
  · exact Relation.ReflTransGen.refl
  · have hget : getSession (backend env).redis token w =
        (.ok (w.redis.sessions (sessionKey (env.dialect.arg token))), w) := by
      simp [getSession, redisCalls, arg_sessionKey]
    rw [bind_ok hget]
    cases hstored : w.redis.sessions (sessionKey (env.dialect.arg token)) with
    | none => exact Relation.ReflTransGen.refl
    | some raw =>
        obtain ⟨stored, rfl, hkey, hcolon, hzero, hok⟩ := hw.sessions _ _ hstored
        have htoken : env.dialect.arg token = stored.token := sessionKey_injective hkey
        dsimp only
        refine bind_at (R := AccountOps env) AccountOps.trans
          Relation.ReflTransGen.refl fun s w₁ h₁ => ?_
        refine bind_at (R := AccountOps env) AccountOps.trans
          (setSession_ops hcolon hzero hok htoken _ w₁) fun _ w₂ _ => Relation.ReflTransGen.refl

theorem logout_ops (token : Bytes) (w : World) :
    AccountOps env w (AuthService.logout (backend env) token w).2 :=
  Relation.ReflTransGen.single (AccountOp.logout w _)

/-! ## Open part files -/

variable (env) in
/-- Inodes in use stay in use, and none of them becomes that of an object. -/
def Inodes (w w' : World) : Prop :=
  w.fs.fresh ≤ w'.fs.fresh ∧ ∀ p ∈ objectPlaces env ∅, ∀ i, w'.fs.entry p = some (.file i) →
    w.fs.entry p = some (.file i) ∨ w.fs.fresh ≤ i

theorem Inodes.refl (w : World) : Inodes env w w := ⟨Nat.le_refl _, fun _ _ _ h => Or.inl h⟩

theorem Inodes.trans {w w' w'' : World} (h : Inodes env w w') (h' : Inodes env w' w'') :
    Inodes env w w'' := by
  refine ⟨Nat.le_trans h.1 h'.1, fun p hp i hi => ?_⟩
  cases h'.2 p hp i hi with
  | inl hi' => exact h.2 p hp i hi'
  | inr hle => exact Or.inr (Nat.le_trans h.1 hle)

theorem Inodes.of_calm {w w' : World} {t : FileTree} (hfs : w'.fs = t)
    (h : Calm env ∅ w.fs t) : Inodes env w w' := by
  subst hfs
  refine ⟨h.fresh, fun p hp i hi => ?_⟩
  rw [h.entry p hp] at hi
  exact Or.inl hi

/-- Away from one object, and there with a new inode or one that was there. -/
theorem Inodes.of_calm_but {w w' : World} {t : FileTree} {m : Bytes} (hfs : w'.fs = t)
    (h : Calm env {m} w.fs t)
    (hm : Hex32 m → ∀ i, t.entry (objectPath env m) = some (.file i) →
      w.fs.entry (objectPath env m) = some (.file i) ∨ w.fs.fresh ≤ i) : Inodes env w w' := by
  subst hfs
  refine ⟨h.fresh, ?_⟩
  rintro p ⟨m', hm', -, rfl⟩ i hi
  by_cases heq : m' = m
  · subst heq
    exact hm hm' i hi
  · rw [h.entry _ ⟨m', hm', by simpa using heq, rfl⟩] at hi
    exact Or.inl hi

theorem IdleOp.inodes {w w' : World} (h : IdleOp env w w') : Inodes env w w' := by
  cases h with
  | tree h => exact Inodes.of_calm rfl h
  | draw n => exact Inodes.refl w
  | challenge t m value h => exact Inodes.refl w
  | unchallenge t m => exact Inodes.refl w
  | note m hm size => exact Inodes.refl w

theorem StoreOp.inodes {w w' : World} (h : StoreOp env u w w') : Inodes env w w' := by
  cases h with
  | idle h => exact h.inodes
  | collect m h hkeep hgone =>
      refine Inodes.of_calm_but rfl hkeep fun hm i hi => ?_
      cases hgone hm with
      | inl h => exact Or.inl (h.1.symm.trans hi)
      | inr h => exact absurd (h.symm.trans hi) (by simp)
  | publish m hm hkeep hnew hobj =>
      refine Inodes.of_calm_but rfl hkeep fun _ i hi => ?_
      obtain ⟨j, hj, hfresh, -⟩ := hobj
      rw [hj, Option.some.injEq, Library.Node.file.injEq] at hi
      exact Or.inr (hi ▸ hfresh)
  | link p m h => exact Inodes.refl w
  | unlink p => exact Inodes.refl w
  | addRef m p => exact Inodes.refl w
  | removeRef m p => exact Inodes.refl w
  | row r hu h => exact Inodes.refl w
  | unrow p => exact Inodes.refl w

theorem AccountOp.inodes {w w' : World} (h : AccountOp env w w') : Inodes env w w' := by
  cases h with
  | tree h _ => exact Inodes.of_calm rfl h
  | draw n => exact Inodes.refl w
  | user r n h => exact Inodes.refl w
  | login s hcolon hzero h => exact Inodes.refl w
  | logout k => exact Inodes.refl w

theorem StoreOps.inodes {w w' : World} (h : StoreOps env u w w') : Inodes env w w' := by
  induction h with
  | refl => exact Inodes.refl w
  | tail _ h ih => exact ih.trans h.inodes

theorem UploadOps.inodes {free : Prop} {w w' : World} (h : UploadOps env free u w w') :
    Inodes env w w' := by
  induction h with
  | refl => exact Inodes.refl w
  | tail _ h ih =>
      refine ih.trans ?_
      cases h with
      | op h => exact h.inodes
      | replace m hm hcollide hkeep hobj =>
          refine Inodes.of_calm_but rfl hkeep fun _ i hi => ?_
          rcases hobj with hnone | ⟨j, hj, hold, -⟩
          · simp [hnone] at hi
          · rw [hj, Option.some.injEq, Library.Node.file.injEq] at hi
            exact Or.inl (hi ▸ hold)

theorem AccountOps.inodes {w w' : World} (h : AccountOps env w w') : Inodes env w w' := by
  induction h with
  | refl => exact Inodes.refl w
  | tail _ h ih => exact ih.trans h.inodes

/-- An open part file stays apart from the objects. -/
theorem OpenUpload.later {w w' : World} {st : UploadSession} {fd : ℕ} (h : OpenUpload env w st fd)
    (hino : Inodes env w w') : OpenUpload env w' st fd where
  used := Nat.lt_of_lt_of_le h.used hino.1
  clear := by
    intro p hp hfd
    cases hino.2 p hp fd hfd with
    | inl hfd => exact h.clear p hp hfd
    | inr hle => exact absurd h.used (Nat.not_lt.mpr hle)
  part := h.part
  dest := h.dest
  md5 := h.md5

/-! ## Connections -/

variable (env) in
/-- A connection in order. -/
structure ConnOk (w : World) (c : Connection) : Prop where
  session : c.authed = true → SessionOk env c.session
  token : c.authed = true → env.dialect.cStrings = false → 58 ∉ c.session.token
  upload : ∀ fd, c.upload.fd = some fd → OpenUpload env w c.upload fd

theorem ConnOk.later {w w' : World} {c : Connection} (h : ConnOk env w c)
    (hino : Inodes env w w') : ConnOk env w' c where
  session := h.session
  token := h.token
  upload := fun fd hfd => (h.upload fd hfd).later hino

theorem ConnOk.login {w : World} {c : Connection} (h : ConnOk env w c) {s : UserSession}
    (hs : SessionOk env s) (htoken : env.dialect.cStrings = false → 58 ∉ s.token) :
    ConnOk env w (loggedIn s c) where
  session := fun _ => hs
  token := fun _ => htoken
  upload := h.upload

/-- The path that a connection resolves is a path of a user. -/
theorem Resolves.userPath {w : World} {c : Connection} {path physical : Bytes}
    (hw : Sound env w) (hc : ConnOk env w c) (h : Resolves env w c path physical) :
    ∃ p, UserPath env p ∧ physical = render p := by
  obtain ⟨hauthed, mustExist, hresolve⟩ := h
  obtain ⟨name, hname, hrootDir⟩ := (hc.session hauthed).root
  obtain ⟨-, root, p, hreal, hsolid, hground, hin, rfl⟩ := resolve_spec env hresolve
  rw [hrootDir, userRoot_text env hname] at hreal
  obtain ⟨q, -, heq, x, hnode⟩ := realpath_ok hreal
  obtain rfl := locate_plain hw.links (userRoot_plain env hname) (node_ok hnode).1
  have hroot : root = userRoot env name :=
    render_injective (grounded_of_solid hsolid).plain (userRoot_plain env hname) heq
  subst hroot
  exact ⟨p, ⟨hground.plain, (prefix_below _ _).trans hin⟩, rfl⟩

theorem settle_fst {α : Type} (c : Connection) (f : α → Connection → Connection)
    (r : Except Exn α × World) : (settle c f r).1 = r.2 := by
  rcases r with ⟨e | x, w⟩ <;> rfl

theorem settle_snd {α : Type} {c : Connection} {f : α → Connection → Connection}
    {r : Except Exn α × World} {P : Connection → Prop} (herr : P c)
    (hok : ∀ x w', r = (.ok x, w') → P (f x c)) : P (settle c f r).2 := by
  rcases r with ⟨e | x, w⟩
  · exact herr
  · exact hok x w rfl

variable (env) in
/-- The step is made of operations: of the user of the connection, if it is logged in, or
of operations on accounts. -/
def Operates (c : Connection) (w w' : World) : Prop :=
  c.authed = true ∧ UploadOps env (World.CollisionFree env w) c.session.userId w w' ∨
    AccountOps env w w'

theorem Operates.sound {c : Connection} {w w' : World} (h : Operates env c w w')
    (hw : Sound env w) : Sound env w' :=
  h.elim (fun h => h.2.sound hw) fun h => h.sound hw

theorem Operates.inodes {c : Connection} {w w' : World} (h : Operates env c w w') :
    Inodes env w w' :=
  h.elim (fun h => h.2.inodes) fun h => h.inodes

/-- The calls of `AuthService`. -/
def OnAccounts : Call → Bool
  | .registerUser .. | .login .. | .checkToken .. | .logout .. => true
  | _ => false

/-- A call of `AuthService` is made of operations on accounts. -/
theorem call_accounts {w : World} {c : Connection} {call : Call} (hw : Sound env w)
    (haccount : OnAccounts call = true) : AccountOps env w (runCall env w c call).1 := by
  cases call with
  | registerUser username password =>
      rw [runCall, settle_fst]
      exact registerUser_ops username password hw
  | login username password ip =>
      rw [runCall, settle_fst]
      exact login_ops username password ip hw
  | checkToken token =>
      rw [runCall, settle_fst]
      exact checkToken_ops token hw
  | logout token =>
      rw [runCall, settle_fst]
      exact logout_ops token w
  | _ => simp [OnAccounts] at haccount

/-- **Every other call is issued by a connection that is logged in**, and is made of
operations of its user. -/
theorem call_uploads {w : World} {c : Connection} {call : Call} (hw : Sound env w)
    (hc : ConnOk env w c) (hissued : Issued env w c call) (hother : OnAccounts call = false) :
    c.authed = true ∧
      UploadOps env (World.CollisionFree env w) c.session.userId w (runCall env w c call).1 := by
  have hstore : ∀ {α : Type} {a : Act World α} {f : α → Connection → Connection},
      c.authed = true → StoreOps env c.session.userId w (a w).2 → c.authed = true ∧
        UploadOps env (World.CollisionFree env w) c.session.userId w (settle c f (a w)).1 := by
    intro α a f hauthed h
    rw [settle_fst]
    exact ⟨hauthed, h.uploadOps⟩
  have hread : ∀ {α : Type} {a : Act World α} {f : α → Connection → Connection},
      c.authed = true → Reads a → c.authed = true ∧
        UploadOps env (World.CollisionFree env w) c.session.userId w (settle c f (a w)).1 := by
    intro α a f hauthed h
    rw [settle_fst, h w]
    exact ⟨hauthed, Relation.ReflTransGen.refl⟩
  cases hissued with
  | registerUser username password => simp [OnAccounts] at hother
  | login username password => simp [OnAccounts] at hother
  | checkToken token hclosed => simp [OnAccounts] at hother
  | logout hauthed => simp [OnAccounts] at hother
  | listDir recursive h => exact hread h.1 (listDir_reads _ _)
  | statPath h => exact hread h.1 (statPath_reads _)
  | makeDir h =>
      obtain ⟨p, hp, rfl⟩ := h.userPath hw hc
      exact hstore h.1 (quiet_follows (makeDir_quiet hp) w hw)
  | indexFile hauthed hnorm =>
      exact hstore hauthed (indexFile_follows (fun _ => short_nil _) _ _ _ _ w hw)
  | lookupFile virtualPath hauthed => exact hread hauthed (lookupPlainFile_reads _)
  | listIndexed dir hauthed => exact hread hauthed (listIndexed_reads _)
  | removeUserPath hnorm hne h =>
      obtain ⟨p, hp, rfl⟩ := h.userPath hw hc
      exact hstore h.1 (removeUserPath_follows hp _ w hw)
  | renameUserPath hfrom hto hsource hdest =>
      obtain ⟨p, hp, rfl⟩ := hsource.userPath hw hc
      obtain ⟨q, hq, rfl⟩ := hdest.userPath hw hc
      exact hstore hsource.1 (renameUserPath_follows hp hq _ _ w hw)
  | queryInstant md5 size hauthed =>
      exact hstore hauthed (queryInstant_idles (hc.token hauthed) md5 size w hw).storeOps
  | instantUpload md5 size proofOffset proofMd5 overwrite hnorm h =>
      obtain ⟨p, hp, rfl⟩ := h.userPath hw hc
      exact hstore h.1 (instantUpload_follows (hc.token h.1) hp _ _ _ _ _ _ w hw)
  | closeUpload hauthed => exact ⟨hauthed, Relation.ReflTransGen.refl⟩
  | beginUpload md5 size hnorm h =>
      obtain ⟨p, hp, rfl⟩ := h.userPath hw hc
      exact hstore h.1 (beginUpload_idles (hc.session h.1).name hp _ _ _ w hw).storeOps
  | writeChunk offset data hauthed hopen =>
      exact ⟨hauthed, ((writeChunk_quiet offset data hc.upload).1.idles hw).storeOps.uploadOps⟩
  | finishUpload hauthed =>
      have hfinish : UploadOps env (World.CollisionFree env w) c.session.userId w
          (TransferService.finishUpload (backend env) c.session (w, c.upload)).2.1 := by
        unfold TransferService.finishUpload
        rw [bind_ok (Action.look_apply Prod.snd (w, c.upload))]
        cases hfd : c.upload.fd with
        | none => simpa [hfd, fail] using Relation.ReflTransGen.refl
        | some fd =>
            have hcommit := @commitUpload_uploads _ c.session _ _ _ (hc.upload fd hfd) hw
            exact hcommit
      have hfst : (runCall env w c (.finishUpload c.session)).1 =
          (TransferService.finishUpload (backend env) c.session (w, c.upload)).2.1 := by
        unfold runCall
        dsimp only
        split
        next h => rw [h]
        next h => rw [h]
      rw [hfst]
      exact ⟨hauthed, hfinish⟩
  | closeDownload hauthed => exact ⟨hauthed, Relation.ReflTransGen.refl⟩
  | beginDownload hnorm h => exact hstore h.1 (beginDownload_idles _ _ w hw).storeOps
  | readChunk offset len hauthed hopen => exact hread hauthed (readChunk_reads _ _ _)

/-- **Every call that is issued is made of operations.** -/
theorem call_operates {w : World} {c : Connection} {call : Call} (hw : Sound env w)
    (hc : ConnOk env w c) (hissued : Issued env w c call) :
    Operates env c w (runCall env w c call).1 := by
  cases hcall : OnAccounts call with
  | true => exact Or.inr (call_accounts hw hcall)
  | false => exact Or.inl (call_uploads hw hc hissued hcall)

theorem closeUpload_ok {w : World} {c : Connection} (hc : ConnOk env w c)
    {st : UploadSession} (hst : st.fd = none) : ConnOk env w { c with upload := st } where
  session := hc.session
  token := hc.token
  upload := fun fd hfd => absurd (hst.symm.trans hfd) (by simp)

/-- **Every call that is issued leaves its connection in order.** -/
theorem call_connOk {w : World} {c : Connection} {call : Call} (hw : Sound env w)
    (hc : ConnOk env w c) (hissued : Issued env w c call) :
    ConnOk env (runCall env w c call).1 (runCall env w c call).2 := by
  have hlater := hc.later (call_operates hw hc hissued).inodes
  -- a call that leaves the connection alone, or gives it a session, or closes a transfer
  have hsame : ∀ {α : Type} {a : Act World α}, runCall env w c call = settle c (fun _ c => c) (a w) →
      ConnOk env (runCall env w c call).1 (runCall env w c call).2 := by
    intro α a h
    rw [h] at hlater ⊢
    rw [settle_same] at hlater ⊢
    exact hlater
  have hlogin : ∀ {a : Act World UserSession}, runCall env w c call = settle c loggedIn (a w) →
      (∀ s w', a w = (.ok s, w') → SessionOk env s ∧ (env.dialect.cStrings = false → 58 ∉ s.token)) →
      ConnOk env (runCall env w c call).1 (runCall env w c call).2 := by
    intro a h hs
    rw [h] at hlater ⊢
    refine settle_snd hlater fun s w' ha => ?_
    exact hlater.login (hs s w' ha).1 (hs s w' ha).2
  cases hissued with
  | registerUser username password => exact hsame rfl
  | login username password =>
      refine hlogin rfl fun s w' h => ?_
      obtain ⟨hok, hcolon, -⟩ := login_session hw h
      exact ⟨hok, fun _ => hcolon⟩
  | checkToken token hclosed =>
      refine hlogin rfl fun s w' h => ?_
      obtain ⟨stored, -, htoken, rfl, hok, hcolon, -⟩ := checkToken_ok hw h
      refine ⟨⟨hok.root, hok.name⟩, fun hexact => ?_⟩
      rw [htoken, Dialect.arg, hexact] at hcolon
      simpa using hcolon
  | logout hauthed =>
      refine settle_snd hlater fun _ _ _ => ?_
      exact ⟨by simp, by simp, hlater.upload⟩
  | listDir recursive h => exact hsame rfl
  | statPath h => exact hsame rfl
  | makeDir h => exact hsame rfl
  | indexFile hauthed hnorm => exact hsame rfl
  | lookupFile virtualPath hauthed =>
      exact hsame (a := TransferService.lookupPlainFile (backend env) c.session.userId virtualPath) rfl
  | listIndexed dir hauthed =>
      exact hsame (a := TransferService.listIndexed (backend env) c.session.userId dir) rfl
  | removeUserPath hnorm hne h => exact hsame rfl
  | renameUserPath hfrom hto hsource hdest => exact hsame rfl
  | queryInstant md5 size hauthed => exact hsame rfl
  | instantUpload md5 size proofOffset proofMd5 overwrite hnorm h => exact hsame rfl
  | closeUpload hauthed => exact closeUpload_ok hlater rfl
  | @beginUpload path norm physical md5 size hnorm h =>
      obtain ⟨p, hp, rfl⟩ := h.userPath hw hc
      have hname := (hc.session h.1).name
      rcases hrun : TransferService.beginUpload (backend env) c.session (render p)
          (str "/" ++ norm) md5 size w with ⟨e | st, w'⟩
      · simp only [runCall, hrun, settle] at hlater ⊢
        exact hlater
      · obtain ⟨fd, hfd, hopen⟩ := beginUpload_ok hname hp hw.links hrun
        simp only [runCall, hrun, settle] at hlater ⊢
        refine ⟨hlater.session, hlater.token, fun fd' hfd' => ?_⟩
        obtain rfl : fd = fd' := Option.some.inj (hfd.symm.trans hfd')
        exact hopen
  | writeChunk offset data hauthed hopen =>
      have hwrite := (@writeChunk_quiet env _ _ offset data hc.upload).2
      exact ⟨hlater.session, hlater.token, hwrite⟩
  | finishUpload hauthed =>
      have hclosed : (TransferService.finishUpload (backend env) c.session (w, c.upload)).2.2.fd =
          none := by
        unfold TransferService.finishUpload
        rw [bind_ok (Action.look_apply Prod.snd (w, c.upload))]
        cases hfd : c.upload.fd with
        | none => simp [hfd, fail]
        | some fd => rfl
      simp only [runCall] at hlater ⊢
      rcases hrun : TransferService.finishUpload (backend env) c.session (w, c.upload) with
        ⟨e | r, w', st⟩
      · rw [hrun] at hlater hclosed
        exact closeUpload_ok hlater hclosed
      · rw [hrun] at hlater
        exact closeUpload_ok hlater rfl
  | closeDownload hauthed => exact ⟨hlater.session, hlater.token, hlater.upload⟩
  | beginDownload hnorm h =>
      refine settle_snd hlater fun _ _ _ => ?_
      exact ⟨hlater.session, hlater.token, hlater.upload⟩
  | readChunk offset len hauthed hopen => exact hsame rfl

/-! ## The server -/

variable (env) in
/-- The stores are sound and every connection is in order. -/
structure Safe (s : ServerState) : Prop where
  world : Sound env s.world
  conns : ∀ id c, s.conns id = some c → ConnOk env s.world c

variable (env) in
/-- MD5 is collision free in the states that the calls of an event are made in. -/
def NoCollision (s : ServerState) (e : Event) : Prop :=
  ∀ r ∈ (Server.step env s e).2.calls, World.CollisionFree env r.sys

/-- What the calls of a frame lead to. -/
theorem calls_safe {w w' : World} {c c' : Connection} {rs : List (CallRecord World)}
    (h : Calls env w c rs w' c') (hw : Sound env w) (hc : ConnOk env w c) :
    Sound env w' ∧ ConnOk env w' c' ∧ Inodes env w w' := by
  refine h.keep (P := fun w' c' => Sound env w' ∧ ConnOk env w' c' ∧ Inodes env w w')
    (Q := fun _ => True) ⟨hw, hc, Inodes.refl w⟩ (fun _ _ => trivial) ?_
  rintro w₁ c₁ call ⟨hw₁, hc₁, hino⟩ hissued -
  have hoperates := call_operates hw₁ hc₁ hissued
  exact ⟨hoperates.sound hw₁, call_connOk hw₁ hc₁ hissued, hino.trans hoperates.inodes⟩

/-- The end of the life of a key. -/
theorem expireKey_sound {w : World} (hw : Sound env w) (key : Bytes) :
    Sound env (Server.expireKey w key) := by
  have hsessions : Sound env { w with redis := { w.redis with
      sessions := Function.update w.redis.sessions key none } } := by
    refine { hw with sessions := fun k raw hk => ?_ }
    by_cases heq : k = key
    · simp [heq] at hk
    · simp only [Function.update_of_ne heq] at hk
      exact hw.sessions k raw hk
  unfold Server.expireKey
  dsimp only
  split
  · exact hsessions.setString_nil key
  · exact hsessions

theorem expireKey_fs (w : World) (key : Bytes) : (Server.expireKey w key).fs = w.fs := by
  unfold Server.expireKey
  dsimp only
  split <;> rfl

/-- **Every event keeps the server safe.** -/
theorem step_safe {s : ServerState} (h : Safe env s) (e : Event) :
    Safe env (Server.step env s e).1 := by
  cases e with
  | connect id ip =>
      unfold Server.step
      dsimp only
      cases hid : s.conns id with
      | some c => exact h
      | none =>
          refine ⟨h.world, fun id' c hc => ?_⟩
          by_cases heq : id' = id
          · simp only [heq, Function.update_self, Option.some.injEq] at hc
            subst hc
            exact ⟨by simp, by simp, by simp⟩
          · simp only [Function.update_of_ne heq] at hc
            exact h.conns id' c hc
  | close id =>
      refine ⟨h.world, fun id' c hc => ?_⟩
      simp only [Server.step] at hc
      by_cases heq : id' = id
      · simp [heq] at hc
      · rw [Function.update_of_ne heq] at hc
        exact h.conns id' c hc
  | expire key =>
      refine ⟨expireKey_sound h.world key, fun id c hc => ?_⟩
      refine (h.conns id c hc).later ⟨?_, fun p _ i hi => ?_⟩
      · simp only [Server.step]
        rw [expireKey_fs]
      · simp only [Server.step] at hi
        rw [expireKey_fs] at hi
        exact Or.inl hi
  | disk d => exact ⟨{ h.world with }, fun id c hc => (h.conns id c hc).later (Inodes.refl _)⟩
  | frame id f =>
      unfold Server.step
      dsimp only
      cases hid : s.conns id with
      | none => exact h
      | some c =>
          obtain ⟨hw, hc, hino⟩ := calls_safe (onFrame_calls f s.world c) h.world
            (h.conns id c hid)
          refine ⟨hw, fun id' c' hc' => ?_⟩
          by_cases heq : id' = id
          · simp only [heq, Function.update_self, Option.some.injEq] at hc'
            exact hc' ▸ hc
          · simp only [Function.update_of_ne heq] at hc'
            exact (h.conns id' c' hc').later hino

/-- An empty store is sound. -/
theorem empty_sound {w : World} (h : World.Empty env w) : Sound env w where
  links := h.no_links
  objects := by
    intro m hm x hx
    have hpath : objectPath env m = World.objectsDir env ++ [m.take 2] ++ [m] := by
      simp [objectPath]
    have hdir := w.fs.closed (World.objectsDir env ++ [m.take 2]) m (by rw [← hpath, hx]; simp)
    have hnone := h.empty_dirs (World.objectsDir env) (by simp) (m.take 2)
    simp [hnone] at hdir
  cached := by simp [h.redis]
  linkShort := by
    intro u p
    rw [h.redis]
    exact short_nil _
  rowShort := by simp [h.rows]
  rowKeys := by simp [h.rows]
  sessions := by simp [h.redis]
  users := by simp [h.users]
  challenges := by simp [h.redis]
  parts := by
    rintro p ⟨htmp, n, hn, hdot⟩ hdir
    -- below `tmp` there is nothing, and `tmp` itself has no dot in its name
    obtain ⟨rest, rfl⟩ := htmp
    cases rest with
    | nil =>
        simp only [List.append_nil, World.tmpDir, List.getLast?_concat, Option.some.injEq] at hn
        exact absurd hdot (hn ▸ by decide)
    | cons a rest =>
        have hnone := h.empty_dirs (World.tmpDir env) (by simp) a
        have happ : World.tmpDir env ++ a :: rest = World.tmpDir env ++ [a] ++ rest := by simp
        rw [happ] at hdir
        cases rest with
        | nil => simp [hnone] at hdir
        | cons b rest =>
            have := w.fs.dir_of_below (List.cons_ne_nil b rest) (by rw [hdir]; simp)
            simp [hnone] at this

/-- The server starts safe. -/
theorem start_safe {s : ServerState} (h : Server.Start env s) : Safe env s :=
  ⟨empty_sound h.1, fun id c hc => by simp [h.2 id] at hc⟩

/-- **Every state that the server reaches is safe.** -/
theorem run_safe {ok : ServerState → Event → Prop}
    {hist : List (Library.Machine.Record ServerState Event Output)} {s : ServerState}
    (run : (Server.machine env).Run (Server.Start env) ok hist s) : Safe env s :=
  run.invariant (fun _ h => start_safe h) fun _ e h _ => step_safe h e

end CloudStore.Interface
