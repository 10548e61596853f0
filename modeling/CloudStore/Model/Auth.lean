import CloudStore.Model.RedisStore

/-!
# AuthService

`src/auth.cpp`, function by function.
-/

set_option autoImplicit false

namespace CloudStore.Model

open CloudStore.Library (Bytes)

/-- `std::isalnum(c) || c == '_'`, in the C locale. -/
def isNameChar (c : UInt8) : Bool :=
  (48 ≤ c && c ≤ 57) || (65 ≤ c && c ≤ 90) || (97 ≤ c && c ≤ 122) || c == 95

/-- `validUsername(u)`. -/
def validUsername (u : Bytes) : Bool := 3 ≤ u.length && u.length ≤ 32 && u.all isNameChar

/-- `err.find(word) != npos`. -/
def containsText (err word : Bytes) : Bool := err.tails.any fun s => word.isPrefixOf s

namespace AuthService

variable {σ : Type} (b : Backend σ)

/-- `ensureUserRoot(username, rootDir)`: the root directory. -/
def ensureUserRoot (username : Bytes) : Act σ Bytes := do
  let rootDir := joinPath b.cfg.usersRoot username
  if ← ensureDir b.files rootDir then return rootDir
  else fail .internal (str "cannot create user root")

/-- `logLogin(userId, ip, ok)`. -/
def logLogin (userId : ℤ) (ip : Bytes) (ok : Bool) : Act σ Unit :=
  tryCatch
    (b.sql.withConn do
      b.sql.prepare "INSERT INTO login_log(user_id, ip, success) VALUES(?, ?, ?)"
      b.sql.insertLoginLog userId ip ok)
    fun _ => return ()

/-- `registerUser(username, password)`. -/
def registerUser (username password : Bytes) : Act σ UserSession := do
  if !validUsername username || password.length < 6 then
    fail .badRequest (str "invalid username or password")
  else
    let salt ← randomHex b 16
    let hash := hashPassword b salt password
    let rootDir ← ensureUserRoot b username
    b.sql.withConn do
      let newUserId ← tryCatch
        (do
          b.sql.prepare "INSERT INTO users(username, password_hash, salt, root_dir) VALUES(?, ?, ?, ?)"
          b.sql.insertUser username hash salt rootDir)
        fun e =>
          if containsText e.what (str "Duplicate") then fail .conflict (str "username exists")
          else fail .internal (str "register failed: " ++ e.what)
      return { userId := newUserId, username := username, rootDir := rootDir }

/-- The session as `login` stores it. -/
def sessionJson (s : UserSession) : Json :=
  .obj [(str "root_dir", .str s.rootDir), (str "token", .str s.token),
    (str "user_id", .int s.userId), (str "username", .str s.username)]

/-- `login(username, password, ip)`. -/
def login (username password ip : Bytes) : Act σ UserSession :=
  b.sql.withConn do
    b.sql.prepare "SELECT id, password_hash, salt, root_dir FROM users WHERE username=? LIMIT 1"
    match ← b.sql.selectUser username with
    | none =>
      logLogin b 0 ip false
      fail .unauthorized (str "invalid username or password")
    | some row =>
      if !verifyPassword b row.salt password row.passwordHash then
        logLogin b row.id ip false
        fail .unauthorized (str "invalid username or password")
      else
        let root ← ensureUserRoot b username
        let token ← randomHex b 32
        let s : UserSession := { userId := row.id, username := username, rootDir := root, token := token }
        RedisStore.setSession b.redis token (dumpJson (sessionJson s)) b.cfg.sessionTtlSec
        logLogin b row.id ip true
        return s

/-- The session that `checkToken` reads off a stored one. -/
def readSession (token : Bytes) (js : Json) : Except Exn UserSession := do
  let userId ← (← js.get (str "user_id") (.int 0)).asInt
  let username ← (← js.get (str "username") (.str [])).asString
  let rootDir ← (← js.get (str "root_dir") (.str [])).asString
  return { userId := userId, username := username, rootDir := rootDir, token := token }

/-- `checkToken(token)`. -/
def checkToken (token : Bytes) : Act σ UserSession := do
  if token = [] then fail .unauthorized (str "missing token")
  else
    match ← RedisStore.getSession b.redis token with
    | none => fail .unauthorized (str "session expired")
    | some raw =>
      match raw with
      | .error _ => fail .unauthorized (str "bad session")
      | .ok js =>
        let s ← readSession token js
        RedisStore.setSession b.redis token raw b.cfg.sessionTtlSec
        return s

/-- `logout(token)`. -/
def logout (token : Bytes) : Act σ Unit := RedisStore.delSession b.redis token

/-- `ensureDefaultUsers()`. -/
def ensureDefaultUsers : Act σ Unit :=
  b.sql.withConn do
    let count ← b.sql.countUsers
    if count > 0 then return ()
    else
      let _ ← registerUser b (str "admin") (str "admin123")
      let _ ← registerUser b (str "alice") (str "alice123")
      let _ ← registerUser b (str "bob") (str "bob123")

end AuthService

end CloudStore.Model
