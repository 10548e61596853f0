import CloudStore.Model.Backend

/-!
# RedisStore

The key space of `src/redis_store.cpp`: which key each kind of record lives under.
-/

set_option autoImplicit false

namespace CloudStore.Model.RedisStore

open CloudStore.Library (Bytes)

/-! ## Keys -/

def sessionKey (token : Bytes) : Bytes := str "cs:session:" ++ token

def objKey (md5 : Bytes) : Bytes := str "cs:obj:" ++ md5

def objsizeKey (md5 : Bytes) : Bytes := str "cs:objsize:" ++ md5

def refsKey (md5 : Bytes) : Bytes := str "cs:refs:" ++ md5

def pathKey (userId : ℤ) (virtualPath : Bytes) : Bytes :=
  str "cs:path:" ++ toDecimalInt userId ++ str ":" ++ virtualPath

def chalKey (token md5 : Bytes) : Bytes := str "cs:chal:" ++ token ++ str ":" ++ md5

/-- The member of a reference set that stands for a path of a user. -/
def refMember (userId : ℤ) (virtualPath : Bytes) : Bytes :=
  toDecimalInt userId ++ str "|" ++ virtualPath

/-! ## Records -/

variable {σ : Type} (redis : RedisCalls σ)

def setSession (token : Bytes) (json : JsonText) (ttlSec : ℤ) : Act σ Unit :=
  redis.setJsonEx (sessionKey token) json ttlSec

def getSession (token : Bytes) : Act σ (Option JsonText) := redis.getJson (sessionKey token)

def delSession (token : Bytes) : Act σ Unit := redis.delJson (sessionKey token)

def setObject (md5 objectPath : Bytes) (size : ℕ) : Act σ Unit := do
  redis.cmdSet (objKey md5) objectPath
  redis.cmdSet (objsizeKey md5) (toDecimal size)

def getObjectPath (md5 : Bytes) : Act σ Bytes := redis.cmdGet (objKey md5)

def deleteObjectMeta (md5 : Bytes) : Act σ Unit := do
  redis.cmdDel (objKey md5)
  redis.cmdDel (objsizeKey md5)
  redis.cmdDel (refsKey md5)

def addRef (md5 : Bytes) (userId : ℤ) (virtualPath : Bytes) : Act σ Unit := do
  let _ ← redis.cmdSAdd (refsKey md5) (refMember userId virtualPath)

def removeRef (md5 : Bytes) (userId : ℤ) (virtualPath : Bytes) : Act σ ℤ := do
  let _ ← redis.cmdSRem (refsKey md5) (refMember userId virtualPath)
  redis.cmdSCard (refsKey md5)

def setPathMd5 (userId : ℤ) (virtualPath md5 : Bytes) : Act σ Unit :=
  redis.cmdSet (pathKey userId virtualPath) md5

def getPathMd5 (userId : ℤ) (virtualPath : Bytes) : Act σ Bytes :=
  redis.cmdGet (pathKey userId virtualPath)

def delPathMd5 (userId : ℤ) (virtualPath : Bytes) : Act σ Unit :=
  redis.cmdDel (pathKey userId virtualPath)

def setChallenge (token md5 : Bytes) (offset len : ℕ) : Act σ Unit :=
  redis.cmdSetEx (chalKey token md5) (toDecimal offset ++ str ":" ++ toDecimal len) 120

/-- `getChallenge`: offset and length, if there is a challenge. -/
def getChallenge (token md5 : Bytes) : Act σ (Option (ℕ × ℕ)) := do
  let s ← redis.cmdGet (chalKey token md5)
  if s.contains 58 then
    let offset ← stoull (s.takeWhile (· ≠ 58))
    let len ← stoull ((s.dropWhile (· ≠ 58)).drop 1)
    return some (offset, len % 2 ^ 32)
  else return none

def delChallenge (token md5 : Bytes) : Act σ Unit := redis.cmdDel (chalKey token md5)

end CloudStore.Model.RedisStore
