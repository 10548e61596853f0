import CloudStore.Model.Utils

/-!
# The configuration file

`Config::load` of `src/config.cpp` with all fields of `struct Config`. The machine types of the
fields are kept by the casts that `load` makes.
-/

set_option autoImplicit false

namespace CloudStore.Model.ConfigFile

open CloudStore.Library (Bytes)

/-! ## Lines -/

/-- `std::isspace` of a byte. -/
def isSpace (c : UInt8) : Bool := c = 32 || (9 ≤ c && c ≤ 13)

/-- `trim(s)`. -/
def trim (s : Bytes) : Bytes := ((s.dropWhile isSpace).reverse.dropWhile isSpace).reverse

/-- `unquote(s)`. -/
def unquote (s : Bytes) : Bytes :=
  if 2 ≤ s.length ∧ (s.head? = some 34 ∧ s.getLast? = some 34 ∨ s.head? = some 39 ∧ s.getLast? = some 39)
  then (s.drop 1).dropLast
  else s

/-- One round of the loop over the lines: the key and the value of a line that has them. -/
def entry (text : Bytes) : Option (Bytes × Bytes) :=
  let line := trim text
  if line = [] ∨ line.head? = some 35 ∨ line.head? = some 59 then none
  else if 61 ∉ line then none
  else
    let pos := line.idxOf 61
    some (trim (line.take pos), unquote (trim (line.drop (pos + 1))))

/-- The map that the loop fills. -/
def keyValues (text : Bytes) : Bytes → Option Bytes :=
  (split text 10).foldl
    (fun kv line =>
      match entry line with
      | none => kv
      | some (key, value) => Function.update kv key (some value))
    fun _ => none

/-! ## Numbers -/

/-- `std::stoll(s)`: leading spaces, a sign, and the digits up to the first other character. -/
def stoll (s : Bytes) : Except Exn ℤ :=
  let s := s.dropWhile isSpace
  let negative := s.head? = some 45
  let s := if negative ∨ s.head? = some 43 then s.drop 1 else s
  let digits := s.takeWhile isDigit
  let n : ℤ := if negative then -(decimalValue digits : ℤ) else decimalValue digits
  if digits = [] then .error (.std (str "stoll"))
  else if -2 ^ 63 ≤ n ∧ n < 2 ^ 63 then .ok n
  else .error (.std (str "stoll"))

/-- The types of the numbers in `struct Config`. -/
inductive NumberType where
  | uint16
  | uint32
  | uint64
  | int32
  deriving DecidableEq

/-- The numbers of a type, from the least one up to below the bound. -/
def NumberType.least : NumberType → ℤ
  | .int32 => -2 ^ 31
  | _ => 0

def NumberType.bound : NumberType → ℤ
  | .uint16 => 2 ^ 16
  | .uint32 => 2 ^ 32
  | .uint64 => 2 ^ 64
  | .int32 => 2 ^ 31

/-- `static_cast` of a `long long`. -/
def NumberType.cast (t : NumberType) (n : ℤ) : ℤ := (n - t.least) % (t.bound - t.least) + t.least

/-! ## The configuration -/

/-- `struct Config`. -/
structure Config where
  listenIp : Bytes := str "0.0.0.0"
  listenPort : ℤ := 9000
  storageRoot : Bytes := str "/var/cloudstore/data"
  logFile : Bytes := str "/var/log/cloudstore/server.log"
  mysqlHost : Bytes := str "127.0.0.1"
  mysqlPort : ℤ := 3306
  mysqlUser : Bytes := str "cloud"
  mysqlPassword : Bytes := str "cloud123"
  mysqlDb : Bytes := str "cloudstore"
  mysqlPoolSize : ℤ := 8
  redisHost : Bytes := str "127.0.0.1"
  redisPort : ℤ := 6379
  redisPassword : Bytes := []
  redisDb : ℤ := 0
  chunkSize : ℤ := 65536
  maxConnections : ℤ := 1024
  sessionTtlSec : ℤ := 3600
  connIdleTimeoutSec : ℤ := 300
  maxUploadBytes : ℤ := 8 * 1024 * 1024 * 1024
  challengeBytes : ℤ := 4096
  copyWorkers : ℤ := 2
  copySleepUs : ℤ := 0
  deriving DecidableEq

/-- The lambda `get`. -/
def get (kv : Bytes → Option Bytes) (key : String) (dflt : Bytes) : Bytes := (kv (str key)).getD dflt

/-- The lambda `geti`. -/
def geti (kv : Bytes → Option Bytes) (key : String) (dflt : ℤ) : Except Exn ℤ :=
  match kv (str key) with
  | none => .ok dflt
  | some value => stoll value

/-- `Config::load(path)`, of the text of the file; `none` where it cannot be opened. -/
def load (path : Bytes) (file : Option Bytes) : Except Exn Config := do
  match file with
  | none => throw (.std (str "cannot open config: " ++ path))
  | some text =>
    let kv := keyValues text
    let c : Config := {}
    let listenPort ← geti kv "listen_port" c.listenPort
    let mysqlPort ← geti kv "mysql_port" c.mysqlPort
    let mysqlPoolSize ← geti kv "mysql_pool_size" c.mysqlPoolSize
    let redisPort ← geti kv "redis_port" c.redisPort
    let redisDb ← geti kv "redis_db" c.redisDb
    let chunkSize ← geti kv "chunk_size" c.chunkSize
    let maxConnections ← geti kv "max_connections" c.maxConnections
    let sessionTtlSec ← geti kv "session_ttl_sec" c.sessionTtlSec
    let connIdleTimeoutSec ← geti kv "conn_idle_timeout_sec" c.connIdleTimeoutSec
    let maxUploadBytes ← geti kv "max_upload_bytes" c.maxUploadBytes
    let challengeBytes ← geti kv "challenge_bytes" c.challengeBytes
    let copyWorkers ← geti kv "copy_workers" c.copyWorkers
    let copySleepUs ← geti kv "copy_sleep_us" c.copySleepUs
    return {
      listenIp := get kv "listen_ip" c.listenIp
      listenPort := NumberType.cast .uint16 listenPort
      storageRoot := get kv "storage_root" c.storageRoot
      logFile := get kv "log_file" c.logFile
      mysqlHost := get kv "mysql_host" c.mysqlHost
      mysqlPort := NumberType.cast .uint16 mysqlPort
      mysqlUser := get kv "mysql_user" c.mysqlUser
      mysqlPassword := get kv "mysql_password" c.mysqlPassword
      mysqlDb := get kv "mysql_db" c.mysqlDb
      mysqlPoolSize := NumberType.cast .int32 mysqlPoolSize
      redisHost := get kv "redis_host" c.redisHost
      redisPort := NumberType.cast .uint16 redisPort
      redisPassword := get kv "redis_password" c.redisPassword
      redisDb := NumberType.cast .int32 redisDb
      chunkSize := NumberType.cast .uint32 chunkSize
      maxConnections := NumberType.cast .int32 maxConnections
      sessionTtlSec := NumberType.cast .int32 sessionTtlSec
      connIdleTimeoutSec := NumberType.cast .int32 connIdleTimeoutSec
      maxUploadBytes := NumberType.cast .uint64 maxUploadBytes
      challengeBytes := NumberType.cast .uint32 challengeBytes
      copyWorkers := NumberType.cast .int32 copyWorkers
      copySleepUs := NumberType.cast .int32 copySleepUs }

end CloudStore.Model.ConfigFile
