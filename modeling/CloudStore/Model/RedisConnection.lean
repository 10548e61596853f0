import CloudStore.Model.Common

/-!
# The connection to Redis

`RedisStore::ensure` of `src/redis_store.cpp` and the commands behind it, over what hiredis and the
server make of each step. A command that gets no reply leaves an error in its context.
-/

set_option autoImplicit false

namespace CloudStore.Model.RedisConnection

open CloudStore.Library (Bytes Action)

/-- `struct redisReply`. -/
inductive RedisReply where
  | status (text : Bytes)
  | error (text : Bytes)
  | string (text : Bytes)
  | integer (n : ℤ)
  | nil
  deriving DecidableEq

/-- What `redisConnect` gives: no context, one with an error, or one that is connected. -/
inductive Connecting where
  | allocFailed
  | failed (errstr : Bytes)
  | connected
  deriving DecidableEq

/-- What becomes of the steps of an operation. -/
structure Outcomes where
  connect : Connecting
  auth : Option RedisReply
  select : Option RedisReply
  command : Option RedisReply

/-- `struct redisContext`, with what the server has accepted on the connection, which nothing
reads. -/
structure Context where
  err : Bool := false
  authed : Bool := false
  selected : Bool := false
  deriving DecidableEq

/-- `class RedisStore`: its context, and the contexts that its commands were sent on, newest
first. -/
structure Store where
  ctx : Option Context := none
  issued : List Context := []

/-- The effect of `redisCommand` on the context; `accept` is what the server notes where it does
not refuse. -/
def redisCommand (answer : Option RedisReply) (accept : Context → Context) :
    Act Store (Option RedisReply) := do
  Action.change fun s => { s with ctx := s.ctx.map fun c =>
    match answer with
    | none => { c with err := true }
    | some (.error _) => c
    | some _ => accept c }
  return answer

/-- A command of the handshake; `failure` and `missing` are its texts. -/
def greet (answer : Option RedisReply) (accept : Context → Context) (failure missing : String) :
    Act Store Unit := do
  match ← redisCommand answer accept with
  | none => throw (.std (str failure ++ str missing))
  | some (.error e) => throw (.std (str failure ++ e))
  | some _ => return ()

variable (password : Bytes) (o : Outcomes)

/-- The `AUTH` of `ensure()`. -/
def authenticate : Act Store Unit :=
  if password = [] then return ()
  else greet o.auth (fun c => { c with authed := true }) "redis auth failed: " "auth failed"

/-- The `SELECT` of `ensure()`. -/
def selectDb : Act Store Unit :=
  greet o.select (fun c => { c with selected := true }) "redis select failed: " "select failed"

/-- `ensure()` behind its first test. -/
def reconnect : Act Store Unit := do
  Action.change fun s => { s with ctx := none }
  match o.connect with
  | .allocFailed => throw (.std (str "redis connect failed: alloc failed"))
  | .failed errstr => throw (.std (str "redis connect failed: " ++ errstr))
  | .connected =>
    Action.change fun s => { s with ctx := some {} }
    authenticate password o
    selectDb o

/-- `ensure()`. -/
def ensure : Act Store Unit := do
  match ← Action.look Store.ctx with
  | none => reconnect password o
  | some c => if c.err = false then return () else reconnect password o

/-- The start of every method: `ensure()` and one command. -/
def command : Act Store (Option RedisReply) := do
  ensure password o
  Action.change fun s => { s with issued := s.ctx.toList ++ s.issued }
  redisCommand o.command id

/-- `ping()`. -/
def ping : Act Store Bool := do
  return decide ((← command password o) = some (.status (str "PONG")))

/-- `cmdGet(key)`. -/
def cmdGet : Act Store Bytes := do
  match ← command password o with
  | some (.string text) => return text
  | _ => return []

/-- `cmdSetEx(key, value, ttl)`, and `cmdSet` and `cmdDel`, which drop the reply as well. -/
def cmdSetEx : Act Store Unit := do
  let _ ← command password o

/-- `cmdSet(key, value)`. -/
def cmdSet : Act Store Unit := cmdSetEx password o

/-- `cmdDel(key)`. -/
def cmdDel : Act Store Unit := cmdSetEx password o

/-- `cmdSAdd(key, member)`. -/
def cmdSAdd : Act Store ℤ := do
  match ← command password o with
  | some (.integer n) => return n
  | _ => return 0

/-- `cmdSRem(key, member)`. -/
def cmdSRem : Act Store ℤ := cmdSAdd password o

/-- `cmdSCard(key)`. -/
def cmdSCard : Act Store ℤ := cmdSAdd password o

/-- The methods that send a command. -/
inductive Method where
  | ping | cmdGet | cmdSetEx | cmdSet | cmdDel | cmdSAdd | cmdSRem | cmdSCard
  deriving DecidableEq

/-- A method, called on a store. -/
def Method.call (s : Store) : Method → Store
  | .ping => (RedisConnection.ping password o s).2
  | .cmdGet => (RedisConnection.cmdGet password o s).2
  | .cmdSetEx => (RedisConnection.cmdSetEx password o s).2
  | .cmdSet => (RedisConnection.cmdSet password o s).2
  | .cmdDel => (RedisConnection.cmdDel password o s).2
  | .cmdSAdd => (RedisConnection.cmdSAdd password o s).2
  | .cmdSRem => (RedisConnection.cmdSRem password o s).2
  | .cmdSCard => (RedisConnection.cmdSCard password o s).2

end CloudStore.Model.RedisConnection
