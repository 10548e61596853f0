import CloudStore.Model.Beside

/-!
# A backend whose Redis commands may fail

The commands are counted, and a pattern says what becomes of each. Where `redisCommand`
gives an error reply or none, the wrappers of `src/redis_store.cpp` return the value of an
absent key; where `ensure` cannot connect, it throws.
-/

set_option autoImplicit false

namespace CloudStore.Model

open CloudStore.Library (Bytes Action)

variable {σ : Type}

/-- What becomes of a command: it is served; the reply is an error; there is no reply, and the
command was executed or not; or there is no connection. -/
inductive Outcome where
  | served
  | refused
  | lost (executed : Bool)
  | unreachable
  deriving DecidableEq

/-- Whether the command has its effect. -/
def Outcome.executed : Outcome → Bool
  | .served => true
  | .refused => false
  | .lost executed => executed
  | .unreachable => false

/-- What the caller receives: the value of the reply, the value of an absent key, or an
exception. -/
def Outcome.result {α : Type} (o : Outcome) (missing : α) (reply : Except Exn α) : Except Exn α :=
  match o with
  | .served => reply
  | .refused => .ok missing
  | .lost _ => .ok missing
  | .unreachable => .error (.std (str "redis connect failed: Connection refused"))

/-- One command, the `n`-th where the count is at `n`. -/
def commanding (outcome : ℕ → Outcome) {α : Type} (missing : α) (a : Act σ α) : Act (σ × ℕ) α :=
  fun st =>
    ((outcome st.2).result missing (a st.1).1,
      (if (outcome st.2).executed then (a st.1).2 else st.1, st.2 + 1))

/-- A backend where the Redis commands come out in a pattern. -/
def failingRedis (outcome : ℕ → Outcome) (b : Backend σ) : Backend (σ × ℕ) where
  cfg := b.cfg
  files := b.files.beside ℕ
  redis :=
    { cmdGet := fun key => commanding outcome [] (b.redis.cmdGet key)
      cmdSet := fun key value => commanding outcome () (b.redis.cmdSet key value)
      cmdSetEx := fun key value ttl => commanding outcome () (b.redis.cmdSetEx key value ttl)
      cmdDel := fun key => commanding outcome () (b.redis.cmdDel key)
      cmdSAdd := fun key value => commanding outcome 0 (b.redis.cmdSAdd key value)
      cmdSRem := fun key value => commanding outcome 0 (b.redis.cmdSRem key value)
      cmdSCard := fun key => commanding outcome 0 (b.redis.cmdSCard key)
      getJson := fun key => commanding outcome none (b.redis.getJson key)
      setJsonEx := fun key value ttl => commanding outcome () (b.redis.setJsonEx key value ttl)
      delJson := fun key => commanding outcome () (b.redis.delJson key) }
  sql := b.sql.beside fun a => a
  md5Hex := b.md5Hex
  sha256Hex := b.sha256Hex
  randomBytes n := Action.beside (b.randomBytes n)

end CloudStore.Model
