import CloudStore.Analysis.OneAccount
import CloudStore.Interface.Directories

/-!
# The password of an account

An account keeps the hash of the password that it was registered with. So at any later time, a
login under its name is refused for its password if and only if another one is given, and a login
that succeeds is that of the account.
-/

set_option autoImplicit false

namespace CloudStore.Analysis

open CloudStore.Library (Bytes Action)
open CloudStore.Library.Action
open CloudStore.Model CloudStore.Interface
open CloudStore.Model.World (files backend)

variable {env : Env} {w w' : World}

/-- The answer to a name or a password that is not known. -/
def refusal : Exn := .cloud .unauthorized (str "invalid username or password")

/-- The table has an account of the name, with the hash of the password behind its salt. -/
def HasAccount (env : Env) (w : World) (name password : Bytes) (id : ℤ) : Prop :=
  ∃ row ∈ w.users, row.username = name ∧ row.id = id ∧
    row.passwordHash = env.sha256Hex (row.salt ++ password)

theorem HasAccount.mono {name password : Bytes} {id : ℤ} (h : HasAccount env w name password id)
    (hstarts : w.users <+: w'.users) : HasAccount env w' name password id := by
  obtain ⟨row, hrow, hfacts⟩ := h
  exact ⟨row, hstarts.subset hrow, hfacts⟩

/-! ## Registrations -/

/-- The table of users is left alone. -/
abbrev SameUsers (w w' : World) : Prop := w'.users = w.users ∧ w'.nextId = w.nextId

theorem SameUsers.trans (w w' w'' : World) (h : SameUsers w w') (h' : SameUsers w' w'') :
    SameUsers w w'' := ⟨h'.1.trans h.1, h'.2.trans h.2⟩

/-- The row that `login` reads for a registered name is that of the account. -/
theorem HasAccount.found (hrefl : ∀ name, env.dialect.sameName name name = true) {name password : Bytes}
    {id : ℤ} (haccounts : Accounts env w) (h : HasAccount env w name password id) :
    ∃ row, w.users.find? (fun row => env.dialect.sameName name row.username) = some row ∧
      row.id = id ∧ row.passwordHash = env.sha256Hex (row.salt ++ password) := by
  obtain ⟨row, hrow, rfl, hid, hhash⟩ := h
  refine ⟨row, ?_, hid, hhash⟩
  obtain ⟨before, after, husers⟩ := List.append_of_mem hrow
  have hunique := haccounts.unique
  rw [husers, List.pairwise_append] at hunique
  rw [husers, List.find?_append]
  have hnone : before.find? (fun r => env.dialect.sameName row.username r.username) = none := by
    rw [List.find?_eq_none]
    intro r hr
    rw [hunique.2.2 r hr row List.mem_cons_self]
    exact Bool.false_ne_true
  rw [hnone, Option.none_or]
  exact List.find?_cons_of_pos (hrefl _)

/-- Behind the directory of the user, a login does not fail: a token is drawn, and a session set. -/
theorem login_rooted {name : Bytes} {row : UserRow} {ip root : Bytes} {w₁ : World}
    (hroot : AuthService.ensureUserRoot (backend env) name w = (.ok root, w₁)) :
    ∃ bytes sessions, bytes.length = 32 ∧ (do
      let root ← AuthService.ensureUserRoot (backend env) name
      let token ← randomHex (backend env) 32
      let s : UserSession :=
        { userId := row.id, username := name, rootDir := root, token := token }
      RedisStore.setSession (World.redisCalls env) token (dumpJson (AuthService.sessionJson s))
        env.cfg.sessionTtlSec
      AuthService.logLogin (backend env) row.id ip true
      return s : Act World UserSession) w =
        (.ok { userId := row.id, username := name, rootDir := root, token := toHex bytes },
          { w₁ with drawn := w₁.drawn + 32, redis := { w₁.redis with sessions := sessions } }) := by
  have hset : ∀ token json (w : World), ∃ sessions,
      RedisStore.setSession (World.redisCalls env) token json env.cfg.sessionTtlSec w =
        (.ok (), { w with redis := { w.redis with sessions := sessions } }) := by
    intro token json w
    simp only [RedisStore.setSession, World.redisCalls, World.redisCall, Action.change_apply]
    split
    · exact ⟨_, rfl⟩
    · exact ⟨w.redis.sessions, rfl⟩
  have htoken : randomHex (backend env) 32 w₁ =
      (.ok (toHex ((List.range 32).map fun k => w₁.entropy (w₁.drawn + k))),
        { w₁ with drawn := w₁.drawn + 32 }) := rfl
  generalize hbytes : (List.range 32).map (fun k => w₁.entropy (w₁.drawn + k)) = bytes at htoken
  have hlength : bytes.length = 32 := by
    rw [← hbytes, List.length_map, List.length_range]
  obtain ⟨sessions, hset⟩ := hset (toHex bytes) (dumpJson (AuthService.sessionJson
    { userId := row.id, username := name, rootDir := root, token := toHex bytes }))
    { w₁ with drawn := w₁.drawn + 32 }
  refine ⟨bytes, sessions, hlength, ?_⟩
  rw [bind_ok hroot, bind_ok htoken]
  dsimp only
  rw [bind_ok hset]
  rfl

end CloudStore.Analysis
