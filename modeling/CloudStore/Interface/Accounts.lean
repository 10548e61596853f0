import CloudStore.Interface.Sessions

/-!
# Accounts

The table of users only grows, by rows with new ids and new names, each with the root
directory of its name. The session of a login has the id of the account that the typed name
equals under the collation, and the directory of the name as it was typed.
-/

set_option autoImplicit false

namespace CloudStore.Interface

open CloudStore.Library (Bytes)
open CloudStore.Model
open CloudStore.Model.World (backend)

variable {env : Env} {u : ℤ} {w w' : World}

variable (env) in
/-- What holds of the table of users: root directories are those of the names, ids are
distinct, and no name equals an earlier one. -/
structure Accounts (w : World) : Prop where
  names : ∀ r ∈ w.users, validUsername r.username = true
  roots : ∀ r ∈ w.users, r.rootDir = joinPath env.cfg.usersRoot r.username
  issued : ∀ r ∈ w.users, r.id < w.nextId
  ids : (w.users.map UserRow.id).Nodup
  unique : w.users.Pairwise fun r r' => env.dialect.sameName r'.username r.username = false

/-- A registration adds an account. -/
theorem Accounts.register {r : UserRow} {n : ℤ} (h : Accounts env w) (hr : NewAccount env w r n) :
    Accounts env { w with users := w.users ++ [r], nextId := n } where
  names := by
    intro r' hr'
    cases List.mem_append.mp hr' with
    | inl hold => exact h.names r' hold
    | inr hnew => exact List.mem_singleton.mp hnew ▸ hr.name
  roots := by
    intro r' hr'
    cases List.mem_append.mp hr' with
    | inl hold => exact h.roots r' hold
    | inr hnew => exact List.mem_singleton.mp hnew ▸ hr.root
  issued := by
    intro r' hr'
    have hnext := hr.next
    cases List.mem_append.mp hr' with
    | inl hold =>
        have hlt := h.issued r' hold
        change r'.id < n
        omega
    | inr hnew =>
        have hid := hr.id
        obtain rfl := List.mem_singleton.mp hnew
        change r'.id < n
        omega
  ids := by
    rw [List.map_append, List.nodup_append]
    refine ⟨h.ids, by simp, ?_⟩
    intro i hi j hj heq
    obtain ⟨r', hr', rfl⟩ := List.mem_map.mp hi
    have hlt := h.issued r' hr'
    have hid := hr.id
    simp only [List.map_cons, List.map_nil, List.mem_singleton] at hj
    omega
  unique := by
    rw [List.pairwise_append]
    refine ⟨h.unique, List.pairwise_singleton _ _, ?_⟩
    intro r₁ h₁ r₂ h₂
    obtain rfl := List.mem_singleton.mp h₂
    exact hr.free r₁ h₁

/-- No two accounts have one name. -/
theorem Accounts.distinct (h : Accounts env w) (hrefl : ∀ name, env.dialect.sameName name name = true) :
    (w.users.map UserRow.username).Nodup := by
  rw [List.Nodup, List.pairwise_map]
  refine h.unique.imp fun {r r'} hfalse heq => ?_
  rw [heq, hrefl] at hfalse
  exact absurd hfalse (by simp)

theorem Accounts.of_same (h : Accounts env w) (husers : w'.users = w.users)
    (hnext : w'.nextId = w.nextId) : Accounts env w' where
  names := by rw [husers]; exact h.names
  roots := by rw [husers]; exact h.roots
  issued := by rw [husers, hnext]; exact h.issued
  ids := by rw [husers]; exact h.ids
  unique := by rw [husers]; exact h.unique

/-- The accounts of `w` are accounts of `w'`, and the table is still in order. -/
abbrev Enrolled (env : Env) (w w' : World) : Prop :=
  Accounts env w → Accounts env w' ∧ w.users <+: w'.users

theorem Enrolled.of_same (husers : w'.users = w.users) (hnext : w'.nextId = w.nextId) :
    Enrolled env w w' :=
  fun h => ⟨h.of_same husers hnext, by rw [husers]⟩

/-- Every operation of a user leaves the accounts alone. -/
theorem uploadOps_users {free : Prop} (h : UploadOps env free u w w') :
    w'.users = w.users ∧ w'.nextId = w.nextId := by
  induction h with
  | refl => exact ⟨rfl, rfl⟩
  | tail _ h ih =>
      rw [← ih.1, ← ih.2]
      cases h with
      | op h =>
          cases h with
          | idle h => cases h <;> exact ⟨rfl, rfl⟩
          | _ => exact ⟨rfl, rfl⟩
      | replace => exact ⟨rfl, rfl⟩

/-- Operations on accounts add accounts. -/
theorem accountOps_enrolled (h : AccountOps env w w') : Enrolled env w w' := by
  intro hw
  induction h with
  | refl => exact ⟨hw, List.prefix_refl _⟩
  | tail _ h ih =>
      obtain ⟨haccounts, hprefix⟩ := ih
      cases h with
      | user r n h => exact ⟨haccounts.register h, hprefix.trans (List.prefix_append _ _)⟩
      | draw n => exact ⟨haccounts.of_same rfl rfl, hprefix⟩
      | tree h _ => exact ⟨haccounts.of_same rfl rfl, hprefix⟩
      | login s hcolon hzero h => exact ⟨haccounts.of_same rfl rfl, hprefix⟩
      | logout k => exact ⟨haccounts.of_same rfl rfl, hprefix⟩

theorem call_enrolled {c : Connection} {call : Call} (hw : Sound env w) (hc : ConnOk env w c)
    (hissued : Issued env w c call) : Enrolled env w (runCall env w c call).1 := by
  cases call_operates hw hc hissued with
  | inl h =>
      obtain ⟨husers, hnext⟩ := uploadOps_users h.2
      exact Enrolled.of_same husers hnext
  | inr h => exact accountOps_enrolled h

/-! ## Runs -/

variable (env) in
/-- The table of users is in order, and has the accounts of every earlier call. -/
structure Registry (tr : List TraceEntry) (s : ServerState) : Prop where
  accounts : Accounts env s.world
  kept : ∀ id r, .call id r ∈ tr → r.sys.users <+: s.world.users

theorem expireKey_users (w : World) (key : Bytes) :
    (Server.expireKey w key).users = w.users ∧ (Server.expireKey w key).nextId = w.nextId := by
  unfold Server.expireKey
  dsimp only
  split <;> exact ⟨rfl, rfl⟩

theorem registry_invariant : TraceInvariant env (Registry env) where
  start := by
    intro s hs
    refine ⟨⟨?_, ?_, ?_, ?_, ?_⟩, by simp⟩ <;> simp [hs.1.users]
  opened := by
    intro tr s id ip h hnone
    refine ⟨h.accounts, fun id' r hr => h.kept id' r ?_⟩
    simpa using hr
  closed := fun tr s id h => ⟨h.accounts, h.kept⟩
  expired := by
    intro tr s key h
    obtain ⟨husers, hnext⟩ := expireKey_users s.world key
    refine ⟨h.accounts.of_same husers hnext, fun id r hr => ?_⟩
    change r.sys.users <+: (Server.expireKey s.world key).users
    rw [husers]
    exact h.kept id r hr
  disk := fun tr s d h => ⟨h.accounts.of_same rfl rfl, h.kept⟩
  call := by
    intro tr s id c call hsafe h hid hissued
    obtain ⟨haccounts, hprefix⟩ := call_enrolled hsafe.world (hsafe.conns id c hid) hissued h.accounts
    refine ⟨haccounts, fun id' r hr => ?_⟩
    cases List.mem_cons.mp hr with
    | inl heq =>
        obtain ⟨-, rfl⟩ := TraceEntry.call.inj heq
        exact hprefix
    | inr hold => exact (h.kept id' r hold).trans hprefix

/-! ## Logins -/

variable (env) in
/-- A login with a password, of the account that the typed name equals. -/
structure TypedLogin (r : CallRecord World) (s : UserSession) (username : Bytes) (row : UserRow) :
    Prop where
  login : ∃ password ip w', r.call = .login username password ip ∧
    AuthService.login (backend env) username password ip r.sys = (.ok s, w')
  found : r.sys.users.find? (fun row => env.dialect.sameName username row.username) = some row
  same : env.dialect.sameName username row.username = true
  userId : s.userId = row.id
  rootDir : s.rootDir = joinPath env.cfg.usersRoot username

theorem typedLogin {c : Connection} {username password ip : Bytes} {s : UserSession}
    (h : AuthService.login (backend env) username password ip w = (.ok s, w')) :
    ∃ row, TypedLogin env ⟨w, c, .login username password ip⟩ s username row := by
  obtain ⟨row, bytes, w₁, hfind, -, hsame, -, hs, -⟩ := login_ok h
  exact ⟨row, ⟨password, ip, w', rfl, h⟩, hfind, hsame, by rw [hs], by rw [hs]⟩

theorem TypedLogin.row_mem {r : CallRecord World} {s : UserSession} {username : Bytes} {row : UserRow}
    (h : TypedLogin env r s username row) : row ∈ r.sys.users := List.mem_of_find?_eq_some h.found

/-- A stored session is that of a login with a password. -/
theorem Stored.typed {tr : List TraceEntry} {s : UserSession} (h : Stored env tr s) :
    ∃ id r username row, .call id r ∈ tr ∧ TypedLogin env r s username row := by
  induction h with
  | login h =>
      obtain ⟨row, htyped⟩ := typedLogin h
      exact ⟨_, _, _, row, List.mem_cons_self .., htyped⟩
  | later e _ _ ih =>
      obtain ⟨id, r, username, row, hr, htyped⟩ := ih
      exact ⟨id, r, username, row, List.mem_cons_of_mem _ hr, htyped⟩

/-- A session that a connection holds has the user and the root of a login with a password. -/
theorem Holds.typed {id : ℕ} {tr : List TraceEntry} {s : UserSession} (h : Holds env id tr s) :
    ∃ id' r s' username row, .call id' r ∈ tr ∧ TypedLogin env r s' username row ∧
      s.userId = s'.userId ∧ s.rootDir = s'.rootDir := by
  induction h with
  | password h hrow hname hverify hid =>
      obtain ⟨row, htyped⟩ := typedLogin h
      exact ⟨_, _, _, _, row, List.mem_cons_self .., htyped, rfl, rfl⟩
  | token h hstored htoken =>
      obtain ⟨id', r, username, row, hr, htyped⟩ := hstored.typed
      exact ⟨id', r, _, username, row, List.mem_cons_of_mem _ hr, htyped, rfl, rfl⟩
  | later e _ _ _ ih =>
      obtain ⟨id', r, s', username, row, hr, h⟩ := ih
      exact ⟨id', r, s', username, row, List.mem_cons_of_mem _ hr, h⟩

/-- **Every login of a run**, with a password or a token, goes back to one with a password. -/
theorem run_logins {ok : ServerState → Event → Prop}
    {hist : List (Library.Machine.Record ServerState Event Output)} {s : ServerState}
    (run : (Server.machine env).Run (Server.Start env) ok hist s) {id : ℕ} {r : CallRecord World}
    (hr : .call id r ∈ trace hist) {session : UserSession} (hlogin : LogsIn env r session) :
    ∃ id' r' s' username row, .call id' r' ∈ trace hist ∧ TypedLogin env r' s' username row ∧
      session.userId = s'.userId ∧ session.rootDir = s'.rootDir := by
  obtain ⟨newer, older, htrace⟩ := List.append_of_mem hr
  obtain ⟨s₁, hsafe, hentitled, hworld, hid, hissued⟩ :=
    run_calls entitled_invariant run newer id r older htrace
  have hafter := entitled_invariant.call older s₁ id r.conn r.call hsafe hentitled hid
    (by rw [hworld]; exact hissued)
  obtain ⟨w, c, call⟩ := r
  dsimp only at hworld
  subst hworld
  have hconn := runCall_login hlogin
  have hholds := hafter.holds id (loggedIn session c)
    (by rw [← hconn]; exact Function.update_self ..) rfl
  obtain ⟨id', r', s', username, row, hmem, htyped⟩ := hholds.typed
  refine ⟨id', r', s', username, row, ?_, htyped⟩
  rw [htrace]
  exact List.mem_append_right _ hmem

end CloudStore.Interface
