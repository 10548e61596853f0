import CloudStore.Interface.Accounts
import CloudStore.Interface.Playback
import CloudStore.Model.Collation

/-!
# One account, one root

`login` reads the account under a loose equality of names and then builds the root
directory from the name as it was typed. So the sessions of an account have its stored
root, and those of different accounts separate ones, if and only if every login types the
name as it was registered.
-/

set_option autoImplicit false

namespace CloudStore.Analysis

open CloudStore.Library (Bytes)
open CloudStore.Model
open CloudStore.Interface

/-- The directory `a` is the directory `b` or lies inside it. -/
def Inside (a b : Bytes) : Prop := a = b ∨ b ++ str "/" <+: a

/-- The sessions of the logins of a trace: those of one user have the root that is stored
for the account, and those of two users have roots neither of which lies inside the other. -/
structure OneRoot (env : Env) (tr : List TraceEntry) (w : World) : Prop where
  stored : ∀ id r s, .call id r ∈ tr → LogsIn env r s →
    ∃ row ∈ w.users, row.id = s.userId ∧ s.rootDir = row.rootDir
  same : ∀ id r s id' r' s', .call id r ∈ tr → LogsIn env r s → .call id' r' ∈ tr →
    LogsIn env r' s' → s.userId = s'.userId → s.rootDir = s'.rootDir
  apart : ∀ id r s id' r' s', .call id r ∈ tr → LogsIn env r s → .call id' r' ∈ tr →
    LogsIn env r' s' → s.userId ≠ s'.userId → ¬ Inside s.rootDir s'.rootDir

/-- A login with another spelling of the name under which the account was registered. -/
def Respells (env : Env) (r : CallRecord World) : Prop :=
  match r.call with
  | .login username _ _ =>
    ∃ row ∈ r.sys.users.find? fun row => env.dialect.sameName username row.username,
      username ≠ row.username
  | _ => False

variable {env : Env}

theorem Respells.elim {r : CallRecord World} (h : Respells env r) :
    ∃ username password ip row, r.call = .login username password ip ∧
      r.sys.users.find? (fun row => env.dialect.sameName username row.username) = some row ∧
      username ≠ row.username := by
  obtain ⟨w, c, call⟩ := r
  cases call with
  | login username password ip =>
      obtain ⟨row, hfind, hne⟩ := h
      exact ⟨username, password, ip, row, rfl, hfind, hne⟩
  | _ => exact False.elim h

/-! ## Root directories -/

theorem usersRoot_last : env.cfg.usersRoot.getLast? = some 115 := by
  have htail : env.cfg.usersRoot = env.cfg.storageRoot ++ str "/user" ++ [115] := by
    rw [Config.usersRoot, List.append_assoc]
    rfl
  rw [htail, List.getLast?_concat]

/-- The root directory of a name without slashes. -/
theorem root_text {name : Bytes} (hname : 47 ∉ name) :
    joinPath env.cfg.usersRoot name =
      if name = [] then env.cfg.usersRoot else env.cfg.usersRoot ++ str "/" ++ name := by
  have hne : env.cfg.usersRoot ≠ [] := by
    intro h
    have hlast := @usersRoot_last env
    simp [h] at hlast
  have hhead : name.head? ≠ some 47 := by
    intro h
    exact hname (List.mem_of_mem_head? h)
  have hlast : env.cfg.usersRoot.getLast? ≠ some 47 := by
    rw [usersRoot_last]
    decide
  unfold joinPath
  by_cases hnil : name = []
  · simp [hne, hnil]
  · rw [if_neg hne, if_neg hnil, if_neg hnil, if_neg (fun h => hlast h.1), if_pos ⟨hlast, hhead⟩]

/-- The root directory of a name tells the name. -/
theorem root_injective {name name' : Bytes} (h : 47 ∉ name) (h' : 47 ∉ name') (hne : name' ≠ [])
    (heq : joinPath env.cfg.usersRoot name = joinPath env.cfg.usersRoot name') : name = name' := by
  rw [root_text h, root_text h', if_neg hne] at heq
  by_cases hnil : name = []
  · rw [if_pos hnil, List.append_assoc] at heq
    have hlen := congrArg List.length heq
    rw [List.length_append, List.length_append] at hlen
    have hslash : (str "/").length = 1 := rfl
    omega
  · rw [if_neg hnil] at heq
    exact List.append_cancel_left heq

/-- The root directories of two names are apart. -/
theorem root_apart {name name' : Bytes} (h : 47 ∉ name) (h' : 47 ∉ name') (hne : name ≠ [])
    (hne' : name' ≠ []) (hdiff : name ≠ name') :
    ¬ Inside (joinPath env.cfg.usersRoot name) (joinPath env.cfg.usersRoot name') := by
  rintro (heq | hprefix)
  · exact hdiff (root_injective h h' hne' heq)
  · rw [root_text h, root_text h', if_neg hne, if_neg hne', List.append_assoc,
      List.prefix_append_right_inj] at hprefix
    apply h
    exact hprefix.subset (List.mem_append_right _ (by decide))

/-! ## Runs -/

section

variable {ok : ServerState → Event → Prop}
  {hist : List (Library.Machine.Record ServerState Event Output)} {s : ServerState}

/-- The account of a login is there to the end. -/
theorem typed_row (run : (Server.machine env).Run (Server.Start env) ok hist s) {id : ℕ}
    {r : CallRecord World} (hr : .call id r ∈ trace hist) {session : UserSession}
    {username : Bytes} {row : UserRow} (h : TypedLogin env r session username row) :
    row ∈ s.world.users :=
  ((run_trace registry_invariant run).kept id r hr).subset h.row_mem

theorem valid_name {name : Bytes} (h : validUsername name = true) : 47 ∉ name ∧ name ≠ [] := by
  obtain ⟨hslash, -, -, hlen⟩ := Dialect.validUsername_plain h
  refine ⟨hslash, ?_⟩
  rintro rfl
  simp at hlen

/-- If every login types the registered name, every session has the root of its account. -/
theorem typed_root (run : (Server.machine env).Run (Server.Start env) ok hist s)
    (hexactly : ∀ id r, .call id r ∈ trace hist → (∃ session, LogsIn env r session) →
      ¬ Respells env r) {id : ℕ} {r : CallRecord World} (hr : .call id r ∈ trace hist)
    {session : UserSession} (hlogin : LogsIn env r session) :
    ∃ row ∈ s.world.users, row.id = session.userId ∧ session.rootDir = row.rootDir := by
  obtain ⟨id', r', s', username, row, hr', htyped, huser, hroot⟩ := run_logins run hr hlogin
  have hrow := typed_row run hr' htyped
  obtain ⟨password, ip, w', hcall, hok⟩ := htyped.login
  have hname : username = row.username := by
    by_contra hne
    apply hexactly id' r' hr' ⟨s', Or.inl ⟨_, _, _, w', hcall, hok⟩⟩
    rw [Respells, hcall]
    exact ⟨row, htyped.found, hne⟩
  refine ⟨row, hrow, by rw [huser, htyped.userId], ?_⟩
  rw [hroot, htyped.rootDir, (run_trace registry_invariant run).accounts.roots row hrow, hname]

/-- **One account, one root.** A run keeps to it if and only if every login that succeeds
types the name under which its account was registered. -/
theorem one_root (hrefl : ∀ name, env.dialect.sameName name name = true)
    (run : (Server.machine env).Run (Server.Start env) ok hist s) :
    OneRoot env (trace hist) s.world ↔
      ∀ id r, .call id r ∈ trace hist → (∃ session, LogsIn env r session) → ¬ Respells env r := by
  have haccounts := (run_trace registry_invariant run).accounts
  have hids : ∀ row ∈ s.world.users, ∀ row' ∈ s.world.users, row.id = row'.id → row = row' :=
    fun row hrow row' hrow' heq => List.inj_on_of_nodup_map haccounts.ids hrow hrow' heq
  constructor
  · rintro h id r hr ⟨session, hlogin⟩ hrespells
    obtain ⟨username, password, ip, row, hcall, hfind, hne⟩ := hrespells.elim
    have hok : ∃ w', AuthService.login (World.backend env) username password ip r.sys =
        (.ok session, w') := by
      rcases hlogin with ⟨_, _, _, w', hcall', hok⟩ | ⟨_, _, hcall', -⟩
      · rw [hcall, Call.login.injEq] at hcall'
        obtain ⟨rfl, rfl, rfl⟩ := hcall'
        exact ⟨w', hok⟩
      · rw [hcall] at hcall'
        exact absurd hcall' (by simp)
    obtain ⟨w', hok⟩ := hok
    obtain ⟨w, c, call⟩ := r
    dsimp only at hcall hfind hok
    subst hcall
    obtain ⟨row', htyped⟩ := @typedLogin env w w' c _ _ _ _ hok
    obtain rfl : row = row' := Option.some.inj (hfind.symm.trans htyped.found)
    have hrow := typed_row run hr htyped
    obtain ⟨row₁, hrow₁, hid, hroot⟩ := h.stored id _ session hr hlogin
    obtain rfl : row₁ = row := hids row₁ hrow₁ row hrow (hid.trans htyped.userId)
    have hvalid := haccounts.names row₁ hrow
    rw [htyped.rootDir, haccounts.roots row₁ hrow] at hroot
    have hplain := env.dialect.sameName_plain _ _ htyped.same hvalid
    exact hne (root_injective hplain.2.1 (valid_name hvalid).1 (valid_name hvalid).2 hroot)
  · intro hexactly
    refine ⟨fun id r session hr hlogin => typed_root run hexactly hr hlogin, ?_, ?_⟩
    · intro id r s₁ id' r' s₂ hr hlogin hr' hlogin' huser
      obtain ⟨row, hrow, hid, hroot⟩ := typed_root run hexactly hr hlogin
      obtain ⟨row', hrow', hid', hroot'⟩ := typed_root run hexactly hr' hlogin'
      obtain rfl := hids row hrow row' hrow' (by rw [hid, hid', huser])
      rw [hroot, hroot']
    · intro id r s₁ id' r' s₂ hr hlogin hr' hlogin' huser
      obtain ⟨row, hrow, hid, hroot⟩ := typed_root run hexactly hr hlogin
      obtain ⟨row', hrow', hid', hroot'⟩ := typed_root run hexactly hr' hlogin'
      have hvalid := valid_name (haccounts.names row hrow)
      have hvalid' := valid_name (haccounts.names row' hrow')
      rw [hroot, hroot', haccounts.roots row hrow, haccounts.roots row' hrow']
      apply root_apart hvalid.1 hvalid'.1 hvalid.2 hvalid'.2
      -- two accounts of one name would equal each other
      intro hname
      obtain rfl := List.inj_on_of_nodup_map (haccounts.distinct hrefl) hrow hrow' hname
      exact huser (hid.symm.trans hid')

end

/-! ## Spellings -/

/-- The sample environment under the shipped schema. -/
def shippedEnv : Env := { Sample.env with dialect := Dialect.shipped }

/-- Alice registers and logs in as `name`. -/
def loginAs (name : String) : List Event :=
  [.connect 0 [],
    .frame 0 (request "register"
      [("username", .str (str "alice")), ("password", .str (str "secret"))]),
    .frame 0 (request "login" [("username", .str (str name)), ("password", .str (str "secret"))])]

/-- The history and the state that these events lead to. -/
abbrev played (name : String) : List (Library.Machine.Record ServerState Event Output) × ServerState :=
  playback shippedEnv 4096 Sample.entropy (loginAs name)

theorem played_run (name : String) : (Server.machine shippedEnv).Run (Server.Start shippedEnv)
    (fun _ _ => True) (played name).1 (played name).2 :=
  playback_run (Library.Machine.Allows.of_forall fun _ _ => trivial)

theorem shipped_refl (name : Bytes) : shippedEnv.dialect.sameName name name = true := by
  simp [shippedEnv, Dialect.shipped]

/-- A login with another spelling, by what the record holds. -/
def respelled (r : CallRecord World) : Bool :=
  match r.call with
  | .login username _ _ =>
    (r.sys.users.find? fun row => shippedEnv.dialect.sameName username row.username).any
      fun row => username != row.username
  | _ => false

/-- A login whose session has a root that is not among those stored. -/
def misplaced (users : List UserRow) (r : CallRecord World) : Bool :=
  match r.call with
  | .login username password ip =>
    match (AuthService.login (World.backend shippedEnv) username password ip r.sys).1 with
    | .ok s => users.all fun row => row.rootDir != s.rootDir
    | .error _ => false
  | _ => false

/-- An entry is a call of a kind. -/
def isCall (p : CallRecord World → Bool) : TraceEntry → Bool
  | .call _ r => p r
  | .opened _ => false

/-- The name is typed as it was registered. -/
theorem one_root_exact : OneRoot shippedEnv (trace (played "alice").1) (played "alice").2.world := by
  have hfacts : ∀ e ∈ trace (played "alice").1, isCall respelled e = false := by decide +kernel
  refine (one_root shipped_refl (played_run "alice")).mpr fun id r hr _ hrespells => ?_
  obtain ⟨username, password, ip, row, hcall, hfind, hne⟩ := hrespells.elim
  have hfalse := hfacts _ hr
  simp [isCall, respelled, hcall, hfind, hne] at hfalse

/-- The name is typed with a capital letter: the session has a directory of its own. -/
theorem one_root_capital :
    ¬ OneRoot shippedEnv (trace (played "Alice").1) (played "Alice").2.world := by
  have hfacts : ∃ e ∈ trace (played "Alice").1,
      isCall (misplaced (played "Alice").2.world.users) e = true := by
    decide +kernel
  generalize (played "Alice").1 = hist at hfacts
  generalize (played "Alice").2 = s at hfacts
  obtain ⟨e, he, hmis⟩ := hfacts
  intro h
  cases e with
  | opened id => simp [isCall] at hmis
  | call id r =>
      obtain ⟨w, c, call⟩ := r
      cases call with
      | login username password ip =>
          simp only [isCall, misplaced] at hmis
          rcases hrun : AuthService.login (World.backend shippedEnv) username password ip w with
            ⟨e | session, w'⟩
          · simp [hrun] at hmis
          · obtain ⟨row, hrow, -, hroot⟩ := h.stored id _ session he
              (Or.inl ⟨username, password, ip, w', rfl, hrun⟩)
            simp only [hrun, List.all_eq_true, bne_iff_ne, ne_eq] at hmis
            exact hmis row hrow hroot.symm
      | _ => simp [isCall, misplaced] at hmis

end CloudStore.Analysis
