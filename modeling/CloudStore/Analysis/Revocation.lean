import CloudStore.Interface.Playback
import CloudStore.Interface.Sessions

/-!
# What a logout revokes

A logout deletes the session of a token in Redis, so the token cannot be presented any
more. A connection that presented it before keeps the session that it read then.
-/

set_option autoImplicit false

namespace CloudStore.Analysis

open CloudStore.Library (Bytes)
open CloudStore.Model
open CloudStore.Model.World (backend)
open CloudStore.Interface

/-- A reply with code 0, or a chunk. -/
def Succeeded : Reply → Bool
  | .json (.obj members) =>
    match members.lookup (str "code") with
    | some (.int i) => i = 0
    | _ => false
  | .json _ => false
  | .chunk .. => true

section Claim

variable (env : Env) (r : Library.Machine.Record ServerState Event Output) (t : Bytes)

/-- The event logs the token out. -/
def LogsOut : Prop := ∃ c ∈ r.output.calls, c.call = .logout t

/-- The event is a login that issues the token. -/
def Issues : Prop :=
  ∃ c ∈ r.output.calls, ∃ username password ip s w', c.call = .login username password ip ∧
    AuthService.login (backend env) username password ip c.sys = (.ok s, w') ∧ s.token = t

/-- The event is a request under a session with the token, and it succeeds. -/
def Serves : Prop :=
  ∃ id f c, r.event = .frame id f ∧ r.before.conns id = some c ∧ c.authed = true ∧
    c.session.token = t ∧ ∃ reply ∈ r.output.sent, Succeeded reply = true

/-- After a logout of a token that no later login issues again, no request under it succeeds. -/
def LogoutRevokes : Prop :=
  ∀ hist s, (Server.machine env).Run (Server.Start env) (fun _ _ => True) hist s →
    ∀ newer r older t, hist = newer ++ r :: older → LogsOut r t → (∀ r ∈ newer, ¬ Issues env r t) →
      ∀ r ∈ newer, ¬ Serves r t

end Claim

variable {env : Env}

/-- No login among the entries issues the token. -/
def Unissued (env : Env) (t : Bytes) (tr : List TraceEntry) : Prop :=
  ∀ id r, .call id r ∈ tr → ∀ username password ip s w', r.call = .login username password ip →
    AuthService.login (backend env) username password ip r.sys = (.ok s, w') →
      s.token ≠ env.dialect.arg t

/-- **Behind a logout, its token is not that of a stored session.** Induction on the entries since
the logout. -/
theorem stored_ne {newer older : List TraceEntry} {id : ℕ} {r : CallRecord World} {t : Bytes}
    (hlogout : r.call = .logout t) (hnew : Unissued env t newer) {s : UserSession}
    (h : Stored env (newer ++ .call id r :: older) s) : s.token ≠ env.dialect.arg t := by
  induction newer with
  | nil =>
      cases h with
      | login h => simp at hlogout
      | later _ h hkept => exact (hkept id r t rfl hlogout).symm
  | cons e newer ih =>
      have hrest : Unissued env t newer := fun id r hr => hnew id r (List.mem_cons_of_mem _ hr)
      cases h with
      | login h => exact hnew _ _ List.mem_cons_self _ _ _ _ _ rfl h
      | later _ h hkept => exact ih hrest h

/-- **A session under the token of a logout was held before the logout**, on another connection,
and this connection has been neither opened anew nor logged out since. -/
theorem holds_before {newer older : List TraceEntry} {id₀ id : ℕ} {r : CallRecord World} {t : Bytes}
    (hlogout : r.call = .logout t) (hnew : Unissued env t newer) {s : UserSession}
    (hs : env.dialect.arg s.token = env.dialect.arg t)
    (h : Holds env id (newer ++ .call id₀ r :: older) s) :
    id ≠ id₀ ∧ Holds env id older s ∧ .opened id ∉ newer ∧
      ∀ r' token, .call id r' ∈ newer → r'.call ≠ .logout token := by
  induction newer with
  | nil =>
      cases h with
      | password => simp at hlogout
      | token => simp at hlogout
      | later _ h hopened hkept =>
          refine ⟨?_, h, by simp, by simp⟩
          rintro rfl
          exact hkept r t rfl hlogout
  | cons e newer ih =>
      have hrest : Unissued env t newer := fun id r hr => hnew id r (List.mem_cons_of_mem _ hr)
      cases h with
      | password h hrow hname hverify hid =>
          -- the token of a login is what Redis receives of it
          have htoken : env.dialect.arg s.token = s.token := by
            obtain ⟨row, bytes, w₁, -, -, -, -, rfl, -, -⟩ := login_ok h
            exact arg_of_zero_not_mem _ (toHex_clean bytes).2
          exact absurd (htoken.symm.trans hs) (hnew _ _ List.mem_cons_self _ _ _ _ _ rfl h)
      | token h hstored htoken => exact absurd (htoken.trans hs) (stored_ne hlogout hrest hstored)
      | later _ h hopened hkept =>
          obtain ⟨hne, hbefore, hunopened, hkept'⟩ := ih hrest h
          refine ⟨hne, hbefore, ?_, ?_⟩
          · simp only [List.mem_cons, not_or]
            exact ⟨hopened.symm, hunopened⟩
          · intro r' token hr'
            rcases List.mem_cons.mp hr' with heq | hr'
            · exact hkept r' token heq.symm
            · exact hkept' r' token hr'

/-- **What a logout revokes.** After a logout of a token that no later login issues again, the
token is not accepted any more, and a call under a session with this token is made on another
connection, which has held the session since before the logout. -/
theorem logout_revokes {ok : ServerState → Event → Prop}
    {hist : List (Library.Machine.Record ServerState Event Output)} {s : ServerState}
    (run : (Server.machine env).Run (Server.Start env) ok hist s) :
    ∀ newer id₀ r₀ older t, trace hist = newer ++ .call id₀ r₀ :: older → r₀.call = .logout t →
      Unissued env t newer → ∀ mid id r rest, newer = mid ++ .call id r :: rest →
        (∀ t', r.call = .checkToken t' → env.dialect.arg t' = env.dialect.arg t →
          ∃ e w', AuthService.checkToken (backend env) t' r.sys = (.error e, w')) ∧
        (Gated r.call = true → env.dialect.arg r.conn.session.token = env.dialect.arg t →
          id ≠ id₀ ∧ Holds env id older r.conn.session ∧ .opened id ∉ rest ∧
            ∀ r' token, .call id r' ∈ rest → r'.call ≠ .logout token) := by
  rintro newer id₀ r₀ older t htrace hlogout hnew mid id r rest rfl
  have hrest : Unissued env t rest := fun id' r' hr' =>
    hnew id' r' (List.mem_append_right _ (List.mem_cons_of_mem _ hr'))
  rw [List.append_assoc, List.cons_append] at htrace
  obtain ⟨s', hsafe, hentitled, hworld, hid, hissued⟩ := run_calls entitled_invariant run mid id r _
    htrace
  constructor
  · intro t' _ harg
    rcases hcheck : AuthService.checkToken (backend env) t' r.sys with ⟨e | sess, w'⟩
    · exact ⟨e, w', rfl⟩
    · obtain ⟨stored, hread, htoken, -⟩ := checkToken_ok (hworld ▸ hsafe.world) hcheck
      obtain ⟨stored', hraw, -, hstored⟩ := hentitled.stored _ _ (hworld ▸ hread)
      obtain rfl := sessionJson_injective (Except.ok.inj hraw)
      exact absurd (htoken.trans harg) (stored_ne hlogout hrest hstored)
  · intro hgated harg
    have hauthed := gated_authed hissued hgated
    exact holds_before hlogout hrest harg (hentitled.holds id r.conn hid hauthed)

/-! ## A connection that presented the token before -/

/-- The token of the first login of the sample. -/
def sampleToken : Bytes := str "101112131415161718191a1b1c1d1e1f202122232425262728292a2b2c2d2e2f"

/-- A request that presents a token. -/
def presenting (cmd : String) (data : List (String × Json)) (token : Bytes) : Frame :=
  .json (.ok (.obj [(str "cmd", .str (str cmd)), (str "data", .obj (data.map fun d => (str d.1, d.2))),
    (str "seq", .int 1), (str "token", .str token)]))

/-- A user looks at the root on a second connection, logs out on the first, and looks again on the
second. -/
def shared : List Event :=
  Sample.login ++ [.connect 1 [], .frame 1 (presenting "stat" [] sampleToken),
    .frame 0 (request "logout" []), .frame 1 (request "stat" [])]

/-- What an entry of a trace shows. -/
def shown : TraceEntry → Option (ℕ × Call × Bytes)
  | .call id r => some (id, r.call, r.conn.session.token)
  | .opened _ => none

theorem shown_eq {e : TraceEntry} {id : ℕ} {call : Call} {token : Bytes}
    (h : shown e = some (id, call, token)) :
    ∃ r, e = .call id r ∧ r.call = call ∧ r.conn.session.token = token := by
  cases e with
  | opened id' => simp [shown] at h
  | call id' r =>
      simp only [shown, Option.some.injEq, Prod.mk.injEq] at h
      exact ⟨r, by rw [h.1], h.2⟩

/-- The second look is made by a connection that has held the session since before the logout. -/
theorem logout_revokes_shared : ∃ r r' r₀ older,
    trace (playback Sample.env 4096 Sample.entropy shared).1 =
        .call 1 r :: .call 1 r' :: .call 0 r₀ :: older ∧
      r₀.call = .logout sampleToken ∧ r.conn.session.token = sampleToken ∧
      Holds Sample.env 1 older r.conn.session := by
  have hrun := @playback_run Sample.env (fun _ _ => True) 4096 Sample.entropy shared (by decide)
  have hshown : ((trace (playback Sample.env 4096 Sample.entropy shared).1).take 3).map shown = [
      some (1, .statPath (str "/data/users/alice"), sampleToken),
      some (1, .lookupFile 1 (str "/"), sampleToken), some (0, .logout sampleToken, sampleToken)] := by
    decide +kernel
  generalize htrace : trace (playback Sample.env 4096 Sample.entropy shared).1 = tr at hshown
  rcases tr with _ | ⟨e, _ | ⟨e', _ | ⟨e₀, older⟩⟩⟩ <;>
    simp only [List.take_nil, List.take_succ_cons, List.take_zero, List.map_nil, List.map_cons,
      List.cons.injEq, reduceCtorEq, and_true, and_false] at hshown
  obtain ⟨r, rfl, hcall, htoken⟩ := shown_eq hshown.1
  obtain ⟨r', rfl, hcall', -⟩ := shown_eq hshown.2.1
  obtain ⟨r₀, rfl, hlogout, -⟩ := shown_eq hshown.2.2
  have hnew : Unissued Sample.env sampleToken [.call 1 r, .call 1 r'] := by
    intro id r₁ hr₁ username password ip s w' hlogin
    rcases List.mem_pair.mp hr₁ with heq | heq
    · rw [(TraceEntry.call.inj heq).2, hcall] at hlogin
      exact absurd hlogin (by simp)
    · rw [(TraceEntry.call.inj heq).2, hcall'] at hlogin
      exact absurd hlogin (by simp)
  have hrevokes := logout_revokes hrun [.call 1 r, .call 1 r'] 0 r₀ older sampleToken htrace
    hlogout hnew [] 1 r [.call 1 r'] rfl
  have hholds := hrevokes.2 (by rw [hcall]; rfl) (by rw [htoken])
  exact ⟨r, r', r₀, older, rfl, hlogout, htoken, hholds.2.1⟩

/-- The second connection goes on under the token. -/
theorem shared_serves : ¬ LogoutRevokes Sample.env := by
  intro h
  let leave := (Server.machine Sample.env).record (Sample.after (shared.take 5))
    (.frame 0 (request "logout" []))
  let look := (Server.machine Sample.env).record (Sample.after (shared.take 6))
    (.frame 1 (request "stat" []))
  have hfacts : leave.output.calls.map CallRecord.call = [.logout sampleToken] ∧
      look.output.calls.map CallRecord.call =
        [.statPath (str "/data/users/alice"), .lookupFile 1 (str "/")] ∧
      (∃ reply ∈ look.output.sent, Succeeded reply = true) ∧
      (look.before.conns 1).map (fun c => (c.authed, c.session.token)) = some (true, sampleToken) := by
    decide +kernel
  obtain ⟨hleave, hlook, hreply, hconn⟩ := hfacts
  refine h _ _ (@playback_run _ _ 4096 Sample.entropy shared (by decide))
    [look] leave (playback Sample.env 4096 Sample.entropy (shared.take 5)).1 sampleToken rfl ?_ ?_
    look (by simp) ?_
  · have hmem : Call.logout sampleToken ∈ leave.output.calls.map CallRecord.call := by simp [hleave]
    obtain ⟨c, hc, hcall⟩ := List.mem_map.mp hmem
    exact ⟨c, hc, hcall⟩
  · intro r hr
    rw [List.mem_singleton.mp hr]
    rintro ⟨c, hc, username, password, ip, s, w', hcall, -⟩
    have hmem := List.mem_map_of_mem (f := CallRecord.call) hc
    rw [hlook, hcall] at hmem
    simp at hmem
  · obtain ⟨c, hc, hauthed⟩ := Option.map_eq_some_iff.mp hconn
    simp only [Prod.mk.injEq] at hauthed
    exact ⟨1, _, c, rfl, hc, hauthed.1, hauthed.2, hreply⟩

end CloudStore.Analysis
