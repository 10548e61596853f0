import CloudStore.Interface.ServedRequests
import CloudStore.Model.Link

/-!
# A client that is linked to the server

The client's requests and chunks over a connection to the server that may break down: a frame is
delivered, and then the server handles it, or it is lost, and then all that follow are lost too.
-/

set_option autoImplicit false

namespace CloudStore.Interface

open CloudStore.Library (Bytes Action)
open CloudStore.Library.Action
open CloudStore.Model
open CloudStore.Model.CloudClient (requestRoot)
open CloudStore.Model.World (backend)

/-- The calls of a client of the server, on a machine of its own. -/
abbrev linked (env : Env) (limit : Option ℕ) (rounds : ℕ) : ClientCalls (Link World Desk) :=
  Link.cutCalls (backend env) (fun _ w => w) limit (Desk.bounded env.md5Hex rounds)

/-- The connection has broken down. -/
def Down (limit : Option ℕ) (l : Link World Desk) : Prop := Link.delivers limit l = false

/-- A client on an open connection with nothing under way. -/
structure Stands (st : Link World Desk × CloudClient) (w : World) (conn : Connection) (desk : Desk)
    (token : Bytes) : Prop where
  sys : st.1.sys = w
  conn : st.1.conn = conn
  desk : st.1.desk = desk
  idle : st.1.inbox = []
  connected : st.2.connected = true
  token : st.2.token = token

variable {env : Env} {limit : Option ℕ} {rounds : ℕ} {st : Link World Desk × CloudClient} {w : World}
  {conn : Connection} {desk desk' : Desk} {token : Bytes}

/-- A program on the first part of the state answers. -/
theorem meets_beside_ok {α : Type} {a : Act (Link World Desk) α} {l l' : Link World Desk} {x : α}
    {c : CloudClient} {Q : α → Link World Desk × CloudClient → Prop}
    {E : Exn → Link World Desk × CloudClient → Prop} (h : a l = (.ok x, l')) (hQ : Q x (l', c)) :
    Meets (Action.beside a) (l, c) Q E := by
  unfold Meets
  rw [beside_apply, h]
  exact hQ

theorem meets_beside_error {α : Type} {a : Act (Link World Desk) α} {l l' : Link World Desk}
    {e : Exn} {c : CloudClient} {Q : α → Link World Desk × CloudClient → Prop}
    {E : Exn → Link World Desk × CloudClient → Prop} (h : a l = (.error e, l')) (hE : E e (l', c)) :
    Meets (Action.beside a) (l, c) Q E := by
  unfold Meets
  rw [beside_apply, h]
  exact hE

/-- A value that is known. -/
theorem meets_known {α : Type} {x : Except Exn α} {y : α} {Q : α → Link World Desk × CloudClient → Prop}
    {E : Exn → Link World Desk × CloudClient → Prop} (hx : x = .ok y) (hQ : Q y st) :
    Meets (liftM x : CloudClient.Prog (Link World Desk) α) st Q E := by
  subst hx
  exact hQ

/-- A program of the client's own machine. -/
theorem meets_desk {α : Type} {a : Act Desk α} {x : α} {Q : α → Link World Desk × CloudClient → Prop}
    {E : Exn → Link World Desk × CloudClient → Prop} (h : Stands st w conn desk token)
    (ha : a desk = (.ok x, desk'))
    (hQ : ∀ st', st'.1.handled = st.1.handled → Stands st' w conn desk' token → Q x st') :
    Meets (Action.beside (Link.onDesk a)) st Q E := by
  obtain ⟨l, c⟩ := st
  obtain ⟨rfl, rfl, rfl, hidle, hconnected, rfl⟩ := h
  have hrun : Link.onDesk a l = (.ok x, { l with desk := desk' }) := by
    unfold Link.onDesk
    rw [zoom_apply, ha]
  exact meets_beside_ok hrun (hQ _ rfl ⟨rfl, rfl, rfl, hidle, hconnected, rfl⟩)

theorem down_congr {l l' : Link World Desk} (h : l'.handled = l.handled) :
    Down limit l' ↔ Down limit l := by
  unfold Down Link.delivers
  rw [h]

theorem accept_inbox (frame : Frame) (l : Link World Desk) :
    (Link.accept (backend env) (fun _ w => w) frame l).inbox = l.inbox ++
      (Server.frameTurn env l.sys l.conn frame).sent.map fun r =>
        (l.handled.length, Link.received r) := rfl

theorem accept_sys (frame : Frame) (l : Link World Desk) :
    (Link.accept (backend env) (fun _ w => w) frame l).sys =
      (Server.frameTurn env l.sys l.conn frame).sys := rfl

theorem accept_conn (frame : Frame) (l : Link World Desk) :
    (Link.accept (backend env) (fun _ w => w) frame l).conn =
      (Server.frameTurn env l.sys l.conn frame).conn := rfl

theorem accept_handled (frame : Frame) (l : Link World Desk) :
    (Link.accept (backend env) (fun _ w => w) frame l).handled.length = l.handled.length + 1 := rfl

theorem accept_desk (frame : Frame) (l : Link World Desk) :
    (Link.accept (backend env) (fun _ w => w) frame l).desk = l.desk := rfl

/-- A frame is delivered and handled, or the connection is down. -/
theorem send_linked {frame : Frame} {Q : Unit → Link World Desk × CloudClient → Prop}
    {E : Exn → Link World Desk × CloudClient → Prop} (h : Stands st w conn desk token)
    (hsent : ¬ Down limit st.1 → Q () (Link.accept (backend env) (fun _ w => w) frame st.1, st.2))
    (hlost : Down limit st.1 → Q () st) :
    Meets (CloudClient.writeAll (linked env limit rounds) frame) st Q E := by
  unfold CloudClient.writeAll
  rw [meets_bind, meets_look, if_pos h.connected]
  show Q () (if Link.delivers limit st.1 then
    Link.accept (backend env) (fun _ w => w) frame st.1 else st.1, st.2)
  cases hdelivers : Link.delivers limit st.1 with
  | true =>
      rw [if_pos rfl]
      apply hsent
      intro hdown
      rw [Down, hdelivers] at hdown
      exact absurd hdown (by decide)
  | false =>
      rw [if_neg Bool.false_ne_true]
      exact hlost hdelivers

/-- A client that a reply is on the way to. -/
structure Waits (st : Link World Desk × CloudClient) (w : World) (conn : Connection) (desk : Desk)
    (token : Bytes) (r : Received) : Prop where
  sys : st.1.sys = w
  conn : st.1.conn = conn
  desk : st.1.desk = desk
  reply : ∃ n, st.1.inbox = [(n, r)]
  connected : st.2.connected = true
  token : st.2.token = token

/-- The frame of a request is handled, and its reply is on the way, or the connection is down. -/
theorem sendJson_linked (w' : World) (conn' : Connection) (r : Reply) {root : Json}
    {Q : Unit → Link World Desk × CloudClient → Prop}
    {E : Exn → Link World Desk × CloudClient → Prop} (h : Stands st w conn desk token)
    (hsend : Sendable root)
    (hserved : ¬ Down limit st.1 →
      IsServed (Server.frameTurn env w conn (.json (dumpJson root))) w' conn' [r])
    (hQ : ∀ st', ¬ Down limit st.1 → st'.1.handled.length = st.1.handled.length + 1 →
      Waits st' w' conn' desk token (Link.received r) → Q () st')
    (hlost : Down limit st.1 → Q () st) :
    Meets (CloudClient.sendJson (linked env limit rounds) root) st Q E := by
  unfold CloudClient.sendJson
  rw [meets_bind, show Protocol.encode _ = .ok () from hsend]
  apply meets_liftM
  swap
  · intro e he
    cases he
  intro _ _
  apply send_linked h
  · intro hup
    obtain ⟨l, c⟩ := st
    obtain ⟨rfl, rfl, rfl, hidle, hconnected, rfl⟩ := h
    have hanswer := hserved hup
    apply hQ _ hup (accept_handled _ _)
    refine ⟨?_, ?_, accept_desk _ _, ⟨l.handled.length, ?_⟩, hconnected, rfl⟩
    · rw [accept_sys, hanswer.sys]
    · rw [accept_conn, hanswer.conn]
    · rw [accept_inbox, hanswer.sent]
      dsimp only at hidle
      rw [hidle]
      rfl
  · exact hlost

/-- The reply is received. -/
theorem recvFrame_linked {r : Received} {Q : Received → Link World Desk × CloudClient → Prop}
    {E : Exn → Link World Desk × CloudClient → Prop} (h : Waits st w conn desk token r)
    (hQ : ∀ st', st'.1.handled = st.1.handled → Stands st' w conn desk token → Q r st') :
    Meets (CloudClient.recvFrame (linked env limit rounds)) st Q E := by
  obtain ⟨l, c⟩ := st
  obtain ⟨rfl, rfl, rfl, ⟨n, hreply⟩, hconnected, rfl⟩ := h
  dsimp only at hreply hconnected
  unfold CloudClient.recvFrame
  rw [meets_bind, meets_look, if_pos hconnected]
  have htake : Link.take l = (.ok r, { l with inbox := [], taken := ⟨l.asked, n, r⟩ :: l.taken }) := by
    unfold Link.take
    rw [hreply]
  exact meets_beside_ok htake (hQ _ rfl ⟨rfl, rfl, rfl, rfl, hconnected, rfl⟩)

/-- Nothing is received. -/
theorem recvFrame_lost {Q : Received → Link World Desk × CloudClient → Prop}
    {E : Exn → Link World Desk × CloudClient → Prop} (h : Stands st w conn desk token)
    (hE : ∀ e, E e st) : Meets (CloudClient.recvFrame (linked env limit rounds)) st Q E := by
  obtain ⟨l, c⟩ := st
  have hidle := h.idle
  unfold CloudClient.recvFrame
  rw [meets_bind, meets_look, if_pos h.connected]
  have htake : Link.take l = (.error (.std (str "connection closed while receiving")), l) := by
    unfold Link.take
    rw [hidle]
  exact meets_beside_error htake (hE _)

/-- The number of the next request. -/
theorem nextSeq_linked {Q : ℕ → Link World Desk × CloudClient → Prop}
    {E : Exn → Link World Desk × CloudClient → Prop} (h : Stands st w conn desk token)
    (hQ : ∀ seq st', seq < 2 ^ 64 → st'.1 = st.1 → Stands st' w conn desk token → Q seq st') :
    Meets CloudClient.nextSeq st Q E := by
  unfold CloudClient.nextSeq
  rw [meets_move]
  exact hQ _ _ (Nat.mod_lt _ (by norm_num)) rfl
    ⟨h.sys, h.conn, h.desk, h.idle, h.connected, h.token⟩

/-- **A request** is answered by the server, or the connection is down. -/
theorem request_linked (w' : World) (conn' : Connection) (reply : Json) {cmd : String} {data : Json}
    {Q : Json → Link World Desk × CloudClient → Prop}
    {E : Exn → Link World Desk × CloudClient → Prop} (h : Stands st w conn desk token)
    (hsend : ∀ seq, seq < 2 ^ 64 → Sendable (requestRoot cmd data seq token))
    (hserved : ¬ Down limit st.1 → ∀ seq, seq < 2 ^ 64 → Answers (Server.frameTurn env w conn
      (.json (dumpJson (requestRoot cmd data seq token)))) seq w' conn' reply)
    (hQ : ∀ seq st', ¬ Down limit st.1 → st'.1.handled.length = st.1.handled.length + 1 →
      Stands st' w' conn' desk token → Q (makeReply seq 0 (str "ok") reply) st')
    (hE : ∀ e st', Down limit st.1 → st'.1 = st.1 → Stands st' w conn desk token → E e st') :
    Meets (CloudClient.request (linked env limit rounds) cmd data) st Q E := by
  unfold CloudClient.request
  rw [meets_bind]
  apply nextSeq_linked h
  intro seq st₁ hseq hsame h₁
  rw [meets_bind, meets_look, meets_bind]
  rw [← hsame] at hserved hQ hE
  rw [h₁.token]
  apply sendJson_linked w' conn' _ h₁ (hsend seq hseq) (fun hup => hserved hup seq hseq)
  · intro st₂ hup hcount hwaits
    unfold CloudClient.recvJson
    rw [meets_bind, meets_bind]
    apply recvFrame_linked hwaits
    intro st₃ hsame₃ h₃
    rw [← hsame₃] at hcount
    unfold Link.received
    dsimp only
    rw [if_pos rfl, meets_pure]
    have hcode : (makeReply seq 0 (str "ok") reply).get (str "code") (.int 500) = .ok (.int 0) := rfl
    rw [hcode, meets_bind]
    apply meets_liftM
    swap
    · intro e he
      cases he
    intro code hcode
    obtain rfl := Except.ok.inj hcode
    rw [meets_bind]
    apply meets_liftM
    swap
    · intro e he
      cases he
    intro n hn
    obtain rfl : (0 : ℤ) = n := Except.ok.inj hn
    rw [if_neg (not_not.mpr rfl)]
    exact hQ seq _ hup hcount h₃
  · intro hdown
    unfold CloudClient.recvJson
    rw [meets_bind, meets_bind]
    exact recvFrame_lost h₁ fun e => hE e _ hdown rfl h₁

/-- A connection to the server. -/
theorem connectTo_linked {host : Bytes} {port : ℕ} {l : Link World Desk} {c : CloudClient}
    (hconnects : l.desk.refuses host port = none) (hidle : l.inbox = [])
    {Q : Unit → Link World Desk × CloudClient → Prop}
    {E : Exn → Link World Desk × CloudClient → Prop}
    (hQ : ∀ st', st'.1 = l → Stands st' l.sys l.conn l.desk [] → Q () st') :
    Meets (CloudClient.connectTo (linked env limit rounds) host port) (l, c) Q E := by
  have hrun : Link.onDesk ((Desk.bounded env.md5Hex rounds).connect host port) l = (.ok (), l) := by
    simp only [Link.onDesk, zoom_apply, Desk.bounded, Desk.calls, bind_apply, look_apply, hconnects]
    rfl
  unfold CloudClient.connectTo CloudClient.close CloudClient.setClient
  rw [meets_bind, meets_change, meets_bind]
  apply meets_beside_ok hrun
  rw [meets_change]
  exact hQ _ rfl ⟨rfl, rfl, rfl, hidle, rfl, rfl⟩

/-- **A login** is answered by the server with a session, or the connection is down. -/
theorem login_linked (w' : World) (conn' : Connection) (s : UserSession) {username password : Bytes}
    {Q : Json → Link World Desk × CloudClient → Prop}
    {E : Exn → Link World Desk × CloudClient → Prop} (h : Stands st w conn desk [])
    (hsend : ∀ seq, seq < 2 ^ 64 →
      Sendable (requestRoot "login" (loginData username password) seq []))
    (hserved : ¬ Down limit st.1 → ∀ seq, seq < 2 ^ 64 → Answers (Server.frameTurn env w conn
      (.json (dumpJson (requestRoot "login" (loginData username password) seq [])))) seq w' conn'
        (loginReply s))
    (hQ : ∀ r st', ¬ Down limit st.1 → st'.1.handled.length = st.1.handled.length + 1 →
      Stands st' w' conn' desk s.token → Q r st')
    (hE : ∀ e st', Down limit st.1 → st'.1 = st.1 → Stands st' w conn desk [] → E e st') :
    Meets (CloudClient.login (linked env limit rounds) username password) st Q E := by
  unfold CloudClient.login CloudClient.setClient
  rw [meets_bind]
  apply request_linked w' conn' (loginReply s) h hsend hserved
  · intro seq st' hup hcount h'
    have hdata : (makeReply seq 0 (str "ok") (loginReply s)).ref (str "data") = .ok (loginReply s) := rfl
    have htoken : (loginReply s).ref (str "token") = .ok (.str s.token) := rfl
    have hname : (loginReply s).ref (str "username") = .ok (.str s.username) := rfl
    rw [meets_bind]
    apply meets_known hdata
    rw [meets_bind]
    apply meets_known htoken
    rw [meets_bind]
    apply meets_known (show (Json.str s.token).asString = .ok s.token from rfl)
    rw [meets_bind, meets_change, meets_bind]
    apply meets_known hname
    rw [meets_bind]
    apply meets_known (show (Json.str s.username).asString = .ok s.username from rfl)
    rw [meets_bind, meets_change]
    exact hQ _ _ hup hcount ⟨h'.sys, h'.conn, h'.desk, h'.idle, h'.connected, rfl⟩
  · exact hE

/-- **A chunk** is taken by the server without a reply, or the connection is down. -/
theorem sendChunk_linked (w' : World) (conn' : Connection) {fileId data : Bytes} {offset : ℕ}
    {Q : Unit → Link World Desk × CloudClient → Prop}
    {E : Exn → Link World Desk × CloudClient → Prop} (h : Stands st w conn desk token)
    (hid : fileId.length = 32) (hlength : data.length + 40 ≤ kMaxFrameSize)
    (hserved : ¬ Down limit st.1 →
      IsServed (Server.frameTurn env w conn (.chunk (Wire.chunkPayload fileId offset data))) w' conn' [])
    (hQ : ∀ st', ¬ Down limit st.1 → st'.1.handled.length = st.1.handled.length + 1 →
      Stands st' w' conn' desk token → Q () st')
    (hlost : Down limit st.1 → Q () st) :
    Meets (CloudClient.sendChunk (linked env limit rounds) fileId offset data) st Q E := by
  have hencode : Protocol.encodeChunk fileId data.length = .ok () := by
    unfold Protocol.encodeChunk Protocol.encode
    rw [if_neg (by simp [hid]), if_neg (by omega)]
  unfold CloudClient.sendChunk
  rw [meets_bind, hencode]
  apply meets_liftM
  swap
  · intro e he
    cases he
  intro _ _
  apply send_linked h
  · intro hup
    obtain ⟨l, c⟩ := st
    obtain ⟨rfl, rfl, rfl, hidle, hconnected, rfl⟩ := h
    have hanswer := hserved hup
    apply hQ _ hup (accept_handled _ _)
    refine ⟨?_, ?_, accept_desk _ _, ?_, hconnected, rfl⟩
    · rw [accept_sys, hanswer.sys]
    · rw [accept_conn, hanswer.conn]
    · rw [accept_inbox, hanswer.sent]
      exact (List.append_nil _).trans hidle
  · exact hlost

end CloudStore.Interface
