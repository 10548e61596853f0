import CloudStore.Interface.Framing
import CloudStore.Interface.Playback
import CloudStore.Model.EventLoop

/-!
# The server with its buffers

The server that is handed frames is what the event loop is without its input buffers: each
callback of the loop is a sequence of events of that server, with the same replies. No byte of a
connection is lost or handled twice, and the limits of connections and of buffers are kept.
-/

set_option autoImplicit false

namespace CloudStore.Analysis

open CloudStore.Library (Bytes Machine Framing Reader)
open CloudStore.Library.Machine (observed)
open CloudStore.Model CloudStore.Interface
open CloudStore.Model.EventLoop

variable {env : Env} {maxConnections : ℤ} {parse : Bytes → JsonText}

/-- The replies of an entry, each with its connection. -/
def sentBy (r : Machine.Record ServerState Event Output) : List (ℕ × Reply) :=
  match r.event with
  | .frame id _ => r.output.sent.map fun reply => (id, reply)
  | _ => []

/-- The numbers of the connections are distinct, and have been given out. -/
structure Numbered (s : LoopState) : Prop where
  nodup : (s.connections.map Prod.fst).Nodup
  below : ∀ c ∈ s.connections, c.1 < s.accepted

/-! ## The table of connections -/

theorem lookup_put (id : ℕ) (p : Peer) (cs : List (ℕ × Peer)) (i : ℕ) :
    (cs.map fun c => if c.1 = id then (id, p) else c).lookup i =
      if i = id then (cs.lookup id).map fun _ => p else cs.lookup i := by
  induction cs with
  | nil => simp
  | cons c cs ih =>
      rcases c with ⟨j, q⟩
      rw [List.map_cons]
      by_cases hj : j = id
      · subst hj
        by_cases hi : i = j
        · subst hi
          simp
        · have hne : (i == j) = false := by simpa using hi
          rw [if_pos rfl, List.lookup_cons, hne, ih, if_neg hi, if_neg hi, List.lookup_cons, hne]
      · rw [if_neg hj]
        by_cases hi : i = j
        · subst hi
          rw [if_neg hj, List.lookup_cons_self, List.lookup_cons_self]
        · have hne : (i == j) = false := by simpa using hi
          have hne' : (id == j) = false := by simpa using fun h => hj h.symm
          rw [List.lookup_cons, hne, ih, List.lookup_cons, List.lookup_cons, hne, hne']

theorem lookup_remove (id : ℕ) (cs : List (ℕ × Peer)) (i : ℕ) :
    (cs.filter fun c => c.1 ≠ id).lookup i = if i = id then none else cs.lookup i := by
  induction cs with
  | nil => simp
  | cons c cs ih =>
      rcases c with ⟨j, q⟩
      rw [List.filter_cons]
      by_cases hj : j = id
      · subst hj
        rw [if_neg (by simp), ih]
        by_cases hi : i = j
        · rw [if_pos hi, if_pos hi]
        · have hne : (i == j) = false := by simpa using hi
          rw [if_neg hi, if_neg hi, List.lookup_cons, hne]
      · rw [if_pos (by simpa using hj)]
        by_cases hi : i = j
        · subst hi
          rw [if_neg hj, List.lookup_cons_self, List.lookup_cons_self]
        · have hne : (i == j) = false := by simpa using hi
          rw [List.lookup_cons, List.lookup_cons, hne, ih]

theorem unbuffered_put (id : ℕ) (p q : Peer) (s : LoopState) (h : s.connections.lookup id = some q) :
    unbuffered (putConnection id p s) =
      { unbuffered s with conns := Function.update (unbuffered s).conns id (some p.conn) } := by
  unfold unbuffered putConnection
  congr 1
  funext i
  rw [lookup_put]
  by_cases hi : i = id
  · subst hi
    simp [h]
  · simp [hi]

theorem unbuffered_remove (id : ℕ) (s : LoopState) :
    unbuffered (removeConnection id s) =
      { unbuffered s with conns := Function.update (unbuffered s).conns id none } := by
  unfold unbuffered removeConnection
  congr 1
  funext i
  rw [lookup_remove]
  by_cases hi : i = id
  · subst hi
    simp
  · simp [hi]

theorem unbuffered_accept (ip : Bytes) (s : LoopState) :
    unbuffered { s with
      connections := (s.accepted, { conn := { peerIp := ip } }) :: s.connections
      accepted := s.accepted + 1 } =
      { unbuffered s with
        conns := Function.update (unbuffered s).conns s.accepted (some { peerIp := ip }) } := by
  unfold unbuffered
  congr 1
  funext i
  by_cases hi : i = s.accepted
  · subst hi
    simp
  · have hne : (i == s.accepted) = false := by simpa using hi
    simp [hi, List.lookup_cons, hne]

theorem Numbered.lookup_none {s : LoopState} (h : Numbered s) {id : ℕ} (hid : s.accepted ≤ id) :
    s.connections.lookup id = none := by
  rw [List.lookup_eq_none_iff]
  intro c hc
  have := h.below c hc
  simp only [bne_iff_ne, ne_eq]
  omega

/-! ## One callback -/

variable (env maxConnections parse) in
/-- What a callback can do. -/
inductive Callback (s : LoopState) : LoopEvent → LoopState → LoopOutput → Prop
  | accepted (addr : Option Bytes) (hroom : s.connections.length < maxConnections) :
      Callback s (.accept addr true)
        { s with
          connections := (s.accepted, { conn := { peerIp := addr.getD (str "unknown") } }) ::
            s.connections
          accepted := s.accepted + 1 } {}
  | refused (addr : Option Bytes) (made : Bool) : Callback s (.accept addr made) s {}
  /-- The frames of the buffer are handled, and the rest is kept. -/
  | read {id : ℕ} {p : Peer} {piece : Bytes} {r : Reader UInt8 Serving} {done : List RawFrame}
      (hlookup : s.connections.lookup id = some p)
      (hends : wireFraming.Ends (handle env parse) { world := s.world, conn := p.conn }
        (p.input ++ piece) done r) (hopen : r.closed = false) :
      Callback s (.bytes id piece)
        (putConnection id ⟨r.state.conn, r.input⟩ { s with world := r.state.world })
        { frames := done.map fun f => (id, f), sent := r.state.sent.map fun r => (id, r) }
  /-- Behind the frames comes a bad header. -/
  | gaveUp {id : ℕ} {p : Peer} {piece : Bytes} {r : Reader UInt8 Serving} {done : List RawFrame}
      (hlookup : s.connections.lookup id = some p)
      (hends : wireFraming.Ends (handle env parse) { world := s.world, conn := p.conn }
        (p.input ++ piece) done r) :
      Callback s (.bytes id piece) (removeConnection id { s with world := r.state.world })
        { frames := done.map fun f => (id, f), sent := r.state.sent.map fun r => (id, r) }
  | ignored {id : ℕ} (piece : Bytes) (hnone : s.connections.lookup id = none) :
      Callback s (.bytes id piece) s {}
  | ended (id : ℕ) (what : BevEvent) : Callback s (.event id what) (removeConnection id s) {}
  | passed (id : ℕ) (what : BevEvent) : Callback s (.event id what) s {}
  | signal : Callback s .signal { s with running := false, connections := [] } {}
  | expire (key : Bytes) :
      Callback s (.expire key) { s with world := Server.expireKey s.world key } {}
  | disk (d : Disk) : Callback s (.disk d) { s with world := { s.world with disk := d } } {}

/-- The frames that were handled are added to the record. -/
theorem foldl_frames (frames : List RawFrame) (st : Serving) :
    (frames.foldl (handle env parse) st).frames = st.frames ++ frames := by
  induction frames generalizing st with
  | nil => simp
  | cons f frames ih =>
      rw [List.foldl_cons, ih]
      show (st.frames ++ [f]) ++ frames = _
      simp

/-- `onRead` for a connection of the table. -/
theorem onRead_callback {id : ℕ} {p : Peer} {s : LoopState}
    (hlookup : s.connections.lookup id = some p) (piece : Bytes) :
    Callback env maxConnections parse s (.bytes id piece)
      (EventLoop.onRead env parse id p piece s).1 (EventLoop.onRead env parse id p piece s).2 := by
  obtain ⟨done, hends⟩ := Framing.feed_ends (handle env parse) wire_exact
    (r := { state := { world := s.world, conn := p.conn }, input := p.input }) rfl piece
  unfold EventLoop.onRead
  rw [onRead_eq]
  generalize wireFraming.feed (handle env parse) _ piece = r at hends
  have hframes : r.state.frames = done := by
    rw [hends.2.2.1, foldl_frames]
    rfl
  dsimp only
  rw [hframes]
  cases hc : r.closed with
  | false => exact .read hlookup hends hc
  | true => exact .gaveUp hlookup hends

theorem callback (s : LoopState) (e : LoopEvent) :
    Callback env maxConnections parse s e (EventLoop.step env maxConnections parse s e).1
      (EventLoop.step env maxConnections parse s e).2 := by
  unfold EventLoop.step
  cases e with
  | accept addr made =>
      unfold EventLoop.onAccept
      dsimp only
      split_ifs with hrun hfull hmade
      · exact .refused addr made
      · subst hmade
        exact .accepted addr (not_le.mp hfull)
      · exact .refused addr made
      · exact .refused addr made
  | bytes id piece =>
      dsimp only
      cases hlookup : s.connections.lookup id with
      | none => exact .ignored piece hlookup
      | some p => exact onRead_callback hlookup piece
  | event id what =>
      unfold EventLoop.onEvent
      dsimp only
      split_ifs
      · exact .ended id what
      · exact .passed id what
  | signal => exact .signal
  | expire key => exact .expire key
  | disk d => exact .disk d

/-! ## The server without the buffers -/

/-- What frames of a connection do to the server, one after the other. Induction on the frames. -/
theorem frames_replay (id : ℕ) (frames : List RawFrame) (st : Serving) (s : ServerState)
    (hworld : s.world = st.world) (hconn : s.conns id = some st.conn) :
    let es := frames.map fun f => Event.frame id (f.parsed parse)
    let st' := frames.foldl (handle env parse) st
    ((Server.machine env).replay [] s es).2 =
        { world := st'.world, conns := Function.update s.conns id (some st'.conn) } ∧
      st'.sent.map (fun r => (id, r)) =
        st.sent.map (fun r => (id, r)) ++ observed sentBy ((Server.machine env).replay [] s es).1 := by
  induction frames generalizing st s with
  | nil =>
      refine ⟨?_, by simp [Machine.replay, observed]⟩
      rcases s with ⟨w, conns⟩
      obtain rfl := hworld
      have hsame : Function.update conns id (some st.conn) = conns := by
        rw [← hconn]
        exact Function.update_eq_self _ _
      simp [Machine.replay, hsame]
  | cons f frames ih =>
      dsimp only
      set t := Server.frameTurn env st.world st.conn (f.parsed parse) with ht
      have hstep : (Server.machine env).step s (.frame id (f.parsed parse)) =
          ({ world := t.sys, conns := Function.update s.conns id (some t.conn) },
            { sent := t.sent, calls := t.calls }) := by
        change Server.step env s (.frame id (f.parsed parse)) = _
        unfold Server.step
        dsimp only
        rw [hconn, hworld]
      obtain ⟨hend, hsent⟩ := ih (handle env parse st f)
        { world := t.sys, conns := Function.update s.conns id (some t.conn) } rfl (by simp; rfl)
      rw [List.map_cons, Machine.replay, Machine.replay_append, hstep, List.foldl_cons]
      refine ⟨?_, ?_⟩
      · rw [hend]
        simp
      · rw [hsent, Machine.observed_append]
        have hrecord : observed sentBy [(Server.machine env).record s (.frame id (f.parsed parse))] =
            t.sent.map fun r => (id, r) := by
          simp [observed, sentBy, Machine.record, hstep]
        rw [hrecord]
        show (st.sent ++ t.sent).map _ ++ _ = _
        simp

/-- Connections are closed one after the other. Induction on their numbers. -/
theorem closes_replay (ids : List ℕ) (s : ServerState) :
    ((Server.machine env).replay [] s (ids.map .close)).2 =
        { s with conns := fun i => if i ∈ ids then none else s.conns i } ∧
      observed sentBy ((Server.machine env).replay [] s (ids.map .close)).1 = [] := by
  induction ids generalizing s with
  | nil => simp [Machine.replay, observed]
  | cons id ids ih =>
      obtain ⟨hend, hshown⟩ := ih { s with conns := Function.update s.conns id none }
      have hstep : (Server.machine env).step s (.close id) =
          ({ s with conns := Function.update s.conns id none }, {}) := rfl
      rw [List.map_cons, Machine.replay, Machine.replay_append, hstep]
      refine ⟨?_, ?_⟩
      · rw [hend]
        congr 1
        funext i
        by_cases hi : i = id
        · simp [hi]
        · simp [hi]
      · rw [Machine.observed_append, hshown]
        simp [observed, sentBy, Machine.record]

/-- **One callback** is a sequence of events of the server without the buffers, with the same
replies. -/
theorem callback_refines {s s' : LoopState} {e : LoopEvent} {out : LoopOutput} (hs : Numbered s)
    (h : Callback env maxConnections parse s e s' out) :
    ∃ es, ((Server.machine env).replay [] (unbuffered s) es).2 = unbuffered s' ∧
      observed sentBy ((Server.machine env).replay [] (unbuffered s) es).1 = out.sent := by
  have hframes : ∀ {id p piece r done}, s.connections.lookup id = some p →
      wireFraming.Ends (handle env parse) { world := s.world, conn := p.conn } (p.input ++ piece)
        done r → ∃ es : List Event,
      ((Server.machine env).replay [] (unbuffered s) es).2 =
        { world := r.state.world
          conns := Function.update (unbuffered s).conns id (some r.state.conn) } ∧
      observed sentBy ((Server.machine env).replay [] (unbuffered s) es).1 =
        r.state.sent.map fun r => (id, r) := by
    intro id p piece r done hlookup hends
    have hconn : (unbuffered s).conns id = some p.conn := by
      unfold unbuffered
      dsimp only
      rw [hlookup]
      rfl
    obtain ⟨hend, hsent⟩ := @frames_replay env parse id done
      { world := s.world, conn := p.conn } (unbuffered s) rfl hconn
    dsimp only at hend hsent
    rw [← hends.2.2.1] at hend hsent
    exact ⟨_, hend, by simpa using hsent.symm⟩
  cases h with
  | accepted addr hroom =>
      refine ⟨[.connect s.accepted (addr.getD (str "unknown"))], ?_, rfl⟩
      have hnone : (unbuffered s).conns s.accepted = none := by
        unfold unbuffered
        dsimp only
        rw [hs.lookup_none le_rfl]
        rfl
      rw [unbuffered_accept]
      show (Server.step env (unbuffered s) _).1 = _
      unfold Server.step
      dsimp only
      rw [hnone]
  | @read id p piece r done hlookup hends hopen =>
      obtain ⟨es, hend, hsent⟩ := hframes hlookup hends
      refine ⟨es, ?_, hsent⟩
      rw [hend]
      exact (unbuffered_put id ⟨r.state.conn, r.input⟩ p { s with world := r.state.world }
        hlookup).symm
  | @gaveUp id p piece r done hlookup hends =>
      obtain ⟨es, hend, hsent⟩ := hframes hlookup hends
      refine ⟨es ++ [.close id], ?_, ?_⟩
      · rw [Machine.replay_concat, Machine.replay_append, hend, unbuffered_remove]
        show ({ world := _, conns := _ } : ServerState) = _
        simp [unbuffered]
      · rw [Machine.replay_concat, Machine.replay_append, Machine.observed_append, hsent]
        exact List.append_nil _
  | ended id what =>
      refine ⟨[.close id], ?_, rfl⟩
      rw [unbuffered_remove]
      rfl
  | signal =>
      refine ⟨(s.connections.map Prod.fst).map .close, ?_, (closes_replay _ _).2⟩
      rw [(closes_replay _ _).1]
      unfold unbuffered
      congr 1
      funext i
      dsimp only
      split_ifs with hi
      · rfl
      · have hnone : s.connections.lookup i = none := by
          rw [List.lookup_eq_none_iff]
          intro c hc
          simp only [bne_iff_ne, ne_eq]
          rintro rfl
          exact hi (List.mem_map_of_mem hc)
        rw [hnone]
        rfl
  | expire key => exact ⟨[.expire key], rfl, rfl⟩
  | disk d => exact ⟨[.disk d], rfl, rfl⟩
  | _ => exact ⟨[], rfl, rfl⟩

/-! ## The numbers of the connections -/

theorem put_numbers (id : ℕ) (p : Peer) (cs : List (ℕ × Peer)) :
    (cs.map fun c => if c.1 = id then (id, p) else c).map Prod.fst = cs.map Prod.fst := by
  rw [List.map_map]
  apply List.map_congr_left
  intro c _
  simp only [Function.comp]
  split_ifs with hc
  · exact hc.symm
  · rfl

theorem Numbered.put {s : LoopState} (h : Numbered s) (id : ℕ) (p : Peer) (w : World) :
    Numbered (putConnection id p { s with world := w }) where
  nodup := (put_numbers id p s.connections).symm ▸ h.nodup
  below := by
    intro c hc
    obtain ⟨c', hc', rfl⟩ := List.mem_map.mp hc
    have := h.below c' hc'
    split_ifs with hid
    · exact hid ▸ this
    · exact this

theorem Numbered.remove {s : LoopState} (h : Numbered s) (id : ℕ) (w : World) :
    Numbered (removeConnection id { s with world := w }) where
  nodup := h.nodup.sublist (List.filter_sublist.map _)
  below c hc := h.below c (List.mem_of_mem_filter hc)

/-- A callback keeps the numbers distinct. -/
theorem Numbered.step {s s' : LoopState} {e : LoopEvent} {out : LoopOutput} (h : Numbered s)
    (hcall : Callback env maxConnections parse s e s' out) : Numbered s' := by
  cases hcall with
  | accepted addr hroom =>
      refine ⟨?_, ?_⟩
      · rw [List.map_cons, List.nodup_cons]
        refine ⟨?_, h.nodup⟩
        intro hmem
        obtain ⟨c, hc, heq⟩ := List.mem_map.mp hmem
        have := h.below c hc
        omega
      · intro c hc
        rcases List.mem_cons.mp hc with rfl | hc
        · exact Nat.lt_succ_self _
        · exact (h.below c hc).trans (Nat.lt_succ_self _)
  | read hlookup hends hopen => exact h.put _ _ _
  | gaveUp hlookup hends => exact h.remove _ _
  | ended id what => exact h.remove id s.world
  | signal => exact ⟨List.nodup_nil, by simp⟩
  | expire key => exact ⟨h.nodup, h.below⟩
  | disk d => exact ⟨h.nodup, h.below⟩
  | _ => exact h

theorem Numbered.start {s : LoopState} (h : EventLoop.Start env s) : Numbered s := by
  constructor
  · rw [h.2]
    exact List.nodup_nil
  · rw [h.2]
    simp

namespace Sample

/-- A text that is a request to register. -/
def parseRequest (text : Bytes) : JsonText :=
  if text = str "r" then
    .ok (.obj [(str "cmd", .str (str "register")), (str "data", .obj
      [(str "password", .str (str "secret")), (str "username", .str (str "alice"))]),
      (str "seq", .int 7)])
  else .error (str "bad")

/-- A request in two pieces, a start of another one, and a connection too many. -/
def pieces : List LoopEvent :=
  let bytes := frameBytes ⟨Wire.jsonType, 0, str "r"⟩
  [.accept none true, .bytes 0 (bytes.take 5), .bytes 0 (bytes.drop 5 ++ bytes.take 7),
    .accept none true]

/-- The loop before anything has happened. -/
def quietLoop : LoopState where
  world := (started Interface.Sample.env 4096 Interface.Sample.entropy).world

theorem quietLoop_start : EventLoop.Start Interface.Sample.env quietLoop := by
  have hstart : Server.Start Interface.Sample.env
      (started Interface.Sample.env 4096 Interface.Sample.entropy) := makeRoots_start _ _
  unfold quietLoop
  generalize started Interface.Sample.env 4096 Interface.Sample.entropy = s at *
  exact ⟨hstart.1, rfl⟩

/-- What the pieces lead to, where one connection is allowed. -/
def looped : List (Machine.Record LoopState LoopEvent LoopOutput) × LoopState :=
  (EventLoop.machine Interface.Sample.env 1 parseRequest).replay [] quietLoop pieces

theorem looped_run : (EventLoop.machine Interface.Sample.env 1 parseRequest).Run
    (EventLoop.Start Interface.Sample.env) (fun _ _ => True) looped.1 looped.2 := by
  have hstart := quietLoop_start
  unfold looped
  generalize quietLoop = s at *
  exact (Machine.Run.start hstart).replay
    (Machine.Allows.of_forall (P := fun _ => True) fun _ _ => trivial)

end Sample

/-- **The server with its buffers refines the server that is handed frames.** Each of its runs, with
any pieces of any bytes, any connections and any ends of them, is a run of that server with the
same replies to the same connections. -/
theorem buffered_refines {hist : List (Machine.Record LoopState LoopEvent LoopOutput)}
    {s : LoopState}
    (run : (EventLoop.machine env maxConnections parse).Run (EventLoop.Start env)
      (fun _ _ => True) hist s) :
    ∃ hist', (Server.machine env).Run (Server.Start env) (fun _ _ => True) hist' (unbuffered s) ∧
      observed sentBy hist' = observed (fun r => r.output.sent) hist := by
  refine (Machine.Run.refine (I := Numbered) (f := unbuffered) ?_ ?_ run).2
  · intro s hs
    refine ⟨Numbered.start hs, hs.1, fun id => ?_⟩
    unfold unbuffered
    rw [hs.2]
    rfl
  · intro s e hs
    exact ⟨hs.step (callback s e), callback_refines hs (callback s e)⟩

theorem buffered_refines_pieces :
    ∃ hist', (Server.machine Interface.Sample.env).Run (Server.Start Interface.Sample.env)
        (fun _ _ => True) hist' (unbuffered Sample.looped.2) ∧
      observed sentBy hist' = observed (fun r => r.output.sent) Sample.looped.1 :=
  buffered_refines Sample.looped_run

/-! ## The bytes of a connection -/

/-- The bytes that an entry brings to a connection that is open. -/
def arrived (id : ℕ) (r : Machine.Record LoopState LoopEvent LoopOutput) : Bytes :=
  match r.event with
  | .bytes i piece => if i = id ∧ (r.before.connections.lookup id).isSome then piece else []
  | _ => []

/-- The frames of a connection that were handled in an entry. -/
def framesOf (id : ℕ) (r : Machine.Record LoopState LoopEvent LoopOutput) : List RawFrame :=
  (r.output.frames.filter fun f => f.1 = id).map Prod.snd

/-- The bytes of a connection are those of its frames and a rest, which is what its buffer holds and
waits on. -/
structure Accounted (id : ℕ) (hist : List (Machine.Record LoopState LoopEvent LoopOutput))
    (s : LoopState) (rest : Bytes) : Prop where
  bytes : observed (arrived id) hist = wireFraming.stream (observed (framesOf id) hist) ++ rest
  buffer : ∀ p, s.connections.lookup id = some p → rest = p.input
  waits : (s.connections.lookup id).isSome → wireFraming.next rest = .wait
  fresh : s.accepted ≤ id → rest = []

/-- The bytes after one more entry. -/
theorem Accounted.add {id : ℕ} {hist : List (Machine.Record LoopState LoopEvent LoopOutput)}
    {s s' : LoopState} {rest rest' : Bytes} (h : Accounted id hist s rest)
    (r : Machine.Record LoopState LoopEvent LoopOutput)
    (hbytes : rest ++ arrived id r = wireFraming.stream (framesOf id r) ++ rest')
    (hbuffer : ∀ p, s'.connections.lookup id = some p → rest' = p.input)
    (hwaits : (s'.connections.lookup id).isSome → wireFraming.next rest' = .wait)
    (hfresh : s'.accepted ≤ id → rest' = []) : Accounted id (r :: hist) s' rest' where
  bytes := by
    rw [← List.singleton_append, Machine.observed_append, Machine.observed_append, h.bytes,
      List.append_assoc]
    have hone : ∀ {α : Type} (obs : Machine.Record LoopState LoopEvent LoopOutput → List α),
        observed obs [r] = obs r := by
      intro α obs
      simp [observed]
    rw [hone, hone, hbytes, Framing.stream, Framing.stream, Framing.stream, List.flatMap_append,
      List.append_assoc]
  buffer := hbuffer
  waits := hwaits
  fresh := hfresh

/-- The frames of another connection are not among those of this one. -/
theorem framesOf_other {id i : ℕ} (hid : i ≠ id) (s : LoopState) (e : LoopEvent)
    (frames : List RawFrame) (sent : List (ℕ × Reply)) :
    framesOf id ⟨s, e, { frames := frames.map fun f => (i, f), sent := sent }⟩ = [] := by
  unfold framesOf
  simp [hid]

theorem framesOf_same (id : ℕ) (s : LoopState) (e : LoopEvent) (frames : List RawFrame)
    (sent : List (ℕ × Reply)) :
    framesOf id ⟨s, e, { frames := frames.map fun f => (id, f), sent := sent }⟩ = frames := by
  unfold framesOf
  rw [List.filter_eq_self.mpr (by simp), List.map_map]
  exact List.map_id _

/-- **A callback** accounts for the bytes that it brings. -/
theorem Accounted.step {id : ℕ} {hist : List (Machine.Record LoopState LoopEvent LoopOutput)}
    {s s' : LoopState} {rest : Bytes} {e : LoopEvent} {out : LoopOutput}
    (h : Accounted id hist s rest) (hs : Numbered s)
    (hcall : Callback env maxConnections parse s e s' out) :
    ∃ rest', Accounted id (⟨s, e, out⟩ :: hist) s' rest' := by
  cases hcall with
  | accepted addr hroom =>
      refine ⟨rest, h.add _ (List.append_nil _) ?_ ?_ ?_⟩
      · intro p hp
        by_cases hid : id = s.accepted
        · subst hid
          rw [List.lookup_cons_self] at hp
          rw [← Option.some.inj hp]
          exact h.fresh le_rfl
        · have hne : (id == s.accepted) = false := by simpa using hid
          rw [List.lookup_cons, hne] at hp
          exact h.buffer p hp
      · intro hp
        by_cases hid : id = s.accepted
        · rw [h.fresh hid.ge]
          exact wireFraming.next_nil
        · have hne : (id == s.accepted) = false := by simpa using hid
          rw [List.lookup_cons, hne] at hp
          exact h.waits hp
      · intro hid
        exact h.fresh (Nat.le_of_succ_le hid)
  | refused addr made =>
      exact ⟨rest, h.add _ (List.append_nil _) h.buffer h.waits h.fresh⟩
  | @read i p piece r done hlookup hends hopen =>
      by_cases hid : i = id
      · subst hid
        have hrests : wireFraming.next r.input = .wait := by
          have hrests := hends.2.2.2
          unfold Framing.Rests at hrests
          rwa [hopen] at hrests
        refine ⟨r.input, h.add _ ?_ ?_ (fun _ => hrests) ?_⟩
        · rw [framesOf_same, h.buffer p hlookup, ← hends.2.1]
          simp [arrived, hlookup]
        · intro q hq
          have hput := lookup_put i ⟨r.state.conn, r.input⟩ s.connections i
          rw [if_pos rfl, hlookup] at hput
          have hq : some (⟨r.state.conn, r.input⟩ : Peer) = some q := hput.symm.trans hq
          rw [← Option.some.inj hq]
        · intro hfresh
          have hnone := hs.lookup_none hfresh
          simp [hlookup] at hnone
      · have hput := lookup_put i ⟨r.state.conn, r.input⟩ s.connections id
        rw [if_neg (Ne.symm hid)] at hput
        refine ⟨rest, h.add _ ?_ ?_ ?_ h.fresh⟩
        · rw [framesOf_other hid]
          simp [arrived, hid, Framing.stream]
        · exact fun q hq => h.buffer q (hput.symm.trans hq)
        · exact fun hq => h.waits (hput ▸ hq)
  | @gaveUp i p piece r done hlookup hends =>
      by_cases hid : i = id
      · subst hid
        have hnone : (removeConnection i { s with world := r.state.world }).connections.lookup i =
            none := by
          unfold removeConnection
          rw [lookup_remove, if_pos rfl]
        refine ⟨r.input, h.add _ ?_ (by simp [hnone]) (by simp [hnone]) ?_⟩
        · rw [framesOf_same, h.buffer p hlookup, ← hends.2.1]
          simp [arrived, hlookup]
        · intro hfresh
          have hnone := hs.lookup_none hfresh
          simp [hlookup] at hnone
      · have hrest := lookup_remove i s.connections id
        rw [if_neg (Ne.symm hid)] at hrest
        refine ⟨rest, h.add _ ?_ ?_ ?_ h.fresh⟩
        · rw [framesOf_other hid]
          simp [arrived, hid, Framing.stream]
        · exact fun q hq => h.buffer q (hrest.symm.trans hq)
        · exact fun hq => h.waits (hrest ▸ hq)
  | @ignored i piece hnone =>
      refine ⟨rest, h.add _ ?_ h.buffer h.waits h.fresh⟩
      have hnothing : arrived id ⟨s, .bytes i piece, {}⟩ = [] := by
        unfold arrived
        dsimp only
        rw [if_neg]
        rintro ⟨rfl, hopen⟩
        simp [hnone] at hopen
      rw [hnothing]
      exact List.append_nil _
  | ended i what =>
      refine ⟨rest, h.add _ (List.append_nil _) ?_ ?_ h.fresh⟩
      · intro p hp
        unfold removeConnection at hp
        rw [lookup_remove] at hp
        split_ifs at hp
        exact h.buffer p hp
      · intro hp
        unfold removeConnection at hp
        rw [lookup_remove] at hp
        split_ifs at hp
        · simp at hp
        · exact h.waits hp
  | passed i what => exact ⟨rest, h.add _ (List.append_nil _) h.buffer h.waits h.fresh⟩
  | signal => exact ⟨rest, h.add _ (List.append_nil _) (by simp) (by simp) h.fresh⟩
  | expire key => exact ⟨rest, h.add _ (List.append_nil _) h.buffer h.waits h.fresh⟩
  | disk d => exact ⟨rest, h.add _ (List.append_nil _) h.buffer h.waits h.fresh⟩

theorem Accounted.start {s : LoopState} (h : EventLoop.Start env s) (id : ℕ) :
    Accounted id [] s [] where
  bytes := rfl
  buffer p hp := by simp [h.2] at hp
  waits hp := by simp [h.2] at hp
  fresh _ := rfl

/-- **No byte of a connection is lost or handled twice.** In every run, the bytes that arrived on a
connection are the encodings of the frames that were handled on it, in order, and a rest. As long
as the connection is open, the rest is what its buffer holds: it is waited on, and fits under the
read high watermark. -/
theorem bytes_accounted {hist : List (Machine.Record LoopState LoopEvent LoopOutput)}
    {s : LoopState}
    (run : (EventLoop.machine env maxConnections parse).Run (EventLoop.Start env)
      (fun _ _ => True) hist s) (id : ℕ) :
    ∃ rest, observed (arrived id) hist = (observed (framesOf id) hist).flatMap frameBytes ++ rest ∧
      ∀ p, s.connections.lookup id = some p →
        rest = p.input ∧ nextFrame rest = .wait ∧ rest.length < Wire.readHighWatermark := by
  have hinv : Numbered s ∧ ∃ rest, Accounted id hist s rest := by
    refine Machine.Run.invariant_history (I := fun hist s => Numbered s ∧
      ∃ rest, Accounted id hist s rest) ?_ ?_ run
    · exact fun s hs => ⟨Numbered.start hs, [], Accounted.start hs id⟩
    · rintro hist s e - ⟨hs, rest, h⟩ -
      exact ⟨hs.step (callback s e), h.step hs (callback s e)⟩
  obtain ⟨-, rest, h⟩ := hinv
  refine ⟨rest, h.bytes, fun p hp => ?_⟩
  have hwait := h.waits (by rw [hp]; rfl)
  exact ⟨h.buffer p hp, hwait, waiting_length hwait⟩

theorem bytes_accounted_pieces :
    ∃ rest, observed (arrived 0) Sample.looped.1 =
        (observed (framesOf 0) Sample.looped.1).flatMap frameBytes ++ rest ∧
      ∀ p, Sample.looped.2.connections.lookup 0 = some p →
        rest = p.input ∧ nextFrame rest = .wait ∧ rest.length < Wire.readHighWatermark :=
  bytes_accounted Sample.looped_run 0

/-- **How the bytes were cut into pieces does not matter.** For any bytes, those of frames or not,
the same frames are handled, the connection is closed in the same cases, and the same bytes are
left where it stays open. -/
theorem pieces_irrelevant {σ : Type} (handle : σ → RawFrame → σ) (s : σ) (pieces : List Bytes) :
    let r := pieces.foldl (Wire.onRead handle) { state := s }
    let r' := Wire.onRead handle { state := s } pieces.flatten
    r.state = r'.state ∧ r.closed = r'.closed ∧ (r.closed = false → r.input = r'.input) := by
  have hread : Wire.onRead handle = wireFraming.feed handle := by
    funext r piece
    exact onRead_eq handle r piece
  rw [hread]
  have hrests : wireFraming.Rests ({ state := s } : Reader UInt8 σ) := wireFraming.next_nil
  have hflat : pieces.flatten = [pieces.flatten].flatten := by simp
  exact Framing.feed_flatten handle wire_exact hrests hflat

/-- **The limit of connections is kept.** In every run there are never more connections than
`max_connections` allows, and no two have one number. -/
theorem connections_limited {hist : List (Machine.Record LoopState LoopEvent LoopOutput)}
    {s : LoopState}
    (run : (EventLoop.machine env maxConnections parse).Run (EventLoop.Start env)
      (fun _ _ => True) hist s) :
    (s.connections.length : ℤ) ≤ max maxConnections 0 ∧ (s.connections.map Prod.fst).Nodup := by
  have hinv : Numbered s ∧ (s.connections.length : ℤ) ≤ max maxConnections 0 := by
    refine Machine.Run.invariant (I := fun s => Numbered s ∧
      (s.connections.length : ℤ) ≤ max maxConnections 0) ?_ ?_ run
    · exact fun s hs => ⟨Numbered.start hs, by rw [hs.2]; simp⟩
    · rintro s e ⟨hs, hlimit⟩ -
      refine ⟨hs.step (callback s e), ?_⟩
      show ((EventLoop.step env maxConnections parse s e).1.connections.length : ℤ) ≤ _
      have hcall := @callback env maxConnections parse s e
      generalize (EventLoop.step env maxConnections parse s e).1 = s' at hcall
      generalize (EventLoop.step env maxConnections parse s e).2 = out at hcall
      cases hcall with
      | accepted addr hroom =>
          rw [List.length_cons]
          omega
      | read hlookup hends hopen =>
          unfold putConnection
          rw [List.length_map]
          exact hlimit
      | @gaveUp id =>
          have hle := List.length_filter_le (fun c : ℕ × Peer => c.1 ≠ id) s.connections
          unfold removeConnection
          dsimp only at hle ⊢
          omega
      | ended id what =>
          have hle := List.length_filter_le (fun c : ℕ × Peer => c.1 ≠ id) s.connections
          unfold removeConnection
          dsimp only at hle ⊢
          omega
      | signal => simp
      | _ => exact hlimit
  exact ⟨hinv.2, hinv.1.nodup⟩

theorem connections_limited_pieces :
    (Sample.looped.2.connections.length : ℤ) ≤ max 1 0 ∧
      (Sample.looped.2.connections.map Prod.fst).Nodup :=
  connections_limited Sample.looped_run

end CloudStore.Analysis
