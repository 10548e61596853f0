import CloudStore.Interface.Safety

/-!
# The trace of a run

The calls that a run makes, with the connections they are made on, newest first, and the
openings of connections among them. `run_trace` is the induction over runs call by call:
what holds of the empty trace at the start, and is kept by each opening, each end of a
connection or of a key, and each call that is issued, holds of the trace of every run.
-/

set_option autoImplicit false

namespace CloudStore.Interface

open CloudStore.Library (Bytes)
open CloudStore.Model

/-- An entry of a trace. -/
inductive TraceEntry where
  | opened (id : ℕ)
  | call (id : ℕ) (r : CallRecord World)

/-- The entries that an event adds. -/
def entriesOf (r : Library.Machine.Record ServerState Event Output) : List TraceEntry :=
  match r.event with
  | .connect id _ => if (r.before.conns id).isNone then [.opened id] else []
  | .frame id _ => r.output.calls.map (.call id)
  | _ => []

/-- The trace of a history, newest entry first. -/
def trace (hist : List (Library.Machine.Record ServerState Event Output)) : List TraceEntry :=
  hist.flatMap entriesOf

variable {env : Env}

variable (env) in
/-- The server after a call on a connection. -/
def afterCall (s : ServerState) (id : ℕ) (c : Connection) (call : Call) : ServerState where
  world := (runCall env s.world c call).1
  conns := Function.update s.conns id (some (runCall env s.world c call).2)

/-- **Every call that is issued keeps the server safe.** -/
theorem call_safe {s : ServerState} {id : ℕ} {c : Connection} {call : Call} (h : Safe env s)
    (hid : s.conns id = some c) (hissued : Issued env s.world c call) :
    Safe env (afterCall env s id c call) := by
  have hc := h.conns id c hid
  have hoperates := call_operates h.world hc hissued
  refine ⟨hoperates.sound h.world, fun id' c' hc' => ?_⟩
  by_cases heq : id' = id
  · simp only [afterCall, heq, Function.update_self, Option.some.injEq] at hc'
    exact hc' ▸ call_connOk h.world hc hissued
  · simp only [afterCall, Function.update_of_ne heq] at hc'
    exact (h.conns id' c' hc').later hoperates.inodes

variable (env) in
/-- A property of the trace and the state that every event keeps: openings and ends of
connections, ends of keys, changes of the disk, and calls one by one. -/
structure TraceInvariant (P : List TraceEntry → ServerState → Prop) : Prop where
  start : ∀ s, Server.Start env s → P [] s
  opened : ∀ tr s id ip, P tr s → s.conns id = none → P (.opened id :: tr)
    { s with conns := Function.update s.conns id (some { peerIp := ip }) }
  closed : ∀ tr s id, P tr s → P tr { s with conns := Function.update s.conns id none }
  expired : ∀ tr s key, P tr s → P tr { s with world := Server.expireKey s.world key }
  disk : ∀ tr s d, P tr s → P tr { s with world := { s.world with disk := d } }
  call : ∀ tr s id c call, Safe env s → P tr s → s.conns id = some c →
    Issued env s.world c call → P (.call id ⟨s.world, c, call⟩ :: tr) (afterCall env s id c call)

/-- What each call keeps, the calls of a frame keep. -/
theorem TraceInvariant.calls {P : List TraceEntry → ServerState → Prop} (hP : TraceInvariant env P)
    {id : ℕ} {c : Connection} {tr : List TraceEntry} {s : ServerState} (hsafe : Safe env s) (h : P tr s)
    (hid : s.conns id = some c) {rs : List (CallRecord World)} {w' : World} {c' : Connection}
    (hcalls : Calls env s.world c rs w' c') :
    Safe env { world := w', conns := Function.update s.conns id (some c') } ∧
      P (rs.map (.call id) ++ tr) { world := w', conns := Function.update s.conns id (some c') } := by
  induction hcalls with
  | nil =>
      have hsame : Function.update s.conns id (some c) = s.conns := by
        rw [← hid, Function.update_eq_self]
      rw [hsame]
      exact ⟨hsafe, h⟩
  | @cons rs w₁ c₁ call _ hissued ih =>
      obtain ⟨hsafe₁, h₁⟩ := ih
      have hid₁ : Function.update s.conns id (some c₁) id = some c₁ := Function.update_self ..
      have hafter : afterCall env { world := w₁, conns := Function.update s.conns id (some c₁) }
          id c₁ call = { world := (runCall env w₁ c₁ call).1
                         conns := Function.update s.conns id (some (runCall env w₁ c₁ call).2) } := by
        rw [afterCall, Function.update_idem]
      rw [← hafter]
      exact ⟨call_safe hsafe₁ hid₁ hissued, hP.call _ _ _ _ _ hsafe₁ h₁ hid₁ hissued⟩

/-- **The induction over runs, call by call.** -/
theorem run_trace {ok : ServerState → Event → Prop} {P : List TraceEntry → ServerState → Prop}
    (hP : TraceInvariant env P)
    {hist : List (Library.Machine.Record ServerState Event Output)} {s : ServerState}
    (run : (Server.machine env).Run (Server.Start env) ok hist s) : P (trace hist) s := by
  refine run.invariant_history (I := fun hist s => P (trace hist) s) hP.start ?_
  intro hist s e run h _
  have hsafe := run_safe run
  have htrace : trace ((Server.machine env).record s e :: hist) =
      entriesOf ((Server.machine env).record s e) ++ trace hist := rfl
  rw [htrace]
  cases e with
  | connect id ip =>
      cases hid : s.conns id with
      | none =>
          simp only [entriesOf, Library.Machine.record, Server.machine, Server.step, hid]
          exact hP.opened _ s id ip h hid
      | some c =>
          simp only [entriesOf, Library.Machine.record, Server.machine, Server.step, hid]
          exact h
  | close id => exact hP.closed _ s id h
  | expire key => exact hP.expired _ s key h
  | disk d => exact hP.disk _ s d h
  | frame id f =>
      cases hid : s.conns id with
      | none =>
          simp only [entriesOf, Library.Machine.record, Server.machine, Server.step, hid]
          exact h
      | some c =>
          simp only [entriesOf, Library.Machine.record, Server.machine, Server.step, hid]
          exact (hP.calls hsafe h hid (onFrame_calls f s.world c)).2

/-- A call of a trace was issued in a state that has the property with the entries before it. -/
def CameFrom (env : Env) (P : List TraceEntry → ServerState → Prop) (tr : List TraceEntry) : Prop :=
  ∀ newer id r older, tr = newer ++ .call id r :: older → ∃ s, Safe env s ∧ P older s ∧
    s.world = r.sys ∧ s.conns id = some r.conn ∧ Issued env r.sys r.conn r.call

theorem CameFrom.cons {P : List TraceEntry → ServerState → Prop} {tr : List TraceEntry} {e : TraceEntry}
    (h : CameFrom env P tr) (he : ∀ id r, e = .call id r → ∃ s, Safe env s ∧ P tr s ∧
      s.world = r.sys ∧ s.conns id = some r.conn ∧ Issued env r.sys r.conn r.call) :
    CameFrom env P (e :: tr) := by
  intro newer id r older heq
  cases newer with
  | nil =>
      obtain ⟨rfl, rfl⟩ := List.cons.inj heq
      exact he id r rfl
  | cons e' newer => exact h newer id r older (List.cons.inj heq).2

/-- **Every call of the trace of a run** was issued in a state with the property. -/
theorem run_calls {ok : ServerState → Event → Prop} {P : List TraceEntry → ServerState → Prop}
    (hP : TraceInvariant env P)
    {hist : List (Library.Machine.Record ServerState Event Output)} {s : ServerState}
    (run : (Server.machine env).Run (Server.Start env) ok hist s) :
    CameFrom env P (trace hist) := by
  have hboth : TraceInvariant env fun tr s => P tr s ∧ CameFrom env P tr := {
    start := fun s h => ⟨hP.start s h, by simp [CameFrom]⟩
    opened := fun tr s id ip h hnone => ⟨hP.opened tr s id ip h.1 hnone, h.2.cons (by simp)⟩
    closed := fun tr s id h => ⟨hP.closed tr s id h.1, h.2⟩
    expired := fun tr s key h => ⟨hP.expired tr s key h.1, h.2⟩
    disk := fun tr s d h => ⟨hP.disk tr s d h.1, h.2⟩
    call := by
      intro tr s id c call hsafe h hid hissued
      refine ⟨hP.call tr s id c call hsafe h.1 hid hissued, h.2.cons ?_⟩
      rintro id' r heq
      obtain ⟨rfl, rfl⟩ := TraceEntry.call.inj heq
      exact ⟨s, hsafe, h.1, rfl, hid, hissued⟩ }
  exact (run_trace hboth run).2

end CloudStore.Interface
