import CloudStore.Model.MysqlPool
import Mathlib.Data.List.Nodup
import Mathlib.Tactic.Common

/-!
# Conservation of connections

The pool keeps its connections, idle or held, until an `acquire` closes one that does not
answer and fails to connect another. Each such failure loses one place for good.
-/

set_option autoImplicit false

namespace CloudStore.Analysis

open CloudStore.Library (Bytes Action Machine)
open CloudStore.Model

/-- The pool has been constructed with `n` connections, and no `Conn` object lives. -/
def Constructed (n : ℕ) (s : Pooled) : Prop :=
  s.conns = [] ∧ ∃ ds : List Driver, ds.length = n ∧ (ds.filterMap Driver.init).Nodup ∧
    MysqlPool.construct ds {} = .ok s.pool

/-- `mysql_init` answers with a pointer that no open connection has. The connection that did
not answer the ping is closed by then. -/
def Fresh (s : Pooled) : Pooled.Event → Prop
  | .acquire d => ∀ m, d.init = some m → m ∉ s.pool.idle.tail ++ s.held
  | _ => True

/-- Idle and held connections are `n` together and distinct, and if no connection is held, no
`acquire` waits. -/
structure Conserved (n : ℕ) (s : Pooled) : Prop where
  count : s.pool.idle.length + s.held.length = n
  distinct : (s.pool.idle ++ s.held).Nodup
  ready : s.held = [] → ∀ d, (s.step (.acquire d)).2 = false

/-- An `acquire` whose connection does not answer and whose reconnection fails. -/
def reconnectFails (s : Pooled) : Pooled.Event → Bool
  | .acquire d => s.pool.idle ≠ [] && !d.pings && !(MysqlPool.connectOne d).isOk
  | _ => false

/-- Every connection is idle or held once, and the pool is not stopping. -/
structure Once (s : Pooled) : Prop where
  distinct : (s.pool.idle ++ s.held).Nodup
  running : s.pool.stopping = false

/-! ## Conn objects -/

theorem held_append (cs : List Conn) (c : Conn) :
    (cs ++ [c]).filterMap Conn.held = cs.filterMap Conn.held ++ c.held.toList := by
  rw [List.filterMap_append]
  cases h : c.held <;> simp [h]

/-- An object among others, as the place it takes. -/
theorem conns_split {cs : List Conn} {i : ℕ} {c : Conn} (h : cs[i]? = some c) :
    ∃ l r, cs = l ++ c :: r ∧ (∀ c', cs.set i c' = l ++ c' :: r) ∧ cs.eraseIdx i = l ++ r := by
  obtain ⟨hi, hc⟩ := List.getElem?_eq_some_iff.mp h
  refine ⟨cs.take i, cs.drop (i + 1), ?_, fun c' => ?_, List.eraseIdx_eq_take_drop_succ ..⟩
  · rw [← hc, List.getElem_cons_drop, List.take_append_drop]
  · rw [List.set_eq_take_append_cons_drop, if_pos hi]

/-- A move leaves the connection with one of the two objects. -/
theorem move_perm {cs : List Conn} {i : ℕ} {c : Conn} (h : cs[i]? = some c) :
    ((cs.set i c.emptied ++ [c.moved]).filterMap Conn.held).Perm (cs.filterMap Conn.held) := by
  obtain ⟨l, r, hcs, hset, -⟩ := conns_split h
  have hsource : c.emptied.held = none := rfl
  have hdest : c.moved.held = c.held := rfl
  rw [held_append, hset, hcs, hdest]
  simp only [List.filterMap_append, List.filterMap_cons, hsource]
  cases hc : c.held with
  | none => simp
  | some m =>
      rw [List.append_assoc]
      exact (@List.perm_append_comm _ (r.filterMap Conn.held) _).append_left _

/-- A destroyed object gives its connection back. -/
theorem destroy_perm {cs : List Conn} {i : ℕ} {c : Conn} (h : cs[i]? = some c) (p : MysqlPool) :
    ((c.destroy p).2.idle ++ (cs.eraseIdx i).filterMap Conn.held).Perm
      (p.idle ++ cs.filterMap Conn.held) ∧ (c.destroy p).2.stopping = p.stopping := by
  obtain ⟨l, r, hcs, -, herase⟩ := conns_split h
  rw [herase, hcs]
  unfold Conn.destroy
  cases hc : c.held with
  | none => simp [hc]
  | some m =>
      refine ⟨?_, rfl⟩
      simp only [MysqlPool.release, Action.change_apply, List.filterMap_append,
        List.filterMap_cons, hc, List.append_assoc, List.singleton_append]
      exact List.perm_middle.symm.append_left _

/-! ## Steps -/

/-- What `acquire` answers, and what it leaves idle. -/
theorem acquire_cases (d : Driver) {p : MysqlPool} (hp : p.stopping = false) :
    p.idle = [] ∧ MysqlPool.acquire d p = (.ok none, p) ∨
    ∃ m rest, p.idle = m :: rest ∧
      (d.pings = true ∧
        MysqlPool.acquire d p = (.ok (some (Conn.mk true (some m))), { p with idle := rest }) ∨
      (d.pings = false ∧ ∃ m', MysqlPool.connectOne d = .ok m' ∧
        MysqlPool.acquire d p = (.ok (some (Conn.mk true (some m'))), { p with idle := rest })) ∨
      d.pings = false ∧ ∃ e, MysqlPool.connectOne d = .error e ∧
        MysqlPool.acquire d p = (.error e, { p with idle := rest })) := by
  have hlook : (Action.look id : Act MysqlPool MysqlPool) p = (.ok p, p) := rfl
  cases hidle : p.idle with
  | nil =>
      left
      refine ⟨rfl, ?_⟩
      unfold MysqlPool.acquire
      rw [Action.bind_ok hlook]
      simp [hp, hidle]
  | cons m rest =>
      right
      refine ⟨m, rest, rfl, ?_⟩
      have hpop : MysqlPool.acquire d p = (do
          if d.pings then return some { pool := true, mysql := some m }
          else
            let m ← MysqlPool.connectOne d
            return some { pool := true, mysql := some m } : Act MysqlPool (Option Conn))
          { p with idle := rest } := by
        unfold MysqlPool.acquire
        rw [Action.bind_ok hlook, if_neg (by simp [hp])]
        simp only [hidle]
        rfl
      rw [hpop]
      cases hpings : d.pings with
      | true => exact Or.inl ⟨rfl, rfl⟩
      | false =>
          right
          cases hconnect : MysqlPool.connectOne d with
          | ok m' => exact Or.inl ⟨rfl, m', rfl, rfl⟩
          | error e => exact Or.inr ⟨rfl, e, rfl, rfl⟩

theorem connectOne_ok {d : Driver} {m : ℕ} (h : MysqlPool.connectOne d = .ok m) :
    d.init = some m := by
  unfold MysqlPool.connectOne at h
  cases hinit : d.init with
  | none => simp [hinit] at h
  | some m' =>
      cases hrefusal : d.refusal with
      | none => simpa [hinit, hrefusal] using h
      | some err => simp [hinit, hrefusal] at h

/-- **What one step does**: it keeps the connections, or puts a new one in the place of an idle
one, or loses an idle one. -/
theorem step_cases (s : Pooled) (e : Pooled.Event) (hs : s.pool.stopping = false) :
    (s.step e).1.pool.stopping = false ∧
    ((reconnectFails s e = false ∧
        ((s.step e).1.pool.idle ++ (s.step e).1.held).Perm (s.pool.idle ++ s.held)) ∨
      (∃ d m, e = .acquire d ∧ d.init = some m ∧ reconnectFails s e = false ∧ s.pool.idle ≠ [] ∧
        ((s.step e).1.pool.idle ++ (s.step e).1.held).Perm (m :: (s.pool.idle.tail ++ s.held))) ∨
      (reconnectFails s e = true ∧ s.pool.idle ≠ [] ∧
        (s.step e).1.pool.idle ++ (s.step e).1.held = s.pool.idle.tail ++ s.held)) := by
  cases e with
  | acquire d =>
      rcases acquire_cases d hs with ⟨hidle, hrun⟩ | ⟨m, rest, hidle, h⟩
      · simp only [Pooled.step, hrun, reconnectFails, hidle]
        exact ⟨hs, Or.inl ⟨by simp, by rw [← hidle]⟩⟩
      · rcases h with ⟨hpings, hrun⟩ | ⟨hpings, m', hconnect, hrun⟩ | ⟨hpings, e, hconnect, hrun⟩
        · simp only [Pooled.step, hrun, Pooled.held, held_append, reconnectFails, hidle, hpings]
          refine ⟨hs, Or.inl ⟨by simp, ?_⟩⟩
          rw [← List.append_assoc]
          exact List.perm_append_comm
        · simp only [Pooled.step, hrun, Pooled.held, held_append, reconnectFails, hidle, hpings,
            hconnect]
          refine ⟨hs, Or.inr (Or.inl ⟨d, m', rfl, connectOne_ok hconnect, by simp [Except.isOk, Except.toBool], by simp, ?_⟩)⟩
          rw [← List.append_assoc]
          exact List.perm_append_comm
        · simp only [Pooled.step, hrun, Pooled.held, reconnectFails, hidle, hpings, hconnect]
          exact ⟨hs, Or.inr (Or.inr ⟨by simp [Except.isOk, Except.toBool], by simp, rfl⟩)⟩
  | move i =>
      cases hc : s.conns[i]? with
      | none =>
          simp only [Pooled.step, hc]
          exact ⟨hs, Or.inl ⟨rfl, List.Perm.refl _⟩⟩
      | some c =>
          simp only [Pooled.step, hc]
          exact ⟨hs, Or.inl ⟨rfl, (move_perm hc).append_left _⟩⟩
  | destroy i =>
      cases hc : s.conns[i]? with
      | none =>
          simp only [Pooled.step, hc]
          exact ⟨hs, Or.inl ⟨rfl, List.Perm.refl _⟩⟩
      | some c =>
          simp only [Pooled.step, hc]
          obtain ⟨hperm, hstop⟩ := destroy_perm hc s.pool
          exact ⟨hstop.trans hs, Or.inl ⟨rfl, hperm⟩⟩

/-- A step loses one connection if a reconnection fails, and none otherwise. -/
theorem step_count {s : Pooled} {e : Pooled.Event} (hs : Once s) (hfresh : Fresh s e) :
    Once (s.step e).1 ∧
      (s.step e).1.pool.idle.length + (s.step e).1.held.length + (if reconnectFails s e then 1 else 0) =
        s.pool.idle.length + s.held.length := by
  have hdistinct := hs.distinct
  have htail : s.pool.idle ≠ [] → s.pool.idle.length = s.pool.idle.tail.length + 1 := by
    intro hne
    have hpos := List.length_pos_iff.mpr hne
    rw [List.length_tail]
    omega
  have hrest : (s.pool.idle.tail ++ s.held).Nodup :=
    hdistinct.sublist (List.Sublist.append_right (List.tail_sublist _) _)
  obtain ⟨hrunning, h | h | h⟩ := step_cases s e hs.running
  · obtain ⟨hkept, hperm⟩ := h
    refine ⟨⟨hperm.nodup_iff.mpr hdistinct, hrunning⟩, ?_⟩
    have hlen := hperm.length_eq
    rw [List.length_append, List.length_append] at hlen
    rw [hkept, hlen]
    simp
  · obtain ⟨d, m, rfl, hinit, hkept, hne, hperm⟩ := h
    have hnew : (m :: (s.pool.idle.tail ++ s.held)).Nodup :=
      List.nodup_cons.mpr ⟨hfresh m hinit, hrest⟩
    refine ⟨⟨hperm.nodup_iff.mpr hnew, hrunning⟩, ?_⟩
    have hlen := hperm.length_eq
    rw [List.length_append, List.length_cons, List.length_append] at hlen
    rw [hkept, hlen, htail hne]
    simp only [Bool.false_eq_true, if_false]
    omega
  · obtain ⟨hlost, hne, heq⟩ := h
    have hlen := congrArg List.length heq
    rw [List.length_append, List.length_append] at hlen
    refine ⟨⟨by rw [heq]; exact hrest, hrunning⟩, ?_⟩
    rw [hlost, hlen, htail hne]
    simp only [if_true]
    omega

/-! ## Runs -/

/-- The number of failed reconnections of a history. -/
def failures (hist : List (Machine.Record Pooled Pooled.Event Bool)) : ℕ :=
  hist.countP fun r => reconnectFails r.before r.event

theorem construct_idle {ds : List Driver} {p p' : MysqlPool}
    (h : MysqlPool.construct ds p = .ok p') :
    p'.idle = p.idle ++ ds.filterMap Driver.init ∧ p'.idle.length = p.idle.length + ds.length ∧
      p'.stopping = p.stopping := by
  induction ds generalizing p with
  | nil =>
      simp only [MysqlPool.construct, Except.ok.injEq] at h
      subst h
      simp
  | cons d ds ih =>
      unfold MysqlPool.construct at h
      cases hconnect : MysqlPool.connectOne d with
      | error e => simp [hconnect] at h
      | ok m =>
          simp only [hconnect] at h
          obtain ⟨hidle, hlen, hstop⟩ := ih h
          rw [List.length_append, List.length_singleton] at hlen
          refine ⟨?_, ?_, hstop⟩
          · rw [hidle, List.filterMap_cons, connectOne_ok hconnect, List.append_assoc]
            rfl
          · rw [hlen, List.length_cons]
            omega

/-- **Every run** keeps its connections distinct, and loses one at each failed reconnection. -/
theorem run_count {n : ℕ} {hist : List (Machine.Record Pooled Pooled.Event Bool)} {s : Pooled}
    (run : Pooled.machine.Run (Constructed n) Fresh hist s) :
    Once s ∧ s.pool.idle.length + s.held.length + failures hist = n := by
  apply run.invariant_history
  · rintro s ⟨hconns, ds, hlen, hnodup, hconstruct⟩
    obtain ⟨hidle, hcount, hstop⟩ := construct_idle hconstruct
    have hheld : s.held = [] := by rw [Pooled.held, hconns, List.filterMap_nil]
    rw [hheld]
    refine ⟨⟨?_, hstop⟩, ?_⟩
    · rw [hheld, List.append_nil, hidle]
      exact hnodup
    · rw [hcount, hlen]
      simp [failures]
  · rintro hist s e - ⟨honce, hcount⟩ hfresh
    obtain ⟨honce', hstep⟩ := step_count honce hfresh
    refine ⟨honce', ?_⟩
    have hsum : failures (Pooled.machine.record s e :: hist) =
        failures hist + if reconnectFails s e then 1 else 0 := List.countP_cons
    rw [hsum, ← hcount, ← hstep]
    change (s.step e).1.pool.idle.length + (s.step e).1.held.length + _ = _
    omega

/-- An `acquire` waits exactly if no connection is idle. -/
theorem acquire_waits {s : Pooled} (hs : s.pool.stopping = false) (d : Driver) :
    (s.step (.acquire d)).2 = true ↔ s.pool.idle = [] := by
  rcases acquire_cases d hs with ⟨hidle, hrun⟩ | ⟨m, rest, hidle, h⟩
  · simp [Pooled.step, hrun, hidle]
  · rw [hidle]
    rcases h with ⟨-, hrun⟩ | ⟨-, m', -, hrun⟩ | ⟨-, e, -, hrun⟩ <;> simp [Pooled.step, hrun]

/-- **Conservation.** A run conserves the connections of the pool exactly if none of its
`acquire` steps fails to reconnect. -/
theorem pool_conserves {n : ℕ} (hn : 1 ≤ n)
    {hist : List (Machine.Record Pooled Pooled.Event Bool)} {s : Pooled}
    (run : Pooled.machine.Run (Constructed n) Fresh hist s) :
    Conserved n s ↔ ∀ r ∈ hist, reconnectFails r.before r.event = false := by
  obtain ⟨honce, hcount⟩ := run_count run
  have hnone : failures hist = 0 ↔ ∀ r ∈ hist, reconnectFails r.before r.event = false := by
    simp [failures, List.countP_eq_zero]
  rw [← hnone]
  constructor
  · intro h
    have hcount' := h.count
    omega
  · intro hzero
    refine ⟨by omega, honce.distinct, fun hheld d => ?_⟩
    rw [Bool.eq_false_iff, ne_eq, acquire_waits honce.running]
    intro hidle
    rw [hheld, hidle, hzero] at hcount
    simp at hcount
    omega

/-- A pool of one connection. -/
def single : Pooled := { pool := { idle := [0], created := 1 } }

theorem single_constructed : Constructed 1 single :=
  ⟨rfl, [{ init := some 0 }], rfl, by simp, rfl⟩

/-- A connection is acquired, and its object destroyed. -/
theorem pool_conserves_single :
    Conserved 1 ((single.step (.acquire {})).1.step (.destroy 0)).1 := by
  have run := ((@Machine.Run.start _ _ _ Pooled.machine (Constructed 1) Fresh _ single_constructed).step
    (.acquire {}) (by simp [Fresh])).step (.destroy 0) trivial
  exact (pool_conserves (le_refl 1) run).mpr (by simp [Machine.record, reconnectFails])

/-- The only connection does not answer, and no other can be made: from then on every
`acquire` waits, with no `Conn` object alive. -/
theorem pool_drained : ∃ hist s, Pooled.machine.Run (Constructed 1) Fresh hist s ∧
    s.held = [] ∧ ¬ Conserved 1 s ∧ ∀ d, (s.step (.acquire d)).2 = true := by
  have run := (@Machine.Run.start _ _ _ Pooled.machine (Constructed 1) Fresh _ single_constructed).step
    (.acquire { pings := false }) (by simp [Fresh])
  have hheld : (Pooled.machine.step single (.acquire { pings := false })).1.held = [] := rfl
  have hwaits : ∀ d, ((Pooled.machine.step single (.acquire { pings := false })).1.step
      (.acquire d)).2 = true := fun d => rfl
  refine ⟨_, _, run, hheld, fun h => ?_, hwaits⟩
  exact absurd (h.ready hheld {}) (by rw [hwaits]; simp)

end CloudStore.Analysis
