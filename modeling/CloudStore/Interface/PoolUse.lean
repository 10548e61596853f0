import CloudStore.Interface.RelatedHandlers
import CloudStore.Interface.RelatedServices
import CloudStore.Model.PooledBackend
import Mathlib.Tactic.Common

/-!
# Connections that a request takes from the pool

A run gives back what it acquires, and none that holds at most `k` connections at one time
waits where `k` are idle. The levels are those of `Related`, so each service has its own.
-/

set_option autoImplicit false

namespace CloudStore.Interface

open CloudStore.Library (Bytes Action)
open CloudStore.Library.Action (Congruence Moves)
open CloudStore.Model
open CloudStore.Model.Connection
open CloudStore.Model.PoolState (scope pooled)

variable {σ : Type}

/-- The pool has `n` connections idle, and no `acquire` has waited. -/
structure Free (n : ℕ) (p : PoolState) : Prop where
  idle : p.pool.idle.length = n
  running : p.pool.stopping = false
  ready : p.waited = false

/-- How a run that holds at most `k` connections at one time uses the pool. -/
structure Spares (k : ℕ) (p p' : PoolState) : Prop where
  kept : ∀ n, Free n p → p'.waited = false → Free n p'
  calm : ∀ n, k ≤ n → Free n p → p'.waited = false
  stays : p.waited = true → p'.waited = true

namespace Spares

theorem refl (k : ℕ) (p : PoolState) : Spares k p p where
  kept _ h _ := h
  calm _ _ h := h.ready
  stays h := h

theorem trans (k : ℕ) (p p' p'' : PoolState) (h : Spares k p p') (h' : Spares k p' p'') :
    Spares k p p'' where
  kept n hn hcalm := by
    cases hw : p'.waited with
    | false => exact h'.kept n (h.kept n hn hw) hcalm
    | true => rw [h'.stays hw] at hcalm; cases hcalm
  calm n hk hn := h'.calm n hk (h.kept n hn (h.calm n hk hn))
  stays hw := h'.stays (h.stays hw)

theorem mono {k k' : ℕ} (hk : k ≤ k') {p p' : PoolState} (h : Spares k p p') : Spares k' p p' where
  kept := h.kept
  calm n hn := h.calm n (hk.trans hn)
  stays := h.stays

end Spares

/-- The runs of a program hold at most `k` connections at one time. -/
abbrev Sparing (k : ℕ) {α : Type} (a : Act (σ × PoolState) α) : Prop :=
  Moves (fun st st' : σ × PoolState => Spares k st.2 st'.2) a

namespace Sparing

variable {k : ℕ} {α β : Type}

theorem pure (x : α) : Sparing k (pure x : Act (σ × PoolState) α) := fun st => Spares.refl k st.2

theorem fail (code : ErrorCode) (msg : Bytes) :
    Sparing k (fail code msg : Act (σ × PoolState) α) := fun st => Spares.refl k st.2

theorem bind {a : Act (σ × PoolState) α} {f : α → Act (σ × PoolState) β} (ha : Sparing k a)
    (hf : ∀ x, Sparing k (f x)) : Sparing k (a >>= f) :=
  Moves.bind (fun st st' st'' => Spares.trans k st.2 st'.2 st''.2) ha hf

theorem tryCatch {a : Act (σ × PoolState) α} {h : Exn → Act (σ × PoolState) α} (ha : Sparing k a)
    (hh : ∀ e, Sparing k (h e)) : Sparing k (tryCatch a h) :=
  Moves.tryCatch (fun st st' st'' => Spares.trans k st.2 st'.2 st''.2) ha hh

theorem ite {c : Prop} [Decidable c] {a b : Act (σ × PoolState) α} (ha : Sparing k a)
    (hb : Sparing k b) : Sparing k (if c then a else b) := by
  split
  · exact ha
  · exact hb

end Sparing

/-- The programs that hold at most `k` connections at one time. -/
def spares (σ : Type) (k : ℕ) : Congruence Exn σ (σ × PoolState) :=
  Action.moved σ (Q := fun st st' => Spares k st.2 st'.2) (fun st => Spares.refl k st.2)
    fun st st' st'' => Spares.trans k st.2 st'.2 st''.2

/-! ## Scopes -/

/-- A connection is there: the scope runs its body with one less. -/
theorem scope_free {n : ℕ} {p : PoolState} (hp : Free (n + 1) p) :
    ∃ q, Free n q ∧ ∀ {α : Type} (a : Act (σ × PoolState) α) (s : σ),
      ∃ m, scope a (s, p) = ((a (s, q)).1, ((a (s, q)).2.1,
        { (a (s, q)).2.2 with
          pool := (MysqlPool.release m (a (s, q)).2.2.pool).2 })) := by
  obtain ⟨pool, waited⟩ := p
  obtain ⟨hidle, hrun, hready⟩ := hp
  obtain ⟨idle, created, stopping⟩ := pool
  cases idle with
  | nil => cases hidle
  | cons m rest =>
      refine ⟨⟨⟨rest, created, stopping⟩, waited⟩, ⟨Nat.succ.inj hidle, hrun, hready⟩, ?_⟩
      intro α a s
      refine ⟨m, ?_⟩
      have hacquire : MysqlPool.acquire {} ⟨m :: rest, created, stopping⟩ =
          (.ok (some ⟨true, some m⟩), ⟨rest, created, stopping⟩) := by
        simp only at hrun
        simp [MysqlPool.acquire, Action.bind_apply, hrun]
      unfold scope
      simp only [hacquire]
      rfl

theorem scope_waited {n : ℕ} {p : PoolState} (hp : Free (n + 1) p) :
    ∃ q, Free n q ∧ ∀ {α : Type} (a : Act (σ × PoolState) α) (s : σ),
      (scope a (s, p)).2.2.waited = (a (s, q)).2.2.waited := by
  obtain ⟨q, hq, hscope⟩ := @scope_free σ n p hp
  refine ⟨q, hq, fun a s => ?_⟩
  obtain ⟨m, hrun⟩ := hscope a s
  rw [hrun]

/-- None is there: the scope waits. -/
theorem scope_empty {p : PoolState} (hp : Free 0 p) {α : Type} (a : Act (σ × PoolState) α)
    (s : σ) : scope a (s, p) = a (s, { p with waited := true }) := by
  obtain ⟨hidle, hrun, -⟩ := hp
  have hacquire : MysqlPool.acquire {} p.pool = (.ok none, p.pool) := by
    simp [MysqlPool.acquire, Action.bind_apply, hrun, List.eq_nil_of_length_eq_zero hidle]
  unfold scope
  simp only [hacquire]

theorem Free.release {n m : ℕ} {p : PoolState} (h : Free n p) :
    Free (n + 1) { p with pool := (MysqlPool.release m p.pool).2 } where
  idle := by simp [MysqlPool.release, h.idle]
  running := h.running
  ready := h.ready

/-- A scope of a run that waits already. -/
theorem scope_stays {k : ℕ} {α : Type} {a : Act (σ × PoolState) α}
    (ha : Sparing k a) (s : σ) {p : PoolState}
    (hp : p.waited = true) : (scope a (s, p)).2.2.waited = true := by
  unfold scope
  rcases MysqlPool.acquire {} p.pool with ⟨e | c, q⟩
  · exact hp
  · cases c with
    | none => exact (ha (s, { p with waited := true })).stays rfl
    | some c => exact (ha (s, { p with pool := q })).stays hp

/-- A scope holds one connection more than its body. -/
theorem scope_spares {k : ℕ} {α : Type} {a : Act (σ × PoolState) α}
    (ha : Sparing k a) :
    Sparing (k + 1) (scope a) := by
  rintro ⟨s, p⟩
  refine ⟨?_, ?_, scope_stays ha s⟩
  · intro n hn hcalm
    cases n with
    | zero =>
        rw [scope_empty hn] at hcalm
        rw [(ha _).stays rfl] at hcalm
        cases hcalm
    | succ n =>
        obtain ⟨q, hq, hrun⟩ := @scope_free σ n p hn
        obtain ⟨m, hrun⟩ := hrun a s
        rw [hrun] at hcalm ⊢
        exact ((ha (s, q)).kept n hq hcalm).release
  · intro n hk hn
    cases n with
    | zero => omega
    | succ n =>
        obtain ⟨q, hq, hrun⟩ := @scope_free σ n p hn
        obtain ⟨m, hrun⟩ := hrun a s
        rw [hrun]
        exact (ha (s, q)).calm n (Nat.le_of_succ_le_succ hk) hq

/-- A backend with a pool is related to the backend by the connections it holds. -/
theorem pooled_related (b : Backend σ) : Related (spares σ) b (pooled b) :=
  beside_related (fun k _ _ (st : σ × PoolState) => Spares.refl k st.2) fun _ _ _ _ ha => scope_spares ha

theorem pooled_selects (b : Backend σ) : SelectsRelated (spares σ) b (pooled b) :=
  beside_selects fun k _ _ (st : σ × PoolState) => Spares.refl k st.2

/-! ## Frames -/

/-- What a frame does to the pool: the calls since the state `t` are `new`, and a connection
is waited for if and only if one of these nests. -/
def Uses (nests : σ → Call → Prop) (n : ℕ) (t t' : Turn (σ × PoolState)) : Prop :=
  ∃ new, t'.calls = new ++ t.calls ∧ (t.sys.2.waited = true → t'.sys.2.waited = true) ∧
    (Free n t.sys.2 → (t'.sys.2.waited = false → Free n t'.sys.2) ∧
      (t'.sys.2.waited = true ↔ ∃ r ∈ new, nests r.sys.1 r.call))

section

variable {nests : σ → Call → Prop} {n : ℕ}

theorem Uses.of_pool {t t' : Turn (σ × PoolState)} (hcalls : t'.calls = t.calls)
    (hpool : t'.sys.2 = t.sys.2) : Uses nests n t t' := by
  refine ⟨[], hcalls, fun h => hpool ▸ h, fun h => ⟨fun _ => hpool ▸ h, ?_⟩⟩
  rw [hpool, h.ready]
  simp

theorem Uses.refl (t : Turn (σ × PoolState)) : Uses nests n t t := Uses.of_pool rfl rfl

theorem Uses.trans (t t' t'' : Turn (σ × PoolState)) (h : Uses nests n t t')
    (h' : Uses nests n t' t'') : Uses nests n t t'' := by
  obtain ⟨new, hcalls, hstays, huse⟩ := h
  obtain ⟨new', hcalls', hstays', huse'⟩ := h'
  refine ⟨new' ++ new, by rw [hcalls', hcalls, List.append_assoc], fun h => hstays' (hstays h), ?_⟩
  intro hfree
  obtain ⟨hkept, hiff⟩ := huse hfree
  cases hw : t'.sys.2.waited with
  | true =>
      have hw' := hstays' hw
      obtain ⟨r, hr, hnests⟩ := hiff.mp hw
      refine ⟨fun h => ?_, fun _ => ⟨r, List.mem_append_right _ hr, hnests⟩, fun _ => hw'⟩
      rw [hw'] at h
      cases h
  | false =>
      obtain ⟨hkept', hiff'⟩ := huse' (hkept hw)
      refine ⟨hkept', hiff'.trans ⟨?_, ?_⟩⟩
      · rintro ⟨r, hr, hnests⟩
        exact ⟨r, List.mem_append_left _ hr, hnests⟩
      · rintro ⟨r, hr, hnests⟩
        rcases List.mem_append.mp hr with hr | hr
        · exact ⟨r, hr, hnests⟩
        · have := hiff.mpr ⟨r, hr, hnests⟩
          rw [hw] at this
          cases this

/-- The programs of a turn that use the pool so. -/
def uses (nests : σ → Call → Prop) (n : ℕ) : Congruence Exn (Turn σ) (Turn (σ × PoolState)) :=
  Action.moved (Turn σ) (@Uses.refl σ nests n) Uses.trans

/-- A call waits if and only if it nests. -/
def Exactly (nests : σ → Call → Prop) (n : ℕ) {α : Type} (c : Call)
    (a : Act (σ × PoolState) α) : Prop :=
  ∀ st : σ × PoolState, (st.2.waited = true → (a st).2.2.waited = true) ∧
    (Free n st.2 → ((a st).2.2.waited = false → Free n (a st).2.2) ∧
      ((a st).2.2.waited = true ↔ nests st.1 c))

/-- A call that holds no more connections than are idle. -/
theorem exactly_of_spares {k : ℕ} (hk : k ≤ n) {c : Call} (hc : ∀ s, ¬ nests s c) {α : Type}
    {a : Act (σ × PoolState) α} (ha : Sparing k a) :
    Exactly nests n c a := by
  intro st
  have h := ha st
  refine ⟨h.stays, fun hfree => ⟨h.kept n hfree, ?_⟩⟩
  rw [h.calm n hk hfree]
  simp [hc]

theorem serve_uses {α : Type} {c : Call} {a : Act σ α} {a' : Act (σ × PoolState) α}
    (h : Exactly nests n c a') : (uses nests n).rel (serve c a) (serve c a') := by
  intro t
  obtain ⟨hstays, huse⟩ := h t.sys
  refine ⟨[⟨t.sys, t.conn, c⟩], rfl, hstays, fun hfree => ?_⟩
  obtain ⟨hkept, hiff⟩ := huse hfree
  refine ⟨hkept, hiff.trans ?_⟩
  simp

/-- The programs beside an upload session that hold at most `k` connections at one time. -/
def sparesBeside (σ : Type) (k : ℕ) :
    Congruence Exn (σ × UploadSession) ((σ × PoolState) × UploadSession) :=
  Action.moved (σ × UploadSession) (Q := fun st st' => Spares k st.1.2 st'.1.2)
    (fun st => Spares.refl k st.1.2) fun st st' st'' => Spares.trans k st.1.2 st'.1.2 st''.1.2

theorem session_spares (k : ℕ) : SessionRelated (spares σ k) (sparesBeside σ k) where
  look st := Spares.refl k st.1.2
  setSession _ st := Spares.refl k st.1.2
  onSystem _ _ h st := h st.1

theorem turn_uses (hn : 1 ≤ n) (hplain : ∀ s c, Nesting c = false → ¬ nests s c) :
    TurnRelated (spares σ 1) (sparesBeside σ 1) (uses nests n) where
  fields t := Uses.refl t
  assign _ _ := Uses.of_pool rfl rfl
  send _ _ := Uses.of_pool rfl rfl
  record c hc t := by
    refine ⟨[⟨t.sys, t.conn, c⟩], rfl, id, fun hfree => ⟨fun _ => hfree, ?_⟩⟩
    have hready : t.sys.2.waited = false := hfree.ready
    simp [record, hready, hplain _ _ hc]
  system a a' h t := by
    have h := h t.sys
    refine ⟨[], rfl, h.stays, fun hfree => ⟨h.kept n hfree, ?_⟩⟩
    have hcalm : (Connection.system a' t).2.sys.2.waited = false := h.calm n hn hfree
    rw [hcalm]
    simp
  serve c _ _ _ hc h := serve_uses (exactly_of_spares hn (fun s => hplain s c hc) h)
  serveUpload c _ _ a' hc h t := by
    have h := h (t.sys, t.conn.upload)
    refine ⟨[⟨t.sys, t.conn, c⟩], rfl, h.stays, fun hfree => ⟨h.kept n hfree, ?_⟩⟩
    have hcalm : (serveUpload c a' t).2.sys.2.waited = false := h.calm n hn hfree
    rw [hcalm]
    simp [hplain _ _ hc]

/-- **What a frame does to a pool**, if that is known of the calls that nest. -/
theorem onFrame_uses {b : Backend σ} (hn : 1 ≤ n) (hplain : ∀ s c, Nesting c = false → ¬ nests s c)
    (hlogin : ∀ u p ip, Exactly nests n (.login u p ip) (AuthService.login (pooled b) u p ip))
    (hremove : ∀ s p v, Exactly nests n (.removeUserPath s p v)
      (TransferService.removeUserPath (pooled b) s p v)) (f : Frame) (t : Turn (σ × PoolState)) :
    Uses nests n t (onFrame (pooled b) f t).2 :=
  (handled_of (pooled_related b) (pooled_selects b) (session_spares 1) (turn_uses hn hplain)
    (fun u p ip => serve_uses (hlogin u p ip)) fun s p v => serve_uses (hremove s p v)).onFrame f t

/-- Two connections are enough for every frame. -/
theorem onFrame_spares (b : Backend σ) (hn : 2 ≤ n) {s : σ} {p : PoolState} (hp : Free n p)
    (c : Connection) (f : Frame) :
    (onFrame (pooled b) f { sys := (s, p), conn := c }).2.sys.2.waited = false := by
  obtain ⟨new, -, -, huse⟩ := @onFrame_uses σ (fun _ _ => False) n b
    (Nat.one_le_of_lt hn) (fun _ _ _ => id)
    (fun u p ip => exactly_of_spares hn (fun _ => id) ((pooled_related b).login 0 (pooled_selects b) u p ip))
    (fun s p v => exactly_of_spares hn (fun _ => id)
      ((pooled_related b).removeUserPath 0 (pooled_selects b) s p v)) f
    { sys := (s, p), conn := c }
  have hiff := (huse hp).2
  simpa using hiff

end

end CloudStore.Interface
