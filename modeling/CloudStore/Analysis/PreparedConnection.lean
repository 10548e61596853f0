import CloudStore.Library.Machine
import CloudStore.Model.RedisConnection

/-!
# Commands on a prepared connection

A method of `RedisStore` sends its command on whatever context `ensure` leaves. After a refused
`AUTH` or `SELECT` that context has no error, so the next method takes it as it is.
-/

set_option autoImplicit false

namespace CloudStore.Analysis

open CloudStore.Library (Bytes Machine Action)
open CloudStore.Library.Action (bind_ok bind_error)
open CloudStore.Model
open CloudStore.Model.RedisConnection

/-- A call of a method, with what becomes of its steps. -/
structure MethodCall where
  method : Method
  outcomes : Outcomes

/-- The store as a machine. -/
def redisStore (password : Bytes) : Machine Store MethodCall Unit where
  step := fun s e => (e.method.call password e.outcomes s, ())

/-- The store behind its constructor. -/
def StoreConstructed (password : Bytes) (s : Store) : Prop :=
  ∃ o, ensure password o {} = (.ok (), s)

/-- `AUTH`, where there is a password, and `SELECT` have succeeded on the connection. -/
def Prepared (password : Bytes) (c : Context) : Prop :=
  (password ≠ [] → c.authed = true) ∧ c.selected = true

/-- The reply is an error. -/
def IsError (answer : Option RedisReply) : Prop := ∃ e, answer = some (.error e)

/-- There is a reply, and it is no error. -/
def Succeeds (answer : Option RedisReply) : Prop := answer ≠ none ∧ ¬ IsError answer

/-- The call connects anew, and the server answers `AUTH` or `SELECT` with an error. -/
structure HandshakeRefused (password : Bytes) (s : Store) (o : Outcomes) : Prop where
  anew : ∀ c, s.ctx = some c → c.err = true
  connects : o.connect = .connected
  refused : password ≠ [] ∧ IsError o.auth ∨
    (password ≠ [] → Succeeds o.auth) ∧ IsError o.select

/-! ## One call -/

variable {password : Bytes} {o : Outcomes} {s : Store}

/-- The context is one that a method sends on, although it is not prepared. -/
def Broken (password : Bytes) (s : Store) : Prop :=
  ∃ c, s.ctx = some c ∧ c.err = false ∧ ¬ Prepared password c

/-- What a command of the handshake does: the server accepts it, or refuses it, or there is no
reply. -/
theorem greet_cases (answer : Option RedisReply) (accept : Context → Context)
    (failure missing : String) (c : Context) (issued : List Context) :
    (Succeeds answer ∧ greet answer accept failure missing ⟨some c, issued⟩ =
      (.ok (), ⟨some (accept c), issued⟩)) ∨
    (IsError answer ∧ ∃ e, greet answer accept failure missing ⟨some c, issued⟩ =
      (.error e, ⟨some c, issued⟩)) ∨
    (answer = none ∧ ∃ e, greet answer accept failure missing ⟨some c, issued⟩ =
      (.error e, ⟨some { c with err := true }, issued⟩)) := by
  cases answer with
  | none => exact Or.inr (Or.inr ⟨rfl, _, rfl⟩)
  | some r =>
      cases r with
      | error e => exact Or.inr (Or.inl ⟨⟨e, rfl⟩, _, rfl⟩)
      | status text => exact Or.inl ⟨⟨by simp, by simp [IsError]⟩, rfl⟩
      | string text => exact Or.inl ⟨⟨by simp, by simp [IsError]⟩, rfl⟩
      | integer n => exact Or.inl ⟨⟨by simp, by simp [IsError]⟩, rfl⟩
      | nil => exact Or.inl ⟨⟨by simp, by simp [IsError]⟩, rfl⟩

/-- The `SELECT` of a connection on which `AUTH` is done. -/
theorem select_spec {c : Context} (herr : c.err = false) (hselected : c.selected = false)
    (hauthed : password ≠ [] → c.authed = true) (issued : List Context) :
    ∃ r ctx, selectDb o ⟨some c, issued⟩ = (r, ⟨ctx, issued⟩) ∧
      (r = .ok () → ∃ c', ctx = some c' ∧ c'.err = false ∧ Prepared password c') ∧
      (Broken password ⟨ctx, issued⟩ ↔ IsError o.select) := by
  rcases greet_cases o.select (fun c => { c with selected := true }) "redis select failed: "
    "select failed" c issued with ⟨hsucceeds, h⟩ | ⟨herror, e, h⟩ | ⟨hnone, e, h⟩
  · refine ⟨_, _, h, fun _ => ⟨_, rfl, herr, hauthed, rfl⟩, iff_of_false ?_ hsucceeds.2⟩
    rintro ⟨c', hc', -, hnot⟩
    obtain rfl := Option.some.inj hc'
    exact hnot ⟨hauthed, rfl⟩
  · refine ⟨_, _, h, by simp, iff_of_true ⟨c, rfl, herr, ?_⟩ herror⟩
    intro hprepared
    simp [hprepared.2] at hselected
  · refine ⟨_, _, h, by simp, iff_of_false ?_ (by simp [hnone, IsError])⟩
    rintro ⟨c', hc', herr', -⟩
    obtain rfl := Option.some.inj hc'
    simp at herr'

/-- **The handshake**: it ends with a prepared connection; where the server refuses it, with one
that is not prepared and has no error; and else with one that the next call replaces. -/
theorem reconnect_spec (hnew : ∀ c, s.ctx = some c → c.err = true) :
    ∃ r ctx, reconnect password o s = (r, { s with ctx := ctx }) ∧
      (r = .ok () → ∃ c, ctx = some c ∧ c.err = false ∧ Prepared password c) ∧
      (Broken password { s with ctx := ctx } ↔ HandshakeRefused password s o) := by
  obtain ⟨ctx, issued⟩ := s
  have hunconnected : o.connect ≠ .connected → ¬ HandshakeRefused password ⟨ctx, issued⟩ o :=
    fun hne h => hne h.connects
  have hnone : ¬ Broken password ⟨none, issued⟩ := by
    rintro ⟨c, hc, -⟩
    simp at hc
  cases hconnect : o.connect with
  | allocFailed =>
      have hrun : reconnect password o ⟨ctx, issued⟩ =
          (.error (.std (str "redis connect failed: alloc failed")), ⟨none, issued⟩) := by
        unfold reconnect
        rw [hconnect]
        rfl
      rw [hrun]
      exact ⟨_, none, rfl, by simp, iff_of_false hnone (hunconnected (by simp [hconnect]))⟩
  | failed errstr =>
      have hrun : reconnect password o ⟨ctx, issued⟩ =
          (.error (.std (str "redis connect failed: " ++ errstr)), ⟨none, issued⟩) := by
        unfold reconnect
        rw [hconnect]
        rfl
      rw [hrun]
      exact ⟨_, none, rfl, by simp, iff_of_false hnone (hunconnected (by simp [hconnect]))⟩
  | connected =>
      have hrun : reconnect password o ⟨ctx, issued⟩ =
          (authenticate password o >>= fun _ => selectDb o) ⟨some {}, issued⟩ := by
        unfold reconnect
        rw [hconnect]
        rfl
      rw [hrun]
      by_cases hpassword : password = []
      · have hskip : authenticate password o ⟨some {}, issued⟩ = (.ok (), ⟨some {}, issued⟩) := by
          unfold authenticate
          rw [if_pos hpassword]
          rfl
        rw [bind_ok hskip]
        obtain ⟨r, ctx', h, hok, hbroken⟩ := @select_spec password o {} rfl rfl
          (fun hne => absurd hpassword hne) issued
        refine ⟨r, ctx', h, hok, hbroken.trans ?_⟩
        constructor
        · exact fun herror => ⟨hnew, hconnect, Or.inr ⟨fun hne => absurd hpassword hne, herror⟩⟩
        · intro hrefused
          exact (hrefused.refused.resolve_left fun h => h.1 hpassword).2
      · unfold authenticate
        rw [if_neg hpassword]
        rcases greet_cases o.auth (fun c => { c with authed := true }) "redis auth failed: "
          "auth failed" {} issued with ⟨hsucceeds, h⟩ | ⟨herror, e, h⟩ | ⟨hlost, e, h⟩
        · rw [bind_ok h]
          obtain ⟨r, ctx', h, hok, hbroken⟩ := @select_spec password o
            { authed := true } rfl rfl (fun _ => rfl) issued
          refine ⟨r, ctx', h, hok, hbroken.trans ?_⟩
          constructor
          · exact fun herror => ⟨hnew, hconnect, Or.inr ⟨fun _ => hsucceeds, herror⟩⟩
          · intro hrefused
            exact (hrefused.refused.resolve_left fun h => hsucceeds.2 h.2).2
        · rw [bind_error h]
          refine ⟨_, _, rfl, by simp, iff_of_true ?_ ⟨hnew, hconnect, Or.inl ⟨hpassword, herror⟩⟩⟩
          exact ⟨{}, rfl, rfl, fun hprepared => by simpa using hprepared.2⟩
        · rw [bind_error h]
          refine ⟨_, _, rfl, by simp, iff_of_false ?_ fun hrefused => ?_⟩
          · rintro ⟨c, hc, herr, -⟩
            obtain rfl := Option.some.inj hc
            simp at herr
          · cases hrefused.refused with
            | inl h => simp [hlost, IsError] at h
            | inr h => exact (h.1 hpassword).1 hlost

/-- What is left of a method behind `ensure`: the command is sent, and without a reply the context
has an error. -/
theorem command_sends {s₁ : Store} {c : Context} (hensure : ensure password o s = (.ok (), s₁))
    (hc : s₁.ctx = some c) : ∃ c', (c' = c ∨ c'.err = true) ∧
      (command password o s).2 = ⟨some c', c :: s₁.issued⟩ := by
  have hissue : (Action.change fun s : Store => { s with issued := s.ctx.toList ++ s.issued } :
      Act Store Unit) s₁ = (.ok (), ⟨some c, c :: s₁.issued⟩) := by
    simp [hc]
  unfold command
  rw [bind_ok hensure, bind_ok hissue]
  cases o.command with
  | none => exact ⟨{ c with err := true }, Or.inr rfl, rfl⟩
  | some r => cases r <;> exact ⟨c, Or.inl rfl, rfl⟩

theorem ensure_taken {c : Context} (hc : s.ctx = some c) (herr : c.err = false) :
    ensure password o s = (.ok (), s) := by
  unfold ensure
  rw [bind_ok (Action.look_apply Store.ctx s), hc]
  dsimp only
  rw [if_pos herr]
  rfl

theorem ensure_anew (hnew : ∀ c, s.ctx = some c → c.err = true) :
    ensure password o s = reconnect password o s := by
  unfold ensure
  rw [bind_ok (Action.look_apply Store.ctx s)]
  cases hc : s.ctx with
  | none => rfl
  | some c =>
      dsimp only
      rw [if_neg (by simp [hnew c hc])]

/-- A command on a context that is prepared, or that is replaced: it is sent on a prepared
connection, if at all, and a refused handshake leaves a broken context. -/
theorem command_prepared (h : ¬ Broken password s) :
    (∃ sent, (command password o s).2.issued = sent ++ s.issued ∧ ∀ c ∈ sent, Prepared password c) ∧
      (Broken password (command password o s).2 ↔ HandshakeRefused password s o) := by
  have hsent : ∀ {s₁ : Store} {c : Context}, ensure password o s = (.ok (), s₁) → s₁.ctx = some c →
      s₁.issued = s.issued → Prepared password c →
      (∃ sent, (command password o s).2.issued = sent ++ s.issued ∧ ∀ c ∈ sent, Prepared password c) ∧
        ¬ Broken password (command password o s).2 := by
    intro s₁ c hensure hc hissued hprepared
    obtain ⟨c', hc', hcommand⟩ := command_sends hensure hc
    rw [hcommand, hissued]
    refine ⟨⟨[c], rfl, by simpa using hprepared⟩, ?_⟩
    rintro ⟨c'', hc'', herr, hnot⟩
    obtain rfl := Option.some.inj hc''
    cases hc' with
    | inl heq => exact hnot (heq ▸ hprepared)
    | inr herr' => simp [herr'] at herr
  by_cases hnew : ∀ c, s.ctx = some c → c.err = true
  · obtain ⟨r, ctx, hrun, hok, hbroken⟩ := @reconnect_spec password o s hnew
    rw [← ensure_anew hnew] at hrun
    cases r with
    | ok u =>
        obtain ⟨c, rfl, herr, hprepared⟩ := hok rfl
        obtain ⟨hissued, hsound⟩ := hsent hrun rfl rfl hprepared
        refine ⟨hissued, iff_of_false hsound fun hrefused => ?_⟩
        obtain ⟨c', hc', -, hnot⟩ := hbroken.mpr hrefused
        obtain rfl := Option.some.inj hc'
        exact hnot hprepared
    | error e =>
        have hcommand : command password o s = (.error e, { s with ctx := ctx }) := by
          unfold command
          rw [bind_error hrun]
        rw [hcommand]
        exact ⟨⟨[], rfl, by simp⟩, hbroken⟩
  · push Not at hnew
    obtain ⟨c, hc, herr⟩ := hnew
    have herr : c.err = false := by simpa using herr
    have hprepared : Prepared password c := by
      by_contra hnot
      exact h ⟨c, hc, herr, hnot⟩
    obtain ⟨hissued, hsound⟩ := hsent (ensure_taken hc herr) hc rfl hprepared
    refine ⟨hissued, iff_of_false hsound fun hrefused => ?_⟩
    simp [hrefused.anew c hc] at herr

/-- A command on a broken context is sent on it. -/
theorem command_broken (h : Broken password s) :
    ∃ c, ¬ Prepared password c ∧ (command password o s).2.issued = c :: s.issued := by
  obtain ⟨c, hc, herr, hnot⟩ := h
  obtain ⟨c', -, hcommand⟩ := command_sends (ensure_taken hc herr) hc
  exact ⟨c, hnot, by rw [hcommand]⟩

theorem command_keeps_issued (c : Context) (hc : c ∈ s.issued) :
    c ∈ (command password o s).2.issued := by
  by_cases h : Broken password s
  · obtain ⟨c', -, hissued⟩ := @command_broken password o s h
    rw [hissued]
    exact List.mem_cons_of_mem c' hc
  · obtain ⟨⟨sent, hissued, -⟩, -⟩ := @command_prepared password o s h
    rw [hissued]
    exact List.mem_append_right sent hc

/-- A method does to the store what its command does. -/
theorem call_eq (m : Method) : m.call password o s = (command password o s).2 := by
  have hdrop : ∀ {α β : Type} (a : Act Store α) (f : α → Act Store β), (∀ x t, (f x t).2 = t) →
      ((a >>= f) s).2 = (a s).2 := by
    intro α β a f hf
    rw [Action.bind_apply]
    rcases a s with ⟨e | x, s'⟩
    · rfl
    · exact hf x s'
  have hadd : (cmdSAdd password o s).2 = (command password o s).2 :=
    hdrop _ _ fun x t => by cases x with
      | none => rfl
      | some r => cases r <;> rfl
  cases m with
  | ping => exact hdrop _ _ fun x t => rfl
  | cmdGet =>
      exact hdrop _ _ fun x t => by cases x with
        | none => rfl
        | some r => cases r <;> rfl
  | cmdSetEx => exact hdrop _ _ fun x t => rfl
  | cmdSet => exact hdrop _ _ fun x t => rfl
  | cmdDel => exact hdrop _ _ fun x t => rfl
  | cmdSAdd => exact hadd
  | cmdSRem => exact hadd
  | cmdSCard => exact hadd

/-! ## Any number of calls -/

/-- The record is of a call whose handshake the server refused. -/
def RefusedAt (password : Bytes) (r : Machine.Record Store MethodCall Unit) : Prop :=
  HandshakeRefused password r.before r.event.outcomes

/-- The stages of a store: no handshake was refused; the one of the last call was; or an earlier one
was, and a command was sent on its connection. -/
inductive Stages (password : Bytes) (hist : List (Machine.Record Store MethodCall Unit)) (s : Store) :
    Prop
  | sound (hnone : ∀ r ∈ hist, ¬ RefusedAt password r) (hs : ¬ Broken password s)
      (hissued : ∀ c ∈ s.issued, Prepared password c)
  | refused {r : Machine.Record Store MethodCall Unit}
      {older : List (Machine.Record Store MethodCall Unit)} (hhist : hist = r :: older)
      (hr : RefusedAt password r) (hnone : ∀ r ∈ older, ¬ RefusedAt password r) (hs : Broken password s)
      (hissued : ∀ c ∈ s.issued, Prepared password c)
  | sent (hsome : ∃ r ∈ hist.tail, RefusedAt password r) (hissued : ∃ c ∈ s.issued, ¬ Prepared password c)

theorem Stages.step {hist : List (Machine.Record Store MethodCall Unit)}
    (h : Stages password hist s) (e : MethodCall) :
    Stages password ((redisStore password).record s e :: hist) ((redisStore password).step s e).1 := by
  have hstep : ((redisStore password).step s e).1 = (command password e.outcomes s).2 := call_eq e.method
  rw [hstep]
  cases h with
  | sound hnone hs hissued =>
      obtain ⟨⟨sent, hsent, hprepared⟩, hbroken⟩ := @command_prepared password e.outcomes s hs
      have hissued' : ∀ c ∈ (command password e.outcomes s).2.issued, Prepared password c := by
        intro c hc
        rw [hsent] at hc
        cases List.mem_append.mp hc with
        | inl hc => exact hprepared c hc
        | inr hc => exact hissued c hc
      by_cases hrefused : HandshakeRefused password s e.outcomes
      · exact .refused rfl hrefused hnone (hbroken.mpr hrefused) hissued'
      · refine .sound (fun r hr => ?_) (fun h => hrefused (hbroken.mp h)) hissued'
        cases List.mem_cons.mp hr with
        | inl heq =>
            subst heq
            exact hrefused
        | inr hr => exact hnone r hr
  | refused hhist hr hnone hs hissued =>
      obtain ⟨c, hc, hsent⟩ := @command_broken password e.outcomes s hs
      refine .sent ⟨_, ?_, hr⟩ ⟨c, ?_, hc⟩
      · rw [hhist]
        exact List.mem_cons_self
      · rw [hsent]
        exact List.mem_cons_self
  | sent hsome hissued =>
      obtain ⟨r, hr, hrefused⟩ := hsome
      obtain ⟨c, hc, hnot⟩ := hissued
      exact .sent ⟨r, List.mem_of_mem_tail hr, hrefused⟩ ⟨c, command_keeps_issued c hc, hnot⟩

theorem constructed_sound (h : StoreConstructed password s) : ¬ Broken password s ∧ s.issued = [] := by
  obtain ⟨o, hrun⟩ := h
  have hnew : ∀ c, ({} : Store).ctx = some c → c.err = true := by simp
  obtain ⟨r, ctx, hreconnect, hok, -⟩ := @reconnect_spec password o {} hnew
  rw [ensure_anew hnew, hreconnect] at hrun
  obtain ⟨rfl, rfl⟩ := Prod.mk.inj hrun
  obtain ⟨c, rfl, -, hprepared⟩ := hok rfl
  refine ⟨?_, rfl⟩
  rintro ⟨c', hc', -, hnot⟩
  obtain rfl := Option.some.inj hc'
  exact hnot hprepared

/-- **Commands on a prepared connection.** Over any calls of methods and whatever becomes of their
steps, every command is sent on a connection where `AUTH` and `SELECT` have succeeded, exactly if
no method is called after one whose handshake the server refused. -/
theorem commands_prepared_iff {ok : Store → MethodCall → Prop}
    {hist : List (Machine.Record Store MethodCall Unit)}
    (run : (redisStore password).Run (StoreConstructed password) ok hist s) :
    (∀ c ∈ s.issued, Prepared password c) ↔ ∀ r ∈ hist.tail, ¬ RefusedAt password r := by
  have hstages : Stages password hist s := by
    induction run with
    | start h =>
        obtain ⟨hsound, hissued⟩ := constructed_sound h
        exact .sound (by simp) hsound (by simp [hissued])
    | step run e _ ih => exact ih.step e
  cases hstages with
  | sound hnone _ hissued => exact iff_of_true hissued fun r hr => hnone r (List.mem_of_mem_tail hr)
  | refused hhist _ hnone _ hissued =>
      subst hhist
      exact iff_of_true hissued hnone
  | sent hsome hissued =>
      obtain ⟨r, hr, hrefused⟩ := hsome
      obtain ⟨c, hc, hnot⟩ := hissued
      exact iff_of_false (fun h => hnot (h c hc)) fun h => h r hr hrefused

/-! ## A password that is refused -/

/-- The steps of a call that succeed. -/
def served : Outcomes :=
  ⟨.connected, some (.status (str "OK")), some (.status (str "OK")), some (.string (str "x"))⟩

/-- A call whose command gets no reply. -/
def cut : MethodCall := ⟨.cmdGet, { served with command := none }⟩

/-- A call after which the password is wrong. -/
def rejected : MethodCall := ⟨.cmdGet, { served with auth := some (.error (str "WRONGPASS")) }⟩

theorem served_constructed : StoreConstructed (str "secret") ⟨some ⟨false, true, true⟩, []⟩ :=
  ⟨served, rfl⟩

/-- The commands before the refusal were sent on a prepared connection. -/
theorem commands_prepared_rejected : ∃ s : Store, s.issued ≠ [] ∧
    ∀ c ∈ s.issued, Prepared (str "secret") c := by
  have hrun : (redisStore (str "secret")).Run (StoreConstructed (str "secret")) (fun _ _ => True) _ _ :=
    .step (.step (.start served_constructed) cut trivial) rejected trivial
  refine ⟨_, ?_, (commands_prepared_iff hrun).mpr ?_⟩
  · decide
  · intro r hr hrefused
    rw [List.mem_singleton.mp hr] at hrefused
    have hanew := hrefused.anew ⟨false, true, true⟩ rfl
    simp at hanew

/-- The command after the refusal is sent without `AUTH` and `SELECT`. -/
theorem command_unprepared : ∃ (hist : List (Machine.Record Store MethodCall Unit)) (s : Store),
    (redisStore (str "secret")).Run (StoreConstructed (str "secret")) (fun _ _ => True) hist s ∧
      ∃ c ∈ s.issued, ¬ Prepared (str "secret") c := by
  refine ⟨_, _, .step (.step (.step (.start served_constructed) cut trivial) rejected trivial)
    ⟨.cmdGet, served⟩ trivial, ⟨false, false, false⟩, ?_, ?_⟩
  · decide
  · simp [Prepared]

end CloudStore.Analysis
