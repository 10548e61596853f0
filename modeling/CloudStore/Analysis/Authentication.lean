import CloudStore.Interface.Playback
import CloudStore.Interface.Sessions

/-!
# Authentication

Every handler but those of `register` and `login` works under the session of a user who
verified a password on the connection or presented the token of a stored session there,
and a connection that is not logged in changes no content.
-/

set_option autoImplicit false

namespace CloudStore.Analysis

open CloudStore.Library (Bytes SameFiles)
open CloudStore.Model
open CloudStore.Model.RedisStore
open CloudStore.Interface

/-- Rows, reference sets, path keys and files are the same. -/
structure SameContent (w w' : World) : Prop where
  rows : w'.rows = w.rows
  refs : ∀ m, w'.redis.sets (refsKey m) = w.redis.sets (refsKey m)
  links : ∀ u p, w'.redis.strings (pathKey u p) = w.redis.strings (pathKey u p)
  files : ∀ p, w'.fs.fileAt p = w.fs.fileAt p

variable {env : Env}

theorem SameContent.refl (w : World) : SameContent w w :=
  ⟨rfl, fun _ => rfl, fun _ _ => rfl, fun _ => rfl⟩

theorem SameContent.trans {w w' w'' : World} (h : SameContent w w') (h' : SameContent w' w'') :
    SameContent w w'' where
  rows := h'.rows.trans h.rows
  refs := fun m => (h'.refs m).trans (h.refs m)
  links := fun u p => (h'.links u p).trans (h.links u p)
  files := fun p => (h'.files p).trans (h.files p)

/-- Operations on accounts change no content. -/
theorem accountOps_content {w w' : World} (h : AccountOps env w w') : SameContent w w' := by
  induction h with
  | refl => exact SameContent.refl w
  | tail _ h ih =>
      refine ih.trans ?_
      cases h with
      | draw n => exact ⟨rfl, fun _ => rfl, fun _ _ => rfl, fun _ => rfl⟩
      | tree h hfiles => exact ⟨rfl, fun _ => rfl, fun _ _ => rfl, hfiles.files⟩
      | user r n h => exact ⟨rfl, fun _ => rfl, fun _ _ => rfl, fun _ => rfl⟩
      | login s hcolon hzero h => exact ⟨rfl, fun _ => rfl, fun _ _ => rfl, fun _ => rfl⟩
      | logout k => exact ⟨rfl, fun _ => rfl, fun _ _ => rfl, fun _ => rfl⟩

/-- Calls that are made without being logged in change no content. -/
theorem calls_content {w w' : World} {c c' : Connection} {rs : List (CallRecord World)}
    (h : Calls env w c rs w' c') (hw : Sound env w) (hc : ConnOk env w c)
    (hclosed : ∀ r ∈ rs, r.conn.authed = false) : SameContent w w' := by
  have key := h.keep (P := fun w' c' => Sound env w' ∧ ConnOk env w' c' ∧ SameContent w w')
    ⟨hw, hc, SameContent.refl w⟩ hclosed ?_
  · exact key.2.2
  · rintro w₁ c₁ call ⟨hw₁, hc₁, hsame⟩ hissued hclosed
    have hoperates := call_operates hw₁ hc₁ hissued
    refine ⟨hoperates.sound hw₁, call_connOk hw₁ hc₁ hissued, hsame.trans ?_⟩
    cases hoperates with
    | inl h => exact absurd (h.1.symm.trans hclosed) (by simp)
    | inr h => exact accountOps_content h

/-- **The authentication gate.** In every run, a call of `TransferService` or `FileManager`, or
of `AuthService::logout`, is made under the session of its connection, by a connection that
holds this session; and a frame whose calls are all made without being logged in changes no
content. -/
theorem authentication_gate {ok : ServerState → Event → Prop}
    {hist : List (Library.Machine.Record ServerState Event Output)} {s : ServerState}
    (run : (Server.machine env).Run (Server.Start env) ok hist s) :
    (∀ newer id r older, trace hist = newer ++ .call id r :: older → Gated r.call = true →
      Issued env r.sys r.conn r.call ∧ r.conn.authed = true ∧ Holds env id older r.conn.session) ∧
    ∀ id f, (∀ r ∈ (Server.step env s (.frame id f)).2.calls, r.conn.authed = false) →
      SameContent s.world (Server.step env s (.frame id f)).1.world := by
  constructor
  · intro newer id r older htrace hgated
    obtain ⟨s', -, hentitled, -, hid, hissued⟩ := run_calls entitled_invariant run newer id r older
      htrace
    have hauthed := gated_authed hissued hgated
    exact ⟨hissued, hauthed, hentitled.holds id r.conn hid hauthed⟩
  · intro id f hclosed
    have hsafe := run_safe run
    unfold Server.step at hclosed ⊢
    dsimp only at hclosed ⊢
    cases hid : s.conns id with
    | none => exact SameContent.refl _
    | some c =>
        simp only [hid] at hclosed
        exact calls_content (onFrame_calls f s.world c) hsafe.world (hsafe.conns id c hid) hclosed

/-- A user who has logged in makes a directory. -/
theorem authentication_gate_mkdir :
    let es := Sample.login ++ [.frame 0 (request "mkdir" [("path", .str (str "/b"))])]
    (∀ newer id r older, trace (playback Sample.env 4096 Sample.entropy es).1 =
        newer ++ .call id r :: older → Gated r.call = true → Issued Sample.env r.sys r.conn r.call ∧
        r.conn.authed = true ∧ Holds Sample.env id older r.conn.session) ∧
    ∀ id f, (∀ r ∈ (Server.step Sample.env (Sample.after es) (.frame id f)).2.calls,
        r.conn.authed = false) →
      SameContent (Sample.after es).world
        (Server.step Sample.env (Sample.after es) (.frame id f)).1.world :=
  @authentication_gate _ (fun _ _ => True) _ _ (playback_run (by decide))

end CloudStore.Analysis
