import CloudStore.Interface.Playback
import CloudStore.Interface.Sessions

/-!
# The owner of a transfer

An upload or a download is begun under the session that the connection has at that time,
and the session may be replaced while the transfer is open. The entries of a trace tell who
began a transfer. If no login replaces the user of an open transfer, every chunk and every
end of an upload is executed under the user who began it.
-/

set_option autoImplicit false

namespace CloudStore.Analysis

open CloudStore.Library (Bytes Action)
open CloudStore.Library.Action (Moves)
open CloudStore.Model
open CloudStore.Model.World (backend)
open CloudStore.Interface

/-- A kind of transfer: the file id that a connection holds, the user under which a call begins
a transfer, and the calls that end one. -/
structure Kind where
  fileId : Connection → Bytes
  starts : CallRecord World → Option ℤ
  ends : CallRecord World → Bool
  acts : Call → Bool

/-- The user who began the transfer of the connection `id`. -/
def owner (k : Kind) (id : ℕ) : List TraceEntry → Option ℤ
  | [] => none
  | .opened id' :: tr => if id' = id then none else owner k id tr
  | .call id' r :: tr =>
    if id' ≠ id then owner k id tr
    else if (k.starts r).isSome then k.starts r
    else if k.ends r then none
    else owner k id tr

variable (env : Env)

/-- The uploads. -/
def uploads : Kind where
  fileId c := c.upload.fileId
  starts r :=
    match r.call with
    | .beginUpload session destPath virtualPath md5 size =>
      if (TransferService.beginUpload (backend env) session destPath virtualPath md5 size r.sys).1.isOk
      then some session.userId else none
    | _ => none
  ends r :=
    match r.call with
    | .finishUpload session =>
      (TransferService.finishUpload (backend env) session (r.sys, r.conn.upload)).1.isOk
    | _ => false
  acts
    | .writeChunk .. | .finishUpload .. => true
    | _ => false

/-- The downloads. -/
def downloads : Kind where
  fileId c := c.download.fileId
  starts r :=
    match r.call with
    | .beginDownload session _ virtualPath =>
      if (TransferService.beginDownload (backend env) session virtualPath r.sys).1.isOk
      then some session.userId else none
    | _ => none
  ends _ := false
  acts
    | .readChunk .. => true
    | _ => false

/-- Every call that acts on a transfer is executed under the user who began it. -/
def Owned (k : Kind) (tr : List TraceEntry) : Prop :=
  ∀ newer id r older, tr = newer ++ .call id r :: older → k.acts r.call = true →
    k.fileId r.conn ≠ [] → owner k id older = some r.conn.session.userId

/-- **Transfers belong to the user who is logged in.** -/
def TransfersOwned : Prop :=
  ∀ hist s, (Server.machine env).Run (Server.Start env) (fun _ _ => True) hist s →
    Owned (uploads env) (trace hist) ∧ Owned (downloads env) (trace hist)

/-- No login replaces the user of an open transfer. -/
def Undisturbed (k : Kind) (tr : List TraceEntry) : Prop :=
  ∀ newer id r older, tr = newer ++ .call id r :: older → ∀ s, LogsIn env r s →
    k.fileId r.conn ≠ [] → owner k id older = some s.userId

variable {env}

theorem Undisturbed.tail {k : Kind} {tr : List TraceEntry} {e : TraceEntry} (h : Undisturbed env k (e :: tr)) :
    Undisturbed env k tr := by
  rintro newer id r older rfl
  exact h (e :: newer) id r older rfl

/-- What the calls that handlers make do to a kind of transfer: a transfer begins under the
session of the connection, a transfer that is open afterwards was begun or was open, and a
login leaves it alone. -/
structure Handled (env : Env) (k : Kind) : Prop where
  fresh : ∀ ip, k.fileId { peerIp := ip } = []
  starts : ∀ w c call, Issued env w c call → ∀ v, k.starts ⟨w, c, call⟩ = some v →
    v = c.session.userId
  kept : ∀ w c call, Issued env w c call → k.fileId (runCall env w c call).2 ≠ [] →
    k.starts ⟨w, c, call⟩ ≠ none ∨ k.ends ⟨w, c, call⟩ = false ∧ k.fileId c ≠ []
  login : ∀ r s, LogsIn env r s →
    k.starts r = none ∧ k.ends r = false ∧ k.fileId (loggedIn s r.conn) = k.fileId r.conn

/-- A transfer that is open belongs to the user of the connection, if this is logged in. -/
def OpenOwned (env : Env) (k : Kind) (tr : List TraceEntry) (s : ServerState) : Prop :=
  Undisturbed env k tr → ∀ id c, s.conns id = some c → c.authed = true → k.fileId c ≠ [] →
    owner k id tr = some c.session.userId

/-- The owner after a call on the same connection. -/
theorem OpenOwned.call {k : Kind} (hk : Handled env k) {tr : List TraceEntry} {s : ServerState} {id : ℕ}
    {c : Connection} {call : Call} (h : OpenOwned env k tr s) (hid : s.conns id = some c)
    (hissued : Issued env s.world c call)
    (hcalm : Undisturbed env k (.call id ⟨s.world, c, call⟩ :: tr))
    (hauthed : (runCall env s.world c call).2.authed = true)
    (hopen : k.fileId (runCall env s.world c call).2 ≠ []) :
    owner k id (.call id ⟨s.world, c, call⟩ :: tr) =
      some (runCall env s.world c call).2.session.userId := by
  by_cases hlogin : ∃ sess, LogsIn env ⟨s.world, c, call⟩ sess
  · obtain ⟨sess, hlogin⟩ := hlogin
    obtain ⟨hstarts, hends, hfile⟩ := hk.login _ _ hlogin
    rw [runCall_login hlogin] at hopen ⊢
    have howner := hcalm [] id _ tr rfl sess hlogin (by rw [← hfile]; exact hopen)
    simp only [owner, hstarts, hends, ne_eq, not_true_eq_false, if_false, Option.isSome_none,
      Bool.false_eq_true]
    exact howner
  · rw [not_exists] at hlogin
    obtain ⟨hsession, hauthed₀, -⟩ := runCall_kept hlogin hauthed
    rw [hsession]
    simp only [owner, ne_eq, not_true_eq_false, if_false]
    cases hstarts : k.starts ⟨s.world, c, call⟩ with
    | some v => simp [hk.starts _ _ _ hissued v hstarts]
    | none =>
        obtain ⟨hends, hfile⟩ := (hk.kept _ _ _ hissued hopen).resolve_left (by simp [hstarts])
        simp only [hends, Option.isSome_none, Bool.false_eq_true, if_false]
        exact h hcalm.tail id c hid hauthed₀ hfile

/-- Opening, ending and calls of other connections leave the owner alone. -/
theorem openOwned_invariant {k : Kind} (hk : Handled env k) :
    TraceInvariant env (OpenOwned env k) where
  start := by
    intro s h _ id c hid
    simp [h.2 id] at hid
  opened := by
    intro tr s id ip h hnone hcalm id' c hid' hauthed hopen
    by_cases heq : id' = id
    · simp only [heq, Function.update_self, Option.some.injEq] at hid'
      subst hid'
      exact absurd (hk.fresh ip) hopen
    · simp only [Function.update_of_ne heq] at hid'
      simp only [owner, if_neg (Ne.symm heq)]
      exact h hcalm.tail id' c hid' hauthed hopen
  closed := by
    intro tr s id h hcalm id' c hid' hauthed hopen
    by_cases heq : id' = id
    · simp [heq] at hid'
    · simp only [Function.update_of_ne heq] at hid'
      exact h hcalm id' c hid' hauthed hopen
  expired := fun _ _ _ h => h
  disk := fun _ _ _ h => h
  call := by
    intro tr s id c call hsafe h hid hissued hcalm id' c' hid' hauthed hopen
    by_cases heq : id' = id
    · subst heq
      simp only [afterCall, Function.update_self, Option.some.injEq] at hid'
      subst hid'
      exact h.call hk hid hissued hcalm hauthed hopen
    · simp only [afterCall, Function.update_of_ne heq] at hid'
      simp only [owner, ne_eq, Ne.symm heq, not_false_eq_true, if_true]
      exact h hcalm.tail id' c' hid' hauthed hopen

/-! ## Uploads and downloads -/

/-- Writing a chunk keeps the id of the upload. -/
theorem writeChunk_fileId (offset : ℕ) (data : Bytes) :
    Moves (fun x x' : World × UploadSession => x'.2.fileId = x.2.fileId)
      (TransferService.writeChunk (backend env) offset data) := by
  have htrans : ∀ x x' x'' : World × UploadSession, x'.2.fileId = x.2.fileId →
      x''.2.fileId = x'.2.fileId → x''.2.fileId = x.2.fileId := fun _ _ _ h h' => h'.trans h
  refine Moves.bind htrans (fun _ => rfl) fun st => ?_
  split
  · exact fun _ => rfl
  · dsimp only
    split
    · exact fun _ => rfl
    · refine Moves.bind htrans (fun _ => rfl) fun r => ?_
      split
      · exact fun _ => rfl
      · split
        · exact fun _ => rfl
        · split <;> exact fun _ => rfl

/-- The end of an upload keeps its id, unless it succeeds. -/
theorem finishUpload_fileId (session : UserSession) :
    Moves (fun x x' : World × UploadSession => x'.2.fileId = x.2.fileId)
      (TransferService.finishUpload (backend env) session) := by
  have htrans : ∀ x x' x'' : World × UploadSession, x'.2.fileId = x.2.fileId →
      x''.2.fileId = x'.2.fileId → x''.2.fileId = x.2.fileId := fun _ _ _ h h' => h'.trans h
  refine Moves.bind htrans (fun _ => rfl) fun st => ?_
  split
  · exact fun _ => rfl
  · exact Moves.bind htrans (fun _ => rfl) fun _ => fun _ => rfl

/-- A call that works on one part of the connection keeps what it leaves alone. -/
theorem settle_keeps {α : Type} {P : Connection → Prop} {c : Connection} {f : α → Connection → Connection}
    {r : Except Exn α × World} (hf : ∀ x, P (f x c) → P c) (h : P (settle c f r).2) : P c := by
  rcases r with ⟨e | x, w⟩
  · exact h
  · exact hf x h

theorem uploads_handled : Handled env (uploads env) where
  fresh := fun _ => rfl
  starts := by
    intro w c call hissued v hv
    cases hissued with
    | beginUpload md5 size hnorm h =>
        simp only [uploads] at hv
        split at hv
        · exact (Option.some.inj hv).symm
        · simp at hv
    | _ => simp [uploads] at hv
  kept := by
    intro w c call hissued hopen
    have hsame : ∀ {α : Type} {a : Act World α} {f : α → Connection → Connection},
        (∀ x, (f x c).upload = c.upload) → (uploads env).fileId (settle c f (a w)).2 ≠ [] →
          (uploads env).fileId c ≠ [] := fun {_ _ _} hf =>
      settle_keeps (P := fun c => (uploads env).fileId c ≠ []) fun x h => by
        simpa only [uploads, hf x] using h
    cases hissued with
    | closeUpload hauthed => exact Or.inr ⟨rfl, hopen⟩
    | closeDownload hauthed => exact Or.inr ⟨rfl, hopen⟩
    | @beginUpload path norm physical md5 size hnorm h =>
        simp only [runCall] at hopen
        rcases hrun : TransferService.beginUpload (backend env) c.session physical (str "/" ++ norm)
            md5 size w with ⟨e | st, w'⟩
        · simp only [hrun, settle] at hopen
          exact Or.inr ⟨rfl, hopen⟩
        · exact Or.inl (by simp [uploads, hrun, Except.isOk, Except.toBool])
    | writeChunk offset data hauthed hid => exact Or.inr ⟨rfl, hid⟩
    | finishUpload hauthed =>
        right
        have hfile := @finishUpload_fileId env c.session (w, c.upload)
        simp only [runCall] at hopen
        rcases hrun : TransferService.finishUpload (backend env) c.session (w, c.upload) with
          ⟨e | u, w', st⟩
        · simp only [hrun] at hopen hfile
          refine ⟨by simp [uploads, hrun, Except.isOk, Except.toBool], ?_⟩
          simpa only [uploads, hfile] using hopen
        · simp [hrun, uploads] at hopen
    | _ => exact Or.inr ⟨rfl, hsame (fun _ => rfl) hopen⟩
  login := by
    rintro ⟨w, c, call⟩ s h
    rcases h with ⟨username, password, ip, w', rfl, -⟩ | ⟨token, w', rfl, -⟩ <;> exact ⟨rfl, rfl, rfl⟩

theorem downloads_handled : Handled env (downloads env) where
  fresh := fun _ => rfl
  starts := by
    intro w c call hissued v hv
    cases hissued with
    | beginDownload hnorm h =>
        simp only [downloads] at hv
        split at hv
        · exact (Option.some.inj hv).symm
        · simp at hv
    | _ => simp [downloads] at hv
  kept := by
    intro w c call hissued hopen
    have hsame : ∀ {α : Type} {a : Act World α} {f : α → Connection → Connection},
        (∀ x, (f x c).download = c.download) → (downloads env).fileId (settle c f (a w)).2 ≠ [] →
          (downloads env).fileId c ≠ [] := fun {_ _ _} hf =>
      settle_keeps (P := fun c => (downloads env).fileId c ≠ []) fun x h => by
        simpa only [downloads, hf x] using h
    cases hissued with
    | closeUpload hauthed => exact Or.inr ⟨rfl, hopen⟩
    | closeDownload hauthed => exact Or.inr ⟨rfl, hopen⟩
    | writeChunk offset data hauthed hid => exact Or.inr ⟨rfl, hopen⟩
    | finishUpload hauthed =>
        refine Or.inr ⟨rfl, ?_⟩
        simp only [runCall] at hopen
        split at hopen <;> exact hopen
    | @beginDownload path norm physical hnorm h =>
        simp only [runCall] at hopen
        rcases hrun : TransferService.beginDownload (backend env) c.session (str "/" ++ norm) w with
          ⟨e | d, w'⟩
        · simp only [hrun, settle] at hopen
          exact Or.inr ⟨rfl, hopen⟩
        · exact Or.inl (by simp [downloads, hrun, Except.isOk, Except.toBool])
    | _ => exact Or.inr ⟨rfl, hsame (fun _ => rfl) hopen⟩
  login := by
    rintro ⟨w, c, call⟩ s h
    rcases h with ⟨username, password, ip, w', rfl, -⟩ | ⟨token, w', rfl, -⟩ <;> exact ⟨rfl, rfl, rfl⟩

/-- A part of a trace that no login disturbs. -/
theorem Undisturbed.drop {k : Kind} {newer tr : List TraceEntry} (h : Undisturbed env k (newer ++ tr)) :
    Undisturbed env k tr := by
  induction newer with
  | nil => exact h
  | cons e newer ih => exact ih h.tail

/-- In a run in which no login replaces the user of an open transfer of a kind, the transfers of this
kind are owned. -/
theorem run_owned {k : Kind} (hk : Handled env k)
    (hacts : ∀ call, k.acts call = true → Gated call = true) {ok : ServerState → Event → Prop}
    {hist : List (Library.Machine.Record ServerState Event Output)} {s : ServerState}
    (run : (Server.machine env).Run (Server.Start env) ok hist s)
    (hcalm : Undisturbed env k (trace hist)) : Owned k (trace hist) := by
  intro newer id r older htrace hcall hopen
  obtain ⟨s', -, howned, -, hid, hissued⟩ := run_calls (openOwned_invariant hk) run newer id r older
    htrace
  have hrest : Undisturbed env k older := by
    rw [htrace] at hcalm
    exact hcalm.drop.tail
  exact howned hrest id r.conn hid (gated_authed hissued (hacts _ hcall)) hopen

/-- **Transfers belong to the user who is logged in**, in every run in which no login replaces the
user of an open transfer. -/
theorem transfers_owned {ok : ServerState → Event → Prop}
    {hist : List (Library.Machine.Record ServerState Event Output)} {s : ServerState}
    (run : (Server.machine env).Run (Server.Start env) ok hist s)
    (hup : Undisturbed env (uploads env) (trace hist))
    (hdown : Undisturbed env (downloads env) (trace hist)) :
    Owned (uploads env) (trace hist) ∧ Owned (downloads env) (trace hist) := by
  constructor
  · exact run_owned uploads_handled (by rintro (_ | _) <;> simp [uploads, Gated]) run hup
  · exact run_owned downloads_handled (by rintro (_ | _) <;> simp [downloads, Gated]) run hdown

/-- A login is made on a connection without a transfer. -/
def Idle (k : Kind) : TraceEntry → Bool
  | .opened _ => true
  | .call _ r =>
    match r.call with
    | .login .. | .checkToken .. => k.fileId r.conn = []
    | _ => true

/-- Logins on connections without a transfer disturb none. -/
theorem undisturbed_of_idle {k : Kind} {tr : List TraceEntry} (h : tr.all (Idle k) = true) :
    Undisturbed env k tr := by
  rintro newer id r older rfl s hlogin hopen
  have hidle := List.all_eq_true.mp h (.call id r) (List.mem_append_right _ List.mem_cons_self)
  refine absurd ?_ hopen
  rcases hlogin with ⟨username, password, ip, w', hcall, -⟩ | ⟨token, w', hcall, -⟩ <;>
    simpa [Idle, hcall] using hidle

/-- A user logs in and uploads a file. -/
theorem transfers_owned_upload :
    let tr := trace (playback Sample.env 4096 Sample.entropy
      (Sample.login ++ Sample.uploadEmpty "/a")).1
    Owned (uploads Sample.env) tr ∧ Owned (downloads Sample.env) tr := by
  intro tr
  have hidle : tr.all (Idle (uploads Sample.env)) = true ∧ tr.all (Idle (downloads Sample.env)) = true := by
    decide +kernel
  exact @transfers_owned _ (fun _ _ => True) _ _ (playback_run (by decide))
    (undisturbed_of_idle hidle.1) (undisturbed_of_idle hidle.2)

/-- One user begins an upload, another one logs in on the same connection, and the upload ends. -/
def handedOver : List Event :=
  let account := [("username", Json.str (str "bob")), ("password", Json.str (str "secret"))]
  Sample.login ++ (Sample.uploadEmpty "/a").take 1 ++
    [.frame 0 (request "register" account), .frame 0 (request "login" account),
      .frame 0 (request "upload_end" [])]

/-- The end of the upload is executed under the second user. -/
theorem handed_over : ¬ TransfersOwned Sample.env := by
  intro h
  let last := (Server.machine Sample.env).record (Sample.after (handedOver.take 6))
    (.frame 0 (request "upload_end" []))
  let before := trace (playback Sample.env 4096 Sample.entropy (handedOver.take 6)).1
  have hfacts : last.output.calls.map (fun r => ((uploads Sample.env).acts r.call,
        decide (r.conn.upload.fileId = []), r.conn.session.userId)) = [(true, false, 2)] ∧
      owner (uploads Sample.env) 0 before = some 1 := by
    decide +kernel
  have hlast : trace (playback Sample.env 4096 Sample.entropy handedOver).1 =
      last.output.calls.map (.call 0) ++ before := rfl
  have hrun := @playback_run Sample.env (fun _ _ => True) 4096 Sample.entropy handedOver
    (by decide)
  have huser := (h _ _ hrun).1
  clear hrun
  generalize trace (playback Sample.env 4096 Sample.entropy handedOver).1 = tr at hlast huser
  generalize last.output.calls = calls at hfacts hlast
  generalize before = older at hfacts hlast
  obtain ⟨hcalls, howner⟩ := hfacts
  obtain ⟨r, rfl, hr⟩ := List.map_eq_singleton_iff.mp hcalls
  simp only [Prod.mk.injEq, decide_eq_false_iff_not] at hr
  have howner' := huser [] 0 r older hlast hr.1 hr.2.1
  rw [howner, hr.2.2] at howner'
  simp at howner'

end CloudStore.Analysis
