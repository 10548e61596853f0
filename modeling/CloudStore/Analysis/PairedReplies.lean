import CloudStore.Analysis.OneReply
import CloudStore.Interface.ClientMoves
import CloudStore.Model.Desk
import CloudStore.Model.Link

/-!
# Replies are paired with requests

The client takes the next frame for the reply to its last request. As long as the server takes
every chunk that it is sent, this frame is the reply to that request, through any calls of the
client, of which any may fail, and any changes that others make to the system.
-/

set_option autoImplicit false

namespace CloudStore.Analysis

open CloudStore.Library (Bytes Action)
open CloudStore.Library.Action
open CloudStore.Model
open CloudStore.Model.Connection
open CloudStore.Model.CloudClient (Prog)
open CloudStore.Interface

variable {σ τ : Type} {b : Backend σ} {others : ℕ → σ → σ} {base : ClientCalls τ}

/-- A JSON reply carries the sequence number of the request, or 0 where an exception was reported
from `onRead`. -/
def Echoes (frame : Frame) (reply : Received) : Prop :=
  ∀ parses v, reply = .json parses v → ∃ root n, frame = .json (.ok root) ∧
    root.find (str "seq") = .ok (some (.int (n : ℕ))) ∧
    (v.find (str "seq") = .ok (some (.int n)) ∨ v.find (str "seq") = .ok (some (.int 0)))

/-- The reply is the one to the last request. -/
def Paired (t : Taken) : Prop := ∃ frame, t.asked = some (t.answers, frame) ∧ Echoes frame t.reply

/-- Nothing is under way, and the replies that were received are paired. -/
def Settled (s : Link σ τ) : Prop := s.inbox = [] ∧ ∀ t ∈ s.taken, Paired t

/-- A chunk comes when an upload is open for it, and it is written. -/
def Awaited (b : Backend σ) (h : HandledFrame σ) : Prop :=
  ∀ payload, h.frame = .chunk payload → ∃ c, Protocol.decodeChunk payload = some c ∧
    h.conn.authed = true ∧ h.conn.upload.fileId ≠ [] ∧ c.fileId = h.conn.upload.fileId ∧
    (TransferService.writeChunk b c.offset c.data (h.sys, h.conn.upload)).1 = .ok ()

/-- Frames are only added to those that were handled, and if each chunk among them was awaited, a
link that was settled is settled. -/
def Pairs (b : Backend σ) (s t : Link σ τ) : Prop :=
  s.handled <:+ t.handled ∧ ((∀ h ∈ t.handled, Awaited b h) → Settled s → Settled t)

theorem Pairs.refl (s : Link σ τ) : Pairs b s s := ⟨List.suffix_refl _, fun _ h => h⟩

theorem Pairs.trans {s t u : Link σ τ} (h : Pairs b s t) (h' : Pairs b t u) : Pairs b s u := by
  refine ⟨h.1.trans h'.1, fun hall hs => h'.2 hall (h.2 (fun x hx => hall x ?_) hs)⟩
  exact h'.1.subset hx

/-! ## What the server sends -/

/-- A request is answered with one reply at most, which carries its sequence number or 0. -/
theorem request_sent {root : Json} {cmd : Bytes} {seq : ℕ} {t : Turn σ}
    (hreq : IsRequest root cmd seq) (hnone : t.sent = []) :
    (onFrame b (.json (.ok root)) t).2.sent = [] ∨
      ∃ r, (onFrame b (.json (.ok root)) t).2.sent = [r] ∧ (Carries seq r ∨ Carries 0 r) := by
  have hreplies := @answering_replies σ b root cmd seq t
  have hhandle : handleFrame b (.json (.ok root)) t = answering b root cmd seq t :=
    handleJson_request hreq
  unfold Meets at hreplies
  rw [onFrame_eq, tryCatch_apply, hhandle]
  rcases hrun : answering b root cmd seq t with ⟨e | _, t'⟩
  · rw [hrun] at hreplies
    have hempty : t'.sent = [] := Eq.trans hreplies hnone
    dsimp only
    by_cases hreported : Reported e
    · obtain ⟨code, msg, hreport⟩ := (report_sent e t').1 hreported
      rw [hempty, List.nil_append] at hreport
      exact .inr ⟨_, hreport, .inr (carries_makeReply _ _ _)⟩
    · have hsilent := (report_sent e t').2 hreported
      exact .inl (hsilent.trans hempty)
  · rw [hrun] at hreplies
    obtain ⟨r, hsent, hcarries⟩ := hreplies
    rw [hnone, List.nil_append] at hsent
    exact .inr ⟨r, hsent, .inl hcarries⟩

/-- A chunk that is awaited is taken without a reply. -/
theorem awaited_sent {h : HandledFrame σ} {payload : Bytes} (hframe : h.frame = .chunk payload)
    (hawaited : Awaited b h) :
    (onFrame b (.chunk payload) { sys := h.sys, conn := h.conn }).2.sent = [] := by
  obtain ⟨c, hdecode, hauthed, hopen, hid, hwrite⟩ := hawaited payload hframe
  apply (chunk_replies rfl).1
  unfold handleFrame
  dsimp only
  rw [hdecode]
  dsimp only
  unfold handleChunk
  have hfields : (fields : Act (Turn σ) Connection) { sys := h.sys, conn := h.conn } =
      (.ok h.conn, { sys := h.sys, conn := h.conn }) := rfl
  rw [bind_ok hfields, hauthed]
  simp only [Bool.not_true, Bool.false_eq_true, if_false]
  rw [if_neg (by simp [hopen, hid])]
  exact hwrite

/-! ## What the client takes -/

/-- A frame reaches the server over an open connection; otherwise nothing has happened. -/
theorem writeAll_cases (frame : Frame) (s : Link σ τ) (c : CloudClient) :
    (c.connected = true ∧ CloudClient.writeAll (Link.calls b others base) frame (s, c) =
        (.ok (), (Link.accept b others frame s, c))) ∨
      ∃ e, CloudClient.writeAll (Link.calls b others base) frame (s, c) = (.error e, (s, c)) := by
  unfold CloudClient.writeAll
  rw [bind_apply, look_apply]
  dsimp only
  split_ifs with hc
  · exact .inl ⟨hc, rfl⟩
  · exact .inr ⟨_, rfl⟩

/-- A computation comes before a frame is sent. -/
theorem computed_cases {α : Type} {x : Except Exn α} (frame : Frame) (s : Link σ τ)
    (c : CloudClient) :
    (c.connected = true ∧ ((liftM x : Prog (Link σ τ) α) >>= fun _ =>
        CloudClient.writeAll (Link.calls b others base) frame) (s, c) =
          (.ok (), (Link.accept b others frame s, c))) ∨
      ∃ e, ((liftM x : Prog (Link σ τ) α) >>= fun _ =>
        CloudClient.writeAll (Link.calls b others base) frame) (s, c) = (.error e, (s, c)) := by
  cases x with
  | error e => exact .inr ⟨e, rfl⟩
  | ok y => exact writeAll_cases frame s c

/-- The reply that is received is the next one under way. -/
theorem recvFrame_apply {s : Link σ τ} {c : CloudClient} (hc : c.connected = true) :
    (CloudClient.recvFrame (Link.calls b others base) (s, c)).2 = ((Link.take s).2, c) := by
  unfold CloudClient.recvFrame
  rw [bind_apply, look_apply]
  dsimp only
  rw [if_pos hc]
  rfl

/-- What carries the sequence number of a request or 0, echoes it. -/
theorem echoes_received {root : Json} {cmd : Bytes} {n : ℕ} (hreq : IsRequest root cmd n) {r : Reply}
    (h : Carries n r ∨ Carries 0 r) : Echoes (.json (.ok root)) (Link.received r) := by
  intro parses v hv
  obtain ⟨ms, rfl, -, hseq⟩ := hreq.members
  cases r with
  | json v' =>
      obtain ⟨rfl, rfl⟩ := Received.json.inj hv
      exact ⟨_, n, rfl, congrArg Except.ok hseq, h⟩
  | chunk fileId offset data => simp [Link.received] at hv

/-- A request is served before its reply is taken. -/
theorem asked_pairs {root : Json} {cmd : Bytes} {n : ℕ} (hreq : IsRequest root cmd n)
    (s : Link σ τ) :
    Pairs b s (Link.take (Link.accept b others (.json (.ok root)) s)).2 := by
  set frame : Frame := .json (.ok root) with hframe
  have hinbox : (Link.accept b others frame s).inbox = s.inbox ++
      (Link.served b others frame s).sent.map fun r => (s.handled.length, Link.received r) := rfl
  have htaken : (Link.accept b others frame s).taken = s.taken := rfl
  have hhandled : (Link.take (Link.accept b others frame s)).2.handled =
      ⟨others s.handled.length s.sys, s.conn, frame⟩ :: s.handled := by
    unfold Link.take
    split <;> rfl
  refine ⟨hhandled ▸ List.suffix_cons _ _, fun _ ⟨hempty, hpaired⟩ => ?_⟩
  rw [hempty, List.nil_append] at hinbox
  unfold Link.take
  rcases request_sent hreq (t := { sys := others s.handled.length s.sys, conn := s.conn }) rfl
    with hsent | ⟨r, hsent, hcarries⟩
  · have hnone : (Link.accept b others frame s).inbox = [] := by
      rw [hinbox, Link.served, hsent, List.map_nil]
    rw [hnone]
    exact ⟨hnone, htaken ▸ hpaired⟩
  · have hone : (Link.accept b others frame s).inbox = [(s.handled.length, Link.received r)] := by
      rw [hinbox, Link.served, hsent, List.map_singleton]
    rw [hone]
    refine ⟨rfl, ?_⟩
    intro t ht
    rcases List.mem_cons.mp ht with rfl | ht
    · refine ⟨frame, rfl, ?_⟩
      exact echoes_received hreq hcarries
    · exact hpaired t (htaken ▸ ht)

/-- **A chunk** that is awaited leaves nothing under way. -/
theorem sent_pairs (payload : Bytes) (s : Link σ τ) :
    Pairs b s (Link.accept b others (.chunk payload) s) := by
  refine ⟨List.suffix_cons _ _, fun hall ⟨hempty, hpaired⟩ => ⟨?_, hpaired⟩⟩
  have hsent := awaited_sent rfl (hall ⟨others s.handled.length s.sys, s.conn, .chunk payload⟩
    List.mem_cons_self)
  show s.inbox ++ (Link.served b others (.chunk payload) s).sent.map _ = []
  rw [hempty, Link.served, hsent]
  rfl

/-! ## Programs of the client -/

/-- The client sends a request and takes the next frame. -/
theorem exchange_pairs {root : Json} {cmd : Bytes} {n : ℕ} (hreq : IsRequest root cmd n)
    (st : Link σ τ × CloudClient) :
    Pairs b st.1 ((CloudClient.sendJson (Link.calls b others base) root >>= fun _ =>
      CloudClient.recvFrame (Link.calls b others base)) st).2.1 := by
  rcases st with ⟨s, c⟩
  unfold CloudClient.sendJson
  rcases computed_cases (.json (dumpJson root)) s c with ⟨hc, hsent⟩ | ⟨e, hfails⟩
  · rw [bind_ok hsent, recvFrame_apply hc]
    exact asked_pairs hreq s
  · rw [bind_error hfails]
    exact Pairs.refl s

theorem sendChunk_pairs (fileId : Bytes) (offset : ℕ) (data : Bytes) :
    Stays (Pairs b) (CloudClient.sendChunk (Link.calls b others base) fileId offset data) := by
  rintro ⟨s, c⟩
  unfold CloudClient.sendChunk
  rcases computed_cases (.chunk (Wire.chunkPayload fileId offset data)) s c with
    ⟨-, hsent⟩ | ⟨e, hfails⟩
  · rw [hsent]
    exact sent_pairs _ s
  · rw [hfails]
    exact Pairs.refl s

/-- Programs of the machine that the client runs on leave the link alone. -/
theorem onDesk_pairs {α : Type} (a : Act τ α) :
    Moves (Pairs b : Link σ τ → Link σ τ → Prop) (Link.onDesk a) :=
  fun _ => ⟨List.suffix_refl _, fun _ h => h⟩

/-- The frame of a request. -/
theorem requestRoot_request (cmd : String) (data : Json) {n : ℕ} (hn : n < 2 ^ 64) (token : Bytes) :
    IsRequest (CloudClient.requestRoot cmd data n token) (str cmd) n where
  members := by
    refine ⟨_, rfl, rfl, ?_⟩
    rfl
  range := hn

theorem chunkRoot_request (fileId : Bytes) (got chunk : ℕ) {n : ℕ} (hn : n < 2 ^ 64)
    (token : Bytes) :
    IsRequest (CloudClient.chunkRoot fileId got chunk n token) (str "download_chunk") n where
  members := ⟨_, rfl, rfl, rfl⟩
  range := hn

/-- Behind a request and its reply, a program that keeps the pairs. -/
theorem asked_then {α : Type} {root : ℕ → Bytes → Json} {cmd : Bytes}
    (hreq : ∀ n token, n < 2 ^ 64 → IsRequest (root n token) cmd n)
    {k : Received → Prog (Link σ τ) α} (hk : ∀ r, Stays (Pairs b) (k r)) :
    Stays (Pairs b) (do
      let seq ← CloudClient.nextSeq
      let token := (← look Prod.snd).token
      CloudClient.sendJson (Link.calls b others base) (root seq token)
      let r ← CloudClient.recvFrame (Link.calls b others base)
      k r) := by
  rintro ⟨s, c⟩
  have hn : (c.seq + 1) % 2 ^ 64 < 2 ^ 64 := Nat.mod_lt _ (by positivity)
  show Pairs b s ((CloudClient.sendJson (Link.calls b others base)
    (root ((c.seq + 1) % 2 ^ 64) c.token) >>= fun _ =>
      CloudClient.recvFrame (Link.calls b others base) >>= k)
    (s, { c with seq := (c.seq + 1) % 2 ^ 64 })).2.1
  rw [← bind_bind]
  apply bind_at (R := fun st st' : Link σ τ × CloudClient => Pairs b st.1 st'.1)
    (s := (s, { c with seq := (c.seq + 1) % 2 ^ 64 })) (fun _ _ _ => Pairs.trans)
  · exact exchange_pairs (hreq _ _ hn) _
  · intro r st _
    exact hk r st

theorem local_pairs : Local (Link.calls b others base) (Pairs b) where
  refl := Pairs.refl
  trans _ _ _ := Pairs.trans
  rounds := onDesk_pairs _
  fileExists _ := onDesk_pairs _
  fileSize _ := onDesk_pairs _
  md5File _ := onDesk_pairs _
  md5FileRange _ _ _ := onDesk_pairs _
  ensureDir _ := onDesk_pairs _
  readAt _ _ _ := onDesk_pairs _
  create _ := onDesk_pairs _
  append _ _ := onDesk_pairs _

theorem request_pairs (cmd : String) (data : Json) :
    Stays (Pairs b) (CloudClient.request (Link.calls b others base) cmd data) := by
  have hl := @local_pairs _ _ b others base
  unfold CloudClient.request CloudClient.recvJson
  simp only [bind_bind]
  apply asked_then (fun n token hn => requestRoot_request cmd data hn token)
  intro r
  apply hl.bind
  · cases r with
    | json parses v => exact stays_ite (hl.value _) (hl.exception _)
    | other payload => exact hl.exception _
  · intro reply
    apply hl.computed
    intro x
    apply hl.computed
    intro code
    apply stays_ite
    · apply hl.computed
      intro y
      exact hl.computed fun _ => hl.exception _
    · exact hl.value _

theorem askChunk_pairs (fileId : Bytes) (got chunk : ℕ) :
    Stays (Pairs b) (askChunk (Link.calls b others base) fileId got chunk) := by
  rintro ⟨s, c⟩
  have hn : (c.seq + 1) % 2 ^ 64 < 2 ^ 64 := Nat.mod_lt _ (by positivity)
  exact exchange_pairs (chunkRoot_request fileId got chunk hn c.token)
    (s, { c with seq := (c.seq + 1) % 2 ^ 64 })

/-- The exchanges of the client keep the pairs. -/
theorem exchanges_pair : Exchanges (Link.calls b others base) (Pairs b) where
  toLocal := local_pairs
  request := request_pairs
  sendChunk := sendChunk_pairs
  askChunk := askChunk_pairs

/-- **A call of the client** keeps the pairs. -/
theorem run_pairs (op : ClientCall) : Stays (Pairs b) (op.run (Link.calls b others base)) := by
  have hl := @exchanges_pair _ _ b others base
  have hp : ∀ current total phase,
      Moves (Pairs b) ((Link.calls b others base).progress current total phase) :=
    fun _ _ _ => onDesk_pairs _
  cases op with
  | login user pass => exact hl.login _ _
  | signup user pass => exact hl.requestData _ _
  | logout => exact hl.bind hl.logout fun _ => hl.value _
  | listEntries path recursive => exact hl.requestData _ _
  | makeDir path => exact hl.requestData _ _
  | removePath path => exact hl.requestData _ _
  | statPath path => exact hl.requestData _ _
  | renamePath source dest => exact hl.requestData _ _
  | put localPath remotePath overwrite => exact hl.put hp _ _ _
  | get remotePath localPath => exact hl.get hp _ _

/-- Induction on the calls. -/
theorem runAll_pairs (ops : List ClientCall) (st : Link σ τ × CloudClient) :
    Pairs b st.1 (ClientCall.runAll (Link.calls b others base) ops st).1 := by
  induction ops generalizing st with
  | nil => exact Pairs.refl _
  | cons op ops ih => exact (run_pairs op st).trans (ih _)

/-- **Replies are paired with requests.** In every run of a client on a connection, with any calls
one after the other, of which any may fail, and with any changes that others make: if each chunk
that was sent was awaited, then each reply that was received is the one to the last request before
it, and carries its sequence number unless it reports an exception. -/
theorem replies_paired (b : Backend σ) (others : ℕ → σ → σ) (base : ClientCalls τ)
    (ops : List ClientCall) (w : σ) (conn : Connection) (desk : τ) (c : CloudClient)
    (hawaited : ∀ h ∈ (ClientCall.runAll (Link.calls b others base) ops
      ({ sys := w, conn := conn, desk := desk }, c)).1.handled, Awaited b h) :
    ∀ t ∈ (ClientCall.runAll (Link.calls b others base) ops
      ({ sys := w, conn := conn, desk := desk }, c)).1.taken, Paired t :=
  ((runAll_pairs ops ({ sys := w, conn := conn, desk := desk }, c)).2 hawaited
    ⟨rfl, by simp⟩).2

/-- A chunk frame that is handled without an exception was awaited. -/
theorem awaited_of_handled {h : HandledFrame σ}
    (hok : (handleFrame b h.frame { sys := h.sys, conn := h.conn }).1 = .ok ()) : Awaited b h := by
  intro payload hframe
  rw [hframe] at hok
  unfold handleFrame at hok
  dsimp only at hok
  rcases hdecode : Protocol.decodeChunk payload with _ | c
  · rw [hdecode] at hok
    cases hok
  · rw [hdecode] at hok
    dsimp only at hok
    unfold handleChunk at hok
    have hfields : (fields : Act (Turn σ) Connection) { sys := h.sys, conn := h.conn } =
        (.ok h.conn, { sys := h.sys, conn := h.conn }) := rfl
    rw [bind_ok hfields] at hok
    by_cases hauthed : h.conn.authed = true
    · rw [hauthed] at hok
      simp only [Bool.not_true, Bool.false_eq_true, if_false] at hok
      split_ifs at hok with hid
      · cases hok
      · push Not at hid
        exact ⟨c, rfl, hauthed, hid.1, hid.2, hok⟩
    · rw [Bool.not_eq_true] at hauthed
      rw [hauthed] at hok
      cases hok

namespace Sample

/-- A user signs up, uploads a file in a chunk, and downloads it. -/
def roundTrip : List ClientCall :=
  [.signup (str "alice") (str "secret"), .login (str "alice") (str "secret"),
    .put (str "/x") (str "/a") false, .get (str "/a") (str "/y"), .removePath (str "/b")]

/-- A machine with a file. -/
def desk : Desk where
  files path := if path = str "/x" then some (str "ab") else none

/-- The calls of a client that is alone. -/
def alone : ClientCalls (Link World Desk) :=
  Link.calls (World.backend Interface.Sample.env) (fun _ w => w)
    (Desk.calls Interface.Sample.md5Hex)

/-- What the round trip leads to. -/
def roundTripped : Link World Desk × CloudClient :=
  ClientCall.runAll alone roundTrip
    ({ sys := (Interface.Sample.after []).world, conn := { peerIp := [] }, desk := desk },
      { connected := true })

/-- No frame of the round trip throws. -/
theorem roundTrip_handled : (roundTripped.1.handled.all fun h =>
    decide ((handleFrame (World.backend Interface.Sample.env) h.frame
      { sys := h.sys, conn := h.conn }).1 = .ok ())) = true := by
  decide +kernel

theorem roundTrip_taken : roundTripped.1.taken.isEmpty = false := by
  decide +kernel

end Sample

/-- A round trip with a file that is sent in a chunk. -/
theorem replies_paired_roundTrip : Sample.roundTripped.1.taken.isEmpty = false ∧
    ∀ t ∈ Sample.roundTripped.1.taken, Paired t := by
  refine ⟨Sample.roundTrip_taken, ?_⟩
  have hawaited : ∀ h ∈ Sample.roundTripped.1.handled,
      Awaited (World.backend Interface.Sample.env) h := by
    intro h hh
    exact awaited_of_handled
      (of_decide_eq_true (List.all_eq_true.mp Sample.roundTrip_handled h hh))
  unfold Sample.roundTripped Sample.alone at *
  generalize (Interface.Sample.after []).world = w at *
  exact replies_paired (World.backend Interface.Sample.env) (fun _ w => w)
    (Desk.calls Interface.Sample.md5Hex) Sample.roundTrip w { peerIp := [] } Sample.desk
    { connected := true } hawaited

end CloudStore.Analysis
