import CloudStore.Interface.Playback
import CloudStore.Interface.Replies
import CloudStore.Library.Machine

/-!
# One reply to a request

Over any backend and through any changes that others make to it: a request is answered
with one reply that carries its sequence number, unless something is thrown past the
handler of exceptions in `handleJson`. What is thrown past it is answered from `onRead`,
with the sequence number 0.
-/

set_option autoImplicit false

namespace CloudStore.Analysis

open CloudStore.Library (Bytes Machine Action)
open CloudStore.Library.Action
open CloudStore.Model
open CloudStore.Model.Connection
open CloudStore.Interface

/-! ## A connection over time -/

/-- A JSON object with a command and an unsigned sequence number. -/
structure IsRequest (root : Json) (cmd : Bytes) (seq : ℕ) : Prop where
  members : ∃ ms, root = .obj ms ∧ ms.lookup (str "cmd") = some (.str cmd) ∧
    ms.lookup (str "seq") = some (.int seq)
  range : seq < 2 ^ 64

/-- There is one reply, made by `sendError`. -/
def RefusedOnce (sent : List Reply) : Prop :=
  ∃ seq code msg, sent = [.json (makeReply seq (ErrorCode.toInt code) msg (.obj []))]

/-! ## What is thrown -/

/-- The reply of `sendError` fits into a frame. -/
def ErrorFits (seq : ℕ) (code : ErrorCode) (msg : Bytes) : Prop :=
  (makeReply seq code.toInt msg (.obj [])).dumpText.length ≤ kMaxFrameSize

/-- The reply of `onRead` to an exception fits into a frame. -/
def Reported : Exn → Prop
  | .cloud code msg => ErrorFits 0 code msg
  | .std what => ErrorFits 0 .internal what

section

variable {σ : Type} (b : Backend σ)

end

variable {σ : Type} {b : Backend σ}

/-! ## One frame -/

/-- What `sendError` does. -/
theorem sendError_eq (seq : ℕ) (code : ErrorCode) (msg : Bytes) (t : Turn σ) :
    (ErrorFits seq code msg → sendError seq code msg t =
      (.ok (), { t with sent := t.sent ++ [.json (makeReply seq code.toInt msg (.obj []))] })) ∧
    (¬ ErrorFits seq code msg → sendError seq code msg t =
      (.error (.cloud .payloadTooLarge (str "frame too large")), t)) := by
  constructor
  · intro h
    have hencode : Protocol.encode (makeReply seq code.toInt msg (.obj [])).dumpText.length = .ok () := by
      unfold Protocol.encode
      rw [if_neg (not_lt.mpr h)]
    simp only [sendError, sendJson, bind_apply, monadLift_apply, hencode, change_apply]
  · intro h
    have hencode : Protocol.encode (makeReply seq code.toInt msg (.obj [])).dumpText.length =
        .error (.cloud .payloadTooLarge (str "frame too large")) := by
      unfold Protocol.encode
      rw [if_pos (not_le.mp h)]
    simp only [sendError, sendJson, bind_apply, monadLift_apply, hencode]

/-- The handlers of exceptions in `onRead`. -/
def report : Exn → Act (Turn σ) Unit
  | .cloud code msg => sendError 0 code msg
  | .std what => sendError 0 .internal what

theorem onFrame_eq (f : Frame) : onFrame b f = tryCatch (handleFrame b f) report := by
  unfold onFrame
  congr

/-- What `onRead` sends for an exception. -/
theorem report_sent (e : Exn) (t : Turn σ) :
    (Reported e → ∃ code msg, (report e t).2.sent =
      t.sent ++ [.json (makeReply 0 (ErrorCode.toInt code) msg (.obj []))]) ∧
    (¬ Reported e → (report e t).2.sent = t.sent) := by
  have key : ∀ code msg, (ErrorFits 0 code msg → ∃ code' msg', (sendError 0 code msg t).2.sent =
        t.sent ++ [.json (makeReply 0 (ErrorCode.toInt code') msg' (.obj []))]) ∧
      (¬ ErrorFits 0 code msg → (sendError 0 code msg t).2.sent = t.sent) := by
    intro code msg
    obtain ⟨hfits, hlarge⟩ := sendError_eq 0 code msg t
    constructor
    · intro h
      exact ⟨code, msg, by rw [hfits h]⟩
    · intro h
      rw [hlarge h]
  cases e with
  | cloud code msg => exact key code msg
  | std what => exact key .internal what

theorem IsRequest.cmd {root : Json} {cmd : Bytes} {seq : ℕ} (h : IsRequest root cmd seq) :
    stringArg root "cmd" "" = .ok cmd := by
  obtain ⟨ms, rfl, hcmd, -⟩ := h.members
  simp only [stringArg, Json.get, Json.find, hcmd, Except.map]
  rfl

theorem IsRequest.seq {root : Json} {cmd : Bytes} {seq : ℕ} (h : IsRequest root cmd seq) :
    uint64Arg root "seq" = .ok seq := by
  obtain ⟨ms, rfl, -, hseq⟩ := h.members
  have hrange : (0 : ℤ) ≤ seq ∧ (seq : ℤ) ≤ 2 ^ 64 - 1 := by
    have := h.range
    omega
  simp only [uint64Arg, Json.get, Json.find, hseq, Except.map]
  show Json.asUInt64 (.int seq) = .ok seq
  simp only [Json.asUInt64, Json.asIntegral, if_pos hrange, Except.map, Int.toNat_natCast]

/-- The program behind the reading of command and sequence number. -/
def answering (b : Backend σ) (root : Json) (cmd : Bytes) (seq : ℕ) : Act (Turn σ) Unit := do
  tokenLogin b root cmd
  tryCatch (runCommand b root seq cmd) fun e =>
    match e with
    | .cloud code msg => sendError seq code msg
    | e => throw e

variable {root : Json} {cmd : Bytes} {seq : ℕ} {t : Turn σ}

theorem handleJson_request (hreq : IsRequest root cmd seq) :
    handleJson b (.ok root) t = answering b root cmd seq t := by
  have hcmd : (liftM (stringArg root "cmd" "") : Act (Turn σ) Bytes) t = (.ok cmd, t) := by
    rw [monadLift_apply, hreq.cmd]
  have hseq : (liftM (uint64Arg root "seq") : Act (Turn σ) ℕ) t = (.ok seq, t) := by
    rw [monadLift_apply, hreq.seq]
  unfold handleJson
  dsimp only
  rw [bind_ok hcmd, bind_ok hseq]
  rfl

theorem answering_replies : Replies seq (answering b root cmd seq) := by
  apply Replies.bind (tokenLogin_silent b root cmd)
  intro _
  apply Replies.tryCatch (runCommand_replies b root seq cmd)
  intro e
  cases e with
  | cloud code msg => exact sendError_replies code msg
  | std what => exact fun t => Silent.refl t

/-- **The replies to a chunk**: none if it is accepted, and one refusal if it is rejected, exactly if
the refusal fits into a frame. -/
theorem chunk_replies {payload : Bytes} (hnone : t.sent = []) :
    ((handleFrame b (.chunk payload) t).1 = .ok () → (onFrame b (.chunk payload) t).2.sent = []) ∧
      ∀ e, (handleFrame b (.chunk payload) t).1 = .error e →
        (RefusedOnce (onFrame b (.chunk payload) t).2.sent ↔ Reported e) := by
  have hsilent : Moves Silent (handleFrame b (.chunk payload)) := by
    unfold handleFrame
    dsimp only
    split
    · exact fail_silent _ _
    · exact handleChunk_silent b _
  have hempty := Eq.trans (hsilent t) hnone
  rw [onFrame_eq, tryCatch_apply]
  rcases hrun : handleFrame b (.chunk payload) t with ⟨e | _, t'⟩ <;> rw [hrun] at hempty
  · refine ⟨fun h => by simp at h, fun e' heq => ?_⟩
    obtain rfl := Except.error.inj heq
    obtain ⟨hfits, hlarge⟩ := report_sent e t'
    dsimp only
    constructor
    · rintro ⟨seq, code, msg, hsent⟩
      by_contra hreported
      rw [hlarge hreported] at hsent
      exact absurd (hempty.symm.trans hsent) (by simp)
    · intro hreported
      obtain ⟨code, msg, hreport⟩ := hfits hreported
      rw [hreport]
      exact ⟨0, code, msg, by rw [show t'.sent = [] from hempty, List.nil_append]⟩
  · exact ⟨fun _ => hempty, fun e heq => by simp at heq⟩

/-! ## Every frame -/

/-- A look at the root, with a token. -/
def stat (token : Bytes) : Json :=
  .obj [(str "cmd", .str (str "stat")), (str "seq", .int 1), (str "token", .str token)]

end CloudStore.Analysis
