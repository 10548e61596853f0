import CloudStore.Model.Connection

/-!
# Replies

Over any backend, a handler sends one reply and sends it last: if it throws, it has sent
nothing. From that, what `handleJson` and the exception handlers around it send for a
frame.
-/

set_option autoImplicit false

namespace CloudStore.Interface

open CloudStore.Library (Bytes Action)
open CloudStore.Library.Action
open CloudStore.Model
open CloudStore.Model.Connection

variable {σ : Type}

/-- Nothing is sent on the way. -/
def Silent (t t' : Turn σ) : Prop := t'.sent = t.sent

theorem Silent.refl (t : Turn σ) : Silent t t := rfl

theorem Silent.trans (t t' t'' : Turn σ) (h : Silent t t') (h' : Silent t' t'') : Silent t t'' :=
  Eq.trans h' h

/-- The sequence number of a JSON reply; a chunk has none. -/
def Carries (seq : ℕ) : Reply → Prop
  | .json v => v.find (str "seq") = .ok (some (.int seq))
  | .chunk .. => True

/-- One reply is sent, with the sequence number, or an exception comes before any reply. -/
def Replies (seq : ℕ) (a : Act (Turn σ) Unit) : Prop :=
  ∀ t, Meets a t (fun _ t' => ∃ r, t'.sent = t.sent ++ [r] ∧ Carries seq r) (fun _ t' => Silent t t')

section

variable {α β : Type} {seq : ℕ}

/-! ## Silent parts -/

theorem lift_silent (x : Except Exn α) : Moves Silent (liftM x : Act (Turn σ) α) :=
  Moves.of_lift Silent.refl x

theorem fields_silent : Moves Silent (fields : Act (Turn σ) Connection) := Moves.of_look Silent.refl _

theorem fail_silent (code : ErrorCode) (msg : Bytes) :
    Moves Silent (fail code msg : Act (Turn σ) α) := Moves.of_throw Silent.refl _

theorem record_silent (c : Call) : Moves Silent (record c : Act (Turn σ) Unit) := fun _ => rfl

theorem assign_silent (f : Connection → Connection) :
    Moves Silent (assign f : Act (Turn σ) Unit) := fun _ => rfl

theorem system_silent (a : Act σ α) : Moves Silent (system a) := fun _ => rfl

theorem withUpload_silent (a : Act (σ × UploadSession) α) : Moves Silent (withUpload a) := fun _ => rfl

theorem Silent.bind {a : Act (Turn σ) α} {k : α → Act (Turn σ) β} (ha : Moves Silent a)
    (hk : ∀ x, Moves Silent (k x)) : Moves Silent (a >>= k) := Moves.bind Silent.trans ha hk

theorem requireLogin_silent : Moves Silent (requireLogin : Act (Turn σ) Unit) := by
  apply Silent.bind fields_silent
  intro c
  split
  · exact fail_silent _ _
  · exact Moves.of_pure Silent.refl _

theorem resolveUserPath_silent (b : Backend σ) (path : Bytes) (mustExist : Bool) :
    Moves Silent (resolveUserPath b path mustExist) := by
  apply Silent.bind requireLogin_silent
  intro _
  apply Silent.bind fields_silent
  intro c
  exact system_silent _

theorem resolveExistingOrNew_silent (b : Backend σ) (path : Bytes) :
    Moves Silent (resolveExistingOrNew b path) := by
  apply Moves.tryCatch Silent.trans (resolveUserPath_silent b path true)
  intro e
  split
  · exact resolveUserPath_silent b path false
  · exact Moves.of_throw Silent.refl _

/-! ## The reply at the end -/

theorem Replies.bind {a : Act (Turn σ) α} {k : α → Act (Turn σ) Unit} (ha : Moves Silent a)
    (hk : ∀ x, Replies seq (k x)) : Replies seq (a >>= k) := by
  intro t
  have hsilent := ha t
  unfold Meets
  rcases hrun : a t with ⟨e | x, t'⟩
  · rw [bind_error hrun]
    rw [hrun] at hsilent
    exact hsilent
  · rw [bind_ok hrun]
    rw [hrun] at hsilent
    have hsilent : t'.sent = t.sent := hsilent
    have hend := hk x t'
    unfold Meets Silent at hend
    rw [hsilent] at hend
    exact hend

/-- A handler of exceptions replies for a program that has not replied. -/
theorem Replies.tryCatch {a : Act (Turn σ) Unit} {h : Exn → Act (Turn σ) Unit} (ha : Replies seq a)
    (hh : ∀ e, Replies seq (h e)) : Replies seq (tryCatch a h) := by
  intro t
  rw [meets_tryCatch]
  apply (ha t).mono (fun _ _ h => h)
  intro e t' hsilent
  have hsilent : t'.sent = t.sent := hsilent
  have hend := hh e t'
  unfold Meets Silent at hend ⊢
  rw [hsilent] at hend
  exact hend

theorem Replies.fail (code : ErrorCode) (msg : Bytes) :
    Replies seq (Model.fail code msg : Act (Turn σ) Unit) := fun t => Silent.refl t

theorem carries_makeReply (code : ℤ) (msg : Bytes) (data : Json) :
    Carries seq (.json (makeReply seq code msg data)) := by
  have h₁ : (str "seq" == str "code") = false := by decide
  have h₂ : (str "seq" == str "data") = false := by decide
  have h₃ : (str "seq" == str "msg") = false := by decide
  simp [Carries, makeReply, Json.find, List.lookup_cons, h₁, h₂, h₃]

theorem sendJson_replies {v : Json} (hv : Carries seq (.json v)) :
    Replies seq (sendJson v : Act (Turn σ) Unit) := by
  apply Replies.bind (lift_silent _)
  intro _ t
  exact ⟨.json v, rfl, hv⟩

theorem sendError_replies (code : ErrorCode) (msg : Bytes) :
    Replies seq (sendError seq code msg : Act (Turn σ) Unit) :=
  sendJson_replies (carries_makeReply _ _ _)

theorem sendOk_replies (data : Json) : Replies seq (sendOk seq data : Act (Turn σ) Unit) :=
  sendJson_replies (carries_makeReply _ _ _)

theorem sendChunk_replies (fileId : Bytes) (offset : ℕ) (data : Bytes) :
    Replies seq (sendChunk fileId offset data : Act (Turn σ) Unit) := by
  apply Replies.bind (lift_silent _)
  intro _ t
  exact ⟨.chunk fileId offset data, rfl, trivial⟩

end

/-! ## The handlers -/

section

variable (b : Backend σ) (root : Json) (seq : ℕ)

theorem onRegister_replies : Replies seq (onRegister b root seq) := by
  apply Replies.bind (lift_silent _)
  intro data
  apply Replies.bind (lift_silent _)
  intro username
  apply Replies.bind (lift_silent _)
  intro password
  apply Replies.bind (record_silent _)
  intro _
  apply Replies.bind (system_silent _)
  intro s
  exact sendOk_replies _

theorem onLogin_replies : Replies seq (onLogin b root seq) := by
  apply Replies.bind (lift_silent _)
  intro data
  apply Replies.bind (lift_silent _)
  intro username
  apply Replies.bind (lift_silent _)
  intro password
  apply Replies.bind fields_silent
  intro c
  apply Replies.bind (record_silent _)
  intro _
  apply Replies.bind (system_silent _)
  intro s
  apply Replies.bind (assign_silent _)
  intro _
  exact sendOk_replies _

theorem onLogout_replies : Replies seq (onLogout b seq) := by
  apply Replies.bind requireLogin_silent
  intro _
  apply Replies.bind fields_silent
  intro c
  apply Replies.bind (record_silent _)
  intro _
  apply Replies.bind (system_silent _)
  intro _
  apply Replies.bind (assign_silent _)
  intro _
  exact sendOk_replies _

theorem onList_replies : Replies seq (onList b root seq) := by
  apply Replies.bind requireLogin_silent
  intro _
  apply Replies.bind (lift_silent _)
  intro data
  apply Replies.bind (lift_silent _)
  intro path
  apply Replies.bind (lift_silent _)
  intro data'
  apply Replies.bind (lift_silent _)
  intro recursive
  apply Replies.bind (lift_silent _)
  intro logical
  apply Replies.bind
  · apply Moves.tryCatch Silent.trans
    · apply Silent.bind (resolveUserPath_silent b path true)
      intro phys
      apply Silent.bind (record_silent _)
      intro _
      exact system_silent _
    · intro e
      split
      · exact Moves.of_pure Silent.refl _
      · exact Moves.of_throw Silent.refl _
  intro entries
  apply Replies.bind fields_silent
  intro c
  apply Replies.bind (record_silent _)
  intro _
  apply Replies.bind (system_silent _)
  intro indexed
  exact sendOk_replies _

theorem onMkdir_replies : Replies seq (onMkdir b root seq) := by
  apply Replies.bind requireLogin_silent
  intro _
  apply Replies.bind (lift_silent _)
  intro data
  apply Replies.bind (lift_silent _)
  intro path
  apply Replies.bind (resolveUserPath_silent b path false)
  intro phys
  apply Replies.bind (record_silent _)
  intro _
  apply Replies.bind (system_silent _)
  intro _
  apply Replies.bind (lift_silent _)
  intro norm
  apply Replies.bind fields_silent
  intro c
  apply Replies.bind (record_silent _)
  intro _
  apply Replies.bind (system_silent _)
  intro _
  exact sendOk_replies _

theorem onRm_replies : Replies seq (onRm b root seq) := by
  apply Replies.bind requireLogin_silent
  intro _
  apply Replies.bind (lift_silent _)
  intro data
  apply Replies.bind (lift_silent _)
  intro path
  apply Replies.bind (lift_silent _)
  intro logical
  split
  · exact Replies.fail _ _
  · apply Replies.bind (resolveUserPath_silent b path false)
    intro phys
    apply Replies.bind fields_silent
    intro c
    apply Replies.bind (record_silent _)
    intro _
    apply Replies.bind (system_silent _)
    intro _
    exact sendOk_replies _

theorem onStat_replies : Replies seq (onStat b root seq) := by
  apply Replies.bind requireLogin_silent
  intro _
  apply Replies.bind (lift_silent _)
  intro data
  apply Replies.bind (lift_silent _)
  intro path
  apply Replies.bind (lift_silent _)
  intro logical
  apply Replies.bind fields_silent
  intro c
  apply Replies.bind (record_silent _)
  intro _
  apply Replies.bind (system_silent _)
  intro row
  cases row with
  | some indexed => exact sendOk_replies _
  | none =>
      apply Replies.bind (resolveUserPath_silent b path true)
      intro phys
      apply Replies.bind (record_silent _)
      intro _
      apply Replies.bind (system_silent _)
      intro e
      exact sendOk_replies _

theorem onRename_replies : Replies seq (onRename b root seq) := by
  apply Replies.bind requireLogin_silent
  intro _
  apply Replies.bind (lift_silent _)
  intro data
  apply Replies.bind (lift_silent _)
  intro source
  apply Replies.bind (lift_silent _)
  intro data'
  apply Replies.bind (lift_silent _)
  intro dest
  apply Replies.bind (lift_silent _)
  intro fromNorm
  apply Replies.bind (lift_silent _)
  intro toNorm
  apply Replies.bind (resolveExistingOrNew_silent b source)
  intro fromPhys
  apply Replies.bind (resolveUserPath_silent b dest false)
  intro toPhys
  apply Replies.bind fields_silent
  intro c
  apply Replies.bind (record_silent _)
  intro _
  apply Replies.bind (system_silent _)
  intro _
  exact sendOk_replies _

theorem onInstantQuery_replies : Replies seq (onInstantQuery b root seq) := by
  apply Replies.bind requireLogin_silent
  intro _
  apply Replies.bind (lift_silent _)
  intro d
  apply Replies.bind (lift_silent _)
  intro md5
  apply Replies.bind (lift_silent _)
  intro size
  apply Replies.bind fields_silent
  intro c
  apply Replies.bind (record_silent _)
  intro _
  apply Replies.bind (system_silent _)
  intro q
  exact sendOk_replies _

theorem onInstantUpload_replies : Replies seq (onInstantUpload b root seq) := by
  apply Replies.bind requireLogin_silent
  intro _
  apply Replies.bind (lift_silent _)
  intro d
  apply Replies.bind (lift_silent _)
  intro path
  apply Replies.bind (lift_silent _)
  intro logical
  apply Replies.bind (resolveUserPath_silent b path false)
  intro phys
  apply Replies.bind (lift_silent _)
  intro md5
  apply Replies.bind (lift_silent _)
  intro size
  apply Replies.bind (lift_silent _)
  intro offset
  apply Replies.bind (lift_silent _)
  intro proof
  apply Replies.bind (lift_silent _)
  intro overwrite
  apply Replies.bind fields_silent
  intro c
  apply Replies.bind (record_silent _)
  intro _
  apply Replies.bind (system_silent _)
  intro _
  exact sendOk_replies _

theorem onUploadBegin_replies : Replies seq (onUploadBegin b root seq) := by
  apply Replies.bind requireLogin_silent
  intro _
  apply Replies.bind (lift_silent _)
  intro d
  apply Replies.bind (lift_silent _)
  intro path
  apply Replies.bind (lift_silent _)
  intro logical
  apply Replies.bind (record_silent _)
  intro _
  apply Replies.bind (assign_silent _)
  intro _
  apply Replies.bind (resolveUserPath_silent b path false)
  intro phys
  apply Replies.bind (lift_silent _)
  intro md5
  apply Replies.bind (lift_silent _)
  intro size
  apply Replies.bind fields_silent
  intro c
  apply Replies.bind (record_silent _)
  intro _
  apply Replies.bind (system_silent _)
  intro st
  apply Replies.bind (assign_silent _)
  intro _
  exact sendOk_replies _

theorem onUploadEnd_replies : Replies seq (onUploadEnd b seq) := by
  apply Replies.bind requireLogin_silent
  intro _
  apply Replies.bind fields_silent
  intro c
  apply Replies.bind (record_silent _)
  intro _
  apply Replies.bind (withUpload_silent _)
  intro _
  apply Replies.bind fields_silent
  intro c'
  apply Replies.bind (assign_silent _)
  intro _
  exact sendOk_replies _

theorem onDownloadBegin_replies : Replies seq (onDownloadBegin b root seq) := by
  apply Replies.bind requireLogin_silent
  intro _
  apply Replies.bind (lift_silent _)
  intro data
  apply Replies.bind (lift_silent _)
  intro path
  apply Replies.bind (lift_silent _)
  intro logical
  apply Replies.bind (record_silent _)
  intro _
  apply Replies.bind (assign_silent _)
  intro _
  apply Replies.bind (resolveExistingOrNew_silent b path)
  intro phys
  apply Replies.bind fields_silent
  intro c
  apply Replies.bind (record_silent _)
  intro _
  apply Replies.bind (system_silent _)
  intro d
  apply Replies.bind (assign_silent _)
  intro _
  exact sendOk_replies _

theorem onDownloadChunk_replies : Replies seq (onDownloadChunk b root seq) := by
  apply Replies.bind requireLogin_silent
  intro _
  apply Replies.bind (lift_silent _)
  intro d
  apply Replies.bind fields_silent
  intro c
  apply Replies.bind (lift_silent _)
  intro fileId
  split
  · exact Replies.fail _ _
  · apply Replies.bind (lift_silent _)
    intro offset
    apply Replies.bind (lift_silent _)
    intro v
    apply Replies.bind (lift_silent _)
    intro length
    apply Replies.bind (record_silent _)
    intro _
    apply Replies.bind (system_silent _)
    intro bytes
    split
    · exact sendOk_replies _
    · exact sendChunk_replies _ _ _

/-- The part of `handleJson` that knows the sequence number. -/
def runCommand (cmd : Bytes) : Act (Turn σ) Unit :=
  match Command.ofText cmd with
  | some c => handler b c root seq
  | none => sendError seq .badRequest (str "unknown cmd: " ++ cmd)

/-- **Every command sends one reply, last.** -/
theorem runCommand_replies (cmd : Bytes) : Replies seq (runCommand b root seq cmd) := by
  unfold runCommand
  split
  next c _ =>
    cases c with
    | register => exact onRegister_replies b root seq
    | login => exact onLogin_replies b root seq
    | logout => exact onLogout_replies b seq
    | ls => exact onList_replies b root seq
    | mkdir => exact onMkdir_replies b root seq
    | rm => exact onRm_replies b root seq
    | stat => exact onStat_replies b root seq
    | rename => exact onRename_replies b root seq
    | instantQuery => exact onInstantQuery_replies b root seq
    | instantUpload => exact onInstantUpload_replies b root seq
    | uploadBegin => exact onUploadBegin_replies b root seq
    | uploadEnd => exact onUploadEnd_replies b seq
    | downloadBegin => exact onDownloadBegin_replies b root seq
    | downloadChunk => exact onDownloadChunk_replies b root seq
  · exact sendError_replies _ _

/-- The login by token sends nothing. -/
theorem tokenLogin_silent (cmd : Bytes) : Moves Silent (tokenLogin b root cmd) := by
  apply Silent.bind fields_silent
  intro c
  apply Silent.bind (lift_silent _)
  intro token
  cases token with
  | none => exact Moves.of_pure Silent.refl _
  | some token =>
      apply Silent.bind (record_silent _)
      intro _
      apply Silent.bind (system_silent _)
      intro s
      exact assign_silent _

/-- A chunk sends nothing. -/
theorem handleChunk_silent (chunk : ChunkPayload) : Moves Silent (handleChunk b chunk) := by
  apply Silent.bind fields_silent
  intro c
  split
  · exact fail_silent _ _
  split
  · exact fail_silent _ _
  · apply Silent.bind (record_silent _)
    intro _
    exact withUpload_silent _

end

end CloudStore.Interface
