import CloudStore.Interface.Calls
import CloudStore.Model.Server

/-!
# What a frame does is what its calls do

One lemma for each handler, and from them `onFrame_calls` and `step_calls`.
-/

set_option autoImplicit false

namespace CloudStore.Interface

open CloudStore.Library (Bytes Action)
open CloudStore.Library.Action (Moves Reads bind_at)
open CloudStore.Model
open CloudStore.Model.Connection

variable {env : Env}

/-! ## Accounts -/

theorem onRegister_led (root : Json) (seq : ℕ) :
    Moves (Led env) (onRegister (World.backend env) root seq) := by
  intro t
  refine led_lift fun data _ => led_lift fun username _ => led_lift fun password _ => ?_
  refine led_plain (Issued.registerUser _ _) rfl fun s t' _ => ?_
  exact sendOk_led _ _ t'

theorem onLogin_led (root : Json) (seq : ℕ) :
    Moves (Led env) (onLogin (World.backend env) root seq) := by
  intro t
  refine led_lift fun data _ => led_lift fun username _ => led_lift fun password _ => ?_
  refine led_fields (led_call (f := loggedIn) (Issued.login _ _) rfl fun s t' _ => ?_)
  exact sendOk_led _ _ t'

theorem onLogout_led (seq : ℕ) : Moves (Led env) (onLogout (World.backend env) seq) := by
  intro t
  refine led_requireLogin fun hauthed => led_fields ?_
  refine led_call (f := fun _ c => { c with session := {}, authed := false })
    (Issued.logout hauthed) rfl fun s t' _ => ?_
  exact sendOk_led _ _ t'

theorem tokenLogin_led (root : Json) (cmd : Bytes) :
    Moves (Led env) (tokenLogin (World.backend env) root cmd) := by
  intro t
  refine led_fields (led_lift fun token htoken => ?_)
  cases token with
  | none => exact Led.refl t
  | some token =>
      have hclosed : t.conn.authed = false := by
        cases hauthed : t.conn.authed with
        | false => rfl
        | true => simp [implicitToken, hauthed, pure, Except.pure] at htoken
      exact led_call (f := loggedIn) (k := fun _ => pure ()) (Issued.checkToken _ hclosed) rfl
        fun s t' _ => Led.refl t'

/-! ## Files and directories -/

/-- The part of `onList` that reads the directory. -/
theorem listing_led (path : Bytes) (recursive : Bool) (t : Turn World) :
    let t' := ((tryCatch
      (do
        let phys ← resolveUserPath (World.backend env) path true
        record (.listDir phys recursive)
        system (FileManager.listDir (World.backend env).files phys recursive))
      fun e =>
        match e with
        | .cloud .notFound _ => return []
        | e => throw e : Act (Turn World) (List FileEntry)) t).2
    Led env t t' ∧ t'.conn = t.conn := by
  apply Moves.tryCatch (R := fun t t' : Turn World => Led env t t' ∧ t'.conn = t.conn)
  · exact fun s t u h h' => ⟨Led.trans _ _ _ h.1 h'.1, h'.2.trans h.2⟩
  · intro t
    refine ⟨?_, ?_⟩
    · refine led_resolve fun phys hphys => ?_
      exact led_last (Issued.listDir recursive hphys) rfl
    · apply Action.read_bind (R := fun t t' : Turn World => t'.conn = t.conn) rfl
        (resolveUserPath_reads path true t)
      exact fun _ _ => rfl
  · intro e
    split
    · exact fun t => ⟨Led.refl t, rfl⟩
    · exact fun t => ⟨Led.refl t, rfl⟩

theorem onList_led (root : Json) (seq : ℕ) :
    Moves (Led env) (onList (World.backend env) root seq) := by
  intro t
  refine led_requireLogin fun hauthed => led_lift fun data _ => led_lift fun path _ => ?_
  refine led_lift fun data' _ => led_lift fun recursive _ => led_lift fun logical _ => ?_
  refine bind_at Led.trans (listing_led path recursive t).1 fun entries t' ht' => ?_
  have hconn : t'.conn = t.conn :=
    (congrArg (fun r => r.2.conn) ht').symm.trans (@listing_led env path recursive t).2
  have hauthed' : t'.conn.authed = true := hconn ▸ hauthed
  refine led_fields (led_plain (Issued.listIndexed _ hauthed') rfl fun indexed t'' _ => ?_)
  exact sendOk_led _ _ t''

theorem onMkdir_led (root : Json) (seq : ℕ) :
    Moves (Led env) (onMkdir (World.backend env) root seq) := by
  intro t
  refine led_requireLogin fun hauthed => led_lift fun data _ => led_lift fun path _ => ?_
  refine led_resolve fun phys hphys => led_plain (Issued.makeDir hphys) rfl fun _ t' hconn => ?_
  refine led_lift fun norm hnorm => led_fields ?_
  have hauthed' : t'.conn.authed = true := hconn ▸ hauthed
  refine led_plain (Issued.indexFile hauthed' hnorm) rfl fun _ t'' _ => ?_
  exact sendOk_led _ _ t''

theorem onRm_led (root : Json) (seq : ℕ) :
    Moves (Led env) (onRm (World.backend env) root seq) := by
  intro t
  refine led_requireLogin fun hauthed => led_lift fun data _ => led_lift fun path _ => ?_
  refine led_lift fun norm hnorm => ?_
  split
  · exact Led.refl t
  next hne =>
    refine led_resolve fun phys hphys => led_fields ?_
    refine led_plain (Issued.removeUserPath hnorm hne hphys) rfl fun _ t' _ => ?_
    exact sendOk_led _ _ t'

theorem onStat_led (root : Json) (seq : ℕ) :
    Moves (Led env) (onStat (World.backend env) root seq) := by
  intro t
  refine led_requireLogin fun hauthed => led_lift fun data _ => led_lift fun path _ => ?_
  refine led_lift fun norm hnorm => led_fields ?_
  refine led_plain (Issued.lookupFile _ hauthed) rfl fun indexed t' hconn => ?_
  cases indexed with
  | some indexed => exact sendOk_led _ _ t'
  | none =>
      refine led_resolve fun phys hphys => led_plain (Issued.statPath hphys) rfl fun e t'' _ => ?_
      exact sendOk_led _ _ t''

theorem onRename_led (root : Json) (seq : ℕ) :
    Moves (Led env) (onRename (World.backend env) root seq) := by
  intro t
  refine led_requireLogin fun hauthed => led_lift fun data _ => led_lift fun source _ => ?_
  refine led_lift fun data' _ => led_lift fun dest _ => ?_
  refine led_lift fun fromNorm hfrom => led_lift fun toNorm hto => ?_
  refine led_resolveExistingOrNew fun fromPhys hsource => led_resolve fun toPhys hdest => ?_
  refine led_fields ?_
  refine led_plain (Issued.renameUserPath hfrom hto hsource hdest) rfl fun _ t' _ => ?_
  exact sendOk_led _ _ t'

/-! ## Uploads -/

theorem onInstantQuery_led (root : Json) (seq : ℕ) :
    Moves (Led env) (onInstantQuery (World.backend env) root seq) := by
  intro t
  refine led_requireLogin fun hauthed => led_lift fun d _ => led_lift fun md5 _ => ?_
  refine led_lift fun size _ => led_fields ?_
  refine led_plain (Issued.queryInstant md5 size hauthed) rfl fun q t' _ => ?_
  exact sendOk_led _ _ t'

theorem onInstantUpload_led (root : Json) (seq : ℕ) :
    Moves (Led env) (onInstantUpload (World.backend env) root seq) := by
  intro t
  refine led_requireLogin fun hauthed => led_lift fun d _ => led_lift fun path _ => ?_
  refine led_lift fun norm hnorm => led_resolve fun phys hphys => ?_
  refine led_lift fun md5 _ => led_lift fun size _ => led_lift fun offset _ => ?_
  refine led_lift fun proof _ => led_lift fun overwrite _ => led_fields ?_
  refine led_plain (Issued.instantUpload md5 size offset proof overwrite hnorm hphys) rfl
    fun _ t' _ => ?_
  exact sendOk_led _ _ t'

/-- Closing a transfer is a call that only changes the connection. -/
theorem led_close {β : Type} {t : Turn World} {call : Call} {f : Connection → Connection}
    {k : Unit → Act (Turn World) β} (hissued : Issued env t.sys t.conn call)
    (hrun : runCall env t.sys t.conn call = (t.sys, f t.conn))
    (hk : ∀ t', t'.conn = f t.conn → Led env t' (k () t').2) :
    Led env t ((record call >>= fun _ => assign f >>= k) t).2 := by
  refine Led.trans _ _ _ ?_ (hk _ rfl)
  refine ⟨[⟨t.sys, t.conn, call⟩], rfl, ?_⟩
  have h := Calls.cons call (Calls.nil (w := t.sys) (c := t.conn)) hissued
  rwa [hrun] at h

theorem onUploadBegin_led (root : Json) (seq : ℕ) :
    Moves (Led env) (onUploadBegin (World.backend env) root seq) := by
  intro t
  refine led_requireLogin fun hauthed => led_lift fun d _ => led_lift fun path _ => ?_
  refine led_lift fun norm hnorm => ?_
  refine led_close (Issued.closeUpload hauthed) rfl fun t' _ => ?_
  refine led_resolve fun phys hphys => led_lift fun md5 _ => led_lift fun size _ => ?_
  refine led_fields ?_
  refine led_call (f := fun st c => { c with upload := st })
    (Issued.beginUpload md5 size hnorm hphys) rfl fun st t'' _ => ?_
  exact sendOk_led _ _ t''

theorem handleChunk_led (chunk : ChunkPayload) :
    Moves (Led env) (handleChunk (World.backend env) chunk) := by
  intro t
  refine led_fields ?_
  split
  · exact Led.refl t
  next hauthed =>
    split
    · exact Led.refl t
    next hid =>
      rw [not_or] at hid
      have hauthed' : t.conn.authed = true := by simpa using hauthed
      exact ⟨[⟨t.sys, t.conn, .writeChunk chunk.offset chunk.data⟩], rfl,
        Calls.cons _ Calls.nil (Issued.writeChunk _ _ hauthed' hid.1)⟩

theorem onUploadEnd_led (seq : ℕ) : Moves (Led env) (onUploadEnd (World.backend env) seq) := by
  intro t
  refine led_requireLogin fun hauthed => led_fields ?_
  have hcall := Calls.cons (.finishUpload t.conn.session) (Calls.nil (w := t.sys) (c := t.conn))
    (@Issued.finishUpload env _ _ hauthed)
  rcases hfinish : TransferService.finishUpload (World.backend env) t.conn.session
      (t.sys, t.conn.upload) with ⟨e | u, st⟩
  · refine ⟨[⟨t.sys, t.conn, .finishUpload t.conn.session⟩], ?_⟩
    simp only [runCall, hfinish] at hcall
    simpa [Action.bind_apply, record, withUpload, hfinish] using hcall
  · refine Led.trans _
      { t with
        sys := st.1
        conn := { t.conn with upload := {} }
        calls := ⟨t.sys, t.conn, .finishUpload t.conn.session⟩ :: t.calls } _ ?_ ?_
    · refine ⟨[⟨t.sys, t.conn, .finishUpload t.conn.session⟩], rfl, ?_⟩
      simpa only [runCall, hfinish] using hcall
    · have hlast := @sendOk_led env seq
        (.obj [(str "md5", .str st.2.md5), (str "size", .int st.2.totalSize),
          (str "status", .str (str "ready"))])
        { t with
          sys := st.1
          conn := { t.conn with upload := {} }
          calls := ⟨t.sys, t.conn, .finishUpload t.conn.session⟩ :: t.calls }
      simpa [Action.bind_apply, record, withUpload, fields, assign, hfinish] using hlast

/-! ## Downloads -/

theorem onDownloadBegin_led (root : Json) (seq : ℕ) :
    Moves (Led env) (onDownloadBegin (World.backend env) root seq) := by
  intro t
  refine led_requireLogin fun hauthed => led_lift fun data _ => led_lift fun path _ => ?_
  refine led_lift fun norm hnorm => ?_
  refine led_close (Issued.closeDownload hauthed) rfl fun t' _ => ?_
  refine led_resolveExistingOrNew fun phys hphys => led_fields ?_
  refine led_call (f := fun d c => { c with download := d }) (Issued.beginDownload hnorm hphys) rfl
    fun d t'' _ => ?_
  exact sendOk_led _ _ t''

theorem onDownloadChunk_led (root : Json) (seq : ℕ) :
    Moves (Led env) (onDownloadChunk (World.backend env) root seq) := by
  intro t
  refine led_requireLogin fun hauthed => led_lift fun d _ => led_fields ?_
  refine led_lift fun fileId _ => ?_
  dsimp only
  split
  · exact Led.refl t
  next hid =>
    rw [not_or] at hid
    refine led_lift fun offset _ => led_lift fun value _ => led_lift fun length _ => ?_
    refine led_plain (Issued.readChunk _ _ hauthed hid.1) rfl fun bytes t' _ => ?_
    split
    · exact sendOk_led _ _ t'
    · exact sendChunk_led _ _ _ t'

/-! ## Frames -/

/-- A handler of a command. -/
theorem handler_led (cmd : Command) (root : Json) (seq : ℕ) :
    Moves (Led env) (handler (World.backend env) cmd root seq) := by
  cases cmd with
  | register => exact onRegister_led root seq
  | login => exact onLogin_led root seq
  | logout => exact onLogout_led seq
  | ls => exact onList_led root seq
  | mkdir => exact onMkdir_led root seq
  | rm => exact onRm_led root seq
  | stat => exact onStat_led root seq
  | rename => exact onRename_led root seq
  | instantQuery => exact onInstantQuery_led root seq
  | instantUpload => exact onInstantUpload_led root seq
  | uploadBegin => exact onUploadBegin_led root seq
  | uploadEnd => exact onUploadEnd_led seq
  | downloadBegin => exact onDownloadBegin_led root seq
  | downloadChunk => exact onDownloadChunk_led root seq

theorem handleJson_led (payload : JsonText) :
    Moves (Led env) (handleJson (World.backend env) payload) := by
  intro t
  cases payload with
  | error err => exact sendError_led _ _ _ t
  | ok root =>
      refine led_lift fun cmd _ => led_lift fun seq _ => ?_
      refine bind_at Led.trans (tokenLogin_led root cmd t) fun _ t' _ => ?_
      refine Moves.tryCatch Led.trans ?_ (fun e => ?_) t'
      · split
        · exact handler_led _ root seq
        · exact sendError_led _ _ _
      · split
        · exact sendError_led _ _ _
        · exact Moves.of_throw Led.refl _

/-- **A frame changes the world and its connection through its calls only.** -/
theorem onFrame_calls (f : Frame) (w : World) (c : Connection) :
    Calls env w c (Server.frameTurn env w c f).calls (Server.frameTurn env w c f).sys
      (Server.frameTurn env w c f).conn := by
  have hframe : Moves (Led env) (onFrame (World.backend env) f) := by
    refine Moves.tryCatch Led.trans ?_ fun e => ?_
    · cases f with
      | json text => exact handleJson_led text
      | chunk payload =>
          unfold handleFrame
          dsimp only
          split
          · exact Moves.of_throw Led.refl _
          · exact handleChunk_led _
      | other type => exact Moves.of_throw Led.refl _
    · split
      · exact sendError_led _ _ _
      · exact sendError_led _ _ _
  obtain ⟨new, hnew, hcalls⟩ := hframe { sys := w, conn := c }
  have heq : (Server.frameTurn env w c f).calls = new := by
    rw [Server.frameTurn, hnew]
    simp
  rw [heq]
  exact hcalls

end CloudStore.Interface
