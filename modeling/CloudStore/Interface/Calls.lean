import CloudStore.Interface.Resolution

/-!
# Calls of a frame

A frame reaches the stores and the fields of its connection through calls of the
services, and through nothing else. `runCall` says what one call does, `Issued` where
the arguments of a call come from, and `Calls` chains them. The main result is
`onFrame_calls`: what a frame does is what the calls on its record do, one after another,
each of them issued in the state where it was made.
-/

set_option autoImplicit false

namespace CloudStore.Interface

open CloudStore.Library (Bytes Action)
open CloudStore.Library.Action
open CloudStore.Model
open CloudStore.Model.Connection

variable (env : Env)

/-- Where a call ends. The connection changes only if the call succeeds. -/
def settle {α : Type} (c : Connection) (f : α → Connection → Connection) :
    Except Exn α × World → World × Connection
  | (.ok x, w) => (w, f x c)
  | (.error _, w) => (w, c)

/-- The connection after a login. -/
def loggedIn (s : UserSession) (c : Connection) : Connection :=
  { c with session := s, authed := true }

/-- A call carried out: the world and the connection it leads to. -/
def runCall (w : World) (c : Connection) : Call → World × Connection
  | .registerUser username password =>
    settle c (fun _ c => c) (AuthService.registerUser (World.backend env) username password w)
  | .login username password ip =>
    settle c loggedIn (AuthService.login (World.backend env) username password ip w)
  | .checkToken token => settle c loggedIn (AuthService.checkToken (World.backend env) token w)
  | .logout token =>
    settle c (fun _ c => { c with session := {}, authed := false })
      (AuthService.logout (World.backend env) token w)
  | .listDir physical recursive =>
    settle c (fun _ c => c) (FileManager.listDir (World.files env) physical recursive w)
  | .statPath physical => settle c (fun _ c => c) (FileManager.statPath (World.files env) physical w)
  | .makeDir physical => settle c (fun _ c => c) (FileManager.makeDir (World.files env) physical w)
  | .indexFile userId virtualPath md5 size isDir status =>
    settle c (fun _ c => c)
      (TransferService.indexFile (World.backend env) userId virtualPath md5 size isDir status w)
  | .lookupFile userId virtualPath =>
    settle c (fun _ c => c) (TransferService.lookupPlainFile (World.backend env) userId virtualPath w)
  | .listIndexed userId dirLogical =>
    settle c (fun _ c => c) (TransferService.listIndexed (World.backend env) userId dirLogical w)
  | .removeUserPath session physical virtualPath =>
    settle c (fun _ c => c)
      (TransferService.removeUserPath (World.backend env) session physical virtualPath w)
  | .renameUserPath session fromPhysical fromVirtual toPhysical toVirtual =>
    settle c (fun _ c => c)
      (TransferService.renameUserPath (World.backend env) session fromPhysical fromVirtual toPhysical
        toVirtual w)
  | .queryInstant session md5 size =>
    settle c (fun _ c => c) (TransferService.queryInstant (World.backend env) session md5 size w)
  | .instantUpload session destPath virtualPath md5 size proofOffset proofMd5 overwrite =>
    settle c (fun _ c => c)
      (TransferService.instantUpload (World.backend env) session destPath virtualPath md5 size
        proofOffset proofMd5 overwrite w)
  | .closeUpload => (w, { c with upload := TransferService.closeUpload c.upload })
  | .beginUpload session destPath virtualPath md5 size =>
    settle c (fun st c => { c with upload := st })
      (TransferService.beginUpload (World.backend env) session destPath virtualPath md5 size w)
  | .writeChunk offset data =>
    let r := TransferService.writeChunk (World.backend env) offset data (w, c.upload)
    (r.2.1, { c with upload := r.2.2 })
  | .finishUpload session =>
    match TransferService.finishUpload (World.backend env) session (w, c.upload) with
    | (.ok _, st) => (st.1, { c with upload := {} })
    | (.error _, st) => (st.1, { c with upload := st.2 })
  | .closeDownload => (w, { c with download := TransferService.closeDownload c.download })
  | .beginDownload session _ virtualPath =>
    settle c (fun d c => { c with download := d })
      (TransferService.beginDownload (World.backend env) session virtualPath w)
  | .readChunk offset len =>
    settle c (fun _ c => c) (TransferService.readChunk (World.backend env) c.download offset len w)

/-- A path of the connection that `resolveUserPath` accepts, and what it returns. -/
def Resolves (w : World) (c : Connection) (path physical : Bytes) : Prop :=
  c.authed = true ∧ ∃ mustExist,
    PathGuard.resolve (World.files env) c.session.rootDir path mustExist w = (.ok physical, w)

/-- The calls that handlers make in a state. -/
inductive Issued (w : World) (c : Connection) : Call → Prop
  | registerUser (username password : Bytes) : Issued w c (.registerUser username password)
  | login (username password : Bytes) : Issued w c (.login username password c.peerIp)
  | checkToken (token : Bytes) (hclosed : c.authed = false) : Issued w c (.checkToken token)
  | logout (hauthed : c.authed = true) : Issued w c (.logout c.session.token)
  | listDir {path physical : Bytes} (recursive : Bool) (h : Resolves env w c path physical) :
      Issued w c (.listDir physical recursive)
  | statPath {path physical : Bytes} (h : Resolves env w c path physical) :
      Issued w c (.statPath physical)
  | makeDir {path physical : Bytes} (h : Resolves env w c path physical) :
      Issued w c (.makeDir physical)
  | indexFile {path norm : Bytes} (hauthed : c.authed = true)
      (hnorm : PathGuard.normalizeLogical path = .ok norm) :
      Issued w c (.indexFile c.session.userId (str "/" ++ norm) [] 0 true (str "ready"))
  | lookupFile (virtualPath : Bytes) (hauthed : c.authed = true) :
      Issued w c (.lookupFile c.session.userId virtualPath)
  | listIndexed (dirLogical : Bytes) (hauthed : c.authed = true) :
      Issued w c (.listIndexed c.session.userId dirLogical)
  | removeUserPath {path norm physical : Bytes}
      (hnorm : PathGuard.normalizeLogical path = .ok norm) (hne : norm ≠ [])
      (h : Resolves env w c path physical) :
      Issued w c (.removeUserPath c.session physical (str "/" ++ norm))
  | renameUserPath {source dest fromNorm toNorm fromPhysical toPhysical : Bytes}
      (hfrom : PathGuard.normalizeLogical source = .ok fromNorm)
      (hto : PathGuard.normalizeLogical dest = .ok toNorm)
      (hsource : Resolves env w c source fromPhysical) (hdest : Resolves env w c dest toPhysical) :
      Issued w c (.renameUserPath c.session fromPhysical (str "/" ++ fromNorm) toPhysical
        (str "/" ++ toNorm))
  | queryInstant (md5 : Bytes) (size : ℕ) (hauthed : c.authed = true) :
      Issued w c (.queryInstant c.session md5 size)
  | instantUpload {path norm physical : Bytes} (md5 : Bytes) (size proofOffset : ℕ)
      (proofMd5 : Bytes) (overwrite : Bool) (hnorm : PathGuard.normalizeLogical path = .ok norm)
      (h : Resolves env w c path physical) :
      Issued w c (.instantUpload c.session physical (str "/" ++ norm) md5 size proofOffset proofMd5
        overwrite)
  | closeUpload (hauthed : c.authed = true) : Issued w c .closeUpload
  | beginUpload {path norm physical : Bytes} (md5 : Bytes) (size : ℕ)
      (hnorm : PathGuard.normalizeLogical path = .ok norm) (h : Resolves env w c path physical) :
      Issued w c (.beginUpload c.session physical (str "/" ++ norm) md5 size)
  | writeChunk (offset : ℕ) (data : Bytes) (hauthed : c.authed = true)
      (hopen : c.upload.fileId ≠ []) : Issued w c (.writeChunk offset data)
  | finishUpload (hauthed : c.authed = true) : Issued w c (.finishUpload c.session)
  | closeDownload (hauthed : c.authed = true) : Issued w c .closeDownload
  | beginDownload {path norm physical : Bytes}
      (hnorm : PathGuard.normalizeLogical path = .ok norm) (h : Resolves env w c path physical) :
      Issued w c (.beginDownload c.session physical (str "/" ++ norm))
  | readChunk (offset len : ℕ) (hauthed : c.authed = true) (hopen : c.download.fileId ≠ []) :
      Issued w c (.readChunk offset len)

/-- The calls of a list, newest first, lead from one state to another. -/
inductive Calls (w : World) (c : Connection) :
    List (CallRecord World) → World → Connection → Prop
  | nil : Calls w c [] w c
  | cons {rs : List (CallRecord World)} {w' : World} {c' : Connection} (call : Call)
      (h : Calls w c rs w' c') (hissued : Issued env w' c' call) :
      Calls w c (⟨w', c', call⟩ :: rs) (runCall env w' c' call).1 (runCall env w' c' call).2

variable {env}

theorem Calls.append {w w' w'' : World} {c c' c'' : Connection} {rs rs' : List (CallRecord World)}
    (h : Calls env w c rs w' c') (h' : Calls env w' c' rs' w'' c'') :
    Calls env w c (rs' ++ rs) w'' c'' := by
  induction h' with
  | nil => exact h
  | cons call _ hissued ih => exact Calls.cons call ih hissued

/-- **The induction over the calls of a frame.** What every issued call keeps, with what
it needs of the state it is made in, holds at the end. -/
theorem Calls.keep {w w' : World} {c c' : Connection} {rs : List (CallRecord World)}
    {P : World → Connection → Prop} {Q : CallRecord World → Prop} (h : Calls env w c rs w' c')
    (hstart : P w c) (hok : ∀ r ∈ rs, Q r)
    (hstep : ∀ w c call, P w c → Issued env w c call → Q ⟨w, c, call⟩ →
      P (runCall env w c call).1 (runCall env w c call).2) : P w' c' := by
  induction h with
  | nil => exact hstart
  | cons call _ hissued ih =>
      have hrest := ih fun r hr => hok r (List.mem_cons_of_mem _ hr)
      exact hstep _ _ call hrest hissued (hok _ List.mem_cons_self)

/-- Every call on the record was issued, and was reached by the calls before it. -/
theorem Calls.mem {w w' : World} {c c' : Connection} {rs : List (CallRecord World)}
    (h : Calls env w c rs w' c') {r : CallRecord World} (hr : r ∈ rs) :
    Issued env r.sys r.conn r.call ∧
      ∃ rs₀, (∃ rs₁, rs = rs₁ ++ r :: rs₀) ∧ Calls env w c rs₀ r.sys r.conn := by
  induction h with
  | nil => simp at hr
  | @cons rs w' c' call h hissued ih =>
      rcases List.mem_cons.mp hr with rfl | hr
      · exact ⟨hissued, rs, ⟨[], rfl⟩, h⟩
      · obtain ⟨hi, rs₀, ⟨rs₁, rfl⟩, hrs₀⟩ := ih hr
        exact ⟨hi, rs₀, ⟨⟨w', c', call⟩ :: rs₁, rfl⟩, hrs₀⟩

/-! ## Reading -/

theorem resolveLoop_reads (root norm : Bytes) (mustExist : Bool) (cur : Bytes)
    (parts : List Bytes) :
    Reads (PathGuard.resolveLoop (World.files env) root norm mustExist cur parts) := by
  induction parts generalizing cur with
  | nil =>
      rw [PathGuard.resolveLoop]
      split
      · exact Reads.of_pure _
      · exact Reads.of_throw _
  | cons name parts ih =>
      rw [PathGuard.resolveLoop]
      split
      · exact ih cur
      · apply Reads.bind (Reads.of_look _)
        intro r
        cases r with
        | error e =>
            dsimp only
            split
            · split
              · exact Reads.of_pure _
              · exact Reads.of_throw _
            · exact Reads.of_throw _
        | ok st =>
            dsimp only
            split
            · refine Reads.bind (Reads.bind (Reads.of_look _) fun r => ?_) fun real => ?_
              · cases r with
                | ok real => exact Reads.of_pure _
                | error e => exact Reads.of_throw _
              · split
                · exact ih _
                · exact Reads.of_throw _
            · exact ih _
            · split
              · exact ih _
              · exact Reads.of_throw _

/-- `resolve` changes nothing. -/
theorem resolve_reads (userRoot logical : Bytes) (mustExist : Bool) :
    Reads (PathGuard.resolve (World.files env) userRoot logical mustExist) := by
  unfold PathGuard.resolve
  split
  · exact Reads.of_throw _
  · refine Reads.bind (Reads.bind (Reads.of_look _) fun r => ?_) fun root => ?_
    · cases r with
      | ok real => exact Reads.of_pure _
      | error e => exact Reads.of_throw _
    · refine Reads.bind (Reads.of_lift _) fun norm => ?_
      split
      · exact Reads.of_pure _
      · exact resolveLoop_reads _ _ _ _ _

/-! ## One handler -/

variable (env) in
/-- The way from one state of a handler to another is made of calls. -/
def Led (t t' : Turn World) : Prop :=
  ∃ new, t'.calls = new ++ t.calls ∧ Calls env t.sys t.conn new t'.sys t'.conn

theorem Led.refl (t : Turn World) : Led env t t := ⟨[], rfl, Calls.nil⟩

theorem Led.trans (t t' t'' : Turn World) (h : Led env t t') (h' : Led env t' t'') :
    Led env t t'' := by
  obtain ⟨new, hnew, hcalls⟩ := h
  obtain ⟨new', hnew', hcalls'⟩ := h'
  exact ⟨new' ++ new, by rw [hnew', hnew, List.append_assoc], hcalls.append hcalls'⟩

/-- Replies are no calls. -/
theorem Led.sent {t t' : Turn World} (hsys : t'.sys = t.sys) (hconn : t'.conn = t.conn)
    (hcalls : t'.calls = t.calls) : Led env t t' := by
  refine ⟨[], hcalls, ?_⟩
  rw [hsys, hconn]
  exact Calls.nil

theorem sendJson_led (v : Json) : Moves (Led env) (sendJson v) := by
  refine Moves.bind Led.trans (Moves.of_lift Led.refl _) fun _ => ?_
  exact fun t => Led.sent rfl rfl rfl

theorem sendError_led (seq : ℕ) (code : ErrorCode) (msg : Bytes) :
    Moves (Led env) (sendError seq code msg) := sendJson_led _

theorem sendOk_led (seq : ℕ) (data : Json) : Moves (Led env) (sendOk seq data) := sendJson_led _

theorem sendChunk_led (fileId : Bytes) (offset : ℕ) (data : Bytes) :
    Moves (Led env) (sendChunk fileId offset data) := by
  refine Moves.bind Led.trans (Moves.of_lift Led.refl _) fun _ => ?_
  exact fun t => Led.sent rfl rfl rfl

section Steps

variable {α β : Type} {t : Turn World}

theorem led_lift {x : Except Exn α} {k : α → Act (Turn World) β}
    (hk : ∀ y, x = .ok y → Led env t (k y t).2) :
    Led env t (((liftM x : Act (Turn World) α) >>= k) t).2 := by
  cases x with
  | error e => exact Led.refl t
  | ok y => exact hk y rfl

theorem led_fields {k : Connection → Act (Turn World) β} (hk : Led env t (k t.conn t).2) :
    Led env t ((fields >>= k) t).2 := hk

theorem requireLogin_ok {u : Unit} {t t' : Turn World}
    (h : (requireLogin : Act (Turn World) Unit) t = (.ok u, t')) : t' = t ∧ t.conn.authed = true := by
  unfold requireLogin fields at h
  rw [bind_apply, look_apply] at h
  cases hauthed : t.conn.authed with
  | true =>
      simp only [hauthed, Bool.not_true] at h
      exact ⟨(Prod.mk.inj h).2.symm, rfl⟩
  | false => simp [hauthed, fail] at h

theorem requireLogin_reads : Reads (requireLogin : Act (Turn World) Unit) := by
  refine Reads.bind (Reads.of_look _) fun c => ?_
  split
  · exact Reads.of_throw _
  · exact Reads.of_pure _

theorem led_requireLogin {k : Unit → Act (Turn World) β}
    (hk : t.conn.authed = true → Led env t (k () t).2) :
    Led env t ((requireLogin >>= k) t).2 := by
  apply read_bind (Led.refl t) (requireLogin_reads t)
  intro _ h
  exact hk (requireLogin_ok h).2

theorem system_reads {a : Act World α} (ha : Reads a) : Reads (system a) := by
  intro t
  have h : (a t.sys).2 = t.sys := ha t.sys
  simp [system, h]

theorem resolveUserPath_reads (path : Bytes) (mustExist : Bool) :
    Reads (resolveUserPath (World.backend env) path mustExist) :=
  requireLogin_reads.bind fun _ => (Reads.of_look _).bind fun _ =>
    system_reads (resolve_reads _ _ _)

theorem resolveUserPath_ok {path physical : Bytes} {mustExist : Bool} {t' : Turn World}
    (h : resolveUserPath (World.backend env) path mustExist t = (.ok physical, t')) :
    Resolves env t.sys t.conn path physical := by
  unfold resolveUserPath at h
  rw [bind_apply] at h
  rcases hlogin : (requireLogin : Act (Turn World) Unit) t with ⟨e | u, t₁⟩
  · simp [hlogin] at h
  · obtain ⟨rfl, hauthed⟩ := requireLogin_ok hlogin
    simp only [hlogin] at h
    refine ⟨hauthed, mustExist, ?_⟩
    have hfst : (PathGuard.resolve (World.files env) t₁.conn.session.rootDir path mustExist
        t₁.sys).1 = .ok physical := congrArg Prod.fst h
    have hsnd := @resolve_reads env t₁.conn.session.rootDir path mustExist t₁.sys
    exact Prod.ext hfst hsnd

theorem led_resolve {path : Bytes} {mustExist : Bool} {k : Bytes → Act (Turn World) β}
    (hk : ∀ physical, Resolves env t.sys t.conn path physical → Led env t (k physical t).2) :
    Led env t ((resolveUserPath (World.backend env) path mustExist >>= k) t).2 := by
  apply read_bind (Led.refl t) (resolveUserPath_reads path mustExist t)
  intro physical h
  exact hk physical (resolveUserPath_ok h)

theorem resolveExistingOrNew_reads (path : Bytes) :
    Reads (resolveExistingOrNew (World.backend env) path) := by
  refine (resolveUserPath_reads path true).tryCatch fun e => ?_
  split
  · exact resolveUserPath_reads path false
  · exact Reads.of_throw _

theorem led_resolveExistingOrNew {path : Bytes} {k : Bytes → Act (Turn World) β}
    (hk : ∀ physical, Resolves env t.sys t.conn path physical → Led env t (k physical t).2) :
    Led env t ((resolveExistingOrNew (World.backend env) path >>= k) t).2 := by
  apply read_bind (Led.refl t) (resolveExistingOrNew_reads path t)
  intro physical h
  apply hk
  unfold resolveExistingOrNew at h
  rw [tryCatch_apply] at h
  rcases hfirst : resolveUserPath (World.backend env) path true t with ⟨e | x, t₁⟩
  · obtain rfl := (resolveUserPath_reads path true).end_eq hfirst
    simp only [hfirst] at h
    split at h
    · exact resolveUserPath_ok h
    · simp at h
  · simp only [hfirst] at h
    exact resolveUserPath_ok (hfirst.trans h)

/-- A call and what the handler does with its answer. -/
theorem led_call {call : Call} {a : Act World α} {f : α → Connection → Connection}
    {k : α → Act (Turn World) β} (hissued : Issued env t.sys t.conn call)
    (hrun : runCall env t.sys t.conn call = settle t.conn f (a t.sys))
    (hk : ∀ x t', t'.conn = f x t.conn → Led env t' (k x t').2) :
    Led env t ((record call >>= fun _ => system a >>= fun x => assign (f x) >>= fun _ => k x) t).2 := by
  have hstep : ∀ w' c', runCall env t.sys t.conn call = (w', c') →
      Led env t { t with sys := w', conn := c', calls := ⟨t.sys, t.conn, call⟩ :: t.calls } := by
    intro w' c' h
    refine ⟨[⟨t.sys, t.conn, call⟩], rfl, ?_⟩
    have := Calls.cons call (Calls.nil (w := t.sys) (c := t.conn)) hissued
    rwa [h] at this
  rcases ha : a t.sys with ⟨e | x, w'⟩
  · rw [ha] at hrun
    have hlast := hstep w' t.conn hrun
    simpa [bind_apply, record, system, ha] using hlast
  · rw [ha] at hrun
    have hlast := hstep w' (f x t.conn) hrun
    refine Led.trans _ _ _ hlast ?_
    have hrest := hk x
      { t with sys := w', conn := f x t.conn, calls := ⟨t.sys, t.conn, call⟩ :: t.calls } rfl
    simpa [bind_apply, record, system, assign, ha] using hrest

theorem settle_same (c : Connection) (r : Except Exn α × World) :
    settle c (fun _ c => c) r = (r.2, c) := by
  rcases r with ⟨e | x, w⟩ <;> rfl

/-- A call whose answer is the answer of the handler. -/
theorem led_last {call : Call} {a : Act World α} (hissued : Issued env t.sys t.conn call)
    (hrun : runCall env t.sys t.conn call = settle t.conn (fun _ c => c) (a t.sys)) :
    Led env t ((record call >>= fun _ => system a) t).2 := by
  have h := Calls.cons call (Calls.nil (w := t.sys) (c := t.conn)) hissued
  rw [hrun, settle_same] at h
  exact ⟨[⟨t.sys, t.conn, call⟩], rfl, h⟩

/-- A call that leaves the connection as it is. -/
theorem led_plain {call : Call} {a : Act World α} {k : α → Act (Turn World) β}
    (hissued : Issued env t.sys t.conn call)
    (hrun : runCall env t.sys t.conn call = settle t.conn (fun _ c => c) (a t.sys))
    (hk : ∀ x t', t'.conn = t.conn → Led env t' (k x t').2) :
    Led env t ((record call >>= fun _ => system a >>= k) t).2 := by
  have := led_call (f := fun _ c => c) hissued hrun hk
  simpa [bind_apply, record, system, assign] using this

end Steps

end CloudStore.Interface
