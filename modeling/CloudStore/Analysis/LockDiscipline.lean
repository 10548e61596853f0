import CloudStore.Interface.ClientMoves
import CloudStore.Model.Gui

/-!
# The mutex of cloud_gui

`std::mutex` must not be locked by a thread that holds it. The handlers call the client under
`state.mu`, and the callback that the client reports progress to takes `state.mu` itself. So every
upload takes it twice, and every download that a chunk arrives for.
-/

set_option autoImplicit false

namespace CloudStore.Analysis

open CloudStore.Library (Bytes Action LockEvent Lock.Disciplined Lock.held Lock.guarded
  Lock.guarded_log Lock.guarded_disciplined Lock.Records Lock.not_disciplined_of_again)
open CloudStore.Library.Action
open CloudStore.Model CloudStore.Interface

variable {md5Hex : Bytes → Bytes} {env : GuiEnv} {s : GuiState} {c : CloudClient}

/-- Among the frames that answer the requests for the first chunk, one is a chunk. -/
def ChunkComes (fileId token : Bytes) (chunk : ℕ) : ℕ → List (Option Received) → Prop
  | _, [] => False
  | seq, r :: rest =>
    Sendable (CloudClient.chunkRoot fileId 0 chunk (seqAfter seq) token) ∧
      match r with
      | none => False
      | some (.json _ v) =>
        CloudClient.chunkReply v = .ok false ∧ ChunkComes fileId token chunk (seqAfter seq) rest
      | some (.other payload) => (Protocol.decodeChunk payload).isSome

/-- The download of a file that is not empty is begun, and a chunk comes. -/
def Reports (c : CloudClient) (path : Bytes) (replies : List (Option Received)) : Prop :=
  ∃ br rest fileId size chunk,
    answered c "download_begin" (beginData path) replies = some (br, rest) ∧
      CloudClient.announced br = .ok (fileId, size, chunk) ∧ 0 < size ∧
      ChunkComes fileId c.token chunk (seqAfter c.seq) rest

/-- The requests that lock the mutex twice. -/
def Relocks (c : CloudClient) (replies : List (Option Received)) : GuiRequest → Prop
  | .upload (some _) (some _) _ => True
  | .download path => path ≠ [] ∧ Reports c path replies
  | _ => False

/-- In a run of the program from a free mutex, the mutex is never acquired while it is held. -/
def LocksOnce {α : Type} (a : Gui.Handler α) (s : GuiState) (c : CloudClient) : Prop :=
  Lock.Disciplined (a ({ s with mu := [] }, c)).2.1.mu

/-! ## What the calls do with the mutex -/

theorem gui_wired : Wired (GuiState.calls md5Hex) GuiState.desk
    fun d s => { s with desk := d } where
  send _ := rfl
  recv := rfl
  put_self _ := rfl

/-- Programs of the machine leave the mutex alone. -/
theorem onDesk_quiet {α : Type} (a : Act Desk α) :
    Moves (fun s t : GuiState => t.mu = s.mu) (GuiState.onDesk a) := fun _ => rfl

/-- Apart from the callback, nothing that the client calls touches the mutex. -/
theorem calls_quiet (md5Hex : Bytes → Bytes) : Leads (GuiState.calls md5Hex) fun s t => t.mu = s.mu where
  refl _ := rfl
  trans _ _ _ h h' := h'.trans h
  connect _ _ := onDesk_quiet _
  send _ := fun _ => rfl
  recv := onDesk_quiet _
  rounds := onDesk_quiet _
  fileExists _ := onDesk_quiet _
  fileSize _ := onDesk_quiet _
  md5File _ := onDesk_quiet _
  md5FileRange _ _ _ := onDesk_quiet _
  ensureDir _ := onDesk_quiet _
  readAt _ _ _ := onDesk_quiet _
  create _ := onDesk_quiet _
  append _ _ := onDesk_quiet _

/-- What happened to the mutex is only added to. -/
def Grows (s t : GuiState) : Prop := s.mu <:+ t.mu

theorem grows_of_quiet {α : Type} {a : Act GuiState α}
    (ha : Moves (fun s t : GuiState => t.mu = s.mu) a) : Moves Grows a := by
  intro s
  exact ⟨[], (ha s).symm⟩

theorem calls_grow (md5Hex : Bytes → Bytes) : Leads (GuiState.calls md5Hex) Grows where
  refl _ := List.suffix_refl _
  trans _ _ _ h h' := h.trans h'
  connect _ _ := grows_of_quiet ((calls_quiet md5Hex).connect _ _)
  send _ := grows_of_quiet ((calls_quiet md5Hex).send _)
  recv := grows_of_quiet (calls_quiet md5Hex).recv
  rounds := grows_of_quiet (calls_quiet md5Hex).rounds
  fileExists _ := grows_of_quiet ((calls_quiet md5Hex).fileExists _)
  fileSize _ := grows_of_quiet ((calls_quiet md5Hex).fileSize _)
  md5File _ := grows_of_quiet ((calls_quiet md5Hex).md5File _)
  md5FileRange _ _ _ := grows_of_quiet ((calls_quiet md5Hex).md5FileRange _ _ _)
  ensureDir _ := grows_of_quiet ((calls_quiet md5Hex).ensureDir _)
  readAt _ _ _ := grows_of_quiet ((calls_quiet md5Hex).readAt _ _ _)
  create _ := grows_of_quiet ((calls_quiet md5Hex).create _)
  append _ _ := grows_of_quiet ((calls_quiet md5Hex).append _ _)

theorem record_records : Lock.Records GuiState.record GuiState.mu := fun _ _ => ⟨_, rfl, rfl⟩

theorem handler_records : Lock.Records (fun e => Action.beside (GuiState.record e))
    fun st : GuiState × CloudClient => st.1.mu := fun _ _ => ⟨_, rfl, rfl⟩

/-- The callback acquires and releases the mutex. -/
theorem progress_log (current total : ℕ) (phase : Bytes) (s : GuiState) :
    ((GuiState.calls md5Hex).progress current total phase s).2.mu =
      .release :: .acquire :: s.mu := rfl

theorem progress_grows (current total : ℕ) (phase : Bytes) :
    Moves Grows ((GuiState.calls md5Hex).progress current total phase) :=
  fun _ => (List.suffix_cons _ _).trans (List.suffix_cons _ _)

/-! ## Handlers that make one call -/

/-- After a section of the handler that leaves the mutex alone. -/
theorem locked_once {α : Type} {a : Gui.Handler α}
    (ha : Stays (fun s t : GuiState => t.mu = s.mu) a) (s : GuiState) (c : CloudClient) :
    LocksOnce (Gui.locked a) s c :=
  (@Lock.guarded_disciplined _ _ _ _ (fun st : GuiState × CloudClient => st.1.mu) handler_records
    a ha ({ s with mu := [] }, c) rfl .nil).2

/-- What a handler of exceptions answers leaves the mutex alone. -/
theorem caught_once_iff {status : ℕ} {a : Gui.Handler GuiResponse} :
    LocksOnce (Gui.caught status a) s c ↔ LocksOnce a s c := by
  unfold LocksOnce Gui.caught
  rw [tryCatch_apply]
  rcases a ({ s with mu := [] }, c) with ⟨e | x, st⟩
  · exact Iff.rfl
  · exact Iff.rfl

theorem single_once (md5Hex : Bytes → Bytes) {failure : ℕ} {a : Gui.Handler Json}
    (ha : Stays (fun s t : GuiState => t.mu = s.mu) a) (s : GuiState) (c : CloudClient) :
    LocksOnce (Gui.single failure a) s c := by
  unfold Gui.single
  rw [caught_once_iff]
  exact locked_once ((calls_quiet md5Hex).bind ha fun _ => (calls_quiet md5Hex).value _) s c

/-- A value is computed before a program that keeps the discipline. -/
theorem computed_once {α β : Type} {x : Except Exn α} {f : α → Gui.Handler β}
    (hf : ∀ y, LocksOnce (f y) s c) : LocksOnce ((liftM x : Gui.Handler α) >>= f) s c := by
  rcases x with e | y
  · exact .nil
  · exact hf y

theorem connect_once (parses : Bool) (body : Json) :
    LocksOnce (Gui.connect md5Hex env parses body) s c := by
  unfold Gui.connect
  rw [caught_once_iff]
  by_cases hparses : parses = true
  swap
  · rw [if_neg hparses]
    exact Lock.Disciplined.nil
  rw [if_pos hparses]
  apply computed_once
  intro x
  apply computed_once
  intro host
  apply computed_once
  intro y
  apply computed_once
  intro port
  apply locked_once
  apply (calls_quiet md5Hex).bind ((calls_quiet md5Hex).setClient _)
  intro _
  apply (calls_quiet md5Hex).bind ((calls_quiet md5Hex).connectTo _ _)
  exact fun _ => (calls_quiet md5Hex).value _

/-- The body is read for two fields before a call. -/
theorem two_fields_quiet {body : Json} {first second : String} {f : Bytes → Bytes → Gui.Handler Json}
    (hf : ∀ x y, Stays (fun s t : GuiState => t.mu = s.mu) (f x y)) :
    Stays (fun s t : GuiState => t.mu = s.mu) (do
      let x ← (← body.ref (str first)).asString
      let y ← (← body.ref (str second)).asString
      f x y) := by
  apply (calls_quiet id).computed
  intro x
  apply (calls_quiet id).computed
  intro x
  apply (calls_quiet id).computed
  intro y
  apply (calls_quiet id).computed
  intro y
  exact hf _ _

theorem connectIfNeeded_quiet :
    Stays (fun s t : GuiState => t.mu = s.mu) (Gui.connectIfNeeded md5Hex env) :=
  (calls_quiet md5Hex).bind ((calls_quiet md5Hex).looked _) fun _ =>
    stays_ite ((calls_quiet md5Hex).value _) ((calls_quiet md5Hex).connectTo _ _)

theorem login_once (body : Json) : LocksOnce (Gui.login md5Hex env body) s c := by
  apply single_once md5Hex
  apply (calls_quiet md5Hex).bind connectIfNeeded_quiet
  intro _
  exact two_fields_quiet fun _ _ => (calls_quiet md5Hex).exchanges.login _ _

theorem register_once (body : Json) : LocksOnce (Gui.register md5Hex env body) s c := by
  apply single_once md5Hex
  apply (calls_quiet md5Hex).bind connectIfNeeded_quiet
  intro _
  exact two_fields_quiet fun _ _ => (calls_quiet md5Hex).exchanges.requestData _ _

theorem status_once : LocksOnce Gui.status s c := by
  apply locked_once
  apply (calls_quiet id).bind ((calls_quiet id).looked _)
  intro _
  exact (calls_quiet id).bind ((calls_quiet id).looked _) fun _ => (calls_quiet id).value _

theorem logout_once : LocksOnce (Gui.logout md5Hex) s c := by
  apply locked_once
  exact (calls_quiet md5Hex).bind (calls_quiet md5Hex).exchanges.logout fun _ => (calls_quiet md5Hex).value _

theorem ls_once (path : Bytes) : LocksOnce (Gui.ls md5Hex path) s c := by
  unfold Gui.ls
  apply single_once md5Hex
  exact (calls_quiet md5Hex).exchanges.requestData _ _

theorem mkdir_once (body : Json) : LocksOnce (Gui.mkdir md5Hex body) s c := by
  apply single_once md5Hex
  apply (calls_quiet md5Hex).computed
  intro x
  exact (calls_quiet md5Hex).computed fun _ => (calls_quiet md5Hex).exchanges.requestData _ _

theorem rm_once (body : Json) : LocksOnce (Gui.rm md5Hex body) s c := by
  apply single_once md5Hex
  apply (calls_quiet md5Hex).computed
  intro x
  exact (calls_quiet md5Hex).computed fun _ => (calls_quiet md5Hex).exchanges.requestData _ _

theorem rename_once (body : Json) : LocksOnce (Gui.rename md5Hex body) s c := by
  apply single_once md5Hex
  exact two_fields_quiet fun _ _ => (calls_quiet md5Hex).exchanges.requestData _ _

/-- An upload without a file or without a path is refused before the lock. -/
theorem bad_upload_once {file path : Option Bytes} (h : file = none ∨ path = none)
    (overwrite : Option Bytes) :
    LocksOnce (Gui.upload md5Hex env file path overwrite) s c := by
  unfold Gui.upload
  rw [caught_once_iff]
  rcases h with rfl | rfl
  · exact Lock.Disciplined.nil
  · cases file with
    | none => exact Lock.Disciplined.nil
    | some content => exact Lock.Disciplined.nil

/-! ## Transfers under the lock -/

/-- The mutex was acquired while it was held, and what came then does not undo it. -/
theorem relocked_of_suffix {es : List LockEvent} (h : [.acquire, .acquire] <:+ es) :
    ¬ Lock.Disciplined es :=
  fun hes => Lock.not_disciplined_of_again rfl (hes.of_suffix h)

/-- What is done behind a section under the lock does not undo what was done in it. -/
theorem bind_relocks {α β : Type} {a : Gui.Handler α} {f : α → Gui.Handler β}
    {st : GuiState × CloudClient} (ha : ¬ Lock.Disciplined (a st).2.1.mu)
    (hf : ∀ x, Stays Grows (f x)) : ¬ Lock.Disciplined ((a >>= f) st).2.1.mu := by
  rw [bind_apply]
  rcases hrun : a st with ⟨e | x, st'⟩
  · rw [hrun] at ha
    exact ha
  · rw [hrun] at ha
    exact fun h => ha (h.of_suffix (hf x st'))

/-- What happens to the mutex in a section under the lock. -/
theorem locked_log {α : Type} (a : Gui.Handler α) :
    (Gui.locked a ({ s with mu := [] }, c)).2.1.mu =
      .release :: (a ({ s with mu := [.acquire] }, c)).2.1.mu := by
  obtain ⟨st, hacquire, -, hend⟩ := Lock.guarded_log handler_records a ({ s with mu := [] }, c)
  obtain rfl : ({ s with mu := [.acquire] }, c) = st := (Prod.mk.inj hacquire).2
  exact hend

/-- A section in which the mutex is acquired. -/
theorem locked_relocks {α : Type} {a : Gui.Handler α}
    (ha : [.acquire, .acquire] <:+ (a ({ s with mu := [.acquire] }, c)).2.1.mu) :
    ¬ LocksOnce (Gui.locked a) s c := by
  unfold LocksOnce
  rw [locked_log]
  exact relocked_of_suffix (ha.trans (List.suffix_cons _ _))

theorem write_isSome (path x : Bytes) (d : Desk) :
    ((Desk.write path (some x) d).files path).isSome = true := by
  simp [Desk.write]

/-- **`put`** acquires the mutex for its report that it computes the hash. -/
theorem put_relocks {localPath remotePath : Bytes} {overwrite : Bool} {es : List LockEvent}
    (hes : s.mu = es) (hfile : (s.desk.files localPath).isSome = true) :
    .acquire :: es <:+
      (CloudClient.put (GuiState.calls md5Hex) localPath remotePath overwrite (s, c)).2.1.mu := by
  unfold CloudClient.put
  have hexists : Action.beside ((GuiState.calls md5Hex).fileExists localPath) (s, c) =
      (.ok true, (s, c)) := by
    rw [← hfile]
    rfl
  rw [bind_ok hexists, if_pos rfl]
  have hreport : ∀ size, (CloudClient.reportProgress (GuiState.calls md5Hex) 0 size "hashing"
      (s, c)).2.1.mu = .release :: .acquire :: es := by
    intro size
    rw [← hes]
    rfl
  have hrest := (calls_grow md5Hex).exchanges.put_rest progress_grows localPath remotePath overwrite
    ((s.desk.files localPath).getD []).length
  apply List.IsSuffix.trans _ (hrest
    (CloudClient.reportProgress (GuiState.calls md5Hex) 0
      ((s.desk.files localPath).getD []).length "hashing" (s, c)).2)
  rw [hreport]
  exact List.suffix_cons _ _

/-- **Every upload** locks the mutex twice. -/
theorem upload_relocks (content remotePath : Bytes) (overwrite : Option Bytes) :
    ¬ LocksOnce (Gui.upload md5Hex env (some content) (some remotePath) overwrite) s c := by
  unfold Gui.upload
  rw [caught_once_iff]
  unfold LocksOnce
  dsimp only
  have hcreate : Action.beside ((GuiState.calls md5Hex).create (Gui.tempPath env "cloudstore_up_"))
      ({ s with mu := [] }, c) = (.ok (), ({ s with
        mu := []
        desk := Desk.write (Gui.tempPath env "cloudstore_up_") (some []) s.desk }, c)) := rfl
  rw [bind_ok hcreate]
  generalize hdesk : Desk.write (Gui.tempPath env "cloudstore_up_") (some []) s.desk = d
  have happend : Action.beside ((GuiState.calls md5Hex).append
      (Gui.tempPath env "cloudstore_up_") content) ({ s with mu := [], desk := d }, c) =
      (.ok (), ({ s with
        mu := []
        desk := (Desk.write (Gui.tempPath env "cloudstore_up_")
          (some ((d.files (Gui.tempPath env "cloudstore_up_")).getD [] ++ content)) d) }, c)) := rfl
  rw [bind_ok happend]
  apply bind_relocks
  · apply locked_relocks
    show [.acquire, .acquire] <:+ (CloudClient.put (GuiState.calls md5Hex) _ remotePath _
      (_, c)).2.1.mu
    refine put_relocks ?_ (write_isSome _ _ _)
    rfl
  · intro result
    apply (calls_grow md5Hex).bind
    · exact fun _ => List.suffix_refl _
    · exact fun _ => (calls_grow md5Hex).value _

/-! ## Downloads -/

/-- A chunk that is written is reported, and the report acquires the mutex. -/
theorem written_relocks {α : Type} {path x : Bytes} {current total : ℕ} {phase : String}
    {rest : Gui.Handler α} (hrest : Stays Grows rest) (st : GuiState × CloudClient) :
    .acquire :: st.1.mu <:+ ((do
      Action.beside ((GuiState.calls md5Hex).append path x)
      CloudClient.reportProgress (GuiState.calls md5Hex) current total phase
      rest : Gui.Handler α) st).2.1.mu := by
  apply (List.suffix_cons .release _).trans
  exact hrest (((GuiState.calls md5Hex).progress current total (str phase)
    ((GuiState.calls md5Hex).append path x st.1).2).2, st.2)

/-- **The loop of `get`** acquires the mutex when a first chunk comes, and leaves it alone where
none comes. The induction is on the rounds: as long as JSON frames come, nothing has changed. -/
theorem getLoop_relocks {localPath fileId : Bytes} {size chunk fuel : ℕ} (hc : c.connected = true)
    (hfuel : s.desk.replies.length < fuel) (hsize : 0 < size) :
    (ChunkComes fileId c.token chunk c.seq s.desk.replies → .acquire :: s.mu <:+
      (CloudClient.getLoop (GuiState.calls md5Hex) localPath fileId size chunk fuel 0
        (s, c)).2.1.mu) ∧
    (¬ ChunkComes fileId c.token chunk c.seq s.desk.replies →
      (CloudClient.getLoop (GuiState.calls md5Hex) localPath fileId size chunk fuel 0
        (s, c)).2.1.mu = s.mu) := by
  induction fuel generalizing s c with
  | zero => omega
  | succ fuel ih =>
      apply @meets_end _ _ _ _ _ (fun st : GuiState × CloudClient =>
        (ChunkComes fileId c.token chunk c.seq s.desk.replies → .acquire :: s.mu <:+ st.1.mu) ∧
        (¬ ChunkComes fileId c.token chunk c.seq s.desk.replies → st.1.mu = s.mu)) |>.mp
      unfold CloudClient.getLoop
      rw [if_pos hsize]
      unfold CloudClient.nextSeq
      rw [meets_bind, meets_move, meets_bind, meets_look, meets_bind]
      apply sendJson_meets gui_wired
      · intro _ hsend
        rw [meets_bind]
        apply recvFrame_meets gui_wired hc
        · intro r rest hreplies
          dsimp only at hreplies ⊢
          rw [hreplies, List.length_cons] at hfuel
          rw [hreplies]
          cases r with
          | json parses v =>
              apply meets_bind.mpr
              apply meets_liftM
              · intro ends hv
                cases ends with
                | true => exact ⟨fun h => by simp [hv, ChunkComes] at h, fun _ => rfl⟩
                | false =>
                    have hrest := @ih { s with desk := { s.desk with replies := rest } }
                      { c with seq := seqAfter c.seq } hc (by simpa using hfuel)
                    apply meets_end.mpr
                    refine ⟨fun h => hrest.1 h.2.2, fun h => hrest.2 fun h' => h ⟨hsend, hv, h'⟩⟩
              · intro e hv
                exact ⟨fun h => by simp [hv, ChunkComes] at h, fun _ => rfl⟩
          | other payload =>
              dsimp only
              cases hdecode : Protocol.decodeChunk payload with
              | none => exact ⟨fun h => by simp [hdecode, ChunkComes] at h, fun _ => rfl⟩
              | some cp =>
                  apply meets_end.mpr
                  refine ⟨fun _ => ?_, fun h => absurd ⟨hsend, by simp [hdecode]⟩ h⟩
                  exact written_relocks
                    ((calls_grow md5Hex).exchanges.getLoop progress_grows localPath fileId size chunk fuel
                      ((0 + cp.data.length) % 2 ^ 64))
                    ({ s with desk := { s.desk with replies := rest } },
                      { c with seq := seqAfter c.seq })
        · intro hnone e d
          refine ⟨fun h => ?_, fun _ => rfl⟩
          dsimp only at hnone
          rcases hreplies : s.desk.replies with _ | ⟨_ | r, rest⟩
          · rw [hreplies] at h
            exact h.elim
          · rw [hreplies] at h
            exact h.2.elim
          · exact absurd hreplies (hnone r rest)
      · intro hnot e
        refine ⟨fun h => ?_, fun _ => rfl⟩
        rcases hreplies : s.desk.replies with _ | ⟨r, rest⟩
        · rw [hreplies] at h
          exact h.elim
        · rw [hreplies] at h
          exact absurd ⟨hc, h.1⟩ hnot

/-- **`get`** acquires the mutex when a chunk comes, and leaves it alone otherwise. -/
theorem get_relocks (path localPath : Bytes) :
    (Reports c path s.desk.replies → .acquire :: s.mu <:+
      (CloudClient.get (GuiState.calls md5Hex) path localPath (s, c)).2.1.mu) ∧
    (¬ Reports c path s.desk.replies →
      (CloudClient.get (GuiState.calls md5Hex) path localPath (s, c)).2.1.mu = s.mu) := by
  apply @meets_end _ _ _ _ _ (fun st : GuiState × CloudClient =>
    (Reports c path s.desk.replies → .acquire :: s.mu <:+ st.1.mu) ∧
    (¬ Reports c path s.desk.replies → st.1.mu = s.mu)) |>.mp
  unfold CloudClient.get
  apply meets_bind.mpr
  apply (request_meets gui_wired "download_begin" (beginData path)).mono
  · rintro br st ⟨rest, hanswer, rfl⟩
    have hc : c.connected = true := answered_connected hanswer
    have honly : ∀ {fileId size chunk}, Reports c path s.desk.replies →
        CloudClient.announced br = .ok (fileId, size, chunk) →
        0 < size ∧ ChunkComes fileId c.token chunk (seqAfter c.seq) rest := by
      rintro fileId size chunk ⟨br', rest', fileId', size', chunk', hanswer', hannounced', h⟩ hbr
      obtain ⟨rfl, rfl⟩ := Prod.mk.inj (Option.some.inj (hanswer'.symm.trans hanswer))
      rw [hbr] at hannounced'
      obtain ⟨rfl, rfl, rfl⟩ := (by simpa using hannounced' :
        fileId = fileId' ∧ size = size' ∧ chunk = chunk')
      exact h
    apply meets_bind.mpr
    apply meets_liftM
    · rintro ⟨fileId, size, chunk⟩ hannounced
      show Meets (CloudClient.getLoop (GuiState.calls md5Hex) localPath fileId size chunk
        (rest.length + 1) 0 >>= fun got => (Pure.pure (Json.obj [(str "local", .str localPath),
          (str "path", .str path), (str "size", .int got)]) : Gui.Handler Json))
        ({ s with desk := Desk.write localPath (some []) { s.desk with replies := rest } },
          { c with seq := seqAfter c.seq }) _ _
      apply meets_bind.mpr
      apply meets_end.mpr
      by_cases hsize : 0 < size
      · have hloop := @getLoop_relocks md5Hex
          { s with desk := Desk.write localPath (some []) { s.desk with replies := rest } }
          { c with seq := seqAfter c.seq } localPath fileId size chunk (rest.length + 1) hc
          (Nat.lt_succ_self _) hsize
        refine ⟨fun h => hloop.1 (honly h hannounced).2, fun h => hloop.2 fun hcomes => h ?_⟩
        exact ⟨br, rest, fileId, size, chunk, hanswer, hannounced, hsize, hcomes⟩
      · unfold CloudClient.getLoop
        rw [if_neg hsize]
        exact ⟨fun h => absurd (honly h hannounced).1 hsize, fun _ => rfl⟩
    · intro e hannounced
      refine ⟨?_, fun _ => rfl⟩
      rintro ⟨br', rest', fileId, size, chunk, hanswer', hannounced', -⟩
      obtain ⟨rfl, rfl⟩ := Prod.mk.inj (Option.some.inj (hanswer'.symm.trans hanswer))
      rw [hannounced] at hannounced'
      simp at hannounced'
  · rintro e st ⟨hnone, d, hst⟩
    refine ⟨?_, fun _ => by rw [hst]⟩
    rintro ⟨br, rest, fileId, size, chunk, hanswer, -⟩
    rw [show answered c "download_begin" (beginData path) s.desk.replies = none from hnone]
      at hanswer
    simp at hanswer

/-- A download locks the mutex twice exactly when a chunk comes. -/
theorem download_once_iff {path : Bytes} (hpath : path ≠ []) :
    LocksOnce (Gui.download md5Hex env path) s c ↔ ¬ Reports c path s.desk.replies := by
  unfold Gui.download
  rw [caught_once_iff, if_neg hpath]
  have hget := @get_relocks md5Hex { s with mu := [.acquire] } c path
    (Gui.tempPath env "cloudstore_dl_")
  constructor
  · intro hend hreports
    apply bind_relocks (locked_relocks (hget.1 hreports)) _ hend
    intro _
    apply (calls_grow md5Hex).bind ((calls_grow md5Hex).looked _)
    intro content
    apply (calls_grow md5Hex).bind
    · exact fun _ => List.suffix_refl _
    · exact fun _ => (calls_grow md5Hex).value _
  · intro hnone
    have hlog := hget.2 hnone
    have honce : LocksOnce (Gui.downloadLocked md5Hex path (Gui.tempPath env "cloudstore_dl_"))
        s c := by
      unfold LocksOnce Gui.downloadLocked
      rw [locked_log, hlog]
      exact .release (.acquire rfl .nil)
    unfold LocksOnce at honce ⊢
    rw [bind_apply]
    rcases hrun : Gui.downloadLocked md5Hex path (Gui.tempPath env "cloudstore_dl_")
      ({ s with mu := [] }, c) with ⟨e | x, st⟩
    · rw [hrun] at honce
      exact honce
    · rw [hrun] at honce
      exact honce

/-! ## Every request -/

/-- **The mutex is not locked twice** by the handler of a request if and only if the request is
neither an upload with a file and a path, nor a download for which a chunk comes. -/
theorem lock_once_iff (md5Hex : Bytes → Bytes) (env : GuiEnv) (request : GuiRequest)
    (s : GuiState) (c : CloudClient) :
    LocksOnce (Gui.handle md5Hex env request) s c ↔ ¬ Relocks c s.desk.replies request := by
  cases request with
  | options => exact iff_of_true Lock.Disciplined.nil not_false
  | connect parses body => exact iff_of_true (connect_once parses body) not_false
  | status => exact iff_of_true status_once not_false
  | login body => exact iff_of_true (login_once body) not_false
  | register body => exact iff_of_true (register_once body) not_false
  | logout => exact iff_of_true logout_once not_false
  | ls path => exact iff_of_true (ls_once path) not_false
  | mkdir body => exact iff_of_true (mkdir_once body) not_false
  | rm body => exact iff_of_true (rm_once body) not_false
  | rename body => exact iff_of_true (rename_once body) not_false
  | upload file path overwrite =>
      cases file with
      | none =>
          apply iff_of_true _ not_false
          show LocksOnce (Gui.upload md5Hex env none path overwrite) s c
          exact bad_upload_once (.inl rfl) overwrite
      | some content =>
          cases path with
          | none =>
              apply iff_of_true _ not_false
              show LocksOnce (Gui.upload md5Hex env (some content) none overwrite) s c
              exact bad_upload_once (.inr rfl) overwrite
          | some remotePath =>
              exact iff_of_false (upload_relocks content remotePath overwrite) (not_not.mpr trivial)
  | download path =>
      by_cases hpath : path = []
      · subst hpath
        exact iff_of_true Lock.Disciplined.nil fun h => h.1 rfl
      · apply (download_once_iff hpath).trans
        exact not_congr ⟨fun h => ⟨hpath, h⟩, fun h => h.2⟩

/-- The upload of an empty file, over a client that is not connected. -/
theorem empty_upload_relocks :
    ¬ LocksOnce (Gui.handle id {} (.upload (some []) (some (str "/a")) none)) {} {} := by
  have hmu : (Gui.handle id {} (.upload (some []) (some (str "/a")) none) ({}, {})).2.1.mu =
      [.release, .release, .acquire, .acquire] := by
    decide +kernel
  unfold LocksOnce
  rw [hmu]
  exact relocked_of_suffix ⟨[.release, .release], rfl⟩

end CloudStore.Analysis
