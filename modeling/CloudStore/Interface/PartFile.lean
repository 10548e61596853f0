import CloudStore.Interface.Publishing

/-!
# The part file of an upload

`beginUpload` opens the part file of its user, digest and name, and goes on behind the bytes
that are there; a chunk that is sent where the file ends makes it longer by its bytes.
-/

set_option autoImplicit false

namespace CloudStore.Interface

open CloudStore.Library (Bytes Path Plain FileTree Action)
open CloudStore.Library.Action (bind_ok)
open CloudStore.Library.Posix
open CloudStore.Model
open CloudStore.Model.TransferService
open CloudStore.Model.World (files backend)

variable {env : Env} {w w' : World} {st : UploadSession}

/-- The bytes that an upload of `size` bytes goes on with: a part file that is too long is
emptied. -/
def resumed (old : Option Bytes) (size : ℕ) : Bytes :=
  match old with
  | none => []
  | some y => if y.length > size then [] else y

theorem resumed_length_le (old : Option Bytes) (size : ℕ) : (resumed old size).length ≤ size := by
  unfold resumed
  split
  · exact Nat.zero_le size
  · split
    · exact Nat.zero_le size
    · omega

/-- The session of an upload whose part file is at its path, with the bytes `x`. -/
structure Receiving (env : Env) (w : World) (st : UploadSession) (fd : ℕ) (p : Path) (x : Bytes) :
    Prop where
  isOpen : OpenUpload env w st fd
  opened : st.fd = some fd
  place : st.partPath = render p
  entry : w.fs.entry p = some (.file fd)
  bytes : w.fs.data fd = x

theorem Receiving.fileAt {fd : ℕ} {p : Path} {x : Bytes} (h : Receiving env w st fd p x) :
    w.fs.fileAt p = some x := by
  simp [FileTree.fileAt, h.entry, h.bytes]

/-- Opening with `O_CREAT` keeps the bytes of a file that is there. -/
theorem openCreate_bytes {t t' : FileTree} {p : Path} {s : Bytes} {i : ℕ}
    (hloc : ∀ q, locate t true s = .ok q → q = p) (h : openCreate t s = .ok (i, t')) :
    t'.entry p = some (.file i) ∧ t'.data i = (t.fileAt p).getD [] := by
  cases hentry : t.entry p with
  | none =>
      obtain ⟨-, hentry', hdata, -⟩ := openCreate_free hloc hentry h
      rw [hentry', hdata, Function.update_self, Function.update_self]
      simp [FileTree.fileAt, hentry]
  | some node =>
      cases node with
      | file j =>
          obtain ⟨rfl, rfl⟩ := openCreate_there hloc hentry h
          simp [FileTree.fileAt, hentry]
      | _ =>
          exfalso
          unfold openCreate at h
          cases hv : vacancy t true s with
          | error e => simp [hv] at h
          | ok qn =>
              obtain ⟨q, n⟩ := qn
              obtain rfl := hloc _ (vacancy_ok hv)
              simp only [hv] at h
              split at h <;> simp_all

/-- `resumeAt` keeps what fits. -/
theorem resumeAt_bytes {fd size n : ℕ} {w' : World}
    (h : resumeAt (backend env) fd size w = (.ok n, w')) :
    w'.fs.data fd = resumed (some (w.fs.data fd)) size ∧
      n = (resumed (some (w.fs.data fd)) size).length := by
  have hstat : (files env).fstat fd w = (.ok (.ok (w.fs.data fd).length), w) := rfl
  unfold resumeAt at h
  rw [World.backend_files, bind_ok hstat] at h
  dsimp only [resumed] at h ⊢
  split at h
  next hlong =>
    have htrunc : (files env).ftruncate fd w = (.ok (.ok ()), { w with fs := w.fs.write fd [] }) := rfl
    rw [bind_ok htrunc] at h
    simp only [Action.pure_apply, Prod.mk.injEq, Except.ok.injEq] at h
    obtain ⟨rfl, rfl⟩ := h
    simp [hlong]
  next hfits =>
    simp only [Action.pure_apply, Prod.mk.injEq, Except.ok.injEq] at h
    obtain ⟨rfl, rfl⟩ := h
    simp [hfits]

/-- **The start of an upload**: its part file is open, and goes on with the bytes that were
there. -/
theorem beginUpload_receives {session : UserSession} (hname : NameOk session.username)
    {dest : Path} (hdest : UserPath env dest) {p md5 : Bytes} (hm : Hex32 md5) {size : ℕ}
    (hl : w.fs.NoLinks)
    (h : beginUpload (backend env) session (render dest) p md5 size w = (.ok st, w')) :
    let place := partPath env session.username md5 (render dest)
    ∃ fd, Receiving env w' st fd place (resumed (w.fs.fileAt place) size) ∧
      st.received = (resumed (w.fs.fileAt place) size).length ∧ st.virtualPath = p ∧
      st.md5 = md5 ∧ st.totalSize = size := by
  dsimp only
  have hzero : 0 ∉ baseName (render dest) := zero_not_mem_baseName (zero_not_mem_render hdest.plain)
  have hplain := partPath_plain env hname hm hzero
  have htext := partText_eq env hname hm hzero
  obtain ⟨fd, hfd, hopen⟩ := beginUpload_ok hname hdest hl h
  obtain ⟨-, w₁, w₂, fd', hsame, hl₁, hcreate, hresume, hst⟩ := beginUpload_opens hname hdest hl h
  have hfd' : fd' = fd := by
    rw [hst] at hfd
    exact Option.some.inj hfd
  subst hfd'
  obtain ⟨hdata, hreceived⟩ := resumeAt_bytes hresume
  -- the part file is opened where it lies
  have hopened : w₂.fs.entry (partPath env session.username md5 (render dest)) = some (.file fd') ∧
      w₂.fs.data fd' = (w₁.fs.fileAt (partPath env session.username md5 (render dest))).getD [] := by
    simp only [files, World.openCall, Action.move_apply] at hcreate
    split at hcreate
    next i t hrun =>
      simp only [Prod.mk.injEq, Except.ok.injEq] at hcreate
      obtain ⟨rfl, rfl⟩ := hcreate
      apply openCreate_bytes _ hrun
      intro q hq
      rw [htext] at hq
      exact locate_plain hl₁ hplain hq
    · simp at hcreate
  have hbytes : resumed (some (w₂.fs.data fd')) size =
      resumed (w.fs.fileAt (partPath env session.username md5 (render dest))) size := by
    rw [hopened.2, hsame.files]
    cases w.fs.fileAt (partPath env session.username md5 (render dest)) with
    | none => simp [resumed]
    | some y => rfl
  have hentry : w'.fs.entry = w₂.fs.entry := by
    have hclear : ∀ q ∈ objectPlaces env ∅, w₂.fs.entry q ≠ some (.file fd') :=
      (openPart_quiet hname hm.1 hzero hl₁ hcreate).2 fd' rfl |>.2
    have hsame := (resumeAt_quiet size hclear).2.1
    rwa [hresume] at hsame
  rw [hbytes] at hdata hreceived
  refine ⟨fd', ⟨hopen, hfd, ?_, ?_, hdata⟩, hreceived, ?_⟩
  · rw [hst]
    exact htext
  · rw [hentry]
    exact hopened.1
  · rw [hst]
    exact ⟨rfl, rfl, rfl⟩

/-! ## Chunks -/

/-- A chunk changes the session in how much it has received, and no name of the tree. -/
theorem writeChunk_session (offset : ℕ) (data : Bytes) (w : World) (st : UploadSession) :
    (∃ n, (writeChunk (backend env) offset data (w, st)).2.2 = { st with received := n }) ∧
      (writeChunk (backend env) offset data (w, st)).2.1.fs.entry = w.fs.entry := by
  obtain ⟨f, hf⟩ : ∃ f : ℕ → UploadSession, ∀ n, f n = { st with received := n } := ⟨_, fun _ => rfl⟩
  have hself : st = f st.received := by rw [hf]
  simp only [← hf]
  unfold writeChunk
  rw [bind_ok (Action.look_apply Prod.snd (w, st))]
  cases hfd : st.fd with
  | none => exact ⟨⟨st.received, hself⟩, rfl⟩
  | some fd =>
      dsimp only
      split
      · exact ⟨⟨st.received, hself⟩, rfl⟩
      · cases @pwrite_cases env fd offset data w with
        | inl h =>
            obtain ⟨part, -, -, h⟩ := h
            have hwrite : onSystem ((files env).pwrite fd offset data) (w, st) =
                (.ok (.ok part.length), ({ w with
                  fs := w.fs.write fd (World.written (w.fs.data fd) offset part) }, st)) := by
              simp only [onSystem, Action.zoom_apply, h]
            rw [World.backend_files, bind_ok hwrite]
            dsimp only
            split
            · exact ⟨⟨st.received, hself⟩, rfl⟩
            · split
              · exact ⟨⟨_, (hf _).symm⟩, rfl⟩
              · exact ⟨⟨st.received, hself⟩, rfl⟩
        | inr h =>
            obtain ⟨e, h⟩ := h
            have hwrite : onSystem ((files env).pwrite fd offset data) (w, st) =
                (.ok (.error e), (w, st)) := by
              simp only [onSystem, Action.zoom_apply, h]
            rw [World.backend_files, bind_ok hwrite]
            exact ⟨⟨st.received, hself⟩, rfl⟩

/-- **A chunk at the end of the part file** is appended to it. -/
theorem writeChunk_receives {fd : ℕ} {p : Path} {x data : Bytes} (h : Receiving env w st fd p x)
    (hdisk : w.disk = {}) (hdata : data ≠ []) (hfits : x.length + data.length ≤ st.totalSize)
    (hsize : st.totalSize < 2 ^ 63) :
    ∃ n w', writeChunk (backend env) x.length data (w, st) =
        (.ok (), w', { st with received := n }) ∧
      Receiving env w' { st with received := n } fd p (x ++ data) := by
  have hwritten : World.written (w.fs.data fd) x.length data = x ++ data := by
    unfold World.written splice
    rw [if_neg hdata, h.bytes, Nat.sub_self, List.replicate_zero, List.append_nil, List.take_length,
      List.drop_of_length_le (by omega), List.append_nil]
  have hpwrite : (files env).pwrite fd x.length data w =
      (.ok (.ok data.length), { w with fs := w.fs.write fd (x ++ data) }) := by
    have haccepts : w.disk.accepts fd x.length data = data := by rw [hdisk]; rfl
    simp only [files, Action.move_apply, haccepts, hwritten]
    rw [if_neg (by omega), if_neg fun hnone => hdata hnone.1]
  have hwrite : onSystem ((files env).pwrite fd x.length data) (w, st) =
      (.ok (.ok data.length), ({ w with fs := w.fs.write fd (x ++ data) }, st)) := by
    simp only [onSystem, Action.zoom_apply, hpwrite]
  have hreceiving : ∀ n, Receiving env { w with fs := w.fs.write fd (x ++ data) }
      { st with received := n } fd p (x ++ data) := fun n =>
    ⟨⟨h.isOpen.used, h.isOpen.clear, h.isOpen.part, h.isOpen.dest, h.isOpen.md5⟩, h.opened, h.place,
      h.entry, by simp [FileTree.write_data]⟩
  have hstop : (x.length + data.length) % 2 ^ 64 = x.length + data.length :=
    Nat.mod_eq_of_lt (by omega)
  have hrun : (writeChunk (backend env) x.length data (w, st)).1 = .ok () ∧
      (writeChunk (backend env) x.length data (w, st)).2.1 =
        { w with fs := w.fs.write fd (x ++ data) } := by
    unfold writeChunk
    rw [bind_ok (Action.look_apply Prod.snd (w, st))]
    simp only [h.opened, hstop]
    rw [if_neg (by omega), World.backend_files, bind_ok hwrite]
    dsimp only
    rw [if_neg (not_not.mpr rfl)]
    split
    · exact ⟨rfl, rfl⟩
    · exact ⟨rfl, rfl⟩
  obtain ⟨⟨n, hn⟩, -⟩ := @writeChunk_session env x.length data w st
  exact ⟨n, _, Prod.ext hrun.1 (Prod.ext hrun.2 hn), hreceiving n⟩

/-! ## The end -/

/-- The end of an upload fails, or the part file has the size and the digest of the upload. -/
theorem finishUpload_checks {fd : ℕ} {p : Path} (hw : Sound env w) (hopen : OpenUpload env w st fd)
    (hfd : st.fd = some fd) (hplace : st.partPath = render p) (hplain : ∀ n ∈ p, Plain n)
    (session : UserSession) :
    (∃ x, w.fs.fileAt p = some x ∧ x.length = st.totalSize ∧ env.md5Hex x = st.md5) ∨
      ∃ e, (finishUpload (backend env) session (w, st)).1 = .error e := by
  rw [finishUpload_open hfd]
  unfold commitUpload
  obtain ⟨n, hn⟩ := @fileSize_ok env st.partPath w
  rw [World.backend_files, bind_ok hn]
  by_cases hsize : n = st.totalSize
  · rw [if_neg (not_not.mpr hsize)]
    have hread := @md5File_reads env st.partPath w
    rcases hrun : md5File (backend env) st.partPath w with ⟨e | m, w₁⟩
    · right
      rw [Action.bind_error hrun]
      exact ⟨e, rfl⟩
    · rw [hrun] at hread
      obtain rfl : w₁ = w := hread
      rw [bind_ok hrun]
      by_cases hm : m = st.md5
      · left
        rw [hsize] at hn
        rw [hm] at hrun
        obtain ⟨q, x, -, hq, hx, hsource⟩ := commit_source hw hopen hn hrun
        obtain rfl := render_injective hplain hsource.plain (hplace.symm.trans hq)
        exact ⟨x, hx, (hsource.bytes x hx).2, (hsource.bytes x hx).1⟩
      · right
        obtain ⟨r, hunlink⟩ := @unlink_run env st.partPath w₁
        rw [if_pos hm, bind_ok hunlink]
        exact ⟨_, rfl⟩
  · right
    rw [if_pos hsize]
    exact ⟨_, rfl⟩

end CloudStore.Interface
