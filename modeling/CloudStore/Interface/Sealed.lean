import CloudStore.Interface.Frame

/-!
# Files that no call writes to

A file that only places of objects name, under an inode that no upload has open, keeps its
bytes as long as MD5 is free of collisions: an upload writes to the part file that it has
open or to an object that is not there yet. This holds whether the file still has its name
or not, so an open download goes on reading the same bytes.
-/

set_option autoImplicit false

namespace CloudStore.Interface

open CloudStore.Library (Bytes FileTree Tame Sheds Handle Action)
open CloudStore.Library.Action
open CloudStore.Library.Posix
open CloudStore.Model
open CloudStore.Model.TransferService
open CloudStore.Model.World (objectPath files redisCalls backend)

/-- The file under an inode is in use with its bytes, and only places of objects name it. -/
structure Sealed (env : Env) (i : ℕ) (x : Bytes) (t : FileTree) : Prop where
  links : t.NoLinks
  used : i < t.fresh
  bytes : t.data i = x
  places : ∀ p, t.entry p = some (.file i) → p ∈ objectPlaces env ∅

variable {env : Env} {i : ℕ} {x : Bytes} {u : ℤ}

theorem Sealed.tame {O : Set ℕ} {t t' : FileTree} (h : Sealed env i x t) (htame : Tame O t t')
    (hO : i ∉ O) : Sealed env i x t' where
  links := htame.links h.links
  used := Nat.lt_of_lt_of_le h.used htame.fresh
  bytes := (htame.data i h.used hO).trans h.bytes
  places := fun p hp => h.places p (htame.names i h.used p hp)

/-- The file of an object is sealed. -/
theorem Sound.sealed {w : World} (hw : Sound env w) {m : Bytes} (hm : Hex32 m)
    (hi : w.fs.entry (objectPath env m) = some (.file i)) : Sealed env i (w.fs.data i) w.fs where
  links := hw.links
  used := w.fs.ino_lt _ _ hi
  bytes := rfl
  places := by
    intro p hp
    have heq := w.fs.ino_inj _ _ _ hp hi
    exact ⟨m, hm, by simp, heq⟩

/-- A rename of something outside the objects leaves a sealed file alone. -/
theorem Sealed.rename {t t' : FileTree} {s s' : Bytes} (h : Sealed env i x t)
    (hrename : Library.Posix.rename t s s' = .ok t') (hcalm : Calm env ∅ t t') :
    Sealed env i x t' := by
  obtain ⟨hfresh, hdata, hnames⟩ := rename_files hrename
  refine ⟨hcalm.links h.links, hfresh ▸ h.used, hdata ▸ h.bytes, fun p hp => ?_⟩
  obtain ⟨q, hq⟩ := hnames i p hp
  have hplace := h.places q hq
  -- the place of the object still names the file, so it is the path
  have hq' := (hcalm.entry q hplace).trans hq
  rw [t'.ino_inj p q i hp hq']
  exact hplace

/-! ## Calls that write to no file -/

/-- The calls do not touch files that are in use. -/
theorem tame_framed (env : Env) (O : Set ℕ) : Framed env (fun w w' => Tame O w.fs w'.fs) where
  refl w := Tame.refl w.fs
  trans _ _ _ := Tame.trans
  mkdir := by
    intro s w
    simp only [files, World.fileCall, move_apply]
    split
    next t h => exact mkdir_tame h
    · exact Tame.refl w.fs
  rmdir := by
    intro s w
    simp only [files, World.fileCall, move_apply]
    split
    next t h => exact Tame.of_sheds (rmdir_sheds h)
    · exact Tame.refl w.fs
  unlink := by
    intro s w
    simp only [files, World.fileCall, move_apply]
    split
    next t h => exact Tame.of_sheds (unlink_sheds h)
    · exact Tame.refl w.fs
  redis w _ := Tame.refl w.fs
  rows w _ := Tame.refl w.fs
  users w _ _ := Tame.refl w.fs
  drawn w _ := Tame.refl w.fs

/-- On the way, a sealed file stays sealed. -/
def Seals (env : Env) (i : ℕ) (x : Bytes) (w w' : World) : Prop :=
  Sealed env i x w.fs → Sealed env i x w'.fs

theorem sealed_framed : Framed env (Seals env i x) where
  refl _ := id
  trans _ _ _ h h' := h' ∘ h
  mkdir s w h := h.tame ((tame_framed env ∅).mkdir s w) (Set.notMem_empty i)
  rmdir s w h := h.tame ((tame_framed env ∅).rmdir s w) (Set.notMem_empty i)
  unlink s w h := h.tame ((tame_framed env ∅).unlink s w) (Set.notMem_empty i)
  redis _ _ := id
  rows _ _ := id
  users _ _ _ := id
  drawn _ _ := id

/-- `renamePath` within the users' directories. -/
theorem renamePath_seals {p q : Library.Path} (hp : UserPath env p) (hq : UserPath env q) :
    Moves (Seals env i x) (FileManager.renamePath (files env) (render p) (render q)) := by
  apply sealed_framed.bind (sealed_framed.reads (fileExists_reads _))
  intro there
  cases there with
  | true => exact sealed_framed.fail _ _
  | false =>
      have hrename : Moves (Seals env i x) ((files env).rename (render p) (render q)) := by
        intro w h
        have hquiet := rename_quiet hp hq w h.links
        simp only [files, World.fileCall, move_apply] at hquiet ⊢
        split
        next t hrun =>
          rw [hrun] at hquiet
          exact h.rename hrun hquiet.1
        · exact h
      apply sealed_framed.bind hrename
      intro r
      cases r with
      | ok _ => exact sealed_framed.pure ()
      | error e => exact sealed_framed.fail _ _

/-! ## The copy into the object store -/

/-- What is written to a file changes no other file. -/
theorem pwrite_tame (out off : ℕ) (bytes : Bytes) :
    Moves (fun w w' : World => Tame {out} w.fs w'.fs) ((files env).pwrite out off bytes) := by
  intro w
  cases @pwrite_cases env out off bytes w with
  | inl h =>
      obtain ⟨part, -, -, hrun⟩ := h
      rw [hrun]
      exact Tame.write _ (Set.mem_singleton out)
  | inr h =>
      obtain ⟨e, hrun⟩ := h
      rw [hrun]
      exact Tame.refl w.fs

theorem writeLoop_tame (out pos fuel : ℕ) (buf : Bytes) :
    Moves (fun w w' : World => Tame {out} w.fs w'.fs)
      (writeLoop (backend env) out pos fuel buf) := by
  have hframe := tame_framed env {out}
  induction fuel generalizing pos buf with
  | zero =>
      cases buf with
      | nil => exact hframe.pure true
      | cons c buf => exact Moves.of_throw (fun w => Tame.refl w.fs) _
  | succ fuel ih =>
      cases buf with
      | nil => exact hframe.pure true
      | cons c buf =>
          rw [writeLoop]
          apply hframe.bind (pwrite_tame out pos _)
          intro r
          cases r with
          | error e => exact hframe.pure false
          | ok n => exact ih _ _

theorem copyLoop_tame (input : Handle) (out : ℕ) (dest : Bytes) (bufSize fuel copied : ℕ) :
    Moves (fun w w' : World => Tame {out} w.fs w'.fs)
      (copyLoop (backend env) input out dest bufSize fuel copied) := by
  have hframe := tame_framed env {out}
  have hfail : ∀ msg, Moves (fun w w' : World => Tame {out} w.fs w'.fs) (do
      let _ ← (files env).unlink dest
      Model.fail .internal msg : Act World ℕ) := by
    intro msg
    apply hframe.bind (hframe.unlink dest)
    intro _
    exact hframe.fail _ _
  induction fuel generalizing copied with
  | zero => exact Moves.of_throw (fun w => Tame.refl w.fs) _
  | succ fuel ih =>
      rw [copyLoop]
      apply hframe.bind (hframe.reads fun _ => rfl)
      intro r
      cases r with
      | error e => exact hfail _
      | ok bytes =>
          cases bytes with
          | nil => exact hframe.pure copied
          | cons c buf =>
              apply hframe.bind (writeLoop_tame out copied _ _)
              intro written
              cases written with
              | true => exact ih _
              | false => exact hfail _

/-- The file that `openTrunc` opens at the place of an object is a sealed one only if that
is the object. -/
theorem openTrunc_seals {w : World} {m : Bytes} (hm : Hex32 m) (h : Sealed env i x w.fs)
    (hother : w.fs.entry (objectPath env m) ≠ some (.file i)) {E : Exn → World → Prop} :
    Meets ((files env).openTrunc (objectText env m)) w
      (fun r w' => Sealed env i x w'.fs ∧ ∀ out, r = .ok out → i ≠ out) E := by
  simp only [files, World.openCall, meets_move]
  cases htrunc : openTrunc w.fs (objectText env m) with
  | error e => exact ⟨h, by simp⟩
  | ok jt =>
      obtain ⟨j, t⟩ := jt
      unfold openTrunc at htrunc
      cases hcreate : openCreate w.fs (objectText env m) with
      | error e => simp [hcreate, Except.map] at htrunc
      | ok it =>
          obtain ⟨k, t₁⟩ := it
          simp only [hcreate, Except.map, Except.ok.injEq, Prod.mk.injEq] at htrunc
          obtain ⟨rfl, rfl⟩ := htrunc
          obtain ⟨htame, p, hloc, -, hp⟩ := openCreate_tame (O := ∅) hcreate
          obtain rfl := locate_object h.links hm hloc
          have h₁ := h.tame htame (Set.notMem_empty i)
          have hne : i ≠ k := by
            rintro rfl
            exact hother (htame.names i h.used _ hp)
          refine ⟨h₁.tame (Tame.write [] (Set.mem_singleton k)) (by simpa using hne), ?_⟩
          intro out hout
          exact Except.ok.inj hout ▸ hne

/-- What a frame of files spares, it meets. -/
theorem Sealed.meets {O : Set ℕ} {α : Type} {a : Act World α} {w : World} (h : Sealed env i x w.fs)
    (ha : Moves (fun w w' => Tame O w.fs w'.fs) a) (hO : i ∉ O) :
    Meets a w (fun _ w' => Sealed env i x w'.fs) (fun _ w' => Sealed env i x w'.fs) :=
  (meets_end (P := fun w' : World => Sealed env i x w'.fs)).mpr (h.tame (ha w) hO)

/-- **The copy** to the place of an object spares every other sealed file. -/
theorem copyToObjectStore_seals {w : World} {m : Bytes} (hm : Hex32 m) (src : Bytes) (size : ℕ)
    (h : Sealed env i x w.fs) (hother : w.fs.entry (objectPath env m) ≠ some (.file i)) :
    Meets (copyToObjectStore (backend env) src (objectText env m) size) w
      (fun _ w' => Sealed env i x w'.fs) (fun _ w' => Sealed env i x w'.fs) := by
  unfold copyToObjectStore
  apply Meets.bind (Q := fun _ w' => w = w')
  · exact rfl
  rintro r _ rfl
  cases r with
  | error e => exact h
  | ok input =>
      have hdir := (tame_framed env ∅).ensureDir (parentDir (objectText env m)) w
      apply Meets.bind (Q := fun _ w' => Tame ∅ w.fs w'.fs)
      · apply Meets.mono (meets_end (P := fun w' : World => Tame ∅ w.fs w'.fs) |>.mpr hdir)
        · exact fun _ _ htame => htame
        · exact fun _ w' htame => h.tame htame (Set.notMem_empty i)
      intro _ w₁ htame
      have h₁ := h.tame htame (Set.notMem_empty i)
      have hother₁ := fun hi => hother (htame.names i h.used _ hi)
      apply Meets.bind (openTrunc_seals hm h₁ hother₁)
      rintro r w₂ ⟨h₂, hne⟩
      cases r with
      | error e => exact h₂
      | ok out =>
          have hout : i ∉ ({out} : Set ℕ) := hne out rfl
          have hframe := tame_framed env {out}
          apply h₂.meets (hframe.bind (hframe.reads fun _ => rfl) fun fuel => ?_) hout
          apply hframe.bind (copyLoop_tame input out _ _ fuel 0)
          intro copied
          split
          · apply hframe.bind (hframe.unlink _)
            intro _
            exact hframe.fail _ _
          · exact hframe.pure ()

/-- Under the digest of an upload there is nothing, or a file of the right size. -/
def Fits (env : Env) (w : World) (m : Bytes) (size : ℕ) : Prop :=
  ∀ y, w.fs.entry (objectPath env m) = some y → ∃ j, y = .file j ∧ (w.fs.data j).length = size

/-- **`publishObject`** writes to no sealed file: if the object is there, it writes nothing. -/
theorem publishObject_seals {w : World} {m : Bytes} (hm : Hex32 m) (src : Bytes) {size : ℕ}
    (h : Sealed env i x w.fs) (hfits : Fits env w m size) :
    Meets (publishObject (backend env) m src size) w
      (fun _ w' => Sealed env i x w'.fs) (fun _ w' => Sealed env i x w'.fs) := by
  have hframe := tame_framed env ∅
  cases hentry : w.fs.entry (objectPath env m) with
  | some y =>
      obtain ⟨j, rfl, rfl⟩ := hfits y hentry
      unfold Meets
      rw [publishObject_present h.links hm hentry src]
      exact h
  | none =>
      have hlen : ¬ m.length < 2 := by
        have := hm.1
        omega
      unfold publishObject
      rw [objectPathFor_eq, if_neg hlen]
      apply Meets.bind (Q := fun o w' => o = objectText env m ∧ w = w')
      · exact ⟨rfl, rfl⟩
      rintro _ _ ⟨rfl, rfl⟩
      apply Meets.bind (Q := fun there w' => there = false ∧ w = w')
      · unfold Meets
        rw [hasSize_absent h.links hm hentry]
        exact ⟨rfl, rfl⟩
      rintro _ _ ⟨rfl, rfl⟩
      have hdir := hframe.ensureDir (parentDir (objectText env m)) w
      apply Meets.bind (Q := fun _ w' => Tame ∅ w.fs w'.fs)
      · apply Meets.mono (meets_end (P := fun w' : World => Tame ∅ w.fs w'.fs) |>.mpr hdir)
        · exact fun _ _ htame => htame
        · exact fun _ w' htame => h.tame htame (Set.notMem_empty i)
      intro _ w₁ htame
      have hother : w₁.fs.entry (objectPath env m) ≠ some (.file i) := by
        intro hi
        have := htame.names i h.used _ hi
        simp [hentry] at this
      apply Meets.bind (copyToObjectStore_seals hm src size
        (h.tame htame (Set.notMem_empty i)) hother)
      intro _ w₂ h₂
      apply h₂.meets (hframe.bind (hframe.reads fun _ => rfl) fun _ => ?_) (Set.notMem_empty i)
      exact hframe.setObject m _ size

/-! ## Uploads -/

/-- Nothing but a file of its size stands under the digest of a checked part file. -/
theorem fits_of_source {w w' : World} (hw : Sound env w) (hfree : World.CollisionFree env w)
    {p : Library.Path} {y m : Bytes} {size : ℕ} (hm : Hex32 m) (hy : w.fs.fileAt p = some y)
    (hsource : Source env w p m size) (hshed : Sheds w.fs w'.fs) : Fits env w' m size := by
  intro z hz
  have hz' : w.fs.entry (objectPath env m) = some z := by
    cases hshed.entry (objectPath env m) with
    | inl he => exact he.symm.trans hz
    | inr he => simp [he] at hz
  obtain ⟨j, rfl, -⟩ := hw.objects m hm z hz'
  refine ⟨j, rfl, ?_⟩
  rw [hshed.data, object_of_source hw hfree hm hy hsource hz']
  exact (hsource.bytes y hy).2

/-- **The commit of an upload** spares sealed files. -/
theorem commitUpload_seals {session : UserSession} {st : UploadSession} {fd : ℕ} {w : World}
    (hopen : OpenUpload env w st fd) (hw : Sound env w) (hfree : World.CollisionFree env w)
    (h : Sealed env i x w.fs) :
    Meets (commitUpload (backend env) session st) w
      (fun _ w' => Sealed env i x w'.fs) (fun _ w' => Sealed env i x w'.fs) := by
  have hframe := tame_framed env ∅
  have hread : ∀ {α : Type} {a : Act World α}, Reads a →
      Meets a w (fun r w' => a w = (.ok r, w) ∧ w = w') (fun _ w' => Sealed env i x w'.fs) := by
    intro α a ha
    unfold Meets
    rcases hrun : a w with ⟨e | r, w'⟩
    · exact ha.end_eq hrun ▸ h
    · obtain rfl := ha.end_eq hrun
      exact ⟨rfl, rfl⟩
  unfold commitUpload
  apply Meets.bind (hread (fileSize_reads _))
  rintro size _ ⟨hsize, rfl⟩
  split
  · exact h
  next hsizeeq =>
    obtain rfl : size = st.totalSize := not_not.mp hsizeeq
    apply Meets.bind (hread (md5File_reads _))
    rintro md5 _ ⟨hmd5, rfl⟩
    split
    · apply h.meets (hframe.bind (hframe.unlink _) fun _ => ?_) (Set.notMem_empty i)
      exact hframe.fail _ _
    next hmd5eq =>
      obtain rfl : md5 = st.md5 := not_not.mp hmd5eq
      obtain ⟨p, y, hhex, -, hy, hsource⟩ := commit_source hw hopen hsize hmd5
      -- what follows the clearing of the destination
      have hrest : ∀ w', Sealed env i x w'.fs → Sheds w.fs w'.fs → Meets (do
          publishObject (backend env) st.md5 st.partPath st.totalSize
          let _ ← (files env).unlink st.partPath
          addContentRef (backend env) session.userId st.virtualPath st.md5 st.totalSize) w'
          (fun _ w' => Sealed env i x w'.fs) (fun _ w' => Sealed env i x w'.fs) := by
        intro w' h' hshed
        apply Meets.bind (publishObject_seals hhex _ h'
          (fits_of_source hw hfree hhex hy hsource hshed))
        intro _ w₁ h₁
        apply h₁.meets (hframe.bind (hframe.unlink _) fun _ => ?_) (Set.notMem_empty i)
        exact hframe.addContentRef _ _ _
      have hthen : ∀ {α : Type} {a : Act World α}, Moves Shed a → Moves (Seals env i x) a →
          Meets a w (fun _ w' => Sealed env i x w'.fs ∧ Sheds w.fs w'.fs)
            (fun _ w' => Sealed env i x w'.fs) := by
        intro α a hshed hseals
        have hend := (meets_end (a := a) (s := w)
          (P := fun w' => Sealed env i x w'.fs ∧ Sheds w.fs w'.fs)).mpr ⟨hseals w h, hshed w⟩
        exact hend.mono (fun _ _ h => h) fun _ _ h => h.1
      apply Meets.bind (hread (lookupPlainFile_reads _))
      rintro row _ ⟨-, rfl⟩
      cases row with
      | some _ =>
          apply Meets.bind (hthen (releaseContentRef_shed _) (sealed_framed.releaseContentRef _))
          rintro _ w' ⟨h', hshed⟩
          exact hrest w' h' hshed
      | none =>
          apply Meets.bind (hread (fileExists_reads _))
          rintro there _ ⟨-, rfl⟩
          cases there with
          | false => exact hrest w h (Sheds.refl w.fs)
          | true =>
              apply Meets.bind (hthen (unlink_shed _) (sealed_framed.unlink _))
              rintro _ w' ⟨h', hshed⟩
              exact hrest w' h' hshed

/-- The end of an upload, from the session of the connection. -/
theorem finishUpload_seals {session : UserSession} {w : World} {st : UploadSession}
    (hopen : ∀ fd, st.fd = some fd → OpenUpload env w st fd) (hw : Sound env w)
    (hfree : World.CollisionFree env w) (h : Sealed env i x w.fs) :
    Sealed env i x (finishUpload (backend env) session (w, st)).2.1.fs := by
  unfold finishUpload
  rw [bind_ok (Action.look_apply Prod.snd (w, st))]
  cases hfd : st.fd with
  | none => simpa [hfd, Model.fail] using h
  | some fd => exact meets_end.mp (commitUpload_seals (hopen fd hfd) hw hfree h)

/-- A chunk is written to the part file that is open. -/
theorem writeChunk_seals {w : World} {st : UploadSession} (offset : ℕ) (data : Bytes)
    (h : Sealed env i x w.fs) (hfd : st.fd ≠ some i) :
    Sealed env i x (writeChunk (backend env) offset data (w, st)).2.1.fs ∧
      (writeChunk (backend env) offset data (w, st)).2.2.fd = st.fd := by
  unfold writeChunk
  rw [bind_ok (Action.look_apply Prod.snd (w, st))]
  cases hfd' : st.fd with
  | none => exact ⟨by simpa [hfd', Model.fail] using h, by simp [hfd', Model.fail]⟩
  | some fd =>
      have hne : i ∉ ({fd} : Set ℕ) := fun hi => hfd (hfd'.trans (by rw [hi]))
      have hwrite := h.tame (@pwrite_tame env fd offset data w) hne
      dsimp only
      split
      · exact ⟨h, hfd'⟩
      · rcases hrun : (files env).pwrite fd offset data w with ⟨e | r, w'⟩
        · simp only [files, move_apply, Prod.mk.injEq, reduceCtorEq, false_and] at hrun
        · rw [hrun] at hwrite
          have hzoom : onSystem ((files env).pwrite fd offset data) (w, st) = (.ok r, (w', st)) := by
            simp only [onSystem, Action.zoom_apply, hrun]
          rw [World.backend_files, bind_ok hzoom]
          cases r with
          | error e => exact ⟨hwrite, hfd'⟩
          | ok n =>
              dsimp only
              split
              · exact ⟨hwrite, hfd'⟩
              · split
                · exact ⟨hwrite, hfd'⟩
                · exact ⟨hwrite, hfd'⟩

/-- **The part file that an upload opens** is no sealed file. -/
theorem beginUpload_seals {session : UserSession} (hname : NameOk session.username)
    {dest : Library.Path} (hdest : UserPath env dest) (p md5 : Bytes) (size : ℕ) {w : World}
    (h : Sealed env i x w.fs) :
    Meets (beginUpload (backend env) session (render dest) p md5 size) w
      (fun st w' => Sealed env i x w'.fs ∧ st.fd ≠ some i) (fun _ w' => Sealed env i x w'.fs) := by
  have hframe := tame_framed env ∅
  unfold beginUpload
  split
  · exact h
  split
  · exact h
  next hlen =>
    have hlen : md5.length = 32 := not_not.mp hlen
    have hzero : 0 ∉ baseName (render dest) :=
      zero_not_mem_baseName (zero_not_mem_render hdest.plain)
    apply Meets.bind (h.meets (hframe.ensureDir _) (Set.notMem_empty i))
    intro _ w₁ h₁
    apply Meets.bind (h₁.meets (hframe.ensureDir _) (Set.notMem_empty i))
    intro _ w₂ h₂
    apply Meets.bind (h₂.meets (hframe.randomHex 16) (Set.notMem_empty i))
    intro fileId w₃ h₃
    apply Meets.bind (Q := fun r w' => Sealed env i x w'.fs ∧ ∀ fd, r = .ok fd → i ≠ fd)
    · simp only [World.backend_files, files, World.openCall, meets_move]
      cases hcreate : openCreate w₃.fs (joinPath (joinPath (backend env).cfg.tmpRoot session.username)
          (partName md5 (render dest))) with
      | error e => exact ⟨h₃, by simp⟩
      | ok it =>
          obtain ⟨k, t⟩ := it
          obtain ⟨htame, q, hloc, hdir, hq⟩ := openCreate_tame (O := ∅) hcreate
          have h₄ := h₃.tame htame (Set.notMem_empty i)
          refine ⟨h₄, ?_⟩
          rintro fd hfd rfl
          obtain rfl := Except.ok.inj hfd
          exact clear_part hname hlen hzero w₃.fs true q h₃.links hloc hdir (h₄.places q hq)
    rintro r w₄ ⟨h₄, hne⟩
    cases r with
    | error e => exact h₄
    | ok fd =>
        have hfd : i ∉ ({fd} : Set ℕ) := hne fd rfl
        have hframe' := tame_framed env {fd}
        have hresume : Moves (fun w w' : World => Tame {fd} w.fs w'.fs)
            (resumeAt (backend env) fd size) := by
          apply hframe'.bind (hframe'.reads fun _ => rfl)
          intro r
          cases r with
          | error e => exact hframe'.pure 0
          | ok n =>
              dsimp only
              split
              · apply hframe'.bind fun w => Tame.write [] (Set.mem_singleton fd)
                intro _
                exact hframe'.pure 0
              · exact hframe'.pure n
        apply Meets.bind (h₄.meets hresume hfd)
        intro received w₅ h₅
        refine ⟨h₅, ?_⟩
        intro heq
        exact hne fd rfl (Option.some.inj heq).symm

/-! ## Calls, events and runs -/

/-- The file of the inode is sealed, and the connection has another one open, if any. -/
def SealedFor (env : Env) (i : ℕ) (x : Bytes) (w : World) (c : Connection) : Prop :=
  Sealed env i x w.fs ∧ c.upload.fd ≠ some i

/-- **Every call spares a sealed file**, as long as MD5 is free of collisions. -/
theorem call_seals {w : World} {c : Connection} {call : Call} (hw : Sound env w)
    (hc : ConnOk env w c) (hissued : Issued env w c call) (hfree : World.CollisionFree env w)
    (h : SealedFor env i x w c) :
    SealedFor env i x (runCall env w c call).1 (runCall env w c call).2 := by
  have hclosed : ∀ {st : UploadSession}, st.fd = none → st.fd ≠ some i := by
    intro st hst
    simp [hst]
  -- a call that leaves the upload of the connection alone
  have hkeep : ∀ {α : Type} {a : Act World α} {f : α → Connection → Connection},
      (∀ r, (f r c).upload = c.upload) → Moves (Seals env i x) a →
        SealedFor env i x (settle c f (a w)).1 (settle c f (a w)).2 := by
    intro α a f hf ha
    have hsealed := ha w h.1
    rcases hrun : a w with ⟨e | r, w'⟩
    · rw [hrun] at hsealed
      exact ⟨hsealed, h.2⟩
    · rw [hrun] at hsealed
      exact ⟨hsealed, hf r ▸ h.2⟩
  have hread : ∀ {α : Type} {a : Act World α}, Reads a → Moves (Seals env i x) a :=
    sealed_framed.reads
  cases hissued with
  | registerUser name password =>
      exact hkeep (fun _ => rfl) (sealed_framed.registerUser name password)
  | login name password => exact hkeep (fun _ => rfl) (sealed_framed.login name password _)
  | checkToken token hclosed => exact hkeep (fun _ => rfl) (sealed_framed.checkToken token)
  | logout hauthed => exact hkeep (fun _ => rfl) (sealed_framed.logout _)
  | listDir recursive h => exact hkeep (fun _ => rfl) (hread (listDir_reads _ _))
  | statPath h => exact hkeep (fun _ => rfl) (hread (statPath_reads _))
  | makeDir h => exact hkeep (fun _ => rfl) (sealed_framed.makeDir _)
  | indexFile hauthed hnorm => exact hkeep (fun _ => rfl) (sealed_framed.indexFile _ _ _ _ _)
  | lookupFile p hauthed => exact hkeep (fun _ => rfl) (hread (lookupPlainFile_reads _))
  | listIndexed dir hauthed => exact hkeep (fun _ => rfl) (hread (listIndexed_reads _))
  | removeUserPath hnorm hne h => exact hkeep (fun _ => rfl) (sealed_framed.removeUserPath _ _ _)
  | renameUserPath hfrom hto hsource hdest =>
      obtain ⟨p, hp, rfl⟩ := hsource.userPath hw hc
      obtain ⟨q, hq, rfl⟩ := hdest.userPath hw hc
      exact hkeep (fun _ => rfl)
        (sealed_framed.renameUserPath _ _ _ (renamePath_seals hp hq))
  | queryInstant md5 size hauthed => exact hkeep (fun _ => rfl) (sealed_framed.queryInstant _ _ _)
  | instantUpload md5 size offset proof overwrite hnorm h =>
      exact hkeep (fun _ => rfl) (sealed_framed.instantUpload _ _ _ _ _ _ _ _)
  | closeUpload hauthed => exact ⟨h.1, hclosed rfl⟩
  | @beginUpload path norm physical md5 size hnorm hresolves =>
      obtain ⟨p, hp, rfl⟩ := hresolves.userPath hw hc
      have hbegin := beginUpload_seals (hc.session hresolves.1).name hp (str "/" ++ norm) md5 size
        h.1
      unfold Meets at hbegin
      simp only [runCall]
      split at hbegin
      next st w' hrun =>
        rw [hrun]
        exact hbegin
      next e w' hrun =>
        rw [hrun]
        exact ⟨hbegin, h.2⟩
  | writeChunk offset data hauthed hopen =>
      obtain ⟨hsealed, hfd⟩ := @writeChunk_seals env i x w c.upload offset data h.1 h.2
      exact ⟨hsealed, hfd ▸ h.2⟩
  | finishUpload hauthed =>
      have hsealed := @finishUpload_seals env i x c.session w c.upload hc.upload hw hfree h.1
      have hnone : (finishUpload (backend env) c.session (w, c.upload)).2.2.fd = none := by
        unfold finishUpload
        rw [bind_ok (Action.look_apply Prod.snd (w, c.upload))]
        cases hfd : c.upload.fd with
        | none => simp [hfd, Model.fail]
        | some fd => rfl
      simp only [runCall]
      split
      next hrun =>
        rw [hrun] at hsealed
        exact ⟨hsealed, hclosed rfl⟩
      next hrun =>
        rw [hrun] at hsealed hnone
        exact ⟨hsealed, hclosed hnone⟩
  | closeDownload hauthed => exact h
  | beginDownload hnorm h => exact hkeep (fun _ => rfl) (sealed_framed.beginDownload _ _)
  | readChunk offset len hauthed hopen => exact hkeep (fun _ => rfl) (hread (readChunk_reads _ _ _))

/-- The file of the inode is sealed, and no connection has it open for an upload. -/
def SealedIn (env : Env) (i : ℕ) (x : Bytes) (s : ServerState) : Prop :=
  Sealed env i x s.world.fs ∧ ∀ id c, s.conns id = some c → c.upload.fd ≠ some i

/-- The files of objects are sealed in every safe state. -/
theorem Safe.sealed {s : ServerState} (h : Safe env s) {m : Bytes} (hm : Hex32 m)
    (hi : s.world.fs.entry (objectPath env m) = some (.file i)) :
    SealedIn env i (s.world.fs.data i) s := by
  refine ⟨h.world.sealed hm hi, fun id c hc hfd => ?_⟩
  exact ((h.conns id c hc).upload i hfd).clear _ ⟨m, hm, by simp, rfl⟩ hi

theorem SealedIn.opened {s : ServerState} (h : SealedIn env i x s) (id : ℕ) (ip : Bytes) :
    SealedIn env i x
      { s with conns := Function.update s.conns id (some { peerIp := ip }) } := by
  refine ⟨h.1, fun id' c hc => ?_⟩
  by_cases heq : id' = id
  · simp only [heq, Function.update_self, Option.some.injEq] at hc
    subst hc
    simp
  · simp only [Function.update_of_ne heq] at hc
    exact h.2 id' c hc

theorem SealedIn.closed {s : ServerState} (h : SealedIn env i x s) (id : ℕ) :
    SealedIn env i x { s with conns := Function.update s.conns id none } := by
  refine ⟨h.1, fun id' c hc => ?_⟩
  by_cases heq : id' = id
  · simp [heq] at hc
  · simp only [Function.update_of_ne heq] at hc
    exact h.2 id' c hc

/-- Where a connection has gone on, with the world. -/
theorem SealedIn.moved {s : ServerState} (h : SealedIn env i x s) {w' : World} {c' : Connection}
    (id : ℕ) (h' : SealedFor env i x w' c') :
    SealedIn env i x { world := w', conns := Function.update s.conns id (some c') } := by
  refine ⟨h'.1, fun id' c hc => ?_⟩
  by_cases heq : id' = id
  · simp only [heq, Function.update_self, Option.some.injEq] at hc
    exact hc ▸ h'.2
  · simp only [Function.update_of_ne heq] at hc
    exact h.2 id' c hc

/-- **An event spares sealed files.** -/
theorem step_seals {s : ServerState} (hsafe : Safe env s) (h : SealedIn env i x s) {e : Event}
    (hfree : NoCollision env s e) : SealedIn env i x (Server.step env s e).1 := by
  cases e with
  | connect id ip =>
      unfold Server.step
      dsimp only
      cases hid : s.conns id with
      | some c => exact h
      | none => exact h.opened id ip
  | close id => exact h.closed id
  | expire key =>
      refine ⟨?_, h.2⟩
      simp only [Server.step]
      rw [expireKey_fs]
      exact h.1
  | disk d => exact h
  | frame id f =>
      unfold NoCollision at hfree
      unfold Server.step at hfree ⊢
      dsimp only at hfree ⊢
      cases hid : s.conns id with
      | none => exact h
      | some c =>
          simp only [hid] at hfree
          have key := (onFrame_calls f s.world c).keep
            (P := fun w c => Sound env w ∧ ConnOk env w c ∧ SealedFor env i x w c)
            (Q := fun r => World.CollisionFree env r.sys)
            ⟨hsafe.world, hsafe.conns id c hid, h.1, h.2 id c hid⟩ hfree ?_
          · exact h.moved id key.2.2
          · rintro w₁ c₁ call ⟨hw₁, hc₁, h₁⟩ hissued hfree₁
            have hoperates := call_operates hw₁ hc₁ hissued
            exact ⟨hoperates.sound hw₁, call_connOk hw₁ hc₁ hissued,
              call_seals hw₁ hc₁ hissued hfree₁ h₁⟩

end CloudStore.Interface
