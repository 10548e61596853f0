import CloudStore.Interface.PartFile
import CloudStore.Interface.Playback

/-!
# Two uploads of the same content

Two connections of a user upload the same content to paths with the same base name. Both
write to one part file, and the end of the first upload removes it. So both ends succeed exactly
if no upload starts while the other one is under way, and the part file that an earlier upload
may have left can be gone on with.
-/

set_option autoImplicit false

namespace CloudStore.Analysis

open CloudStore.Library (Bytes Path Plain Entry Machine RefStore)
open CloudStore.Library.Posix (render)
open CloudStore.Model
open CloudStore.Model.RedisStore (pathKey)
open CloudStore.Model.TransferService
open CloudStore.Model.World (backend)
open CloudStore.Interface

variable {env : Env}

/-! ## The uploads -/

/-- One of the two connections. -/
inductive Side where
  | first
  | second
  deriving DecidableEq

/-- The other connection. -/
def Side.other : Side → Side
  | .first => .second
  | .second => .first

@[simp] theorem Side.other_other (s : Side) : s.other.other = s := by cases s <;> rfl

theorem Side.other_ne (s : Side) : s.other ≠ s := by cases s <;> decide

theorem Side.eq_or (s s' : Side) : s' = s ∨ s' = s.other := by cases s <;> cases s' <;> decide

/-- The state of an upload, as the client of a connection sees it. -/
inductive UploadState where
  | idle
  | sending (st : UploadSession) (sent : ℕ)
  | refused
  | ended (r : Except Exn Unit)

/-- The stores and the uploads of both connections. -/
structure Transfers where
  world : World
  upload : Side → UploadState

/-- A frame of one of the connections. -/
inductive UploadFrame where
  | start (s : Side)
  | chunk (s : Side) (n : ℕ)
  | finish (s : Side)
  deriving DecidableEq

/-- What the connections upload: one content, each to a path of its own. -/
structure UploadPair where
  session : Side → UserSession
  dest : Side → Path
  path : Side → Bytes
  content : Bytes
  content_fits : content.length < 2 ^ 63

namespace UploadPair

variable (env) (c : UploadPair)

def md5 : Bytes := env.md5Hex c.content

/-- The server handles a frame. A chunk has the bytes behind those that were sent. -/
def step (t : Transfers) : UploadFrame → Transfers
  | .start s =>
    match beginUpload (backend env) (c.session s) (render (c.dest s)) (c.path s) (c.md5 env)
        c.content.length t.world with
    | (.ok st, w) => { world := w
                       upload := Function.update t.upload s (.sending st st.received) }
    | (.error _, w) => { world := w
                         upload := Function.update t.upload s .refused }
  | .chunk s n =>
    match t.upload s with
    | .sending st sent =>
      let r := writeChunk (backend env) sent ((c.content.drop sent).take n) (t.world, st)
      { world := r.2.1
        upload := Function.update t.upload s (.sending r.2.2 (sent + n)) }
    | _ => t
  | .finish s =>
    match t.upload s with
    | .sending st _ =>
      let r := finishUpload (backend env) (c.session s) (t.world, st)
      { world := r.2.1
        upload := Function.update t.upload s (.ended r.1) }
    | _ => t

/-- The frames of both connections, handled in some order. -/
def machine : Machine Transfers UploadFrame Unit := ⟨fun t e => (c.step env t e, ())⟩

/-- No file collides with another one or with the content. -/
def Distinct (w : World) : Prop :=
  World.CollisionFree env w ∧
    ∀ p x, w.fs.fileAt p = some x → env.md5Hex x = c.md5 env → x = c.content

/-- The frames that `put` sends next: it begins, sends chunks up to the end of the content, and
ends. Where an upload ends, nothing stands in the way of its object. -/
def Sends (t : Transfers) : UploadFrame → Prop
  | .start s => t.upload s = .idle
  | .chunk s n => 0 < n ∧ ∃ st sent, t.upload s = .sending st sent ∧ sent + n ≤ c.content.length
  | .finish s => (∃ st sent, t.upload s = .sending st sent ∧ sent = c.content.length) ∧
      c.Distinct env t.world ∧ Open t.world.fs (World.objectsDir env ++ [(c.md5 env).take 2])

/-- Both connections are of one user, whose tree the paths lie in, and the base names agree. -/
structure Shared (u : ℤ) (name : Bytes) : Prop where
  user : ∀ s, (c.session s).userId = u
  username : ∀ s, (c.session s).username = name
  nameOk : NameOk name
  dest : ∀ s, UserPath env (c.dest s)
  baseName : baseName (render (c.dest .first)) = baseName (render (c.dest .second))

/-- The path maps to the content. -/
structure MapsTo (w : World) (u : ℤ) (p : Bytes) : Prop where
  row : (view env w).row (u, p) = some (.file (c.md5 env) c.content.length)
  key : w.redis.strings (pathKey u p) = c.md5 env
  object : World.object env w (c.md5 env) = some c.content

/-- No upload starts while the other one is under way. -/
def NoOverlap (hist : List (Machine.Record Transfers UploadFrame Unit)) : Prop :=
  ∀ r ∈ hist, ∀ s, r.event = .start s → ∀ st sent, r.before.upload s.other ≠ .sending st sent

/-- A part file that was left has bytes of the content only, or is longer than it. -/
def Resumable (old : Option Bytes) : Prop :=
  ∀ y, old = some y → y <+: c.content ∨ c.content.length < y.length

/-! ## The stages -/

/-- The part file of both uploads. -/
def place (name : Bytes) : Path := partPath env name (c.md5 env) (render (c.dest .first))

/-- What the part file holds after `sent` bytes: what was there, and the content behind it. -/
def filled (old : Option Bytes) (sent : ℕ) : Bytes :=
  resumed old c.content.length ++
    (c.content.drop (resumed old c.content.length).length).take
      (sent - (resumed old c.content.length).length)

/-- The upload of a side is under way, into an open part file. -/
structure Sending (t : Transfers) (name : Bytes) (s : Side) (st : UploadSession) (sent fd : ℕ) : Prop where
  state : t.upload s = .sending st sent
  isOpen : OpenUpload env t.world st fd
  opened : st.fd = some fd
  place : st.partPath = render (c.place env name)
  path : st.virtualPath = c.path s
  md5 : st.md5 = c.md5 env
  size : st.totalSize = c.content.length
  within : sent ≤ c.content.length

/-- The upload of a side has become the content of its path. -/
def Served (t : Transfers) (u : ℤ) (s : Side) : Prop :=
  t.upload s = .ended (.ok ()) ∧ c.MapsTo env t.world u (c.path s)

/-- The uploads so far, none of which started while the other one was under way. -/
inductive InTurn (u : ℤ) (name : Bytes) (old : Option Bytes) (t : Transfers) : Prop
  | neither (h : ∀ s, t.upload s = .idle) (hold : t.world.fs.fileAt (c.place env name) = old)
  | one (s : Side) (hother : t.upload s.other = .idle) {st : UploadSession} {sent fd : ℕ}
      (h : c.Sending env t name s st sent fd)
      (hentry : t.world.fs.entry (c.place env name) = some (.file fd))
      (hsent : (resumed old c.content.length).length ≤ sent)
      (hbytes : t.world.fs.data fd = c.filled old sent)
  | between (s : Side) (hother : t.upload s.other = .idle) (h : c.Served env t u s)
      (hgone : t.world.fs.entry (c.place env name) = none) (hold : c.Resumable old)
  | two (s : Side) (h : c.Served env t u s) {st : UploadSession} {sent fd : ℕ}
      (hother : c.Sending env t name s.other st sent fd)
      (hentry : t.world.fs.entry (c.place env name) = some (.file fd))
      (hbytes : t.world.fs.data fd = c.filled none sent) (hold : c.Resumable old)
  | both (h : ∀ s, c.Served env t u s) (hold : c.Resumable old)

/-- The uploads so far, where one has started while the other one was under way. -/
inductive Crossed (name : Bytes) (t : Transfers) : Prop
  | both (h : ∀ s, ∃ st sent fd, c.Sending env t name s st sent fd)
  | late (s : Side) {st : UploadSession} {sent fd : ℕ} (h : c.Sending env t name s st sent fd)
      (hother : t.upload s.other = .ended (.ok ()))
      (hgone : t.world.fs.entry (c.place env name) = none)

/-- The stores are coherent, and the uploads run in turn or have crossed. -/
structure Stage (u : ℤ) (name : Bytes) (old : Option Bytes)
    (hist : List (Machine.Record Transfers UploadFrame Unit)) (t : Transfers) : Prop where
  coherent : Coherent env t.world
  disk : t.world.disk = {}
  stage : NoOverlap hist ∧ c.InTurn env u name old t ∨ ¬ NoOverlap hist ∧ c.Crossed env name t

/-- **The invariant.** The uploads are at a stage; or one has failed, which it does if they have
crossed or the part file could not be gone on with; or one was refused at its start. -/
def Progress (u : ℤ) (name : Bytes) (old : Option Bytes)
    (hist : List (Machine.Record Transfers UploadFrame Unit)) (t : Transfers) : Prop :=
  c.Stage env u name old hist t ∨
    (∃ s e, t.upload s = .ended (.error e)) ∧ ¬ (NoOverlap hist ∧ c.Resumable old) ∨
    ∃ s, t.upload s = .refused

/-! ## What a step leaves -/

variable {env c} {w w' : World} {u : ℤ} {name : Bytes} {old : Option Bytes} {t : Transfers}
  {hist : List (Machine.Record Transfers UploadFrame Unit)}

theorem coherent_idles (hexact : env.dialect = Dialect.exact) (h : IdleOps env w w')
    (hw : Coherent env w) : Coherent env w' := by
  apply (coherent_iff hexact).mpr
  refine ⟨h.sound hw.sound, ?_⟩
  rw [view_idles h]
  exact hw.view hexact

theorem MapsTo.idles {p : Bytes} (h : c.MapsTo env w u p) (hidle : IdleOps env w w') :
    c.MapsTo env w' u p := by
  have hview := view_idles hidle
  have hm : Hex32 (c.md5 env) := env.md5_hex _
  refine ⟨hview ▸ h.row, ?_, ?_⟩
  · exact (congrArg (fun v => v.link (u, p)) hview).trans h.key
  · have hobject := congrArg (fun v => v.object (c.md5 env)) hview
    simp only [view, if_pos hm] at hobject
    exact hobject.trans h.object

/-- In a coherent store the row and the object say it all. -/
theorem mapsTo_of_row (hexact : env.dialect = Dialect.exact) (hw : Coherent env w) {p : Bytes}
    (hrow : (view env w).row (u, p) = some (.file (c.md5 env) c.content.length))
    (hobject : World.object env w (c.md5 env) = some c.content) : c.MapsTo env w u p := by
  have hne : c.md5 env ≠ [] := by
    intro hnil
    have hhex : Hex32 (c.md5 env) := env.md5_hex _
    rw [hnil] at hhex
    exact absurd hhex.1 (by decide)
  refine ⟨hrow, ?_, hobject⟩
  apply (hw.keys u p _ hne).mpr
  exact (fileAt_iff hexact hw.sound).mpr ⟨_, _, hrow, rfl⟩

theorem Sending.later {s : Side} {st : UploadSession} {sent fd : ℕ}
    (h : c.Sending env t name s st sent fd) {t' : Transfers} (hstate : t'.upload s = t.upload s)
    (hino : Inodes env t.world t'.world) : c.Sending env t' name s st sent fd where
  __ := h
  state := hstate.trans h.state
  isOpen := h.isOpen.later hino

theorem Served.later {s : Side} (h : c.Served env t u s) {t' : Transfers}
    (hstate : t'.upload s = t.upload s) (hidle : IdleOps env t.world t'.world) :
    c.Served env t' u s :=
  ⟨hstate.trans h.1, h.2.idles hidle⟩

/-- Frames that start no upload leave them apart. -/
theorem apart_cons {r : Machine.Record Transfers UploadFrame Unit} (h : ∀ s, r.event ≠ .start s) :
    NoOverlap (r :: hist) ↔ NoOverlap hist := by
  constructor
  · intro hapart r' hr'
    exact hapart r' (List.mem_cons_of_mem r hr')
  · intro hapart r' hr' s hs
    cases List.mem_cons.mp hr' with
    | inl heq =>
        subst heq
        exact absurd hs (h s)
    | inr hr' => exact hapart r' hr' s hs

theorem apart_start {s : Side} (hother : ∀ st sent, t.upload s.other ≠ .sending st sent) :
    NoOverlap ((c.machine env).record t (.start s) :: hist) ↔ NoOverlap hist := by
  constructor
  · intro hapart r' hr'
    exact hapart r' (List.mem_cons_of_mem _ hr')
  · intro hapart r' hr' s' hs'
    cases List.mem_cons.mp hr' with
    | inl heq =>
        subst heq
        simp only [Machine.record, UploadFrame.start.injEq] at hs'
        subst hs'
        exact hother
    | inr hr' => exact hapart r' hr' s' hs'

theorem not_apart_start {s : Side} {st : UploadSession} {sent : ℕ}
    (hother : t.upload s.other = .sending st sent) :
    ¬ NoOverlap ((c.machine env).record t (.start s) :: hist) := by
  intro hapart
  exact hapart _ List.mem_cons_self s rfl st sent hother

/-! ## The steps -/

section

variable (hexact : env.dialect = Dialect.exact) (hshared : c.Shared env u name)

include hshared in
theorem Shared.place (s : Side) : partPath env name (c.md5 env) (render (c.dest s)) = c.place env name := by
  cases s with
  | first => rfl
  | second => simp only [UploadPair.place, partPath, partName, hshared.baseName]

theorem filled_start (old : Option Bytes) :
    c.filled old (resumed old c.content.length).length = resumed old c.content.length := by
  simp [filled]

theorem filled_append {sent n : ℕ} (hsent : (resumed old c.content.length).length ≤ sent) :
    c.filled old sent ++ (c.content.drop sent).take n = c.filled old (sent + n) := by
  unfold filled
  rw [List.append_assoc, show sent + n - (resumed old c.content.length).length =
    sent - (resumed old c.content.length).length + n by omega, List.take_add, List.drop_drop]
  congr 3
  congr 1
  omega

theorem filled_length {sent : ℕ} (hsent : (resumed old c.content.length).length ≤ sent)
    (hwithin : sent ≤ c.content.length) : (c.filled old sent).length = sent := by
  unfold filled
  rw [List.length_append, List.length_take, List.length_drop]
  omega

include hexact hshared in
/-- A start that the server accepts. -/
theorem start_accepted (hw : Coherent env t.world) {s : Side} {st : UploadSession}
    (hrun : beginUpload (backend env) (c.session s) (render (c.dest s)) (c.path s) (c.md5 env)
      c.content.length t.world = (.ok st, w')) :
    IdleOps env t.world w' ∧ Coherent env w' ∧ w'.disk = t.world.disk ∧ ∃ fd,
      c.Sending env { world := w', upload := Function.update t.upload s (.sending st st.received) } name s
        st st.received fd ∧
      w'.fs.entry (c.place env name) = some (.file fd) ∧
      w'.fs.data fd = resumed (t.world.fs.fileAt (c.place env name)) c.content.length ∧
      st.received = (resumed (t.world.fs.fileAt (c.place env name)) c.content.length).length := by
  have hname : NameOk (c.session s).username := hshared.username s ▸ hshared.nameOk
  have hidle := beginUpload_idles hname (hshared.dest s) (c.path s) (c.md5 env) c.content.length t.world
    hw.sound
  have hdisk := (disk_framed env).beginUpload (c.session s) (render (c.dest s)) (c.path s) (c.md5 env)
    c.content.length t.world
  have hm : Hex32 (c.md5 env) := env.md5_hex _
  obtain ⟨fd, hreceiving, hreceived, hpath, hmd5, hsize⟩ := beginUpload_receives hname (hshared.dest s)
    hm hw.sound.links hrun
  rw [hshared.username s, hshared.place s] at hreceiving hreceived
  rw [hrun] at hidle hdisk
  refine ⟨hidle, coherent_idles hexact hidle hw, hdisk, fd, ?_, hreceiving.entry, hreceiving.bytes,
    hreceived⟩
  refine ⟨Function.update_self .., hreceiving.isOpen, hreceiving.opened, hreceiving.place, hpath, hmd5,
    hsize, ?_⟩
  rw [hreceived]
  exact resumed_length_le _ _

include hexact hshared in
theorem Stage.start (h : c.Stage env u name old hist t) {s : Side} (hs : t.upload s = .idle) :
    c.Progress env u name old ((c.machine env).record t (.start s) :: hist) (c.step env t (.start s)) := by
  rcases hrun : beginUpload (backend env) (c.session s) (render (c.dest s)) (c.path s) (c.md5 env)
    c.content.length t.world with ⟨e | st, w'⟩
  · right
    right
    refine ⟨s, ?_⟩
    simp [step, hrun]
  · left
    obtain ⟨hidle, hcoherent, hdisk, fd, hnew, hentry, hbytes, hreceived⟩ := start_accepted hexact hshared
      h.coherent hrun
    have hino := (IdleOps.storeOps (u := u) hidle).inodes
    have hstep : c.step env t (.start s) =
        { world := w', upload := Function.update t.upload s (.sending st st.received) } := by
      simp only [step, hrun]
    rw [hstep]
    have hkept : Function.update t.upload s (.sending st st.received) s.other = t.upload s.other :=
      Function.update_of_ne s.other_ne _ _
    refine ⟨hcoherent, hdisk.trans h.disk, ?_⟩
    rcases h.stage with ⟨hapart, hturn⟩ | ⟨-, hcrossed⟩
    · cases hturn with
      | neither hidles hold =>
          left
          refine ⟨(apart_start fun st sent => by simp [hidles]).mpr hapart, ?_⟩
          rw [hold] at hbytes hreceived
          refine .one s (hkept.trans (hidles s.other)) hnew hentry hreceived.ge ?_
          rw [hbytes, hreceived, filled_start]
      | one s' hother hsending hentry' hsent hfilled =>
          obtain rfl | rfl := s'.eq_or s
          · simp [hsending.state] at hs
          · right
            -- the other upload is under way: they cross
            have hother' := hsending.state
            rw [← s'.other_other] at hother'
            refine ⟨not_apart_start hother', .both fun s => ?_⟩
            obtain rfl | rfl := s'.eq_or s
            · refine ⟨_, _, _, hsending.later ?_ hino⟩
              exact Function.update_of_ne s.other_ne.symm _ _
            · exact ⟨_, _, _, hnew⟩
      | between s' hother hserved hgone hold =>
          obtain rfl | rfl := s'.eq_or s
          · simp [hserved.1] at hs
          · left
            refine ⟨(apart_start fun st sent => by simp [hserved.1]).mpr hapart, ?_⟩
            have hnone : t.world.fs.fileAt (c.place env name) = none := by
              simp [Library.FileTree.fileAt, hgone]
            rw [hnone] at hbytes hreceived
            refine .two s' (hserved.later ?_ hidle) hnew hentry ?_ hold
            · exact Function.update_of_ne s'.other_ne.symm _ _
            · rw [hbytes, hreceived, filled_start]
      | two s' hserved hother _ _ _ =>
          obtain rfl | rfl := s'.eq_or s
          · simp [hserved.1] at hs
          · simp [hother.state] at hs
      | both hserved _ => simp [(hserved s).1] at hs
    · cases hcrossed with
      | both hsending =>
          obtain ⟨_, _, _, hsending⟩ := hsending s
          simp [hsending.state] at hs
      | late s' hsending hother _ =>
          obtain rfl | rfl := s'.eq_or s
          · simp [hsending.state] at hs
          · simp [hother] at hs

/-- What a chunk does to the stores and to the upload of its side. -/
theorem chunk_kept {s : Side} {st : UploadSession} {sent fd : ℕ} (h : c.Sending env t name s st sent fd)
    {n : ℕ} (hn : sent + n ≤ c.content.length) :
    ∃ m t', c.step env t (.chunk s n) = t' ∧
      t'.upload s.other = t.upload s.other ∧ t'.world.disk = t.world.disk ∧
      t'.world.fs.entry = t.world.fs.entry ∧
      (Sound env t.world → IdleOps env t.world t'.world) ∧
      c.Sending env t' name s { st with received := m } (sent + n) fd := by
  obtain ⟨⟨m, hst⟩, hentry⟩ := @writeChunk_session env sent ((c.content.drop sent).take n) t.world st
  obtain ⟨hquiet, hopen⟩ := @writeChunk_quiet env st t.world sent ((c.content.drop sent).take n)
    fun fd' hfd' => by
      obtain rfl := Option.some.inj (h.opened.symm.trans hfd')
      exact h.isOpen
  have hdisk := (disk_framed env).writeChunk sent ((c.content.drop sent).take n) t.world st
  rw [hst] at hopen
  refine ⟨m, _, rfl, ?_⟩
  simp only [step, h.state, hst]
  refine ⟨Function.update_of_ne s.other_ne _ _, hdisk, hentry, hquiet.idles, ?_⟩
  exact ⟨Function.update_self .., hopen fd h.opened, h.opened, h.place, h.path, h.md5, h.size, hn⟩

/-- A chunk of the only upload under way is appended to the part file. -/
theorem chunk_appends {s : Side} {st : UploadSession} {sent fd n : ℕ}
    (h : c.Sending env t name s st sent fd) (hdisk : t.world.disk = {})
    (hpos : 0 < n) (hn : sent + n ≤ c.content.length)
    (hentry : t.world.fs.entry (c.place env name) = some (.file fd))
    (hsent : (resumed old c.content.length).length ≤ sent)
    (hbytes : t.world.fs.data fd = c.filled old sent) :
    (c.step env t (.chunk s n)).world.fs.data fd = c.filled old (sent + n) := by
  have hlength : ((c.content.drop sent).take n).length = n := by
    rw [List.length_take, List.length_drop]
    omega
  have hne : (c.content.drop sent).take n ≠ [] := by
    intro hnil
    rw [hnil, List.length_nil] at hlength
    omega
  have hreceiving : Receiving env t.world st fd (c.place env name) (c.filled old sent) :=
    ⟨h.isOpen, h.opened, h.place, hentry, hbytes⟩
  have hfilled := @filled_length c old sent hsent h.within
  obtain ⟨m, w', hrun, hafter⟩ := writeChunk_receives hreceiving hdisk hne
    (by rw [hfilled, hlength, h.size]; exact hn) (by rw [h.size]; exact c.content_fits)
  rw [hfilled] at hrun
  have hworld : (c.step env t (.chunk s n)).world = w' := by
    simp only [step, h.state, hrun]
  rw [hworld, hafter.bytes, filled_append hsent]

include hexact in
theorem Stage.chunk (h : c.Stage env u name old hist t) {s : Side} {n : ℕ} (hpos : 0 < n) {st : UploadSession} {sent : ℕ} (hs : t.upload s = .sending st sent)
    (hn : sent + n ≤ c.content.length) :
    c.Stage env u name old ((c.machine env).record t (.chunk s n) :: hist) (c.step env t (.chunk s n)) := by
  have hapart_iff : NoOverlap ((c.machine env).record t (.chunk s n) :: hist) ↔ NoOverlap hist :=
    apart_cons (by simp [Machine.record])
  rcases h.stage with ⟨hapart, hturn⟩ | ⟨hcross, hcrossed⟩
  · cases hturn with
    | neither hidles hold => simp [hidles] at hs
    | one s' hother hsending hentry hsent hfilled =>
        obtain rfl : s = s' := by
          obtain rfl | rfl := s'.eq_or s
          · rfl
          · simp [hother] at hs
        obtain ⟨rfl, rfl⟩ : _ = st ∧ _ = sent := by simpa [hsending.state] using hs
        have happend := chunk_appends hsending h.disk hpos hn hentry hsent hfilled
        obtain ⟨m, t', hstep, hkept, hdisk, hsame, hidle, hnew⟩ := chunk_kept hsending hn
        rw [hstep] at happend ⊢
        refine ⟨coherent_idles hexact (hidle h.coherent.sound) h.coherent, hdisk.trans h.disk, Or.inl ?_⟩
        refine ⟨hapart_iff.mpr hapart, .one s (hkept.trans hother) hnew ?_ (by omega) happend⟩
        rw [hsame]
        exact hentry
    | between s' hother hserved hgone hold =>
        obtain rfl | rfl := s'.eq_or s
        · simp [hserved.1] at hs
        · simp [hother] at hs
    | two s' hserved hsending hentry hfilled hold =>
        obtain rfl : s = s'.other := by
          obtain rfl | rfl := s'.eq_or s
          · simp [hserved.1] at hs
          · rfl
        obtain ⟨rfl, rfl⟩ : _ = st ∧ _ = sent := by simpa [hsending.state] using hs
        have happend := chunk_appends hsending h.disk hpos hn hentry (Nat.zero_le _) hfilled
        obtain ⟨m, t', hstep, hkept, hdisk, hsame, hidle, hnew⟩ := chunk_kept hsending hn
        have hidle := hidle h.coherent.sound
        rw [hstep] at happend ⊢
        refine ⟨coherent_idles hexact hidle h.coherent, hdisk.trans h.disk, Or.inl ?_⟩
        rw [s'.other_other] at hkept
        refine ⟨hapart_iff.mpr hapart, .two s' (hserved.later hkept hidle) hnew ?_ happend hold⟩
        rw [hsame]
        exact hentry
    | both hserved hold => simp [(hserved s).1] at hs
  · cases hcrossed with
    | both hsending =>
        obtain ⟨st', sent', fd, hthis⟩ := hsending s
        obtain ⟨rfl, rfl⟩ : st' = st ∧ sent' = sent := by simpa [hthis.state] using hs
        obtain ⟨m, t', hstep, hkept, hdisk, -, hidle, hnew⟩ := chunk_kept hthis hn
        have hidle := hidle h.coherent.sound
        rw [hstep]
        refine ⟨coherent_idles hexact hidle h.coherent, hdisk.trans h.disk, Or.inr ?_⟩
        refine ⟨fun hapart => hcross (hapart_iff.mp hapart), .both fun s' => ?_⟩
        obtain rfl | rfl := s.eq_or s'
        · exact ⟨_, _, _, hnew⟩
        · obtain ⟨_, _, _, hthat⟩ := hsending s.other
          exact ⟨_, _, _, hthat.later hkept (IdleOps.storeOps (u := u) hidle).inodes⟩
    | late s' hsending hother hgone =>
        obtain rfl : s = s' := by
          obtain rfl | rfl := s'.eq_or s
          · rfl
          · simp [hother] at hs
        obtain ⟨rfl, rfl⟩ : _ = st ∧ _ = sent := by simpa [hsending.state] using hs
        obtain ⟨m, t', hstep, hkept, hdisk, hsame, hidle, hnew⟩ := chunk_kept hsending hn
        rw [hstep]
        refine ⟨coherent_idles hexact (hidle h.coherent.sound) h.coherent, hdisk.trans h.disk, Or.inr ?_⟩
        refine ⟨fun hapart => hcross (hapart_iff.mp hapart), .late s hnew (hkept.trans hother) ?_⟩
        rw [hsame]
        exact hgone

include hexact hshared in
/-- An end that finds the size and the digest in the part file. -/
theorem finish_published (hw : Coherent env t.world) {s : Side} {st : UploadSession} {sent fd : ℕ}
    (h : c.Sending env t name s st sent fd) (hfree : World.CollisionFree env t.world)
    (hfault : Publishable env t.world (c.md5 env) c.content.length) {x : Bytes}
    (hx : t.world.fs.fileAt (c.place env name) = some x) (hlen : x.length = c.content.length)
    (hdigest : env.md5Hex x = c.md5 env) :
    ∃ w', c.step env t (.finish s) =
        { world := w', upload := Function.update t.upload s (.ended (.ok ())) } ∧
      Coherent env w' ∧ w'.disk = t.world.disk ∧ w'.fs.entry (c.place env name) = none ∧
      Inodes env t.world w' ∧ World.object env w' (c.md5 env) = some x ∧
      (view env w').row (u, c.path s) = some (.file (c.md5 env) c.content.length) ∧
      ∀ k, k ≠ (u, c.path s) → (view env w').row k = (view env t.world).row k := by
  have hm : Hex32 (c.md5 env) := env.md5_hex _
  have huploads := @commitUpload_uploads env (c.session s) st fd t.world h.isOpen hw.sound
  have hdisk := (disk_framed env).finishUpload (c.session s) t.world st
  obtain ⟨w', s₁, hrun, hcoherent, hgone, -, hothers, hview⟩ := finishUpload_attaches hexact hw hfree
    h.opened h.isOpen h.place hx (hlen.trans h.size.symm) (hdigest.trans h.md5.symm)
    (by rw [h.md5, h.size]; exact hfault) (c.session s)
  have hworld := @finishUpload_open _ (backend env) (c.session s) st fd h.opened t.world
  rw [hrun] at hworld hdisk
  obtain rfl : w' = (commitUpload (backend env) (c.session s) st t.world).2 :=
    congrArg (fun r => r.2.1) hworld
  rw [hshared.user s, h.path, h.md5, h.size] at hview
  rw [hshared.user s, h.path] at hothers
  refine ⟨_, ?_, hcoherent, hdisk, hgone, huploads.inodes, ?_, ?_, fun k hk => ?_⟩
  · simp only [step, h.state, hrun]
  · have hobject := congrArg (fun v => v.object (c.md5 env)) hview
    simpa [view, hm, RefStore.attach, RefStore.publish] using hobject
  · rw [hview]
    simp [RefStore.attach]
  · rw [hview, ← hothers k hk]
    simp [RefStore.attach, RefStore.publish, Function.update_of_ne hk]

/-- An end that the server refuses fails the upload of its side. -/
theorem finish_failed {s : Side} {st : UploadSession} {sent fd : ℕ} (h : c.Sending env t name s st sent fd)
    {e : Exn} (he : (finishUpload (backend env) (c.session s) (t.world, st)).1 = .error e) :
    (c.step env t (.finish s)).upload s = .ended (.error e) := by
  simp only [step, h.state, he, Function.update_self]

include hexact hshared in
/-- The end of an upload, unless the part file had bytes of something else. -/
theorem finish_fills (hw : Coherent env t.world) {s : Side} {st : UploadSession} {sent fd : ℕ}
    (h : c.Sending env t name s st sent fd) (hfree : World.CollisionFree env t.world)
    (hfault : Publishable env t.world (c.md5 env) c.content.length)
    (hx : t.world.fs.fileAt (c.place env name) = some c.content) :
    ∃ w', c.step env t (.finish s) =
        { world := w', upload := Function.update t.upload s (.ended (.ok ())) } ∧
      Coherent env w' ∧ w'.disk = t.world.disk ∧ w'.fs.entry (c.place env name) = none ∧
      (∀ p, p = c.path s ∨ c.MapsTo env t.world u p → c.MapsTo env w' u p) := by
  obtain ⟨w', hstep, hcoherent, hdisk, hgone, -, hobject, hrow, hothers⟩ := finish_published hexact hshared
    hw h hfree hfault hx rfl rfl
  refine ⟨w', hstep, hcoherent, hdisk, hgone, fun p hp => ?_⟩
  by_cases hkey : p = c.path s
  · subst hkey
    exact mapsTo_of_row hexact hcoherent hrow hobject
  · have hold := hp.resolve_left hkey
    refine mapsTo_of_row hexact hcoherent ?_ hobject
    rw [hothers _ (by simpa using hkey)]
    exact hold.row

theorem filled_resumable (hold : c.Resumable old) : c.filled old c.content.length = c.content := by
  have hprefix : resumed old c.content.length <+: c.content := by
    unfold resumed
    cases old with
    | none => exact List.nil_prefix
    | some y =>
        dsimp only
        split
        · exact List.nil_prefix
        next hfits => exact (hold y rfl).resolve_right (by omega)
  unfold filled
  rw [List.take_of_length_le (by rw [List.length_drop])]
  exact (List.prefix_append_drop hprefix).symm

theorem resumable_of_filled (h : c.filled old c.content.length = c.content) : c.Resumable old := by
  intro y hy
  subst hy
  by_cases hlong : c.content.length < y.length
  · exact Or.inr hlong
  · left
    have hresumed : resumed (some y) c.content.length = y := by
      simp [resumed, hlong]
    rw [filled, hresumed] at h
    rw [← h]
    exact List.prefix_append _ _

include hexact hshared in
theorem Stage.finish (h : c.Stage env u name old hist t) {s : Side} {st : UploadSession}
    (hs : t.upload s = .sending st c.content.length) (hdistinct : c.Distinct env t.world)
    (hroom : Open t.world.fs (World.objectsDir env ++ [(c.md5 env).take 2])) :
    c.Progress env u name old ((c.machine env).record t (.finish s) :: hist)
      (c.step env t (.finish s)) := by
  obtain ⟨hfree, hgenuine⟩ := hdistinct
  have hfault : Publishable env t.world (c.md5 env) c.content.length := ⟨h.disk, c.content_fits, hroom⟩
  have hapart_iff : NoOverlap ((c.machine env).record t (.finish s) :: hist) ↔ NoOverlap hist :=
    apart_cons (by simp [Machine.record])
  have hchecks : ∀ {st' : UploadSession} {sent fd : ℕ}, c.Sending env t name s st' sent fd →
      (∃ x, t.world.fs.fileAt (c.place env name) = some x ∧ x.length = c.content.length ∧
        env.md5Hex x = c.md5 env) ∨
      ∃ e, (c.step env t (.finish s)).upload s = .ended (.error e) := by
    intro st' sent fd hsending
    have hplain : ∀ n ∈ c.place env name, Plain n := by
      apply partPath_plain env hshared.nameOk (env.md5_hex c.content)
      exact zero_not_mem_baseName (Library.Posix.zero_not_mem_render (hshared.dest .first).plain)
    rcases finishUpload_checks h.coherent.sound hsending.isOpen hsending.opened hsending.place hplain
      (c.session s) with ⟨x, hx, hlen, hdigest⟩ | ⟨e, he⟩
    · exact Or.inl ⟨x, hx, hlen.trans hsending.size, hdigest.trans hsending.md5⟩
    · exact Or.inr ⟨e, finish_failed hsending he⟩
  have hfile : ∀ {fd : ℕ} {x : Bytes}, t.world.fs.entry (c.place env name) = some (.file fd) →
      t.world.fs.data fd = x → t.world.fs.fileAt (c.place env name) = some x := by
    intro fd x hentry hx
    simp [Library.FileTree.fileAt, hentry, hx]
  rcases h.stage with ⟨hapart, hturn⟩ | ⟨hcross, hcrossed⟩
  · cases hturn with
    | neither hidles hold => simp [hidles] at hs
    | one s' hother hsending hentry hsent hfilled =>
        obtain rfl : s = s' := by
          obtain rfl | rfl := s'.eq_or s
          · rfl
          · simp [hother] at hs
        obtain ⟨rfl, rfl⟩ : _ = st ∧ _ = c.content.length := by simpa [hsending.state] using hs
        by_cases hold : c.Resumable old
        · left
          rw [filled_resumable hold] at hfilled
          obtain ⟨w', hstep, hcoherent, hdisk, hgone, hmaps⟩ := finish_fills hexact hshared h.coherent
            hsending hfree hfault (hfile hentry hfilled)
          rw [hstep]
          refine ⟨hcoherent, hdisk.trans h.disk, Or.inl ⟨hapart_iff.mpr hapart, ?_⟩⟩
          refine .between s ?_ ⟨Function.update_self .., hmaps _ (Or.inl rfl)⟩ hgone hold
          exact (Function.update_of_ne s.other_ne _ _).trans hother
        · right
          left
          refine ⟨⟨s, ?_⟩, fun hboth => hold hboth.2⟩
          apply (hchecks hsending).resolve_left
          rintro ⟨x, hx, -, hdigest⟩
          apply hold
          apply resumable_of_filled
          rw [hfile hentry hfilled] at hx
          obtain rfl := Option.some.inj hx
          exact hgenuine _ _ (hfile hentry hfilled) hdigest
    | between s' hother hserved hgone hold =>
        obtain rfl | rfl := s'.eq_or s
        · simp [hserved.1] at hs
        · simp [hother] at hs
    | two s' hserved hsending hentry hfilled hold =>
        obtain rfl : s = s'.other := by
          obtain rfl | rfl := s'.eq_or s
          · simp [hserved.1] at hs
          · rfl
        obtain ⟨rfl, rfl⟩ : _ = st ∧ _ = c.content.length := by simpa [hsending.state] using hs
        left
        rw [filled_resumable (by simp [Resumable])] at hfilled
        obtain ⟨w', hstep, hcoherent, hdisk, hgone, hmaps⟩ := finish_fills hexact hshared h.coherent
          hsending hfree hfault (hfile hentry hfilled)
        rw [hstep]
        refine ⟨hcoherent, hdisk.trans h.disk, Or.inl ⟨hapart_iff.mpr hapart, .both (fun s => ?_) hold⟩⟩
        obtain rfl | rfl := s'.eq_or s
        · refine ⟨?_, hmaps _ (Or.inr hserved.2)⟩
          exact (Function.update_of_ne s.other_ne.symm _ _).trans hserved.1
        · exact ⟨Function.update_self .., hmaps _ (Or.inl rfl)⟩
    | both hserved hold => simp [(hserved s).1] at hs
  · have hcross' : ¬ NoOverlap ((c.machine env).record t (.finish s) :: hist) :=
      fun hapart => hcross (hapart_iff.mp hapart)
    cases hcrossed with
    | both hsending =>
        obtain ⟨st', sent', fd, hthis⟩ := hsending s
        rcases hchecks hthis with ⟨x, hx, hlen, hdigest⟩ | hfailed
        · left
          obtain ⟨w', hstep, hcoherent, hdisk, hgone, hino, -⟩ := finish_published hexact hshared
            h.coherent hthis hfree hfault hx hlen hdigest
          rw [hstep]
          refine ⟨hcoherent, hdisk.trans h.disk, Or.inr ⟨hcross', ?_⟩⟩
          obtain ⟨_, _, _, hthat⟩ := hsending s.other
          refine .late s.other (hthat.later (Function.update_of_ne s.other_ne _ _) hino) ?_ hgone
          rw [s.other_other]
          exact Function.update_self ..
        · exact Or.inr (Or.inl ⟨⟨s, hfailed⟩, fun hboth => hcross' hboth.1⟩)
    | late s' hsending hother hgone =>
        obtain rfl : s = s' := by
          obtain rfl | rfl := s'.eq_or s
          · rfl
          · simp [hother] at hs
        right
        left
        refine ⟨⟨s, ?_⟩, fun hboth => hcross' hboth.1⟩
        apply (hchecks hsending).resolve_left
        rintro ⟨x, hx, -⟩
        simp [Library.FileTree.fileAt, hgone] at hx

end

/-! ## Runs -/

/-- An upload that was refused or has ended stays so. -/
theorem settled_kept {e : UploadFrame} (he : c.Sends env t e) {s : Side}
    (hs : t.upload s = .refused ∨ ∃ r, t.upload s = .ended r) :
    (c.step env t e).upload s = t.upload s := by
  have hother : ∀ {s' : Side} (x : UploadState), t.upload s' ≠ t.upload s →
      Function.update t.upload s' x s = t.upload s := by
    intro s' x hne
    apply Function.update_of_ne
    rintro rfl
    exact hne rfl
  cases e with
  | start s' =>
      have hidle : t.upload s' = .idle := he
      have hne : t.upload s' ≠ t.upload s := by
        rw [hidle]
        rcases hs with hs | ⟨r, hs⟩ <;> simp [hs]
      unfold step
      dsimp only
      split
      · exact hother _ hne
      · exact hother _ hne
  | chunk s' n =>
      obtain ⟨-, st, sent, hsending, -⟩ := he
      have hne : t.upload s' ≠ t.upload s := by
        rw [hsending]
        rcases hs with hs | ⟨r, hs⟩ <;> simp [hs]
      simp only [step, hsending]
      exact hother _ hne
  | finish s' =>
      obtain ⟨⟨st, sent, hsending, -⟩, -⟩ := he
      have hne : t.upload s' ≠ t.upload s := by
        rw [hsending]
        rcases hs with hs | ⟨r, hs⟩ <;> simp [hs]
      simp only [step, hsending]
      exact hother _ hne

theorem NoOverlap.of_cons {r : Machine.Record Transfers UploadFrame Unit} (h : NoOverlap (r :: hist)) :
    NoOverlap hist := fun r' hr' => h r' (List.mem_cons_of_mem r hr')

/-- The invariant is kept by each frame. -/
theorem Progress.step (hexact : env.dialect = Dialect.exact) (hshared : c.Shared env u name)
    (h : c.Progress env u name old hist t) {e : UploadFrame} (he : c.Sends env t e) :
    c.Progress env u name old ((c.machine env).record t e :: hist) (c.step env t e) := by
  rcases h with hstage | ⟨⟨s, ex, hs⟩, hnot⟩ | ⟨s, hs⟩
  · cases e with
    | start s => exact hstage.start hexact hshared he
    | chunk s n =>
        obtain ⟨hpos, st, sent, hsending, hn⟩ := he
        exact Or.inl (hstage.chunk hexact hpos hsending hn)
    | finish s =>
        obtain ⟨⟨st, _, hsending, rfl⟩, hdistinct, hroom⟩ := he
        exact hstage.finish hexact hshared hsending hdistinct hroom
  · right
    left
    refine ⟨⟨s, ex, (settled_kept he (Or.inr ⟨_, hs⟩)).trans hs⟩, fun hboth => ?_⟩
    exact hnot ⟨hboth.1.of_cons, hboth.2⟩
  · right
    right
    exact ⟨s, (settled_kept he (Or.inl hs)).trans hs⟩

end UploadPair

open UploadPair

variable {c : UploadPair} {u : ℤ} {name : Bytes} {old : Option Bytes} {t : Transfers}
  {hist : List (Machine.Record Transfers UploadFrame Unit)}

instance {P : Side → Prop} [DecidablePred P] : Decidable (∀ s, P s) :=
  decidable_of_iff (P .first ∧ P .second) <| by
    refine ⟨fun h s => ?_, fun h => ⟨h _, h _⟩⟩
    cases s with
    | first => exact h.1
    | second => exact h.2

instance {P : ℕ → Prop} [DecidablePred P] :
    ∀ x : UploadState, Decidable (∃ st sent, x = .sending st sent ∧ P sent)
  | .idle => isFalse (by simp)
  | .sending _ sent => decidable_of_iff (P sent) (by simp)
  | .refused => isFalse (by simp)
  | .ended _ => isFalse (by simp)

instance : ∀ x : UploadState, Decidable (∀ st sent, x ≠ .sending st sent)
  | .idle => isTrue nofun
  | .sending st sent => isFalse fun h => h st sent rfl
  | .refused => isTrue nofun
  | .ended _ => isTrue nofun

instance : ∀ x : UploadState, Decidable (x = .idle)
  | .idle => isTrue rfl
  | .sending .. => isFalse nofun
  | .refused => isFalse nofun
  | .ended _ => isFalse nofun

instance : ∀ x : UploadState, Decidable (∃ r, x = .ended r)
  | .idle => isFalse nofun
  | .sending .. => isFalse nofun
  | .refused => isFalse nofun
  | .ended r => isTrue ⟨r, rfl⟩

instance : ∀ x : UploadState, Decidable (x = .ended (.ok ()))
  | .idle => isFalse nofun
  | .sending .. => isFalse nofun
  | .refused => isFalse nofun
  | .ended (.ok ()) => isTrue rfl
  | .ended (.error _) => isFalse nofun

instance (tree : Library.FileTree) (p : Path) : Decidable (Open tree p) :=
  decidable_of_iff (∀ q ∈ p.inits, tree.entry q = none ∨ tree.entry q = some .dir) <| by
    simp only [List.mem_inits, Open]

instance (env : Env) (w : World) : Decidable (c.Distinct env w) :=
  decidable_of_iff (World.CollisionFree env w ∧ ∀ p ∈ w.fs.listing, ∀ x ∈ w.fs.fileAt p,
      env.md5Hex x = c.md5 env → x = c.content) <| by
    apply and_congr_right
    intro _
    refine ⟨fun h p x hx => ?_, fun h p _ x hx => h p x hx⟩
    apply h p _ x hx
    apply w.fs.listed p
    intro hnone
    simp [Library.FileTree.fileAt, hnone] at hx

instance (env : Env) (t : Transfers) : ∀ e, Decidable (c.Sends env t e)
  | .start s => inferInstanceAs (Decidable (t.upload s = .idle))
  | .chunk s n => inferInstanceAs (Decidable (0 < n ∧ ∃ st sent, t.upload s = .sending st sent ∧
      sent + n ≤ c.content.length))
  | .finish s => inferInstanceAs (Decidable ((∃ st sent, t.upload s = .sending st sent ∧
      sent = c.content.length) ∧ c.Distinct env t.world ∧
        Open t.world.fs (World.objectsDir env ++ [(c.md5 env).take 2])))

instance decidableUploadsApart : Decidable (UploadPair.NoOverlap hist) :=
  inferInstanceAs (Decidable (∀ r ∈ hist, ∀ s, r.event = .start s →
    ∀ st sent, r.before.upload s.other ≠ .sending st sent))

end CloudStore.Analysis
