import CloudStore.Analysis.MapOfFiles
import CloudStore.Analysis.Passwords
import CloudStore.Analysis.PossessionProof
import CloudStore.Interface.Accounts
import CloudStore.Interface.ExistingOrNew
import CloudStore.Interface.LinkedClient
import CloudStore.Interface.PartFile

/-!
# What a client stores

A file that a user sends to a path, what the server must be like for that, and what the services
behind the requests make of it: before the last request of a transfer the server still waits for
the file, with a start of it received; the last one stores it.
-/

set_option autoImplicit false

namespace CloudStore.Analysis

open CloudStore.Library
open CloudStore.Library.Action (Moves bind_ok bind_apply)
open CloudStore.Library.Posix
open CloudStore.Model
open CloudStore.Model.RedisStore
open CloudStore.Model.TransferService
open CloudStore.Model.World (files backend objectPath objectsDir)
open CloudStore.Interface

/-- A file that a user sends: where it lies on the machine of the user, its bytes, and the path
that it goes to, in a directory below the user's own. -/
structure Errand where
  userId : ℤ
  username : Bytes
  password : Bytes
  localPath : Bytes
  remotePath : Bytes
  dir : Path
  name : Name
  content : Bytes
  overwrite : Bool

namespace Errand

variable (env : Env) (e : Errand)

def md5 : Bytes := env.md5Hex e.content

/-- The directory that the file goes to. -/
def parent : Path := userRoot env e.username ++ e.dir

/-- The physical path that the file goes to. -/
def dest : Path := userRoot env e.username ++ (e.dir ++ [e.name])

def virtualPath : Bytes := render (e.dir ++ [e.name])

/-- The key of the file in the index. -/
abbrev key : ℤ × Bytes := (e.userId, e.virtualPath)

/-- The place of the part file. -/
def part : Path := partPath env e.username (e.md5 env) (render (e.dest env))

/-- The number of bytes that the server has received. -/
def received (w : World) : ℕ := ((w.fs.fileAt (e.part env)).getD []).length

/-- A session of the user. -/
structure Owner (s : UserSession) : Prop where
  user : s.userId = e.userId
  name : s.username = e.username
  root : s.rootDir = render (userRoot env e.username)
  token : 58 ∉ s.token

/-- A login of the user finds the account. -/
def Admits (w : World) : Prop :=
  ∃ row, w.users.find? (fun r => env.dialect.sameName e.username r.username) = some row ∧
    row.id = e.userId ∧ verifyPassword (backend env) row.salt e.password row.passwordHash = true

/-- What the limits and the form of the request admit. -/
structure Valid : Prop where
  user : 0 ≤ e.userId ∧ e.userId < 2 ^ 63
  username : NameOk e.username
  name : Plain e.name
  normal : PathGuard.normalizeLogical e.remotePath = .ok ([47].intercalate (e.dir ++ [e.name]))
  admitted : e.content.length ≤ env.cfg.maxUploadBytes
  small : e.content.length < 2 ^ 63
  chunk : 1 ≤ env.cfg.chunkSize
  frame : env.cfg.chunkSize + 40 ≤ kMaxFrameSize
  challenge : env.cfg.challengeBytes < 2 ^ 32
  texts : 6 * (e.remotePath.length + e.username.length + e.password.length) + 6000 ≤ kMaxFrameSize

/-- The contents of the files of the server. -/
def contents (w : World) : Set Bytes := {x | ∃ p, w.fs.fileAt p = some x}

/-- The server waits for the file. No content that is there or is being received has the md5 of
another one, directories can be made where they are needed, what is at the place of the part file
is the start of the file, and the path does not hold the same file. -/
structure Awaits (w : World) : Prop where
  coherent : Coherent env w
  disk : w.disk = {}
  account : e.Admits env w
  apart : Set.InjOn env.md5Hex (contents w ∪ {y | y <+: e.content})
  parent : w.fs.entry (e.parent env) = some .dir
  partDir : Open w.fs (partDir env e.username)
  objectDir : Open w.fs (objectsDir env ++ [(e.md5 env).take 2])
  part : w.fs.entry (e.part env) = none ∨ ∃ y, w.fs.fileAt (e.part env) = some y ∧ y <+: e.content
  other : ∀ n, (view env w).row e.key ≠ some (.file (e.md5 env) n)
  free : e.overwrite = true ∨
    (∀ d n, (view env w).row e.key ≠ some (.file d n)) ∧ w.fs.entry (e.dest env) = none

/-- The server holds the file. -/
structure Stored (w : World) : Prop where
  coherent : Coherent env w
  disk : w.disk = {}
  account : e.Admits env w
  parent : w.fs.entry (e.parent env) = some .dir
  row : (view env w).row e.key = some (.file (e.md5 env) e.content.length)
  object : World.object env w (e.md5 env) = some e.content

variable {env e}

theorem md5_hex : Hex32 (e.md5 env) := env.md5_hex e.content

/-- The path of the index is the normal form behind a slash. -/
theorem virtualPath_eq : str "/" ++ [47].intercalate (e.dir ++ [e.name]) = e.virtualPath := rfl

theorem Owner.key {s : UserSession} (ho : e.Owner env s) : (s.userId, e.virtualPath) = e.key := by
  rw [ho.user]

/-! ## Places -/

theorem Valid.userPath (hv : e.Valid env) {w : World} (hdir : w.fs.entry (e.parent env) = some .dir) :
    UserPath env (e.dest env) where
  plain := by
    intro n hn
    unfold Errand.dest at hn
    rw [← List.append_assoc] at hn
    rcases List.mem_append.mp hn with hn | hn
    · exact w.fs.plain_of_entry (p := e.parent env) (by simp [hdir]) n hn
    · exact List.mem_singleton.mp hn ▸ hv.name
  below := (prefix_below _ _).trans (List.prefix_append _ _)

theorem Valid.placed (hv : e.Valid env) {w : World} (hdir : w.fs.entry (e.parent env) = some .dir) :
    Placed w (userRoot env e.username) e.dir e.name e.remotePath :=
  ⟨hdir, hv.name, hv.normal⟩

theorem parentDir_dest (hv : e.Valid env) : parentDir (render (e.dest env)) = render (e.parent env) := by
  unfold Errand.dest Errand.parent
  rw [← List.append_assoc, parentDir_render hv.name]

theorem part_mem : e.part env ∈ partPlaces env := partPath_mem env _ _ _

/-- No directory of users lies on the way to the part files. -/
theorem not_user_of_partDir {username : Bytes} {p : Path} (hp : p <+: Interface.partDir env username) :
    ¬ World.usersDir env <+: p := by
  intro husers
  have hsame : (World.usersDir env).length = (World.tmpDir env).length := by
    simp [World.usersDir, World.tmpDir]
  have heq : World.usersDir env = World.tmpDir env :=
    (List.prefix_of_prefix_length_le (husers.trans hp) (prefix_below _ _) hsame.le).eq_of_length hsame
  rw [World.usersDir, World.tmpDir] at heq
  exact absurd (List.append_cancel_left heq) (by decide)

/-! ## Steps that leave the file to be stored -/

/-- A step after which index, tree and accounts are as they were. -/
structure Unchanged (env : Env) (w w' : World) : Prop where
  coherent : Coherent env w'
  disk : w'.disk = w.disk
  users : w'.users = w.users
  view : view env w' = view env w
  entry : ∀ q, w'.fs.entry q = w.fs.entry q
  fileAt : ∀ q, w'.fs.fileAt q = w.fs.fileAt q

/-- A step of a transfer that has not come to its end: the index is as it was, and of the tree only
directories of part files and the part file may be new, which is the start of the file. -/
structure Underway (env : Env) (e : Errand) (w w' : World) : Prop where
  coherent : Coherent env w'
  disk : w'.disk = w.disk
  users : w'.users = w.users
  view : view env w' = view env w
  entry : ∀ q, q ≠ e.part env → w'.fs.entry q = w.fs.entry q ∨
    q <+: Interface.partDir env e.username ∧ w'.fs.entry q = some .dir
  fileAt : ∀ q, q ≠ e.part env → w'.fs.fileAt q = w.fs.fileAt q
  part : w'.fs.entry (e.part env) = none ∨ ∃ y, w'.fs.fileAt (e.part env) = some y ∧ y <+: e.content

variable {w w' : World}

theorem Admits.congr (h : e.Admits env w) (husers : w'.users = w.users) : e.Admits env w' := by
  unfold Errand.Admits at h ⊢
  rwa [husers]

theorem Awaits.underway (h : e.Awaits env w) (hv : e.Valid env) (hs : Underway env e w w') :
    e.Awaits env w' := by
  have hopen : ∀ {p : Path}, e.part env ≠ p → (w.fs.entry p = none ∨ w.fs.entry p = some .dir) →
      w'.fs.entry p = none ∨ w'.fs.entry p = some .dir := by
    intro p hp h
    rcases hs.entry p (Ne.symm hp) with hsame | ⟨-, hdir⟩
    · rwa [hsame]
    · exact Or.inr hdir
  have huser : ∀ {p : Path}, p <+: e.dest env → p ≠ e.part env := by
    rintro p hp rfl
    exact (hv.userPath h.parent).prefix_not_part hp part_mem
  refine ⟨hs.coherent, hs.disk.trans h.disk, h.account.congr hs.users, ?_, ?_, ?_, ?_, hs.part, ?_, ?_⟩
  · apply h.apart.mono
    rintro x (⟨p, hp⟩ | hx)
    · by_cases hpart : p = e.part env
      · rcases hs.part with hnone | ⟨y, hy, hprefix⟩
        · rw [hpart, FileTree.fileAt, hnone] at hp
          cases hp
        · rw [hpart, hy] at hp
          exact Or.inr (Option.some.inj hp ▸ hprefix)
      · rw [hs.fileAt p hpart] at hp
        exact Or.inl ⟨p, hp⟩
    · exact Or.inr hx
  · have hdir : e.parent env <+: e.dest env := by
      unfold Errand.parent Errand.dest
      rw [← List.append_assoc]
      exact List.prefix_append _ _
    rcases hs.entry _ (huser hdir) with hsame | ⟨-, hsome⟩
    · rw [hsame, h.parent]
    · exact hsome
  · intro q hq
    apply hopen _ (h.partDir q hq)
    rintro rfl
    exact (away_of_partDir hv.username hq).2 part_mem
  · intro q hq
    apply hopen _ (h.objectDir q hq)
    rintro rfl
    exact (away_of_objectDir hq).2 part_mem
  · rw [hs.view]
    exact h.other
  · rw [hs.view]
    refine h.free.imp id fun hfree => ⟨hfree.1, ?_⟩
    rcases hs.entry _ (huser (List.prefix_refl _)) with hsame | ⟨hbelow, -⟩
    · rw [hsame, hfree.2]
    · exact absurd (hv.userPath h.parent).below (not_user_of_partDir hbelow)

/-- An object of the md5 is the file. -/
theorem Awaits.object_eq (h : e.Awaits env w) {y : Bytes}
    (hy : World.object env w (e.md5 env) = some y) : y = e.content := by
  have hdigest : env.md5Hex y = env.md5Hex e.content := by
    unfold World.object FileTree.fileAt at hy
    split at hy
    next i hentry =>
      obtain ⟨j, hj, hdata⟩ := h.coherent.sound.objects _ md5_hex _ hentry
      obtain rfl := Node.file.inj hj
      rw [← Option.some.inj hy, hdata]
      rfl
    · cases hy
  exact h.apart (Or.inl ⟨_, hy⟩) (Or.inr (List.prefix_refl _)) hdigest

theorem Unchanged.underway (hs : Unchanged env w w') (h : e.Awaits env w) : Underway env e w w' where
  coherent := hs.coherent
  disk := hs.disk
  users := hs.users
  view := hs.view
  entry := fun q _ => Or.inl (hs.entry q)
  fileAt := fun q _ => hs.fileAt q
  part := by
    rw [hs.entry, hs.fileAt]
    exact h.part

theorem Unchanged.trans {w'' : World} (h : Unchanged env w w') (h' : Unchanged env w' w'') :
    Unchanged env w w'' where
  coherent := h'.coherent
  disk := h'.disk.trans h.disk
  users := h'.users.trans h.users
  view := h'.view.trans h.view
  entry := fun q => (h'.entry q).trans (h.entry q)
  fileAt := fun q => (h'.fileAt q).trans (h.fileAt q)

theorem Unchanged.received (hs : Unchanged env w w') : e.received env w' = e.received env w := by
  unfold Errand.received
  rw [hs.fileAt]

theorem Stored.unchanged (h : e.Stored env w) (hs : Unchanged env w w') : e.Stored env w' where
  coherent := hs.coherent
  disk := hs.disk.trans h.disk
  account := h.account.congr hs.users
  parent := (hs.entry _).trans h.parent
  row := by
    rw [hs.view]
    exact h.row
  object := (hs.fileAt _).trans h.object

theorem storeOps_users {u : ℤ} (hops : StoreOps env u w w') : w'.users = w.users :=
  (@uploadOps_users env u w w' False (Relation.ReflTransGen.mono (fun _ _ h => UploadOp.op h) _ _ hops)).1

theorem idles_users (hidle : IdleOps env w w') : w'.users = w.users :=
  @storeOps_users env w w' 0 (Relation.ReflTransGen.mono (fun _ _ h => StoreOp.idle h) _ _ hidle)

/-- The directory of the user is on the way to that of the file. -/
theorem userRoot_dir (hparent : w.fs.entry (e.parent env) = some .dir) :
    ∀ q, q <+: userRoot env e.username → w.fs.entry q = some .dir := by
  intro q hq
  obtain ⟨r, hr⟩ := hq.trans (List.prefix_append _ e.dir)
  by_cases hnil : r = []
  · rw [hnil, List.append_nil] at hr
    rw [hr]
    exact hparent
  · apply w.fs.dir_of_below hnil
    rw [hr]
    exact hparent ▸ Option.some_ne_none _

section

variable (hexact : env.dialect = Dialect.exact)
include hexact

theorem coherent_idles (hw : Coherent env w) (hidle : IdleOps env w w') : Coherent env w' := by
  refine (coherent_iff hexact).mpr ⟨hidle.sound hw.sound, ?_⟩
  rw [view_idles hidle]
  exact hw.view hexact

/-- An idle step that leaves the tree. -/
theorem unchanged_of_idles (hw : Coherent env w) (hidle : IdleOps env w w') (hfs : w'.fs = w.fs)
    (hdisk : w'.disk = w.disk) : Unchanged env w w' where
  coherent := coherent_idles hexact hw hidle
  disk := hdisk
  users := idles_users hidle
  view := view_idles hidle
  entry := fun q => by rw [hfs]
  fileAt := fun q => by rw [hfs]

/-! ## Login -/

/-- **A login** of the user. -/
theorem Admits.login (h : e.Admits env w) (hv : e.Valid env) (hw : Coherent env w)
    (hparent : w.fs.entry (e.parent env) = some .dir) (ip : Bytes) :
    ∃ s w', AuthService.login (backend env) e.username e.password ip w = (.ok s, w') ∧
      Unchanged env w w' ∧ e.Owner env s ∧ s.token.length = 64 := by
  have hdirs := userRoot_dir hparent
  obtain ⟨t, hrun, hmade⟩ := @ensureDir_makes env _ (userRoot_plain env hv.username) w hw.sound.links
    fun q hq => Or.inr (hdirs q hq)
  have htext := userRoot_text env hv.username
  have hroot : AuthService.ensureUserRoot (backend env) e.username w =
      (.ok (joinPath env.cfg.usersRoot e.username), { w with fs := t }) := by
    unfold AuthService.ensureUserRoot
    rw [← htext] at hrun
    exact bind_ok hrun
  obtain ⟨row, hrow, hid, hverify⟩ := h
  obtain ⟨bytes, sessions, hlength, hlogin⟩ := @login_rooted env w e.username row ip _ _ hroot
  generalize htoken : toHex bytes = token at hlogin
  generalize hw' : ({ fs := t, disk := w.disk, redis := { w.redis with sessions := sessions }
                      users := w.users, nextId := w.nextId, rows := w.rows, entropy := w.entropy
                      drawn := w.drawn + 32 } : World) = w' at hlogin
  have hrun' : AuthService.login (backend env) e.username e.password ip w =
      (.ok { userId := row.id, username := e.username
             rootDir := joinPath env.cfg.usersRoot e.username, token := token }, w') := by
    rw [login_eq, hrow]
    dsimp only
    rw [hverify]
    exact hlogin
  have hops := @login_ops env e.username e.password ip w hw.sound
  rw [hrun'] at hops
  refine ⟨_, w', hrun', ⟨?_, ?_, ?_, view_accounts hops, ?_, ?_⟩, ⟨hid, rfl, htext, ?_⟩, ?_⟩
  · refine (coherent_iff hexact).mpr ⟨hops.sound hw.sound, ?_⟩
    rw [view_accounts hops]
    exact hw.view hexact
  · rw [← hw']
  · rw [← hw']
  · intro q
    rw [← hw']
    dsimp only
    rw [hmade.entry]
    split
    next hq => exact (hdirs q hq).symm
    · rfl
  · intro q
    rw [← hw']
    exact hmade.same.files q
  · exact htoken ▸ (toHex_clean bytes).1
  · rw [← htoken, toHex_length, hlength]

/-! ## Instant upload -/

/-- A challenge for the object that is the file, within it. -/
structure Challenged (env : Env) (e : Errand) (token : Bytes) (w : World) (offset len : ℕ) : Prop where
  object : World.object env w (e.md5 env) = some e.content
  text : w.redis.strings (chalKey token (e.md5 env)) = challengeText offset len
  inside : offset + len ≤ e.content.length
  length : len < 2 ^ 32

/-- **The query** leaves the file to be stored; a hit sets a challenge that the user can answer. -/
theorem Awaits.query (h : e.Awaits env w) (hv : e.Valid env) {s : UserSession} (ho : e.Owner env s) :
    ∃ q w', queryInstant (backend env) s (e.md5 env) e.content.length w = (.ok q, w') ∧
      Unchanged env w w' ∧ q.size < 2 ^ 63 ∧ q.challengeOffset < 2 ^ 63 ∧ q.challengeLen < 2 ^ 32 ∧
      (q.hit = true → Challenged env e s.token w' q.challengeOffset q.challengeLen) := by
  have hsmall := hv.small
  have hidle := @queryInstant_idles env s (fun _ => ho.token) (e.md5 env) e.content.length w
    h.coherent.sound
  cases hobject : World.object env w (e.md5 env) with
  | none =>
      have hmissing : ∀ x, World.object env w (e.md5 env) = some x → x.length ≠ e.content.length := by
        intro x hx
        rw [hobject] at hx
        cases hx
      have hrun := queryInstant_miss s h.coherent.sound md5_hex hmissing
      rw [hrun] at hidle
      refine ⟨{}, w, hrun, unchanged_of_idles hexact h.coherent hidle rfl rfl, ?_, ?_, ?_, ?_⟩
      · norm_num
      · norm_num
      · norm_num
      · intro hhit
        cases hhit
  | some y =>
      obtain rfl := h.object_eq hobject
      have hrun := @queryInstant_hit env w _ s h.coherent.sound md5_hex _ hobject
      obtain ⟨-, hlen, hinside, -⟩ := challengeWindow_bounds hv.challenge hsmall
        (challengeSeed (e.md5 env ++ s.token))
      dsimp only at hrun hlen hinside
      generalize challengeWindow env.cfg.challengeBytes e.content.length
        (challengeSeed (e.md5 env ++ s.token)) = window at hrun hlen hinside
      rw [arg_exact hexact] at hrun
      rw [hrun] at hidle
      refine ⟨_, _, hrun, unchanged_of_idles hexact h.coherent hidle rfl rfl, hsmall, ?_, hlen,
        fun _ => ?_⟩
      · dsimp only
        omega
      · exact ⟨hobject, Function.update_self _ _ _, hinside, hlen⟩

/-- A path that is free, or whose file may be replaced, is cleared. -/
theorem clearDestination_clears {u : ℤ} {dest : Path} (hdest : UserPath env dest) (hw : Sound env w)
    {p : Bytes} {overwrite : Bool}
    (hfree : overwrite = true ∨
      (∀ d n, (view env w).row (u, p) ≠ some (.file d n)) ∧ w.fs.entry dest = none) :
    ∃ w', clearDestination (backend env) u (render dest) p overwrite w = (.ok (), w') := by
  rcases clearDestination_view hexact hdest hw p overwrite with h | h | ⟨e, h⟩
  · exact ⟨_, h.choose_spec.1⟩
  · exact ⟨_, h.choose_spec.1⟩
  · exfalso
    unfold clearDestination at h
    rw [bind_ok (lookupPlainFile_eq p w)] at h
    cases hrow : (w.rows.find? (World.isRow env u p)).filter fun r => !r.isDir with
    | some r =>
        rw [hrow] at h
        rcases hfree with rfl | ⟨hnone, -⟩
        · obtain ⟨w', hrel, -⟩ := releaseContentRef_view hexact (u := u) hw p
          dsimp only at h
          rw [if_pos rfl, hrel] at h
          cases h
        · exact hnone _ _ (lookup_some hexact hrow).1
    | none =>
        rw [hrow] at h
        obtain ⟨there, hthere⟩ := @fileExists_ok env (render dest) w
        dsimp only at h
        rw [World.backend_files, bind_ok hthere] at h
        cases there with
        | false => cases h
        | true =>
            rcases hfree with rfl | ⟨-, hnone⟩
            · cases h
            · obtain ⟨e', hnode⟩ := (@node_render _ false hw.links _ hdest.plain).2 hnone
              simp [fileExists, files, bind_apply, lstat, hnode, Except.map] at hthere

/-- **An instant upload** that answers the challenge stores the file. -/
theorem Awaits.instant (h : e.Awaits env w) (hv : e.Valid env) {s : UserSession}
    (ho : e.Owner env s) {offset len : ℕ} (hc : Challenged env e s.token w offset len) {proof : Bytes}
    (hproof : len = 0 ∨ proof = env.md5Hex ((e.content.drop offset).take len)) :
    ∃ w', instantUpload (backend env) s (render (e.dest env)) e.virtualPath (e.md5 env)
      e.content.length offset proof e.overwrite w = (.ok (), w') ∧ e.Stored env w' := by
  have hsound := h.coherent.sound
  have hsmall := hv.small
  have hdest := hv.userPath h.parent
  have hview := h.coherent.view hexact
  have hobject : (view env w).object (e.md5 env) = some e.content := by
    simp only [view, if_pos md5_hex, hc.object]
  have hget : getChallenge (World.redisCalls env) s.token (e.md5 env) w =
      (.ok (some (offset, len)), w) := by
    have hinside := hc.inside
    apply getChallenge_some (by omega) hc.length
    rw [arg_exact hexact]
    exact hc.text
  have hproved : checkProof (backend env) s (e.md5 env) e.content.length offset proof w =
      (.ok (), w) := by
    apply Prod.ext
    · refine (checkProof_iff hsound md5_hex (fun _ _ => by rw [h.disk]) hget ?_).mpr ⟨rfl, _, hc.object, rfl, hproof⟩
      intro x hx
      obtain rfl := Option.some.inj (hc.object.symm.trans hx)
      exact ⟨hc.inside, hsmall⟩
    · exact checkProof_reads _ _ _ _ _ w
  have hrun : ∃ w', instantUpload (backend env) s (render (e.dest env)) e.virtualPath
      (e.md5 env) e.content.length offset proof e.overwrite w = (.ok (), w') := by
    have hop : IdleOp env w (setSet (Interface.setString w (env.dialect.arg
        (chalKey s.token (e.md5 env))) [])
        (env.dialect.arg (chalKey s.token (e.md5 env))) ∅) := IdleOp.unchallenge w _ _
    have hfree := h.free
    rw [← view_idleOp hop, ← ho.key] at hfree
    obtain ⟨w₁, hclear⟩ := clearDestination_clears hexact hdest (hop.sound hsound) hfree
    obtain ⟨made, w₂, hmade⟩ := @ensureDir_ok env (parentDir (render (e.dest env))) w₁
    obtain ⟨w₃, hadd, -⟩ := addContentRef_view hexact (u := s.userId) (w := w₂) e.virtualPath
      (e.md5 env) e.content.length
    refine ⟨w₃, ?_⟩
    unfold instantUpload
    rw [bind_ok hproved, World.backend_redis, bind_ok (delChallenge_eq _ _ w), bind_ok hclear,
      World.backend_files, bind_ok hmade, hadd]
  obtain ⟨w', hrun⟩ := hrun
  refine ⟨w', hrun, ?_⟩
  have hfollows := @instantUpload_follows env s (fun _ => ho.token) _ hdest e.virtualPath
    (e.md5 env) e.content.length offset proof e.overwrite w hsound
  have hdirs := (dirs_framed env).instantUpload s (render (e.dest env)) e.virtualPath
    (e.md5 env) e.content.length offset proof e.overwrite w
  have hdisk := (disk_framed env).instantUpload s (render (e.dest env)) e.virtualPath
    (e.md5 env) e.content.length offset proof e.overwrite w
  rw [hrun] at hfollows hdirs hdisk
  have hattaches := @instantUpload_view env w hexact s _ hdest hsound e.virtualPath (e.md5 env)
    e.content.length offset proof e.overwrite
  rw [ho.key] at hattaches
  rcases hattaches with ⟨_, _, hfails, -⟩ | ⟨-, -, s₁, w'', hruns, hattached, hcleared⟩
  · rw [hrun] at hfails
    cases hfails
  · obtain rfl : w' = w'' := by
      rw [hrun] at hruns
      exact (Prod.mk.inj hruns).2
    have hs₁ : s₁.Coherent (scheme env) ∧ (∀ d n, s₁.row e.key ≠ some (.file d n)) ∧
        s₁.object (e.md5 env) = some e.content := by
      rcases hcleared with ⟨-, ⟨d, n, hrow⟩, rfl⟩ | ⟨hnone, rfl⟩
      · refine ⟨hview.detach scheme_blank _, fun d n => by simp [RefStore.detach_row], ?_⟩
        have hother : e.md5 env ≠ d := by
          rintro rfl
          exact h.other n hrow
        rw [RefStore.detach_object, (hview.released_eq scheme_blank hrow).1,
          if_neg fun hsame => hother hsame.1, hobject]
      · exact ⟨hview, hnone, hobject⟩
    refine ⟨?_, hdisk.trans h.disk, h.account.congr (storeOps_users hfollows), hdirs _ h.parent, ?_, ?_⟩
    · refine (coherent_iff hexact).mpr ⟨hfollows.sound hsound, ?_⟩
      rw [hattached]
      exact hs₁.1.attach hs₁.2.1 md5_hex hs₁.2.2 rfl
    · rw [hattached]
      exact Function.update_self _ _ _
    · have hfinal : (view env w').object (e.md5 env) = some e.content := by
        rw [hattached]
        exact hs₁.2.2
      simpa only [view, if_pos md5_hex] using hfinal

end

/-! ## Upload in chunks -/

/-- The session of an upload of the file that has received the first `n` bytes. -/
structure Receives (env : Env) (e : Errand) (w : World) (st : UploadSession) (n : ℕ) : Prop where
  receiving : ∃ fd, Receiving env w st fd (e.part env) (e.content.take n)
  fileId : st.fileId.length = 32
  virtualPath : st.virtualPath = e.virtualPath
  md5 : st.md5 = e.md5 env
  size : st.totalSize = e.content.length

theorem Receives.received_eq {st : UploadSession} {n : ℕ} (hr : Receives env e w st n)
    (hn : n ≤ e.content.length) : e.received env w = n := by
  obtain ⟨fd, hreceiving⟩ := hr.receiving
  rw [Errand.received, hreceiving.fileAt, Option.getD_some, List.length_take]
  exact min_eq_left hn

theorem Valid.part_plain (hv : e.Valid env) (h : e.Awaits env w) : ∀ n ∈ e.part env, Plain n :=
  partPath_plain env hv.username md5_hex
    (zero_not_mem_baseName (zero_not_mem_render (hv.userPath h.parent).plain))

/-- The directories of an upload are made: of the tree, only those of the part files are new. -/
theorem Awaits.makesDirs (h : e.Awaits env w) (hv : e.Valid env) :
    ∃ t₁ t, ensureDir (files env) (joinPath env.cfg.tmpRoot e.username) w =
          (.ok true, { w with fs := t₁ }) ∧
        ensureDir (files env) (parentDir (render (e.dest env))) { w with fs := t₁ } =
          (.ok true, { w with fs := t }) ∧ t.NoLinks ∧
      (∀ q, t.entry q = if q <+: Interface.partDir env e.username then some .dir
        else w.fs.entry q) ∧ ∀ q, t.fileAt q = w.fs.fileAt q := by
  have hplain := partDir_plain env hv.username
  obtain ⟨t₁, hrun₁, hmade₁⟩ := @ensureDir_makes env _ hplain w h.coherent.sound.links h.partDir
  have hparent : ∀ n ∈ e.parent env, Plain n := w.fs.plain_of_entry (by simp [h.parent])
  have hbelow : ∀ q, q <+: e.parent env → w.fs.entry q = some .dir := by
    rintro q ⟨r, hr⟩
    by_cases hnil : r = []
    · rw [hnil, List.append_nil] at hr
      rw [hr, h.parent]
    · apply w.fs.dir_of_below hnil
      rw [hr, h.parent]
      exact Option.some_ne_none _
  have hopen : Open t₁ (e.parent env) := by
    intro q hq
    rw [hmade₁.entry, hbelow q hq, ite_self]
    exact Or.inr rfl
  obtain ⟨t₂, hrun₂, hmade₂⟩ := @ensureDir_makes env _ hparent { w with fs := t₁ } hmade₁.links hopen
  refine ⟨t₁, t₂, ?_, ?_, hmade₂.links, fun q => ?_, fun q => ?_⟩
  · rw [partDir_text env hv.username, hrun₁]
  · rw [parentDir_dest hv, hrun₂]
  · rw [hmade₂.entry]
    split
    next hq => rw [hbelow q hq, ite_self]
    · exact hmade₁.entry q
  · rw [hmade₂.same.files]
    exact hmade₁.same.files q

/-- **The begin of an upload** leaves the file to be stored, and goes on behind the bytes that the
server has received. -/
theorem Awaits.begin (hexact : env.dialect = Dialect.exact) (h : e.Awaits env w) (hv : e.Valid env)
    {s : UserSession} (ho : e.Owner env s) :
    ∃ st w', beginUpload (backend env) s (render (e.dest env)) e.virtualPath (e.md5 env)
        e.content.length w = (.ok st, w') ∧ Underway env e w w' ∧ st.received ≤ e.content.length ∧
      st.received = e.received env w ∧ Receives env e w' st st.received := by
  have hdest := hv.userPath h.parent
  have hzero : 0 ∉ baseName (render (e.dest env)) :=
    zero_not_mem_baseName (zero_not_mem_render hdest.plain)
  have hplain := hv.part_plain h
  have htext := partText_eq env hv.username (@md5_hex env e) hzero
  obtain ⟨t₁, t, hmade₁, hmade, hlinks, hentry, hfiles⟩ := h.makesDirs hv
  have hnot : ¬ e.part env <+: Interface.partDir env e.username := fun hq =>
    (away_of_partDir hv.username hq).2 part_mem
  have hpart : t.entry (e.part env) = w.fs.entry (e.part env) := by rw [hentry, if_neg hnot]
  have hdir : t.entry (Interface.partDir env e.username) = some .dir := by
    rw [hentry, if_pos (List.prefix_refl _)]
  -- the bytes that are there
  obtain ⟨y, hy, hprefix⟩ : ∃ y, (t.fileAt (e.part env)).getD [] = y ∧ y <+: e.content := by
    rw [hfiles]
    rcases h.part with hnone | ⟨y, hy, hprefix⟩
    · refine ⟨[], ?_, List.nil_prefix⟩
      simp [FileTree.fileAt, hnone]
    · exact ⟨y, by rw [hy, Option.getD_some], hprefix⟩
  have hopens : t.entry (e.part env) = none ∨ ∃ i, t.entry (e.part env) = some (.file i) := by
    rw [hpart]
    refine h.part.imp id ?_
    rintro ⟨y, hy, -⟩
    unfold FileTree.fileAt at hy
    split at hy
    next i hi => exact ⟨i, hi⟩
    · cases hy
  have hlocate : locate t true (render (e.part env)) = .ok (e.part env) :=
    locate_render hdir (hplain _ (by simp [Errand.part, partPath])) fun _ g => hlinks _ g
  obtain ⟨⟨fd, t'⟩, hcreate⟩ := openCreate_opens hlocate hdir
    (hplain _ (by simp [Errand.part, partPath])) hopens
  have hself : ∀ q, locate t true (render (e.part env)) = .ok q → q = e.part env := by
    intro q hq
    exact Except.ok.inj (hq.symm.trans hlocate)
  obtain ⟨hthere, hdata⟩ := openCreate_bytes hself hcreate
  rw [hy] at hdata
  have hkeeps := (openCreate_keeps (K := {q | q ≠ e.part env}) (N := ∅) hcreate
    fun q hq _ hne => hne (hself q hq)).1
  have hlength : y.length ≤ e.content.length := hprefix.length_le
  -- the run
  obtain ⟨fileId, hid, hdraw⟩ : ∃ fileId : Bytes, fileId.length = 32 ∧
      randomHex (backend env) 16 { w with fs := t } =
        (.ok fileId, { w with fs := t, drawn := w.drawn + 16 }) := by
    refine ⟨_, ?_, rfl⟩
    rw [toHex_length, List.length_map, List.length_range]
  have hopened : (files env).openCreate (joinPath (joinPath env.cfg.tmpRoot e.username)
      (partName (e.md5 env) (render (e.dest env)))) { w with fs := t, drawn := w.drawn + 16 } =
        (.ok (.ok fd), { w with fs := t', drawn := w.drawn + 16 }) := by
    rw [show joinPath (joinPath env.cfg.tmpRoot e.username)
      (partName (e.md5 env) (render (e.dest env))) = render (e.part env) from htext]
    simp only [files, World.openCall, Action.move_apply, hcreate]
  have hresumed : resumeAt (backend env) fd e.content.length
      { w with fs := t', drawn := w.drawn + 16 } =
        (.ok y.length, { w with fs := t', drawn := w.drawn + 16 }) := by
    have hstat : (files env).fstat fd { w with fs := t', drawn := w.drawn + 16 } =
        (.ok (.ok y.length), { w with fs := t', drawn := w.drawn + 16 }) := by
      rw [← hdata]
      rfl
    unfold resumeAt
    rw [World.backend_files, bind_ok hstat]
    dsimp only
    rw [if_neg (by omega)]
    rfl
  have hrun : beginUpload (backend env) s (render (e.dest env)) e.virtualPath (e.md5 env)
      e.content.length w = (.ok { fileId := fileId, destPath := render (e.dest env)
                                  virtualPath := e.virtualPath
                                  partPath := joinPath (joinPath env.cfg.tmpRoot e.username)
                                    (partName (e.md5 env) (render (e.dest env)))
                                  md5 := e.md5 env, totalSize := e.content.length
                                  received := y.length, fd := some fd },
        { w with fs := t', drawn := w.drawn + 16 }) := by
    have hadmitted := hv.admitted
    unfold beginUpload
    rw [World.backend_cfg, if_neg (by omega), if_neg (not_not.mpr md5_hex.1)]
    dsimp only
    rw [ho.name, World.backend_files, bind_ok hmade₁, bind_ok hmade, bind_ok hdraw, bind_ok hopened]
    dsimp only
    rw [bind_ok hresumed]
    rfl
  have hname : NameOk s.username := by
    rw [ho.name]
    exact hv.username
  obtain ⟨fd', hreceives, -⟩ := beginUpload_receives hname hdest md5_hex h.coherent.sound.links hrun
  rw [ho.name] at hreceives
  have hidle := @beginUpload_idles env s hname _ hdest e.virtualPath (e.md5 env)
    e.content.length w h.coherent.sound
  rw [hrun] at hidle
  have hpartFile : t'.fileAt (e.part env) = some y := by
    rw [FileTree.fileAt, hthere, ← hdata]
  have hbytes : resumed (w.fs.fileAt (e.part env)) e.content.length = e.content.take y.length := by
    rw [← List.prefix_iff_eq_take.mp hprefix]
    exact Option.some.inj (hreceives.fileAt.symm.trans hpartFile)
  have hcount : y.length = e.received env w := by
    rw [Errand.received, ← hfiles, hy]
  refine ⟨_, _, hrun, ?_, hlength, hcount, ⟨fd', ?_⟩, hid, rfl, rfl, rfl⟩
  · refine ⟨coherent_idles hexact h.coherent hidle, rfl, idles_users hidle, view_idles hidle, ?_, ?_,
      Or.inr ⟨y, hpartFile, hprefix⟩⟩
    · intro q hq
      rw [show t'.entry q = _ from hkeeps.entry q hq, hentry]
      split
      next hbelow => exact Or.inr ⟨hbelow, rfl⟩
      · exact Or.inl rfl
    · intro q hq
      rw [show t'.fileAt q = _ from hkeeps.fileAt hq, hfiles]
  · rw [← hbytes]
    exact hreceives

/-- A chunk writes to the part file, and nowhere else. -/
theorem writeChunk_writes {st : UploadSession} {fd : ℕ} (hfd : st.fd = some fd) (offset : ℕ)
    (data : Bytes) (w : World) :
    ∃ x, (writeChunk (backend env) offset data (w, st)).2.1 = { w with fs := w.fs.write fd x } := by
  have hself : w = { w with fs := w.fs.write fd (w.fs.data fd) } := by rw [FileTree.write_self _ rfl]
  unfold writeChunk
  rw [bind_ok (Action.look_apply Prod.snd (w, st)), hfd]
  dsimp only
  split
  · exact ⟨_, hself⟩
  · rcases @pwrite_cases env fd offset data w with ⟨part, -, -, hwrite⟩ | ⟨e, hwrite⟩
    · have hzoom : onSystem ((files env).pwrite fd offset data) (w, st) =
          (.ok (.ok part.length), ({ w with
            fs := w.fs.write fd (World.written (w.fs.data fd) offset part) }, st)) := by
        simp only [onSystem, Action.zoom_apply, hwrite]
      rw [World.backend_files, bind_ok hzoom]
      dsimp only
      split
      · exact ⟨_, rfl⟩
      · split
        · exact ⟨_, rfl⟩
        · exact ⟨_, rfl⟩
    · have hzoom : onSystem ((files env).pwrite fd offset data) (w, st) =
          (.ok (.error e), (w, st)) := by
        simp only [onSystem, Action.zoom_apply, hwrite]
      rw [World.backend_files, bind_ok hzoom]
      exact ⟨_, hself⟩

/-- **A chunk** of the file that follows what has been received leaves the file to be stored, and
the server has received it too. -/
theorem Awaits.chunk (hexact : env.dialect = Dialect.exact) (h : e.Awaits env w) (hv : e.Valid env)
    {st : UploadSession} {n : ℕ} (hr : Receives env e w st n) {data : Bytes} (hdata : data ≠ [])
    (hnext : e.content.take n ++ data = e.content.take (n + data.length))
    (hfits : n + data.length ≤ e.content.length) :
    ∃ m w', writeChunk (backend env) n data (w, st) = (.ok (), w', { st with received := m }) ∧
      Underway env e w w' ∧ Receives env e w' { st with received := m } (n + data.length) := by
  obtain ⟨fd, hreceiving⟩ := hr.receiving
  have hlength : (e.content.take n).length = n := by
    rw [List.length_take]
    omega
  have hsmall := hv.small
  have hsize := hr.size
  obtain ⟨m, w', hrun, hreceived⟩ := writeChunk_receives hreceiving h.disk hdata (by omega) (by omega)
  rw [hlength] at hrun
  rw [hnext] at hreceived
  obtain ⟨x, hwrites⟩ := @writeChunk_writes env st fd hreceiving.opened n data w
  have hquiet := (@writeChunk_quiet env st w n data fun fd' hfd' => by
    rw [Option.some.inj (hfd'.symm.trans hreceiving.opened)]
    exact hreceiving.isOpen).1
  rw [hrun] at hwrites hquiet
  dsimp only at hwrites hquiet
  have hidle := hquiet.idles h.coherent.sound
  refine ⟨m, w', hrun, ⟨coherent_idles hexact h.coherent hidle, ?_, idles_users hidle, view_idles hidle,
      ?_, ?_, ?_⟩,
    ⟨⟨fd, hreceived⟩, hr.fileId, hr.virtualPath, hr.md5, hr.size⟩⟩
  · rw [hwrites]
  · intro q _
    rw [hwrites]
    exact Or.inl rfl
  · intro q hq
    rw [hwrites]
    unfold FileTree.fileAt
    rw [FileTree.write_entry, FileTree.write_data]
    split
    next i hi =>
      rw [Function.update_of_ne]
      rintro rfl
      exact hq (w.fs.ino_inj q _ _ hi hreceiving.entry)
    · rfl
  · exact Or.inr ⟨_, hreceived.fileAt, List.take_prefix _ _⟩

/-- **The end of an upload** of which all bytes were received stores the file. -/
theorem Awaits.finish (hexact : env.dialect = Dialect.exact) (h : e.Awaits env w) (hv : e.Valid env)
    {s : UserSession} (ho : e.Owner env s) {st : UploadSession}
    (hr : Receives env e w st e.content.length) :
    ∃ w', finishUpload (backend env) s (w, st) = (.ok (), w', { st with fd := none }) ∧
      e.Stored env w' := by
  obtain ⟨fd, hreceiving⟩ := hr.receiving
  rw [List.take_length] at hreceiving
  have hsize := hr.size
  have hfree : World.CollisionFree env w := by
    intro p q x y hx hy hxy
    exact h.apart (Or.inl ⟨p, hx⟩) (Or.inl ⟨q, hy⟩) hxy
  have hfault : Publishable env w st.md5 st.totalSize := by
    rw [hr.md5, hr.size]
    exact ⟨h.disk, hv.small, h.objectDir⟩
  have hdirs := (dirs_framed env).finishUpload s w st
  have hdisk := (disk_framed env).finishUpload s w st
  obtain ⟨w', s₁, hrun, hcoherent, -, hcleared, -, hview⟩ := finishUpload_attaches hexact h.coherent
    hfree hreceiving.opened hreceiving.isOpen hreceiving.place hreceiving.fileAt hsize.symm
    hr.md5.symm hfault s
  rw [hrun] at hdirs hdisk
  rw [hr.virtualPath, hr.md5, hr.size, ho.key] at hview
  have husers : w'.users = w.users := by
    have hops := @commitUpload_uploads env s st fd w hreceiving.isOpen h.coherent.sound
    rw [finishUpload_open hreceiving.opened] at hrun
    obtain ⟨-, hcommit⟩ := Prod.mk.inj hrun
    rw [(Prod.mk.inj hcommit).1] at hops
    exact (uploadOps_users hops).1
  refine ⟨w', hrun, hcoherent, hdisk.trans h.disk, h.account.congr husers, hdirs _ h.parent, ?_, ?_⟩
  · rw [hview]
    exact Function.update_self _ _ _
  · have hfinal : (view env w').object (e.md5 env) = some e.content := by
      rw [hview]
      exact Function.update_self _ _ _
    simpa only [view, if_pos md5_hex] using hfinal

/-! ## Download -/

/-- **The begin of a download** of a file that is stored opens the file. -/
theorem Stored.download (hexact : env.dialect = Dialect.exact) (h : e.Stored env w) {s : UserSession}
    (ho : e.Owner env s) :
    ∃ d w' i, beginDownload (backend env) s e.virtualPath w = (.ok d, w') ∧
      e.Stored env w' ∧ d.fd = some (.file i) ∧ w'.fs.data i = e.content ∧
      d.totalSize = e.content.length ∧ d.fileId.length = 32 := by
  have hview := h.coherent.view hexact
  have hne : e.md5 env ≠ [] := by
    intro hnil
    exact absurd (hnil ▸ @md5_hex env e) (by decide)
  have hlink : w.redis.strings (pathKey s.userId (env.dialect.arg e.virtualPath)) = e.md5 env := by
    rw [arg_exact hexact, ho.user]
    exact (hview.mirrored e.key (e.md5 env) hne).mpr ⟨_, h.row⟩
  have hunchanged : Unchanged env w { w with drawn := w.drawn + 16 } :=
    unchanged_of_idles hexact h.coherent (Relation.ReflTransGen.single (IdleOp.draw w _)) rfl rfl
  obtain ⟨d, i, hrun, hfd, hdata, hsize, hid⟩ :=
    beginDownload_object h.coherent.sound hlink md5_hex h.object
  exact ⟨d, _, i, hrun, h.unchanged hunchanged, hfd, hdata, hsize, hid⟩

end Errand

end CloudStore.Analysis
