import CloudStore.Interface.Coherence

/-!
# Renaming a directory

The rename of a path that is no indexed file moves what is on the disk, and of the index
only the entry of the path itself, which becomes a file. So a directory is moved with its
contents if and only if the index has no file below it and no entry for it.
-/

set_option autoImplicit false

namespace CloudStore.Analysis

open CloudStore.Library (Bytes Entry RefStore)
open CloudStore.Library.Action (bind_ok)
open CloudStore.Model
open CloudStore.Model.RedisStore
open CloudStore.Model.TransferService
open CloudStore.Model.World (backend)
open CloudStore.Interface

/-- A path is a directory of the disk and no file of the index. -/
def IsDirectory (w : World) (u : ℤ) (physical p : Bytes) : Prop :=
  Library.Posix.lstat w.fs physical = .ok .dir ∧ ¬ FileAt w u p fun _ => True

/-- A directory has moved from `p` to `q`: the files below it with their references and path
keys, and its own entry. All other paths are as they were. -/
structure DirectoryMoved (env : Env) (w w' : World) (u : ℤ) (p q : Bytes) : Prop where
  files : ∀ r d n, r ≠ [] → (view env w).row (u, dirPrefix p ++ r) = some (.file d n) →
    (view env w').row (u, dirPrefix q ++ r) = some (.file d n) ∧
      (∀ d' n', (view env w').row (u, dirPrefix p ++ r) ≠ some (.file d' n')) ∧
      refMember u (dirPrefix q ++ r) ∈ w'.redis.sets (refsKey d) ∧
      refMember u (dirPrefix p ++ r) ∉ w'.redis.sets (refsKey d) ∧
      w'.redis.strings (pathKey u (dirPrefix q ++ r)) = d ∧
      w'.redis.strings (pathKey u (dirPrefix p ++ r)) = []
  entry : (view env w).row (u, p) = some .dir → (view env w').row (u, q) = some .dir
  others : ∀ v s, (v = u → s ≠ p ∧ s ≠ q ∧ ¬ dirPrefix p <+: s ∧ ¬ dirPrefix q <+: s) →
    (view env w').row (v, s) = (view env w).row (v, s) ∧
      w'.redis.strings (pathKey v s) = w.redis.strings (pathKey v s)

/-- What is below a directory is not the directory. -/
theorem below_ne (p : Bytes) {r : Bytes} (hr : r ≠ []) : dirPrefix p ++ r ≠ p := by
  intro h
  have hlen := congrArg List.length h
  rw [List.length_append] at hlen
  have hpos := List.length_pos_iff.mpr hr
  have hprefix : p.length ≤ (dirPrefix p).length := by
    unfold dirPrefix
    by_cases hp : p = []
    · simp [hp]
    · simp only [if_neg hp]
      split
      · exact Nat.le_refl _
      · simp
  omega

variable {env : Env} {w w' : World} {c : Connection} {session : UserSession}
  {source p dest q : Bytes}

/-- A rename of what is no indexed file moves one entry of the view, to a file. -/
theorem renameUserPath_other (hexact : env.dialect = Dialect.exact) (hw : Coherent env w)
    (hc : ConnOk env w c) (hissued : Issued env w c (.renameUserPath session source p dest q))
    (hfile : ¬ FileAt w session.userId p fun _ => True)
    (hrun : renameUserPath (backend env) session source p dest q w = (.ok (), w')) :
    ∃ n, view env w' = (view env w).moveOther (scheme env) (session.userId, p) (session.userId, q) n ∧
      (view env w).link (session.userId, p) = (scheme env).blank := by
  have hnone : ∀ d n, (view env w).row (session.userId, p) ≠ some (.file d n) := by
    intro d n hrow
    exact hfile ((fileAt_iff hexact hw.sound).mpr ⟨d, n, hrow, trivial⟩)
  have hlink : (view env w).link (session.userId, p) = (scheme env).blank := by
    rw [(hw.view hexact).link_eq scheme_blank]
    unfold RefStore.fileDigest
    split
    next d n hrow => exact absurd hrow (hnone d n)
    · rfl
  cases hissued with
  | renameUserPath hfrom hto hsource hdest =>
      obtain ⟨a, ha, rfl⟩ := hsource.userPath hw.sound hc
      obtain ⟨b, hb, rfl⟩ := hdest.userPath hw.sound hc
      unfold renameUserPath at hrun
      rw [bind_ok (lookupPlainFile_eq _ w)] at hrun
      cases hrow : (w.rows.find? (World.isRow env c.session.userId _)).filter fun r => !r.isDir with
      | some r => exact absurd (lookup_some hexact hrow).1 (hnone _ _)
      | none =>
          rw [hrow] at hrun
          dsimp only at hrun
          rcases renamePhysical_view hexact (u := c.session.userId) ha hb hw.sound _ _ with h | h
          · obtain ⟨w₁, w₂, n, -, hren, hview⟩ := h
            rw [hren, Prod.mk.injEq] at hrun
            exact ⟨n, hrun.2 ▸ hview, hlink⟩
          · obtain ⟨e, w₂, hren, -⟩ := h
            rw [hren] at hrun
            simp at hrun

/-- **Renaming a directory.** After a successful rename of a directory in a coherent store, its
contents have moved exactly if the index had no file below it and no entry for it. -/
theorem rename_moves_directory (hexact : env.dialect = Dialect.exact) (hw : Coherent env w)
    (hc : ConnOk env w c) (hissued : Issued env w c (.renameUserPath session source p dest q))
    (hdir : IsDirectory w session.userId source p)
    (hrun : renameUserPath (backend env) session source p dest q w = (.ok (), w')) :
    DirectoryMoved env w w' session.userId p q ↔
      (∀ r, r ≠ [] → ¬ FileAt w session.userId (dirPrefix p ++ r) fun _ => True) ∧
        (view env w).row (session.userId, p) ≠ some .dir := by
  obtain ⟨n, hmove, hlink⟩ := renameUserPath_other hexact hw hc hissued hdir.2 hrun
  have hdest : (view env w').row (session.userId, q) = some (.file (scheme env).blank n) := by
    rw [hmove]
    simp [RefStore.moveOther, hlink]
  have hrow : ∀ k, k ≠ (session.userId, p) → k ≠ (session.userId, q) →
      (view env w').row k = (view env w).row k := by
    intro k hp hq
    rw [hmove]
    simp [RefStore.moveOther, hp, hq]
  constructor
  · intro hmoved
    constructor
    · intro r hr hbelow
      obtain ⟨d, m, hd, -⟩ := (fileAt_iff hexact hw.sound).mp hbelow
      obtain ⟨-, hleft, -⟩ := hmoved.files r d m hr hd
      -- the file below is where it was, or what was moved is there
      by_cases hq : dirPrefix p ++ r = q
      · rw [hq] at hleft
        exact hleft _ _ hdest
      · apply hleft d m
        rw [hrow _ (by simp [below_ne p hr]) (by simp [hq]), hd]
    · intro hentry
      have hnow := hmoved.entry hentry
      rw [hdest] at hnow
      simp at hnow
  · rintro ⟨hbelow, hentry⟩
    refine ⟨?_, fun h => absurd h hentry, ?_⟩
    · intro r d m hr hd
      exact absurd ((fileAt_iff hexact hw.sound).mpr ⟨d, m, hd, trivial⟩) (hbelow r hr)
    · intro v s hs
      have hp : (v, s) ≠ (session.userId, p) := by
        intro h
        obtain ⟨rfl, rfl⟩ := Prod.mk.inj h
        exact (hs rfl).1 rfl
      have hq : (v, s) ≠ (session.userId, q) := by
        intro h
        obtain ⟨rfl, rfl⟩ := Prod.mk.inj h
        exact (hs rfl).2.1 rfl
      refine ⟨hrow _ hp hq, ?_⟩
      have hlinks : (view env w').link (v, s) = (view env w).link (v, s) := by
        rw [hmove]
        simp [RefStore.moveOther, hlink, hp]
      exact hlinks

/-! ## A directory of the sample user -/

/-- The rename of `/d` to `/e` on the connection `0`, carried out. -/
def renamed (s : ServerState) (c : Connection) : Except Exn Unit × World :=
  renameUserPath (backend Sample.env) c.session (str "/data/users/alice/d") (str "/d")
    (str "/data/users/alice/e") (str "/e") s.world

/-- The rename is what a request leads to, in a coherent store, of a directory. -/
structure Renames (s : ServerState) (c : Connection) : Prop where
  coherent : Coherent Sample.env s.world
  conn : ConnOk Sample.env s.world c
  issued : Issued Sample.env s.world c (.renameUserPath c.session (str "/data/users/alice/d")
    (str "/d") (str "/data/users/alice/e") (str "/e"))
  directory : IsDirectory s.world c.session.userId (str "/data/users/alice/d") (str "/d")
  succeeds : (renamed s c).1 = .ok ()

/-- Events after which the rename succeeds. -/
theorem sample_renames {es : List Event}
    (hallows : (Server.machine Sample.env).Allows (Avoids Sample.env (Unsettles Sample.env))
      (started Sample.env 4096 Sample.entropy) es)
    (hfacts : ∃ c ∈ (Sample.after es).conns 0, c.authed = true ∧
      (PathGuard.resolve (World.files Sample.env) c.session.rootDir (str "/d") true
        (Sample.after es).world).1 = .ok (str "/data/users/alice/d") ∧
      (PathGuard.resolve (World.files Sample.env) c.session.rootDir (str "/e") false
        (Sample.after es).world).1 = .ok (str "/data/users/alice/e") ∧
      Library.Posix.lstat (Sample.after es).world.fs (str "/data/users/alice/d") = .ok .dir ∧
      ¬ FileAt (Sample.after es).world c.session.userId (str "/d") (fun _ => True) ∧
      (renamed (Sample.after es) c).1 = .ok ()) :
    ∃ c ∈ (Sample.after es).conns 0, Renames (Sample.after es) c := by
  obtain ⟨c, hc, hauthed, hsource, hdest, hdir, hfile, hok⟩ := hfacts
  have hrun := playback_run hallows
  have hreads : ∀ path mustExist, (PathGuard.resolve (World.files Sample.env) c.session.rootDir path
      mustExist (Sample.after es).world).2 = (Sample.after es).world :=
    fun path mustExist => resolve_reads _ _ _ _
  refine ⟨c, hc, run_coherent rfl hrun, (run_safe hrun).conns 0 c hc, ?_, ⟨hdir, hfile⟩, hok⟩
  have hfrom : PathGuard.normalizeLogical (str "/d") = .ok (str "d") := by decide
  have hto : PathGuard.normalizeLogical (str "/e") = .ok (str "e") := by decide
  exact Issued.renameUserPath hfrom hto ⟨hauthed, true, Prod.ext hsource (hreads _ _)⟩
    ⟨hauthed, false, Prod.ext hdest (hreads _ _)⟩

/-- A directory is made, a file is uploaded to its path and removed again, which leaves the
directory on the disk. -/
def emptied : List Event :=
  Sample.login ++ [.frame 0 (request "mkdir" [("path", .str (str "/d"))])] ++
    Sample.uploadEmpty "/d" ++ [.frame 0 (request "rm" [("path", .str (str "/d"))])]

/-- The rename of a directory that the index does not know. -/
theorem rename_moves_emptied : ∃ s c, s.conns 0 = some c ∧
    DirectoryMoved Sample.env s.world (renamed s c).2 c.session.userId (str "/d") (str "/e") := by
  have hallows : (Server.machine Sample.env).Allows (Avoids Sample.env (Unsettles Sample.env))
      (started Sample.env 4096 Sample.entropy) emptied := by
    decide +kernel
  have hrows : (Sample.after emptied).world.rows = [] := by decide +kernel
  obtain ⟨c, hc, h⟩ := sample_renames hallows (by decide +kernel)
  generalize Sample.after emptied = s at hc h hrows
  have hmoved := rename_moves_directory rfl h.coherent h.conn h.issued h.directory
    (Prod.ext h.succeeds rfl)
  refine ⟨s, c, hc, hmoved.mpr ⟨?_, ?_⟩⟩
  · rintro r - ⟨row, hrow, -⟩
    rw [hrows] at hrow
    simp at hrow
  · simp [view, hrows]

/-- A directory is made, and a file uploaded to it. -/
def filled : List Event :=
  Sample.login ++ [.frame 0 (request "mkdir" [("path", .str (str "/d"))])] ++
    Sample.uploadEmpty "/d/a"

/-- The rename of a directory leaves the files below it behind. -/
theorem rename_leaves_files : ∃ s c, s.conns 0 = some c ∧ Renames s c ∧
    ¬ DirectoryMoved Sample.env s.world (renamed s c).2 c.session.userId (str "/d") (str "/e") := by
  have hallows : (Server.machine Sample.env).Allows (Avoids Sample.env (Unsettles Sample.env))
      (started Sample.env 4096 Sample.entropy) filled := by
    decide +kernel
  have hfile : ∃ c ∈ (Sample.after filled).conns 0, FileAt (Sample.after filled).world
      c.session.userId (dirPrefix (str "/d") ++ str "a") (fun _ => True) ∧
        ¬ FileAt (renamed (Sample.after filled) c).2 c.session.userId
          (dirPrefix (str "/e") ++ str "a") (fun _ => True) := by
    decide +kernel
  obtain ⟨c, hc, h⟩ := sample_renames hallows (by decide +kernel)
  generalize Sample.after filled = s at hc h hfile
  obtain ⟨c', hc', hbefore, hafter⟩ := hfile
  obtain rfl := Option.some.inj (hc.symm.trans hc')
  refine ⟨s, c, hc, h, fun hmoved => ?_⟩
  obtain ⟨d, n, hrow, -⟩ := (fileAt_iff rfl h.coherent.sound).mp hbefore
  obtain ⟨hnow, -⟩ := hmoved.files (str "a") d n (by decide) hrow
  obtain ⟨r, hr, hu, hp, hdir, -⟩ := mem_of_row rfl hnow
  exact hafter ⟨r, hr, hu, hp, hdir, trivial⟩

end CloudStore.Analysis
