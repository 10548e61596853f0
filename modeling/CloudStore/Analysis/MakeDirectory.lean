import CloudStore.Interface.Coherence
import CloudStore.Interface.Directories
import CloudStore.Interface.Requests

/-!
# Making a directory

`mkdir` looks for its path on the disk only, where an indexed file need not be, and then writes
the row of the directory over the one of the path. So it keeps the files of its user if and
only if it is refused, or the path is no indexed file.
-/

set_option autoImplicit false

namespace CloudStore.Analysis

open CloudStore.Library (Bytes FileTree Name Path Plain)
open CloudStore.Library.Action (bind_apply bind_ok bind_error)
open CloudStore.Library.Posix
open CloudStore.Model
open CloudStore.Model.Connection
open CloudStore.Model.World (backend files)
open CloudStore.Interface

/-- A text names a free name of a directory. -/
def Creatable (t : FileTree) (s : Bytes) : Prop :=
  ∃ d n, s = render (d ++ [n]) ∧ (∀ m ∈ d ++ [n], Plain m) ∧ t.entry d = some .dir ∧
    t.entry (d ++ [n]) = none

/-- Every row of a file of the user is still there. -/
def KeepsFiles (u : ℤ) (w w' : World) : Prop :=
  ∀ r ∈ w.rows, r.userId = u → r.isDir = false → r ∈ w'.rows

variable {env : Env} {t : Turn World} {root : Json} {seq : ℕ} {path phys norm : Bytes}

/-- What is made on the disk is a free name. -/
theorem creatable_of_mkdir {w : World} {p : Path} (h : Grounded w.fs p) {t' : FileTree}
    (hmk : mkdir w.fs (render p) = .ok t') : Creatable w.fs (render p) := by
  unfold mkdir at hmk
  cases hvac : vacancy w.fs false (render p) with
  | error e => simp [hvac] at hmk
  | ok dn =>
      obtain ⟨d, n⟩ := dn
      obtain rfl := h.locate (vacancy_ok hvac)
      simp only [hvac] at hmk
      split_ifs at hmk with hfree hdir
      exact ⟨d, n, rfl, h.plain, hdir.1, hfree⟩

/-- A free name is made a directory. -/
theorem mkdir_of_creatable {w : World} (hw : Sound env w) (h : Creatable w.fs phys) :
    ∃ t', mkdir w.fs phys = .ok t' := by
  obtain ⟨d, n, rfl, hplain, hdir, hfree⟩ := h
  obtain ⟨t', hmk, -⟩ := mkdir_free hw.links hplain hdir hfree
  exact ⟨t', hmk⟩

theorem makeDir_run {w : World} : (FileManager.makeDir (backend env).files phys w).2.rows = w.rows ∧
    ((∃ t', mkdir w.fs phys = .ok t') ↔
      (FileManager.makeDir (backend env).files phys w).1 = .ok ()) := by
  unfold FileManager.makeDir
  rw [bind_apply]
  simp only [World.backend_files, files, World.fileCall, Library.Action.move_apply]
  cases hmk : mkdir w.fs phys with
  | ok t' => exact ⟨rfl, iff_of_true ⟨t', rfl⟩ rfl⟩
  | error e =>
      dsimp only
      split
      · exact ⟨rfl, iff_of_false (by simp) (by simp [fail])⟩
      · exact ⟨rfl, iff_of_false (by simp) (by simp [fail])⟩

/-- A refused request leaves the rows. -/
theorem onMkdir_refused (hauthed : t.conn.authed = true) (hroot : AsksFor root "" path)
    (h : ∀ phys, PathGuard.resolve (files env) t.conn.session.rootDir path false t.sys =
      (.ok phys, t.sys) → ∀ t', mkdir t.sys.fs phys ≠ .ok t') :
    (onMkdir (backend env) root seq t).2.sys.rows = t.sys.rows := by
  have hreads : (PathGuard.resolve (files env) t.conn.session.rootDir path false t.sys).2 = t.sys :=
    resolve_reads _ _ _ _
  unfold onMkdir
  rw [asked_run hauthed hroot]
  rcases hresolve : PathGuard.resolve (files env) t.conn.session.rootDir path false t.sys with
    ⟨e | phys, w'⟩
  · obtain rfl : w' = t.sys := (congrArg Prod.snd hresolve).symm.trans hreads
    rw [unresolved_run hauthed hresolve]
  · obtain rfl : w' = t.sys := (congrArg Prod.snd hresolve).symm.trans hreads
    obtain ⟨hrows, hok⟩ := @makeDir_run env phys t.sys
    rw [resolved_run hauthed hresolve]
    rcases hmake : FileManager.makeDir (backend env).files phys t.sys with ⟨e | x, w'⟩
    · rw [called_error hmake]
      rw [hmake] at hrows
      exact hrows
    · rw [hmake] at hok
      obtain ⟨t', hmk⟩ := hok.mpr rfl
      exact absurd hmk (h phys hresolve t')

/-- A request that is carried out writes the row of the directory. -/
theorem onMkdir_made (hexact : env.dialect = Dialect.exact) (hauthed : t.conn.authed = true)
    (hroot : AsksFor root "" path) (hnorm : PathGuard.normalizeLogical path = .ok norm)
    (hphys : PathGuard.resolve (files env) t.conn.session.rootDir path false t.sys =
      (.ok phys, t.sys)) (hmk : ∃ t', mkdir t.sys.fs phys = .ok t') :
    (onMkdir (backend env) root seq t).2.sys.rows = World.upsertRow env t.sys.rows
      ⟨t.conn.session.userId, str "/" ++ norm, [], 0, true, str "ready"⟩ := by
  obtain ⟨hrows, hok⟩ := @makeDir_run env phys t.sys
  unfold onMkdir
  rw [asked_run hauthed hroot, resolved_run hauthed hphys]
  rcases hmake : FileManager.makeDir (backend env).files phys t.sys with ⟨r, w'⟩
  rw [hmake] at hrows hok
  obtain rfl : r = .ok () := hok.mp hmk
  rw [called_ok hmake, hnorm]
  show ((record (.indexFile t.conn.session.userId (str "/" ++ norm) [] 0 true (str "ready")) >>=
    fun _ => system (TransferService.indexFile (backend env) t.conn.session.userId
      (str "/" ++ norm) [] 0 true (str "ready")) >>= fun _ => sendOk seq (.obj [])) _).2.sys.rows = _
  rcases @indexFile_eq env t.conn.session.userId (str "/" ++ norm) [] 0 true (str "ready") w' with
    ⟨kept, hkept, hindex⟩ | ⟨hnone, -⟩
  · rw [hexact] at hkept
    obtain rfl : [] = kept := Option.some.inj hkept
    rw [called_ok hindex, sendOk_sys, ← hrows]
  · rw [hexact] at hnone
    exact absurd hnone (by simp [Dialect.exact])

section

variable (hexact : env.dialect = Dialect.exact) {w w' : World} {u : ℤ}
include hexact

/-- The row of a directory keeps the files of a user unless its path is one of them. -/
theorem keepsFiles_upsert {status : Bytes}
    (hrows : w'.rows = World.upsertRow env w.rows ⟨u, path, [], 0, true, status⟩) :
    KeepsFiles u w w' ↔ ¬ FileAt w u path fun _ => True := by
  constructor
  · rintro hkeeps ⟨r, hr, hu, hp, hdir, -⟩
    have hthere := hkeeps r hr hu hdir
    have hself : World.isDuplicate env ⟨u, path, [], 0, true, status⟩ r = true := by
      rw [isDuplicate_exact hexact, isRow_exact hexact]
      exact ⟨hu, hp⟩
    rw [hrows, World.upsertRow, if_pos (List.any_eq_true.mpr ⟨r, hr, hself⟩)] at hthere
    obtain ⟨old, hold, heq⟩ := List.mem_map.mp hthere
    split at heq
    · exact absurd hdir (by simp [← heq])
    next hother =>
      rw [heq] at hother
      exact hother hself
  · intro hfree r hr hu hdir
    rw [hrows]
    unfold World.upsertRow
    have hother : World.isDuplicate env ⟨u, path, [], 0, true, status⟩ r = false := by
      rw [isDuplicate_exact hexact, Bool.eq_false_iff, ne_eq, isRow_exact hexact]
      rintro ⟨-, hp⟩
      exact hfree ⟨r, hr, hu, hp, hdir, trivial⟩
    split
    · apply List.mem_map.mpr
      refine ⟨r, hr, ?_⟩
      rw [hother]
      rfl
    · exact List.mem_append_left _ hr

end

/-- **`mkdir` keeps the files of its user** if and only if its path names no free name of a
directory of the disk, or is no indexed file. -/
theorem mkdir_keeps_files_iff (hexact : env.dialect = Dialect.exact) (hw : Coherent env t.sys)
    (hauthed : t.conn.authed = true) (hroot : AsksFor root "" path) (seq : ℕ) :
    KeepsFiles t.conn.session.userId t.sys (onMkdir (backend env) root seq t).2.sys ↔
      ∀ phys norm, PathGuard.normalizeLogical path = .ok norm →
        PathGuard.resolve (files env) t.conn.session.rootDir path false t.sys = (.ok phys, t.sys) →
        Creatable t.sys.fs phys →
        ¬ FileAt t.sys t.conn.session.userId (str "/" ++ norm) fun _ => True := by
  constructor
  · intro hkeeps phys norm hnorm hphys hfree
    have hrows := @onMkdir_made env t root seq path phys norm hexact hauthed hroot hnorm hphys
      (mkdir_of_creatable hw.sound hfree)
    exact (keepsFiles_upsert hexact hrows).mp hkeeps
  · intro hcond
    by_cases hmade : ∃ phys, PathGuard.resolve (files env) t.conn.session.rootDir path false t.sys =
        (.ok phys, t.sys) ∧ ∃ t', mkdir t.sys.fs phys = .ok t'
    · obtain ⟨phys, hphys, t', hmk⟩ := hmade
      obtain ⟨norm, hnorm⟩ := resolve_normal hphys
      obtain ⟨-, root', p, -, -, hground, -, rfl⟩ := resolve_spec env hphys
      apply (keepsFiles_upsert hexact
        (onMkdir_made hexact hauthed hroot hnorm hphys ⟨t', hmk⟩)).mpr
      exact hcond _ norm hnorm hphys (creatable_of_mkdir hground hmk)
    · intro r hr _ _
      rw [onMkdir_refused hauthed hroot fun phys hphys t' hmk => hmade ⟨phys, hphys, t', hmk⟩]
      exact hr

/-! ## Directories of the sample user -/

/-- A request for a path. -/
def pathRequest (cmd path : String) : Json :=
  .obj [(str "cmd", .str (str cmd)), (str "data", .obj [(str "path", .str (str path))]),
    (str "seq", .int 1)]

theorem pathRequest_asks (cmd path dflt : String) : AsksFor (pathRequest cmd path) dflt (str path) :=
  ⟨.obj [(str "path", .str (str path))], rfl, rfl⟩

/-- The connection `0` asks for a directory. -/
def making (s : ServerState) (c : Connection) (path : String) : World :=
  (onMkdir (backend Sample.env) (pathRequest "mkdir" path) 1 { sys := s.world, conn := c }).2.sys

/-- A user has uploaded a file to `/a`. -/
def uploaded : List Event := Sample.login ++ Sample.uploadEmpty "/a"

theorem uploaded_coherent : Coherent Sample.env (Sample.after uploaded).world := by
  have hallows : (Server.machine Sample.env).Allows (Avoids Sample.env (Unsettles Sample.env))
      (started Sample.env 4096 Sample.entropy) uploaded := by
    decide +kernel
  exact run_coherent rfl (playback_run hallows)

/-- A directory beside the file. -/
theorem mkdir_keeps_files_beside : ∃ c, (Sample.after uploaded).conns 0 = some c ∧
    KeepsFiles c.session.userId (Sample.after uploaded).world
      (making (Sample.after uploaded) c "/b") := by
  have hfacts : ∃ c ∈ (Sample.after uploaded).conns 0, c.authed = true ∧
      ¬ FileAt (Sample.after uploaded).world c.session.userId (str "/b") (fun _ => True) := by
    decide +kernel
  have hcoherent := uploaded_coherent
  generalize Sample.after uploaded = s at hfacts hcoherent
  obtain ⟨c, hc, hauthed, hfree⟩ := hfacts
  refine ⟨c, hc, (mkdir_keeps_files_iff (t := { sys := s.world, conn := c }) rfl hcoherent hauthed
    (pathRequest_asks "mkdir" "/b" "") 1).mpr ?_⟩
  intro phys norm hnorm _ _
  have hb : PathGuard.normalizeLogical (str "/b") = .ok (str "b") := by decide
  obtain rfl := Except.ok.inj (hb.symm.trans hnorm)
  exact hfree

/-- A directory in the place of the file. -/
theorem mkdir_loses_file : ∃ c, (Sample.after uploaded).conns 0 = some c ∧ c.authed = true ∧
    Coherent Sample.env (Sample.after uploaded).world ∧
    ¬ KeepsFiles c.session.userId (Sample.after uploaded).world
      (making (Sample.after uploaded) c "/a") := by
  have hfacts : ∃ c ∈ (Sample.after uploaded).conns 0, c.authed = true ∧
      FileAt (Sample.after uploaded).world c.session.userId (str "/a") (fun _ => True) ∧
      ¬ FileAt (making (Sample.after uploaded) c "/a") c.session.userId (str "/a")
        (fun _ => True) := by
    decide +kernel
  obtain ⟨c, hc, hauthed, ⟨r, hr, hu, hp, hdir, -⟩, hgone⟩ := hfacts
  refine ⟨c, hc, hauthed, uploaded_coherent, ?_⟩
  intro hkeeps
  exact hgone ⟨r, hkeeps r hr hu hdir, hu, hp, hdir, trivial⟩

end CloudStore.Analysis
