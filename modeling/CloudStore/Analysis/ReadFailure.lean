import CloudStore.Interface.FailingReads

/-!
# A failed read and an absent file

`lookupFile` answers "not found" when its SELECT statement fails. Where a path holds a file
and other statements fail in any pattern, the first statement of an operation decides alone:
an instant upload that must not overwrite goes through, and an upload or a removal leaves
the reference of the old content, exactly if that one fails.
-/

set_option autoImplicit false

namespace CloudStore.Analysis

open CloudStore.Library (Bytes Path)
open CloudStore.Library.Posix (render)
open CloudStore.Model
open CloudStore.Model.RedisStore
open CloudStore.Model.TransferService
open CloudStore.Model.World (backend)
open CloudStore.Interface

variable (env : Env) (w : World) (session : UserSession) (p d : Bytes) (fails : ℕ → Bool) (n : ℕ)

/-- When operations on the path `p` with the content `d` take a failure for absence. `n`
SELECT statements have been executed before, and `fails` says which ones fail. -/
structure FailureDecides : Prop where
  /-- An instant upload without overwriting succeeds. -/
  conflict : ∀ {dest : Path}, UserPath env dest → ∀ md5 size proofOffset proofMd5,
    ((instantUpload (failingSelects fails (backend env)) session (render dest) p md5 size
        proofOffset proofMd5 false (w, n)).1 = .ok () ↔
      fails n = true ∧ Vacant w (render dest) ∧
        checkProof (backend env) session md5 size proofOffset proofMd5 w = (.ok (), w))
  /-- A successful instant upload leaves the reference of the old content. -/
  instant : ∀ {dest : Path}, UserPath env dest → ∀ {md5 size proofOffset proofMd5 overwrite w' n'},
    instantUpload (failingSelects fails (backend env)) session (render dest) p md5 size
        proofOffset proofMd5 overwrite (w, n) = (.ok (), (w', n')) → d ≠ md5 →
      (refMember session.userId p ∈ w'.redis.sets (refsKey d) ↔ fails n = true)
  /-- A finished upload leaves it. -/
  finish : ∀ {st st' : UploadSession} {fd w' n'}, st.fd = some fd → OpenUpload env w st fd →
    st.virtualPath = p →
    finishUpload (failingSelects fails (backend env)) session ((w, n), st) =
      (.ok (), ((w', n'), st')) → d ≠ st.md5 →
      (refMember session.userId p ∈ w'.redis.sets (refsKey d) ↔ fails n = true)
  /-- A removal leaves it. -/
  remove : ∀ {physical : Path}, UserPath env physical → ∀ {w' n'},
    removeUserPath (failingSelects fails (backend env)) session (render physical) p (w, n) =
        (.ok (), (w', n')) →
      (refMember session.userId p ∈ w'.redis.sets (refsKey d) ↔
        fails n = true ∧ Library.Posix.lstat w.fs (render physical) = .ok .dir ∧
          env.dialect.like p (dirPrefix p ++ str "%") = false)

variable {env w p d}

/-- **The first read of an operation decides** whether it takes a failure for absence. -/
theorem first_read_decides (hexact : env.dialect = Dialect.exact) (hw : Coherent env w)
    (hfile : FileAt w session.userId p fun m => m = d) :
    FailureDecides env w session p d fails n := by
  have hold := coherent_holds hexact hw hfile
  constructor
  · intro dest hdest md5 size proofOffset proofMd5
    obtain ⟨r, w', hrun, hok, -⟩ := instantUpload_failing fails n hexact hdest hold md5 size
      proofOffset proofMd5 false
    rw [hrun]
    refine hok.trans ⟨?_, ?_⟩
    · rintro ⟨hproof, hover | ⟨hfails, hvacant⟩⟩
      · exact absurd hover (by decide)
      · exact ⟨hfails, hvacant, hproof⟩
    · rintro ⟨hfails, hvacant, hproof⟩
      exact ⟨hproof, Or.inr ⟨hfails, hvacant⟩⟩
  · intro dest hdest md5 size proofOffset proofMd5 overwrite w' n' hrun hd
    obtain ⟨r, w₁, hrun₁, -, hmem⟩ := instantUpload_failing fails n hexact hdest hold md5 size
      proofOffset proofMd5 overwrite
    rw [hrun] at hrun₁
    cases hrun₁
    exact hmem rfl hd
  · rintro st st' fd w' n' hfd hopen rfl hrun hd
    exact finishUpload_failing fails n hexact hw hfd hopen hfile hrun hd
  · intro physical hphys w' n' hrun
    exact removeUserPath_failing fails n hexact hphys hw hfile hrun

/-! ## A lost connection -/

/-- An empty file, and a challenge for the empty content. -/
def queried : List Event :=
  Sample.login ++ Sample.uploadEmpty "/a" ++ (Sample.instantEmpty "/a").dropLast

/-- The store is coherent, the path `/a` holds a file, and the user has a challenge. -/
theorem queried_ready : Coherent Sample.env (Sample.after queried).world ∧
    FileAt (Sample.after queried).world 1 (str "/a") fun m => m = Sample.md5Hex [] := by
  have hfacts : (Server.machine Sample.env).Allows (Avoids Sample.env (Unsettles Sample.env))
        (started Sample.env 4096 Sample.entropy) queried ∧
      FileAt (Sample.after queried).world 1 (str "/a") fun m => m = Sample.md5Hex [] := by
    decide +kernel
  exact ⟨run_coherent rfl (playback_run hfacts.1), hfacts.2⟩

/-- With every read failing, a removal of the file leaves its reference if there is a
directory at its place. -/
theorem first_read_decides_queried : ∃ w, FileAt w 1 (str "/a") (fun m => m = Sample.md5Hex []) ∧
    FailureDecides Sample.env w { userId := 1 } (str "/a") (Sample.md5Hex []) (fun _ => true) 0 := by
  obtain ⟨hw, hfile⟩ := queried_ready
  exact ⟨_, hfile, first_read_decides { userId := 1 } (fun _ => true) 0 rfl hw hfile⟩

/-- The first read fails, and an instant upload that must not overwrite succeeds over the
file. -/
theorem conflict_unseen : ∃ c ∈ (Sample.after queried).conns 0,
    Coherent Sample.env (Sample.after queried).world ∧
      FileAt (Sample.after queried).world c.session.userId (str "/a")
        (fun m => m = Sample.md5Hex []) ∧
      (instantUpload (failingSelects (fun n => n == 0) (backend Sample.env)) c.session
        (str "/data/users/alice/a") (str "/a") (Sample.md5Hex []) 0 0 [] false
        ((Sample.after queried).world, 0)).1 = .ok () := by
  have hfacts : ∃ c ∈ (Sample.after queried).conns 0, c.session.userId = 1 ∧
      (instantUpload (failingSelects (fun n => n == 0) (backend Sample.env)) c.session
        (str "/data/users/alice/a") (str "/a") (Sample.md5Hex []) 0 0 [] false
        ((Sample.after queried).world, 0)).1 = .ok () := by
    decide +kernel
  obtain ⟨hw, hfile⟩ := queried_ready
  obtain ⟨c, hc, huser, hrun⟩ := hfacts
  rw [← huser] at hfile
  exact ⟨c, hc, hw, hfile, hrun⟩

end CloudStore.Analysis
