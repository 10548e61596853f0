import CloudStore.Interface.FaultyCopy
import CloudStore.Interface.Playback

/-!
# Publishing is faithful

Reads and writes that fall short or fail, and a process that is stopped anywhere: what stands at
the destination is trusted by its length later on, and the length does not lie.
-/

set_option autoImplicit false

namespace CloudStore.Analysis

open CloudStore.Library
open CloudStore.Library.Posix
open CloudStore.Model
open CloudStore.Model.TransferService
open CloudStore.Interface

/-- The inode of a file, and its bytes. -/
theorem fileAt_inode {t : FileTree} {p : Path} {x : Bytes} (h : t.fileAt p = some x) :
    ∃ i, t.entry p = some (.file i) ∧ t.data i = x := by
  unfold FileTree.fileAt at h
  split at h
  next i hi => exact ⟨i, hi, Option.some.inj h⟩
  next => simp at h

/-- **Publishing is faithful and crash tolerant.** From a source with the bytes `x` and a
destination that is absent, or a file of another size: in whatever way calls fall short, fail or
do not come any more, a destination of the size of the source has its bytes. And where
`copyToObjectStore` throws after it has opened the destination, the destination is gone. -/
theorem publishing_faithful (env : Env) (w : World) (p : Path) (m x : Bytes)
    (hm₂ : Plain (m.take 2)) (hm : Plain m) (hsource : w.fs.fileAt p = some x)
    (hprior : w.fs.entry (World.objectPath env m) = none ∨
      ∃ y, w.fs.fileAt (World.objectPath env m) = some y ∧ y.length ≠ x.length)
    (hdirect : Direct w.fs (World.objectPath env m)) :
    (∀ faults, Faithful x (World.objectPath env m)
      (publishObject (faultyBackend env faults) m (render p) x.length (w, {})).2.1) ∧
    ∀ faults, faults.stop = none → ∀ e st,
      copyToObjectStore (faultyBackend env faults) (render p) (render (World.objectPath env m))
        x.length (w, {}) = (.error e, st) →
      st.2.opened = true → st.1.fs.entry (World.objectPath env m) = none := by
  obtain ⟨i, hi, hbytes⟩ := fileAt_inode hsource
  have hst : Prior x p (World.objectPath env m) i w := by
    refine ⟨hi, hbytes, fun y hy => ?_, hdirect⟩
    rcases hprior with hnone | ⟨z, hz, hlen⟩
    · simp [FileTree.fileAt, hnone] at hy
    · rw [hy] at hz
      exact Option.some.inj hz ▸ hlen
  constructor
  · intro faults
    have hfile : ∀ y, w.fs.entry (World.objectPath env m) = some y → ∃ j, y = .file j := by
      intro y hy
      rcases hprior with hnone | ⟨z, hz, -⟩
      · simp [hnone] at hy
      · obtain ⟨j, hj, -⟩ := fileAt_inode hz
        exact ⟨j, Option.some.inj (hy.symm.trans hj)⟩
    exact Action.meets_end.mp (@faulty_publish env faults x p i m w hm₂ hm hst hfile)
  · intro faults hstop e st hrun hopened
    have hcopy := @faulty_copy env faults x p _ i (w, {}) (publishPath_plain hm₂ hm) hst rfl
    unfold Action.Meets at hcopy
    rw [hrun] at hcopy
    exact hcopy.2 hstop hopened

namespace Sample

/-- A part file outside of the object store, which is not there yet. -/
def partTree : FileTree :=
  ((FileTree.bare 512).add [] (str "part") (.file 0) rfl rfl (by decide)
    (by simp [FileTree.bare])).write 0 (str "ab")

theorem partTree_noLinks : partTree.NoLinks := by
  intro r g
  simp only [partTree, FileTree.write_entry, FileTree.add_entry, FileTree.bare]
  by_cases hr : r = [] ++ [str "part"]
  · rw [hr, Function.update_self]
    simp
  · rw [Function.update_of_ne hr]
    split_ifs <;> simp

end Sample

/-- The first publication of an object. -/
theorem publishing_faithful_first :
    (∀ faults, Faithful (str "ab") (World.objectPath Sample.env (Sample.md5Hex (str "ab")))
      (publishObject (faultyBackend Sample.env faults) (Sample.md5Hex (str "ab"))
        (render [str "part"]) (str "ab").length
        ({ fs := Sample.partTree, entropy := Sample.entropy }, {})).2.1) ∧
    ∀ faults, faults.stop = none → ∀ e st,
      copyToObjectStore (faultyBackend Sample.env faults) (render [str "part"])
        (render (World.objectPath Sample.env (Sample.md5Hex (str "ab")))) (str "ab").length
        ({ fs := Sample.partTree, entropy := Sample.entropy }, {}) = (.error e, st) →
      st.2.opened = true →
        st.1.fs.entry (World.objectPath Sample.env (Sample.md5Hex (str "ab"))) = none :=
  publishing_faithful Sample.env { fs := Sample.partTree, entropy := Sample.entropy }
    [str "part"] (Sample.md5Hex (str "ab")) (str "ab") (by decide) (by decide) (by decide)
    (by decide) (direct_of_noLinks Sample.partTree_noLinks _)

end CloudStore.Analysis
