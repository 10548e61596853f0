import CloudStore.Interface.Coherence
import CloudStore.Interface.FailingCommands

/-!
# Garbage collection and Redis failures

`cmdSCard` returns 0 for an error reply and for no reply, and `releaseContentRef` takes 0 for
"no reference left". So the object of a file of another path is unlinked when that command
fails, or when the set has lost its members before. The other commands do no harm of their
own: a failed GET makes the index decide which md5 is released, a failed SREM leaves the
count too high, and where there is no connection at all the release is given up.
-/

set_option autoImplicit false

namespace CloudStore.Analysis

open CloudStore.Library (Bytes)
open CloudStore.Model
open CloudStore.Model.TransferService
open CloudStore.Model.World (backend)
open CloudStore.Interface

/-- The world after a release of a path whose commands come out in a pattern, where `n`
commands have been issued before. -/
def released (env : Env) (outcome : ℕ → Outcome) (n : ℕ) (w : World) (u : ℤ) (p : Bytes) : World :=
  (releaseContentRef (failingRedis outcome (backend env)) u p (w, n)).2.1

/-- Another path than `p` of the user `u` has a row of the md5 `m`. -/
def UsedElsewhere (env : Env) (w : World) (u : ℤ) (p m : Bytes) : Prop :=
  ∃ r ∈ w.rows, World.isRow env u p r = false ∧ r.md5 = m

/-- The object of `m` is there before a release, and it is not behind it. -/
def Unlinked (env : Env) (w w' : World) (m : Bytes) : Prop :=
  World.object env w m ≠ none ∧ World.object env w' m = none

/-- **When a release spares what is used.** After a loss of any keys and whatever becomes of
the commands, it unlinks no object that another path uses, unless it collects one. -/
theorem release_spares_iff {env : Env} {w : World} (hw : Sound env w) (lost : Bytes → Bool)
    (outcome : ℕ → Outcome) (n : ℕ) (u : ℤ) (p : Bytes) {m : Bytes} (hm : Hex32 m) :
    (Unlinked env (forget lost w) (released env outcome n (forget lost w) u p) m →
        ¬ UsedElsewhere env (released env outcome n (forget lost w) u p) u p m) ↔
      (World.object env w m ≠ none → UsedElsewhere env w u p m →
        ¬ Collects env outcome n (forget lost w) u p m) := by
  obtain ⟨hothers, hobject⟩ := releaseContentRef_commands outcome n (u := u) (hw.forget lost) p
  obtain ⟨hgone, hkept⟩ := hobject m hm
  have hused : UsedElsewhere env (released env outcome n (forget lost w) u p) u p m ↔
      UsedElsewhere env w u p m := by
    constructor
    · rintro ⟨r, hr, hrow, hmd5⟩
      exact ⟨r, (hothers r hrow).mp hr, hrow, hmd5⟩
    · rintro ⟨r, hr, hrow, hmd5⟩
      exact ⟨r, (hothers r hrow).mpr hr, hrow, hmd5⟩
  have hunlinked : Unlinked env (forget lost w) (released env outcome n (forget lost w) u p) m ↔
      World.object env w m ≠ none ∧ Collects env outcome n (forget lost w) u p m := by
    constructor
    · rintro ⟨hthere, habsent⟩
      refine ⟨hthere, ?_⟩
      by_contra hnot
      exact hthere ((hkept hnot).symm.trans habsent)
    · rintro ⟨hthere, hcollects⟩
      exact ⟨hthere, hgone hcollects⟩
  rw [hused, hunlinked]
  exact ⟨fun h hthere hu hc => h ⟨hthere, hc⟩ hu, fun h hc hu => h hc.1 hu hc.2⟩

/-! ## A failed count -/

/-- An empty file at two paths. -/
def sharedContent : List Event :=
  Sample.login ++ Sample.uploadEmpty "/a" ++ Sample.uploadEmpty "/b"

/-- The store is coherent, and without the one reference there is another. -/
theorem shared_ready : Coherent Sample.env (Sample.after sharedContent).world ∧
    refsLeft Sample.env .served (forget (fun _ => false) (Sample.after sharedContent).world) 1 (str "/a")
      (Sample.md5Hex []) ≠ ∅ := by
  have hfacts : (Server.machine Sample.env).Allows (Avoids Sample.env (Unsettles Sample.env))
        (started Sample.env 4096 Sample.entropy) sharedContent ∧
      refsLeft Sample.env .served (forget (fun _ => false) (Sample.after sharedContent).world) 1 (str "/a")
        (Sample.md5Hex []) ≠ ∅ := by
    decide +kernel
  exact ⟨run_coherent rfl (playback_run hfacts.1), hfacts.2⟩

/-- With every command served and no key lost, the release of one of the two files spares
the object. -/
theorem release_spares_shared :
    ¬ (Unlinked Sample.env (forget (fun _ => false) (Sample.after sharedContent).world)
        (released Sample.env (fun _ => .served) 0
          (forget (fun _ => false) (Sample.after sharedContent).world) 1 (str "/a")) (Sample.md5Hex []) ∧
      UsedElsewhere Sample.env (released Sample.env (fun _ => .served) 0
        (forget (fun _ => false) (Sample.after sharedContent).world) 1 (str "/a")) 1 (str "/a")
          (Sample.md5Hex [])) := by
  obtain ⟨hw, hleft⟩ := shared_ready
  rintro ⟨hunlinked, hused⟩
  refine (release_spares_iff hw.sound (fun _ => false) (fun _ => .served) 0 1 (str "/a")
    (Sample.env.md5_hex [])).mpr ?_ hunlinked hused
  intro _ _ hcollects
  exact hleft (hcollects.counted rfl)

/-- The count is refused, and the object of a file that another path still has is gone. -/
theorem shared_unlinked : Coherent Sample.env (Sample.after sharedContent).world ∧
    Unlinked Sample.env (Sample.after sharedContent).world
      (released Sample.env (fun i => if i = 2 then .refused else .served) 0
        (Sample.after sharedContent).world 1 (str "/a")) (Sample.md5Hex []) ∧
    UsedElsewhere Sample.env (released Sample.env (fun i => if i = 2 then .refused else .served) 0
        (Sample.after sharedContent).world 1 (str "/a")) 1 (str "/a") (Sample.md5Hex []) := by
  have hfacts : Unlinked Sample.env (Sample.after sharedContent).world
      (released Sample.env (fun i => if i = 2 then .refused else .served) 0
        (Sample.after sharedContent).world 1 (str "/a")) (Sample.md5Hex []) ∧
    UsedElsewhere Sample.env (released Sample.env (fun i => if i = 2 then .refused else .served) 0
        (Sample.after sharedContent).world 1 (str "/a")) 1 (str "/a") (Sample.md5Hex []) := by
    unfold Unlinked UsedElsewhere
    decide +kernel
  exact ⟨shared_ready.1, hfacts⟩

end CloudStore.Analysis
