import CloudStore.Interface.Playback
import CloudStore.Interface.Sealed

/-!
# Content addressing

Every file at the path of an object has the md5 that the path names, whatever was uploaded
and however copies failed, and from the end of the request that made it its bytes stay.
-/

set_option autoImplicit false

namespace CloudStore.Analysis

open CloudStore.Library (Bytes)
open CloudStore.Library.Posix
open CloudStore.Model
open CloudStore.Model.World (objectPath backend)
open CloudStore.Interface

variable {env : Env} {w : World} {m : Bytes} {i : ℕ}

/-- The inode of the regular file at `objectPathFor(m)`, if there is one. -/
def objectFile (env : Env) (w : World) (m : Bytes) : Option ℕ :=
  match TransferService.objectPathFor (backend env) m with
  | .error _ => none
  | .ok path =>
    match lstat w.fs path with
    | .ok (.file i) => some i
    | _ => none

theorem objectFile_entry (hw : Sound env w) (hm : Hex32 m) (h : objectFile env w m = some i) :
    w.fs.entry (objectPath env m) = some (.file i) := by
  have hlen : ¬ m.length < 2 := by
    have := hm.1
    omega
  unfold objectFile lstat at h
  rw [objectPathFor_eq, if_neg hlen] at h
  cases hentry : w.fs.entry (objectPath env m) with
  | none =>
      obtain ⟨e, he⟩ := (node_object hw.links hm false).2 hentry
      simp [he, Except.map] at h
  | some x =>
      dsimp only at h
      rw [(node_object hw.links hm false).1 x hentry] at h
      cases x with
      | file j => simpa [Except.map] using h
      | dir => simp [Except.map] at h
      | link g => simp [Except.map] at h
      | special k => simp [Except.map] at h

/-- **Content addressing.** In every run in which MD5 is free of collisions, with any faults of
the disk: the file at the path of an object has the md5 of the object, and a file that was there
between any two earlier events still has the bytes that it had then. -/
theorem content_addressed
    {hist : List (Library.Machine.Record ServerState Event Output)} {s : ServerState}
    (run : (Server.machine env).Run (Server.Start env) (NoCollision env) hist s) :
    (∀ m i, Hex32 m → objectFile env s.world m = some i → env.md5Hex (s.world.fs.data i) = m) ∧
      ∀ newer r older, hist = newer ++ r :: older → ∀ m i, Hex32 m →
        objectFile env r.before.world m = some i → s.world.fs.data i = r.before.world.fs.data i := by
  constructor
  · intro m i hm hfile
    have hsafe := run_safe run
    obtain ⟨j, hj, hmd5⟩ := hsafe.world.objects m hm _ (objectFile_entry hsafe.world hm hfile)
    rw [Library.Node.file.injEq] at hj
    exact hj ▸ hmd5
  · intro newer r older hhist m i hm hfile
    have hmem : r ∈ hist := by
      rw [hhist]
      exact List.mem_append_right _ List.mem_cons_self
    obtain ⟨⟨_, before⟩, -, -⟩ := run.mem_history hmem
    have hsafe := run_safe before
    have hsealed := hsafe.sealed hm (objectFile_entry hsafe.world hm hfile)
    -- every event from there on spares the file
    have key := run.since (I := SealedIn env i (r.before.world.fs.data i))
      (fun _ _ _ run h hfree => step_seals (run_safe run) h hfree) hhist hsealed
    exact key.1.bytes

/-- A file is uploaded, and then a directory is made. -/
theorem content_addressed_mkdir :
    let s := Sample.after (Sample.login ++ Sample.uploadEmpty "/a")
    ∃ i, objectFile Sample.env s.world (Sample.md5Hex []) = some i ∧
      Sample.env.md5Hex (s.world.fs.data i) = Sample.md5Hex [] ∧
      (Server.step Sample.env s (.frame 0 (request "mkdir" [("path", .str (str "/b"))]))).1.world.fs.data
        i = s.world.fs.data i := by
  have hfacts : (Server.machine Sample.env).Allows (NoCollision Sample.env)
        (started Sample.env 4096 Sample.entropy) (Sample.login ++ Sample.uploadEmpty "/a") ∧
      NoCollision Sample.env (Sample.after (Sample.login ++ Sample.uploadEmpty "/a"))
        (.frame 0 (request "mkdir" [("path", .str (str "/b"))])) ∧
      Hex32 (Sample.md5Hex []) ∧
      (objectFile Sample.env (Sample.after (Sample.login ++ Sample.uploadEmpty "/a")).world
        (Sample.md5Hex [])).isSome := by
    decide +kernel
  obtain ⟨hallows, hfree, hhex, hthere⟩ := hfacts
  have hrun : (Server.machine Sample.env).Run (Server.Start Sample.env) (NoCollision Sample.env) _
    (Sample.after (Sample.login ++ Sample.uploadEmpty "/a")) := playback_run hallows
  clear hallows
  generalize Sample.after (Sample.login ++ Sample.uploadEmpty "/a") = s at *
  obtain ⟨i, hfile⟩ := Option.isSome_iff_exists.mp hthere
  have hnow := (content_addressed hrun).1 _ i hhex hfile
  have hlater := (content_addressed (hrun.step _ hfree)).2 [] _ _ rfl _ i hhex hfile
  exact ⟨i, hfile, hnow, hlater⟩

end CloudStore.Analysis
