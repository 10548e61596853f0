import CloudStore.Interface.Playback

/-!
# No dangling file

A file of the index whose md5 is a digest has its object, of its size, and is among the
references to it. Two calls break this: an instant upload over a path that holds the only
reference to the very content that is uploaded, which removes the object before the path
refers to it again, and the rename of a path that is no file but has kept the path key of
one. Every run that avoids these calls keeps it.
-/

set_option autoImplicit false

namespace CloudStore.Analysis

open CloudStore.Library (Bytes RefStore)
open CloudStore.Model
open CloudStore.Model.RedisStore
open CloudStore.Model.World (files backend)
open CloudStore.Interface

variable (env : Env)

/-- Every file of the index with a digest has its object, of its size, and is counted. -/
def NoDangling (w : World) : Prop :=
  ∀ r ∈ w.rows, r.isDir = false → Hex32 r.md5 →
    (∃ x, World.object env w r.md5 = some x ∧ x.length = r.size) ∧
      refMember r.userId r.virtualPath ∈ w.redis.sets (refsKey r.md5)

/-- An instant upload that replaces the only reference to the content by itself. -/
def ReplacesItself (w : World) (session : UserSession) (p md5 : Bytes) (size offset : ℕ)
    (proof : Bytes) (overwrite : Bool) : Prop :=
  overwrite = true ∧ Hex32 md5 ∧ FileAt w session.userId p (fun _ => True) ∧
    (TransferService.releasedMd5 (backend env) session.userId p w).1 = .ok md5 ∧
    w.redis.sets (refsKey md5) ⊆ {refMember session.userId p} ∧
    (TransferService.checkProof (backend env) session md5 size offset proof w).1 = .ok ()

/-- The rename of a path that is no file of the index but has the path key of one. -/
def MovesStaleKey (w : World) (session : UserSession) (source p dest : Bytes) : Prop :=
  ¬ FileAt w session.userId p (fun _ => True) ∧ Hex32 (w.redis.strings (pathKey session.userId p)) ∧
    (FileManager.renamePath (files env) source dest w).1 = .ok ()

/-- The calls that leave a file dangling. -/
def Dangles (w : World) (_ : Connection) : Call → Prop
  | .instantUpload session _ p md5 size offset proof overwrite =>
    ReplacesItself env w session p md5 size offset proof overwrite
  | .renameUserPath session source p dest _ => MovesStaleKey env w session source p dest
  | _ => False

instance (w : World) (c : Connection) (call : Call) : Decidable (Dangles env w c call) :=
  match call with
  | .instantUpload .. => by dsimp only [Dangles, ReplacesItself, MovesStaleKey]; infer_instance
  | .renameUserPath .. => by dsimp only [Dangles, ReplacesItself, MovesStaleKey]; infer_instance
  | .registerUser .. | .login .. | .checkToken .. | .logout .. | .listDir .. | .statPath .. |
    .makeDir .. | .indexFile .. | .lookupFile .. | .listIndexed .. | .removeUserPath .. |
    .queryInstant .. | .closeUpload | .beginUpload .. | .writeChunk .. | .finishUpload .. |
    .closeDownload | .beginDownload .. | .readChunk .. =>
    inferInstanceAs (Decidable False)

variable {env} {w : World}

/-- What is backed in the view does not dangle. -/
theorem noDangling_of_backed (hexact : env.dialect = Dialect.exact) (hw : Sound env w)
    (h : (view env w).Backed (scheme env)) : NoDangling env w := by
  intro r hr hdir hm
  have hrow := row_of_mem hexact hw hr
  rw [entryOf, hdir] at hrow
  obtain ⟨⟨x, hx, hlen⟩, href⟩ := h _ _ _ hrow hm
  refine ⟨⟨x, ?_, hlen⟩, href⟩
  simpa only [view, if_pos hm] using hx

/-- **Every effect of a call that does not leave a file dangling keeps the files backed.** -/
theorem effect_backed (hexact : env.dialect = Dialect.exact) {c : Connection} {call : Call}
    {s' : RefStore (ℤ × Bytes) Bytes Bytes Bytes} (hw : Sound env w)
    (h : (view env w).Backed (scheme env)) (heffect : Effect env w c call s')
    (hfree : World.CollisionFree env w) (hcall : ¬ Dangles env w c call) :
    s'.Backed (scheme env) := by
  cases heffect with
  | same => exact h
  | mkdir u p status => exact h.mkdir _
  | remove session physical p => exact h.detach _
  | removeBelow session physical p hrow hdir =>
      exact RefStore.detachAll_keeps (P := fun s => s.Backed (scheme env))
        (fun _ k h => h.detach k) h _
  | removeDir session physical p hrow hdir =>
      exact RefStore.Backed.clear
        (RefStore.detachAll_keeps (P := fun s => s.Backed (scheme env))
        (fun _ k h => h.detach k) h _) _
  | moveFile session source p dest q hrow => exact h.moveFile hrow
  | moveOther session source p dest q n hrow hmove =>
      refine h.moveOther fun hlink => hcall ⟨?_, hlink, hmove⟩
      rw [fileAt_iff hexact hw]
      rintro ⟨d, n, hd, -⟩
      exact hrow d n hd
  | instant session dest p md5 size offset proof overwrite hproof hobj hcleared =>
      rcases hcleared with ⟨hover, hfile, rfl⟩ | ⟨-, rfl⟩
      · refine RefStore.Backed.attach (h.detach _) _ fun hm => ?_
        obtain ⟨x, hx, hlen⟩ := hobj hm
        refine ⟨x, ?_, hlen⟩
        rw [RefStore.detach_object, if_neg]
        · exact hx
        -- the object would be collected only if the path had the last reference to it
        rintro ⟨hrel, -, hempty⟩
        obtain ⟨d, n, hrow⟩ := hfile
        refine hcall ⟨hover, hm, (fileAt_iff hexact hw).mpr ⟨d, n, hrow, trivial⟩, ?_, ?_, hproof⟩
        · rw [hrel, releasedMd5_view hexact p]
        · intro r hr
          by_contra hne
          have hmem : r ∈ ((view env w).refs md5).erase ((scheme env).ref (session.userId, p)) :=
            Finset.mem_erase.mpr ⟨fun h => hne (Finset.mem_singleton.mpr h), hr⟩
          simp [hempty] at hmem
      · exact h.attach _ hobj
  | clearUpload session hopen hrow => exact h.detach _
  | @finish session hopen x s₁ hcleared hhex hdigest hlen hsame =>
      have hs₁ : s₁.Backed (scheme env) := by
        rcases hcleared with ⟨-, rfl⟩ | ⟨-, rfl⟩
        · exact h.detach _
        · exact h
      refine RefStore.Backed.attach (RefStore.Backed.publish hs₁ (hsame hfree)) _ fun _ => ⟨x, ?_, hlen⟩
      simp [RefStore.publish]
  | lose session hopen hcollide => exact absurd hfree hcollide

/-- **No dangling file.** In every run without collisions whose calls neither replace the only
reference to a content by itself nor move a stale path key, no file dangles. -/
theorem no_dangling (hexact : env.dialect = Dialect.exact)
    {hist : List (Library.Machine.Record ServerState Event Output)} {s : ServerState}
    (run : (Server.machine env).Run (Server.Start env)
      (fun s e => NoCollision env s e ∧ Avoids env (Dangles env) s e) hist s) :
    NoDangling env s.world := by
  have run' := run.mono (Q := Avoids env fun w c call =>
    ¬ World.CollisionFree env w ∨ Dangles env w c call) fun s e h r hr hbad =>
      hbad.elim (fun hcollide => hcollide (h.1 r hr)) (h.2 r hr)
  have key := run_view (I := fun s => s.Backed (scheme env)) hexact RefStore.Backed.empty
    (fun w c call s' hw h heffect hcall => effect_backed hexact hw h heffect
      (not_not.mp fun hcollide => hcall (Or.inl hcollide)) fun hbad => hcall (Or.inr hbad)) run'
  exact noDangling_of_backed hexact key.1.world key.2

/-- The run of an upload. -/
theorem no_dangling_upload :
    NoDangling Sample.env (Sample.after (Sample.login ++ Sample.uploadEmpty "/a")).world :=
  no_dangling rfl (playback_run (by decide +kernel))

/-- An instant upload over the only file with the same content leaves the file dangling. -/
theorem dangling_instant_upload : ∃ hist s,
    (Server.machine Sample.env).Run (Server.Start Sample.env) (NoCollision Sample.env) hist s ∧
      ¬ NoDangling Sample.env s.world := by
  let es := Sample.login ++ Sample.uploadEmpty "/a" ++ Sample.instantEmpty "/a"
  have h : (Server.machine Sample.env).Allows (NoCollision Sample.env)
        (started Sample.env 4096 Sample.entropy) es ∧
      ∃ r ∈ (Sample.after es).world.rows, r.isDir = false ∧ Hex32 r.md5 ∧
        World.object Sample.env (Sample.after es).world r.md5 = none := by
    decide +kernel
  obtain ⟨hrun, r, hr, hdir, hhex, hnone⟩ := h
  refine ⟨_, _, playback_run hrun, fun hdangling => ?_⟩
  obtain ⟨⟨x, hx, -⟩, -⟩ := hdangling r hr hdir hhex
  rw [hnone] at hx
  exact absurd hx (by simp)

end CloudStore.Analysis
