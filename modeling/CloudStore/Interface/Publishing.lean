import CloudStore.Interface.Coherence
import CloudStore.Interface.Downloads

/-!
# Uploads without faults

A disk without faults lets every copy through. So from a coherent store the commit of an
upload whose part file passes the checks succeeds, whatever the path held before, and its
effect on the view is known.
-/

set_option autoImplicit false

namespace CloudStore.Interface

open CloudStore.Library (Bytes Path Plain FileTree Keeps Sheds Entry RefStore Action)
open CloudStore.Library.Action (bind_ok)
open CloudStore.Library.Posix
open CloudStore.Model
open CloudStore.Model.RedisStore
open CloudStore.Model.TransferService
open CloudStore.Model.World (objectPath objectsDir files backend)

variable {env : Env} {u : ℤ} {w w' : World}

/-! ## Faults of a copy -/

theorem putDown_faultless {pos n : ℕ} (h : pos + n < 2 ^ 63) :
    putDown (fun _ => none) pos n = n := by
  unfold putDown
  rw [if_neg (not_not.mpr h)]

theorem writesThrough_faultless {pos n : ℕ} (h : pos + n < 2 ^ 63) :
    writesThrough (fun _ => none) n pos n = true := by
  cases n with
  | zero => rfl
  | succ n =>
      rw [writesThrough, putDown_faultless h, Nat.sub_self]
      cases n <;> simp [writesThrough]

/-- A disk without faults lets every copy through, up to the largest offset. -/
theorem copiesThrough_faultless {bufSize size fuel pos : ℕ} (hbuf : bufSize ≠ 0)
    (hsize : size < 2 ^ 63) (hpos : pos ≤ size) (hfuel : size - pos < fuel) :
    copiesThrough (fun _ => false) (fun _ => none) bufSize size fuel pos = true := by
  induction fuel generalizing pos with
  | zero => omega
  | succ fuel ih =>
      have hlt : pos < 2 ^ 63 := by omega
      rw [copiesThrough, writesThrough_faultless (by omega), decide_eq_true hlt]
      by_cases hend : size ≤ pos
      · simp [hend]
      · rw [ih (by omega) (by omega)]
        simp

/-- Nothing stands in the way of an object of `size` bytes under `m`: the disk is without
faults, offsets reach that far, and the directory of the object can be made. -/
structure Publishable (env : Env) (w : World) (m : Bytes) (size : ℕ) : Prop where
  disk : w.disk = {}
  fits : size < 2 ^ 63
  room : Open w.fs (objectsDir env ++ [m.take 2])

theorem Publishable.copies {m : Bytes} {size : ℕ} (h : Publishable env w m size) {p : Path} {x : Bytes}
    (hx : w.fs.fileAt p = some x) : ¬ CopyFault env w p m size := by
  rintro (hnone | hclosed | ⟨i, j, hthrough⟩)
  · rw [hx] at hnone
    simp at hnone
  · exact hclosed h.room
  · apply hthrough
    unfold Through
    rw [h.disk]
    refine copiesThrough_faultless ?_ h.fits (Nat.zero_le _) (by omega)
    split
    next hne => exact hne
    · decide

/-- Where directories could be made, they still can after entries were taken away. -/
theorem Open.shed {t t' : FileTree} {p : Path} (h : Open t p) (hshed : Sheds t t') : Open t' p := by
  intro q hq
  cases hshed.entry q with
  | inl hsame =>
      rw [hsame]
      exact h q hq
  | inr hnone => exact Or.inl hnone

/-- The checks of `commitUpload` see the bytes of the part file. -/
theorem checks_see {st : UploadSession} (hl : w.fs.NoLinks) {p : Path} {x : Bytes}
    (hp : st.partPath = render p) (hx : w.fs.fileAt p = some x) :
    fileSize (files env) st.partPath w = (.ok x.length, w) ∧
      md5File (backend env) st.partPath w = (.ok (env.md5Hex x), w) := by
  cases he : w.fs.entry p with
  | none => simp [FileTree.fileAt, he] at hx
  | some y =>
      cases y with
      | file i =>
          simp only [FileTree.fileAt, he, Option.some.injEq] at hx
          subst hx
          have hplain := w.fs.plain_of_entry (p := p) (by simp [he])
          have hnode := (@node_render _ true hl _ hplain).1 _ he
          rw [hp]
          constructor
          · simp [fileSize, files, Action.bind_apply, stat, hnode, Except.map, World.fileStat,
              Library.Posix.sizeOf]
          · have hread : (files env).openRead (render p) w = (.ok (.ok (.file i)), w) := by
              simp [files, openRead, stat, hnode, Except.map]
            unfold md5File
            rw [World.backend_files, bind_ok hread]
            simp [files, Action.bind_apply]
      | dir => simp [FileTree.fileAt, he] at hx
      | link g => simp [FileTree.fileAt, he] at hx
      | special k => simp [FileTree.fileAt, he] at hx

/-! ## What the clearing of the destination leaves -/

/-- What an upload needs of the tree and the disk is left: an entry of part files. -/
structure Leaves (p : Path) (w w' : World) : Prop where
  disk : w'.disk = w.disk
  sheds : Sheds w.fs w'.fs
  entry : w'.fs.entry p = w.fs.entry p

theorem Leaves.refl (p : Path) (w : World) : Leaves p w w := ⟨rfl, Sheds.refl w.fs, rfl⟩

theorem Leaves.fileAt {p : Path} (h : Leaves p w w') : w'.fs.fileAt p = w.fs.fileAt p := by
  unfold FileTree.fileAt
  rw [h.entry, h.sheds.data]

theorem Leaves.publishable {p : Path} {m : Bytes} {size : ℕ} (h : Leaves p w w')
    (hfault : Publishable env w m size) : Publishable env w' m size where
  disk := h.disk.trans hfault.disk
  fits := hfault.fits
  room := hfault.room.shed h.sheds

/-- Of a digest that is an md5, `releaseContentRef` removes the object and no other file. -/
theorem releaseContentRef_leaves (hexact : env.dialect = Dialect.exact) (hw : Sound env w)
    {q : Bytes} (hm : Hex32 ((view env w).released (scheme env) (u, q))) {p : Path}
    (hp : ∀ m, p ≠ objectPath env m) :
    Leaves p w (releaseContentRef (backend env) u q w).2 := by
  have hsheds := @releaseContentRef_shed env u q w
  suffices hkeeps : (releaseContentRef (backend env) u q w).2.disk = w.disk ∧
      (releaseContentRef (backend env) u q w).2.fs.entry p = w.fs.entry p from
    ⟨hkeeps.1, hsheds, hkeeps.2⟩
  clear hsheds
  unfold releaseContentRef
  rw [bind_ok (releasedMd5_view hexact q)]
  generalize (view env w).released (scheme env) (u, q) = m at hm ⊢
  have hne : m ≠ [] := by
    rintro rfl
    exact absurd hm.1 (by decide)
  simp only [ne_eq, hne, not_false_eq_true, if_true, World.backend_redis]
  rw [bind_ok (removeRef_eq m q w)]
  split
  · obtain ⟨t, hcollect, -, hentry⟩ := collectObject_gone hexact
      (hw.setSet (refsKey (env.dialect.arg m)) ((w.redis.sets (refsKey (env.dialect.arg m))).erase
        (refMember u (env.dialect.arg q)))) hm.1
    rw [bind_ok hcollect, unindex_eq]
    refine ⟨rfl, ?_⟩
    change t.entry p = w.fs.entry p
    rw [congrFun (hentry hm) p, Function.update_of_ne (hp m)]
    rfl
  · rw [unindex_eq]
    exact ⟨rfl, rfl⟩

/-- The removal of another path leaves the entry. -/
theorem unlink_leaves (hl : w.fs.NoLinks) {p q : Path} (hq : ∀ n ∈ q, Plain n) (hne : p ≠ q) :
    Leaves p w ((files env).unlink (render q) w).2 := by
  simp only [files, World.fileCall, Action.move_apply]
  cases hunlink : unlink w.fs (render q) with
  | error e => exact Leaves.refl p w
  | ok t =>
      have hkeeps : Keeps {p} ∅ w.fs t := by
        refine unlink_keeps hunlink fun r hr _ hrp => ?_
        obtain rfl := locate_plain hl hq hr
        exact hne hrp.symm
      exact ⟨rfl, unlink_sheds hunlink, hkeeps.entry p rfl⟩

/-! ## The commit of an upload -/

section

variable {st : UploadSession} {fd : ℕ}

/-- **Without faults the commit of an upload succeeds.** It detaches the file at the path,
if there is one, publishes the part file and attaches the path to it. -/
theorem commitUpload_faultless (hexact : env.dialect = Dialect.exact) (hw : Coherent env w)
    (hopen : OpenUpload env w st fd) (hfree : World.CollisionFree env w) (session : UserSession)
    {p : Path} {x : Bytes} (hp : st.partPath = render p) (hx : w.fs.fileAt p = some x)
    (hlen : x.length = st.totalSize) (hdigest : env.md5Hex x = st.md5)
    (hfault : Publishable env w st.md5 st.totalSize) :
    ∃ w' s₁, commitUpload (backend env) session st w = (.ok (), w') ∧
      w'.fs.entry p = none ∧
      ((∃ d n, (view env w).row (session.userId, st.virtualPath) = some (.file d n)) ∧
          s₁ = (view env w).detach (scheme env) (session.userId, st.virtualPath) ∨
        (∀ d n, (view env w).row (session.userId, st.virtualPath) ≠ some (.file d n)) ∧
          s₁ = view env w) ∧
      (∀ y, s₁.object st.md5 = some y → y = x) ∧
      view env w' = (s₁.publish st.md5 x).attach (scheme env)
        (session.userId, st.virtualPath) st.md5 st.totalSize := by
  obtain ⟨hsize, hmd5⟩ := @checks_see env _ _ hw.sound.links _ _ hp hx
  rw [hlen] at hsize
  rw [hdigest] at hmd5
  obtain ⟨p', x', hm, hp', hx', hsource⟩ := commit_source hw.sound hopen hsize hmd5
  have hplain : ∀ n ∈ p, Plain n := w.fs.plain_of_entry fun hnone => by
    simp [FileTree.fileAt, hnone] at hx
  obtain rfl : p = p' := render_injective hplain hsource.plain (hp.symm.trans hp')
  have hsized := sized_of_source hw.sound hm hx hsource
  obtain ⟨dest, hdest, hdesteq⟩ := hopen.dest
  obtain ⟨username, hname, hpart⟩ := hopen.part
  have hzero : 0 ∉ baseName st.destPath := by
    rw [hdesteq]
    exact zero_not_mem_baseName (zero_not_mem_render hdest.plain)
  have hclear : Clear env st.partPath := hpart ▸ clear_part hname hopen.md5 hzero
  -- an object of the digest has the bytes of the part file
  have hsame : ∀ w₂, Sound env w₂ → Sheds w.fs w₂.fs → ∀ y,
      (view env w₂).object st.md5 = some y → y = x := by
    intro w₂ hw₂ hshed y hy
    simp only [view, if_pos hm] at hy
    have hold := hshed.fileAt hy
    refine hfree _ _ _ _ hold hx ?_
    rw [hdigest]
    cases he : w.fs.entry (objectPath env st.md5) with
    | none => simp [FileTree.fileAt, he] at hold
    | some z =>
        obtain ⟨i, rfl, hi⟩ := hw.sound.objects st.md5 hm z he
        simp only [FileTree.fileAt, he, Option.some.injEq] at hold
        rw [← hold, hi]
  -- the rest, from any store that the clearing of the destination leads to
  have hgo : ∀ w₂, Sound env w₂ → Leaves p w w₂ → ∀ s₁, view env w₂ = s₁ →
      ∃ w', commitRest env session.userId st w₂ = (.ok (), w') ∧ w'.fs.entry p = none ∧
        (∀ y, s₁.object st.md5 = some y → y = x) ∧
        view env w' = (s₁.publish st.md5 x).attach (scheme env)
          (session.userId, st.virtualPath) st.md5 st.totalSize := by
    rintro w₂ hw₂ hleaves s₁ rfl
    have hx₂ : w₂.fs.fileAt p = some x := hleaves.fileAt.trans hx
    obtain ⟨hsource₂, hsized₂⟩ := hsource.shed hleaves.sheds hsized
    rcases commitRest_view hexact (u := session.userId) hw₂ hm hp hsource₂ hsized₂ hclear with h | h
    · obtain ⟨e, w', -, -, -, hcopy⟩ := h
      exact absurd hcopy ((hleaves.publishable hfault).copies hx₂)
    · obtain ⟨w', y, hrun, -, -, hobj, hview, hgone, hcopied, -⟩ := h
      have hyx : y = x := by
        cases hthere : (view env w₂).object st.md5 with
        | none => exact Option.some.inj ((hcopied hthere).symm.trans hx₂)
        | some z =>
            rw [← hobj hfree z hthere]
            exact hsame w₂ hw₂ hleaves.sheds z hthere
      subst hyx
      exact ⟨w', hrun, hgone, hsame w₂ hw₂ hleaves.sheds, hview⟩
  have hview := hw.view hexact
  unfold commitUpload
  simp only [World.backend_files]
  rw [bind_ok hsize, if_neg (not_not.mpr rfl), bind_ok hmd5, if_neg (not_not.mpr rfl),
    bind_ok (lookupPlainFile_eq st.virtualPath w)]
  cases hrow : (w.rows.find? (World.isRow env session.userId st.virtualPath)).filter
      fun r => !r.isDir with
  | some r =>
      have hfile := (lookup_some hexact hrow).1
      obtain ⟨w₂, hrel, hview₂⟩ := releaseContentRef_view hexact (u := session.userId) hw.sound
        st.virtualPath
      have hops := @releaseContentRef_follows env session.userId st.virtualPath w hw.sound
      have hleaves := @releaseContentRef_leaves env session.userId w hexact hw.sound st.virtualPath
        (by rw [(hview.released_eq scheme_blank hfile).1]; exact hview.stored _ _ _ hfile) p
        hsource.ne_object
      rw [hrel] at hops hleaves
      obtain ⟨w', hrun, hgone, hobj, hfinal⟩ := hgo w₂ (hops.sound hw.sound) hleaves _ hview₂
      refine ⟨w', _, ?_, hgone, Or.inl ⟨⟨_, _, hfile⟩, rfl⟩, hobj, hfinal⟩
      dsimp only
      rw [bind_ok hrel]
      exact hrun
  | none =>
      have hnone := lookup_none hrow
      obtain ⟨there, hthere⟩ := @fileExists_ok env st.destPath w
      dsimp only
      rw [bind_ok hthere]
      cases there with
      | false =>
          obtain ⟨w', hrun, hgone, hobj, hfinal⟩ := hgo w hw.sound (Leaves.refl p w) _ rfl
          exact ⟨w', _, hrun, hgone, Or.inr ⟨hnone, rfl⟩, hobj, hfinal⟩
      | true =>
          have hidle := quiet_idles (@unlink_quiet env _ (clear_user hdest)) w hw.sound
          have hleaves : Leaves p w ((files env).unlink (render dest) w).2 := by
            apply unlink_leaves hw.sound.links hdest.plain
            rintro rfl
            exact hdest.not_above_part p hsource.place (List.prefix_refl p)
          rw [← hdesteq] at hidle hleaves
          rcases hun : (files env).unlink st.destPath w with ⟨e | r, w₂⟩
          · simp [files, World.fileCall] at hun
          · rw [hun] at hidle hleaves
            obtain ⟨w', hrun, hgone, hobj, hfinal⟩ := hgo w₂ (hidle.sound hw.sound) hleaves _
              (view_idles hidle)
            refine ⟨w', _, ?_, hgone, Or.inr ⟨hnone, rfl⟩, hobj, hfinal⟩
            simp only [if_true]
            rw [bind_ok hun]
            exact hrun

/-- The whole end of an upload: behind the clearing of the path, the store is coherent and the
path holds no file; then the part file is published, and the path attached to it. -/
theorem finishUpload_attaches (hexact : env.dialect = Dialect.exact) (hw : Coherent env w)
    (hfree : World.CollisionFree env w) (hfd : st.fd = some fd) (hopen : OpenUpload env w st fd)
    {p : Path} {x : Bytes} (hp : st.partPath = render p) (hx : w.fs.fileAt p = some x)
    (hlen : x.length = st.totalSize) (hdigest : env.md5Hex x = st.md5)
    (hfault : Publishable env w st.md5 st.totalSize) (session : UserSession) :
    ∃ w' s₁, finishUpload (backend env) session (w, st) = (.ok (), w', { st with fd := none }) ∧
      Coherent env w' ∧ w'.fs.entry p = none ∧
      ((∃ d n, (view env w).row (session.userId, st.virtualPath) = some (.file d n)) ∧
          s₁ = (view env w).detach (scheme env) (session.userId, st.virtualPath) ∨
        (∀ d n, (view env w).row (session.userId, st.virtualPath) ≠ some (.file d n)) ∧
          s₁ = view env w) ∧
      (∀ k, k ≠ (session.userId, st.virtualPath) → s₁.row k = (view env w).row k) ∧
      view env w' = (s₁.publish st.md5 x).attach (scheme env)
        (session.userId, st.virtualPath) st.md5 st.totalSize := by
  have hm : Hex32 st.md5 := hdigest ▸ env.md5_hex x
  have hview := hw.view hexact
  obtain ⟨w', s₁, hcommit, hpart, hcleared, hsame, hview'⟩ := commitUpload_faultless hexact hw
    hopen hfree session hp hx hlen hdigest hfault
  have hops := @commitUpload_uploads env session _ _ _ hopen hw.sound
  rw [hcommit] at hops
  have hcleared' : s₁.Coherent (scheme env) ∧
      (∀ d n, s₁.row (session.userId, st.virtualPath) ≠ some (.file d n)) ∧
      ∀ k, k ≠ (session.userId, st.virtualPath) → s₁.row k = (view env w).row k := by
    rcases hcleared with ⟨-, rfl⟩ | ⟨hnone, rfl⟩
    · refine ⟨hview.detach scheme_blank _, fun d n => by simp [RefStore.detach_row], fun k hk => ?_⟩
      rw [RefStore.detach_row, if_neg hk]
    · exact ⟨hview, hnone, fun _ _ => rfl⟩
  obtain ⟨hs₁, hfreed, hothers⟩ := hcleared'
  refine ⟨w', s₁, by rw [finishUpload_open hfd, hcommit], ?_, hpart, hcleared, hothers, hview'⟩
  refine (coherent_iff hexact).mpr ⟨hops.sound hw.sound, ?_⟩
  rw [hview']
  exact hs₁.publish_attach hfreed hm hdigest hsame hlen

end

end CloudStore.Interface
