import CloudStore.Interface.View

/-!
# The services as operations of the content store

For stores that take keys and paths exactly, each service of `TransferService` that writes
is an operation of `RefStore` on the view, or a few of them, in the order of
`Model.Transfer`.
-/

set_option autoImplicit false

namespace CloudStore.Interface

open CloudStore.Library (Bytes Path FileTree Plain Sheds Keeps Entry RefScheme RefStore Action)
open CloudStore.Library.Action (Moves Reads bind_ok bind_error bind_apply bind_eq_ok)
open CloudStore.Library.Posix
open CloudStore.Model
open CloudStore.Model.RedisStore
open CloudStore.Model.TransferService
open CloudStore.Model.World (objectPath files redisCalls backend)

variable {env : Env} {u : ℤ} {w w' : World}

/-! ## Reading -/

theorem fileExists_ok (s : Bytes) (w : World) :
    ∃ there, fileExists (files env) s w = (.ok there, w) := by
  simp only [fileExists, files, bind_apply, Action.look_apply]
  cases Library.Posix.lstat w.fs s <;> exact ⟨_, rfl⟩

/-- There is no file at a path. -/
def Vacant (w : World) (s : Bytes) : Prop := ∃ e, Library.Posix.lstat w.fs s = .error e

theorem fileExists_false {s : Bytes} (h : fileExists (files env) s w = (.ok false, w)) :
    Vacant w s := by
  simp only [fileExists, files, bind_apply, Action.look_apply] at h
  cases hnode : Library.Posix.lstat w.fs s with
  | error e => exact ⟨e, hnode⟩
  | ok x => simp [hnode, Except.map] at h

theorem fileExists_true {s : Bytes} (h : fileExists (files env) s w = (.ok true, w)) :
    ¬ Vacant w s := by
  rintro ⟨e, hnode⟩
  simp [fileExists, files, bind_apply, hnode, Except.map] at h

theorem fileSize_ok (s : Bytes) (w : World) :
    ∃ size, fileSize (files env) s w = (.ok size, w) := by
  simp only [fileSize, files, bind_apply, Action.look_apply]
  cases Library.Posix.stat w.fs s <;> exact ⟨_, rfl⟩

theorem unlink_run (s : Bytes) (w : World) : ∃ r, (files env).unlink s w =
    (.ok r, { w with fs := (unlink w.fs s).toOption.getD w.fs }) := by
  cases hun : unlink w.fs s with
  | error e => exact ⟨.error e, by simp [files, World.fileCall, hun, Except.toOption]⟩
  | ok t => exact ⟨.ok (), by simp [files, World.fileCall, hun, Except.toOption]⟩

/-! ## Releasing -/

section Exact

variable (hexact : env.dialect = Dialect.exact)
include hexact

/-- A plain file of the index is a file of the view. -/
theorem lookup_some {p : Bytes} {r : FileRow}
    (h : (w.rows.find? (World.isRow env u p)).filter (fun r => !r.isDir) = some r) :
    (view env w).row (u, p) = some (.file r.md5 r.size) ∧ r ∈ w.rows ∧ r.userId = u ∧
      r.virtualPath = p ∧ r.isDir = false := by
  rw [Option.filter_eq_some_iff] at h
  obtain ⟨hfind, hdir⟩ := h
  have hdir : r.isDir = false := by simpa using hdir
  have hrow := (isRow_exact hexact).mp (List.find?_some hfind)
  refine ⟨?_, List.mem_of_find?_eq_some hfind, hrow.1, hrow.2, hdir⟩
  simp [view, hfind, entryOf, hdir]

omit hexact in
theorem lookup_none {p : Bytes}
    (h : (w.rows.find? (World.isRow env u p)).filter (fun r => !r.isDir) = none) :
    ∀ d n, (view env w).row (u, p) ≠ some (.file d n) := by
  intro d n hrow
  simp only [view] at hrow
  cases hfind : w.rows.find? (World.isRow env u p) with
  | none => simp [hfind] at hrow
  | some r =>
      rw [hfind] at h hrow
      cases hdir : r.isDir with
      | true => simp [entryOf, hdir] at hrow
      | false => simp [Option.filter, hdir] at h

/-- `releaseContentRef` releases the digest that the view gives up. -/
theorem releasedMd5_view (p : Bytes) :
    releasedMd5 (backend env) u p w = (.ok ((view env w).released (scheme env) (u, p)), w) := by
  unfold releasedMd5
  simp only [World.backend_redis]
  rw [bind_ok (getPathMd5_eq p w), arg_exact hexact]
  by_cases hnil : w.redis.strings (pathKey u p) = []
  · have hlink : (view env w).link (u, p) = (scheme env).blank := hnil
    rw [if_pos hnil, bind_ok (lookupPlainFile_eq p w), RefStore.released, if_pos hlink]
    cases hrow : (w.rows.find? (World.isRow env u p)).filter fun r => !r.isDir with
    | none =>
        have hnone := lookup_none hrow
        have hblank : (view env w).fileDigest (scheme env) (u, p) = (scheme env).blank := by
          unfold RefStore.fileDigest
          split
          next d n h => exact absurd h (hnone d n)
          · rfl
        rw [hblank]
        rfl
    | some r =>
        have hfile := (lookup_some hexact hrow).1
        simp [RefStore.fileDigest, hfile]
  · have hlink : ¬ (view env w).link (u, p) = (scheme env).blank := hnil
    rw [if_neg hnil, RefStore.released, if_neg hlink]
    rfl

theorem unindex_view (p : Bytes) :
    ∃ w', unindex (backend env) u p w = (.ok (), w') ∧
      view env w' = (view env w).clear (scheme env) (u, p) := by
  refine ⟨_, unindex_eq p w, ?_⟩
  rw [view_setSet fun m => (pathKey_ne_refsKey _ _ _).symm, arg_exact hexact, view_link,
    view_unrow hexact]
  rfl

theorem indexFile_view (p md5 : Bytes) (size : ℕ) (isDir : Bool) (status : Bytes) :
    ∃ w', indexFile (backend env) u p md5 size isDir status w = (.ok (), w') ∧
      w'.redis = w.redis ∧ view env w' = { view env w with
        row := Function.update (view env w).row (u, p)
          (some (if isDir then .dir else .file md5 size)) } := by
  cases @indexFile_eq env u p md5 size isDir status w with
  | inl h =>
      obtain ⟨kept, hkept, hindex⟩ := h
      have hsame : kept = md5 := by
        rw [hexact] at hkept
        exact (Option.some.inj hkept).symm
      subst hsame
      exact ⟨_, hindex, rfl, view_upsertRow hexact _⟩
  | inr h =>
      rw [hexact] at h
      exact absurd h.1 (by simp [Dialect.exact])

/-- The object of a digest without references is gone after its collection, and so are its
records. Of md5 texts nothing else is. -/
theorem collectObject_gone (hw : Sound env w) {md5 : Bytes} (hlen : md5.length = 32) :
    ∃ t, collectObject (backend env) md5 w = (.ok (), dropMeta { w with fs := t } md5) ∧
      Calm env {md5} w.fs t ∧
      (Hex32 md5 → t.entry = Function.update w.fs.entry (objectPath env md5) none) := by
  have harg := arg_exact hexact md5
  have hge : ¬ md5.length < 2 := by omega
  have hpath : resolveObjectPath (backend env) md5 w = (.ok (objectText env md5), w) := by
    rcases hres : resolveObjectPath (backend env) md5 w with ⟨e | obj, w₁⟩
    · exfalso
      unfold resolveObjectPath at hres
      simp only [World.backend_redis] at hres
      rw [bind_ok (getObjectPath_eq md5 w), objectPathFor_eq, if_neg hge] at hres
      split_ifs at hres <;> simp at hres
    · have hw₁ : w₁ = w := (resolveObjectPath_reads md5).end_eq hres
      subst hw₁
      have hobj := resolveObjectPath_ok hw hres
      rw [harg] at hobj
      rw [hobj.elim (fun h => h.2) fun h => h.2]
  have hmeta : ∀ w' : World, deleteObjectMeta (redisCalls env) md5 w' = (.ok (), dropMeta w' md5) :=
    fun w' => by rw [deleteObjectMeta_eq, harg]
  have hshort : Short env.dialect md5 := short_of_length _ (Or.inr hlen)
  have hnothing : w.fs.entry (objectPath env md5) = none →
      w.fs.entry = Function.update w.fs.entry (objectPath env md5) none := by
    intro h
    rw [← h, Function.update_eq_self]
  have hexists : ∃ there, fileExists (files env) (objectText env md5) w = (.ok there, w) ∧
      (there = false → Hex32 md5 → w.fs.entry (objectPath env md5) = none) := by
    simp only [fileExists, files, bind_apply, Action.look_apply, lstat]
    cases hnode : node w.fs false (objectText env md5) with
    | ok qx => exact ⟨true, rfl, by simp⟩
    | error e =>
        refine ⟨false, rfl, fun _ hm => ?_⟩
        cases he : w.fs.entry (objectPath env md5) with
        | none => rfl
        | some x => simp [(node_object hw.links hm false).1 x he] at hnode
  obtain ⟨there, hthere, habsent⟩ := hexists
  unfold collectObject
  rw [bind_ok hpath]
  simp only [World.backend_files, World.backend_redis]
  rw [bind_ok hthere]
  cases there with
  | false => exact ⟨w.fs, by simp [hmeta], Keeps.refl w.fs, fun hm => hnothing (habsent rfl hm)⟩
  | true =>
      have hchmod : ∀ w : World, (files env).chmod (objectText env md5) w =
          (.ok ((Library.Posix.stat w.fs (objectText env md5)).map fun _ => ()), w) := fun w => rfl
      simp only [if_true]
      rw [bind_ok (hchmod w)]
      cases hunlink : unlink w.fs (objectText env md5) with
      | error e =>
          refine ⟨w.fs, by simp [bind_apply, files, World.fileCall, hunlink, hmeta],
            Keeps.refl w.fs, fun hm => ?_⟩
          -- what is there is a file, and a file can be removed
          cases he : w.fs.entry (objectPath env md5) with
          | none => exact hnothing he
          | some x =>
              obtain ⟨i, rfl, -⟩ := hw.objects md5 hm x he
              obtain ⟨t, ht, -⟩ := unlink_file (node_ok ((node_object hw.links hm false).1 _ he)).1 he
              rw [hunlink] at ht
              simp at ht
      | ok t =>
          refine ⟨t, by simp [bind_apply, files, World.fileCall, hunlink, hmeta], ?_, fun hm => ?_⟩
          · refine unlink_keeps hunlink fun q hloc hq => ?_
            have := object_of_short hw.links hshort (Or.inl ⟨by omega, rfl⟩) hloc hq
            rwa [harg] at this
          · cases he : w.fs.entry (objectPath env md5) with
            | none =>
                obtain ⟨e, hnode⟩ := (node_object hw.links hm false).2 he
                simp [unlink, hnode] at hunlink
            | some x =>
                obtain ⟨i, rfl, -⟩ := hw.objects md5 hm x he
                obtain ⟨t', ht, hentry⟩ :=
                  unlink_file (node_ok ((node_object hw.links hm false).1 _ he)).1 he
                rw [hunlink, Except.ok.injEq] at ht
                rw [ht, hentry]

theorem collectObject_view (hw : Sound env w) {md5 : Bytes} (hlen : md5.length = 32) :
    ∃ w', collectObject (backend env) md5 w = (.ok (), w') ∧
      view env w' = { view env w with
        refs := Function.update (view env w).refs md5 ∅
        object := Function.update (view env w).object md5 none } := by
  obtain ⟨t, hcollect, hcalm, hgone⟩ := collectObject_gone hexact hw hlen
  refine ⟨_, hcollect, ?_⟩
  rw [view_dropMeta]
  refine RefStore.ext rfl rfl rfl (funext fun m => ?_)
  by_cases hm : m = md5
  · subst hm
    simp only [view, Function.update_self]
    split
    next hhex => simp [World.object, FileTree.fileAt, hgone hhex, Function.update_self]
    · rfl
  · simp only [view, Function.update_of_ne hm]
    split
    next hhex => exact object_calm hcalm hhex (by simpa using hm)
    · rfl

/-- The digest that a key gives up is blank or has 32 bytes. -/
theorem released_length (hw : Sound env w) (p : Bytes) :
    (view env w).released (scheme env) (u, p) = [] ∨
      ((view env w).released (scheme env) (u, p)).length = 32 := by
  have hshort := releasedMd5_short hw (releasedMd5_view hexact (u := u) (w := w) p)
  exact hshort.length (by rw [hexact]; rfl)

/-- **`releaseContentRef` detaches the path.** -/
theorem releaseContentRef_view (hw : Sound env w) (p : Bytes) :
    ∃ w', releaseContentRef (backend env) u p w = (.ok (), w') ∧
      view env w' = (view env w).detach (scheme env) (u, p) := by
  unfold releaseContentRef
  rw [bind_ok (releasedMd5_view hexact p)]
  unfold RefStore.detach
  by_cases hblank : (view env w).released (scheme env) (u, p) = []
  · obtain ⟨w', hun, hview⟩ := unindex_view hexact (u := u) (w := w) p
    have hblank' : (view env w).released (scheme env) (u, p) = (scheme env).blank := hblank
    exact ⟨w', by simpa [hblank] using hun, by rw [hview, if_pos hblank']⟩
  · have hlen := (released_length hexact hw p).resolve_left hblank
    have hne : ¬ (view env w).released (scheme env) (u, p) = (scheme env).blank := hblank
    simp only [ne_eq, hblank, not_false_eq_true, if_true, World.backend_redis]
    rw [if_neg hne, bind_ok (removeRef_eq _ p w), arg_exact hexact, arg_exact hexact]
    -- the world behind `removeRef`, and its view
    have hview := @view_refs env w ((view env w).released (scheme env) (u, p))
      ((w.redis.sets (refsKey ((view env w).released (scheme env) (u, p)))).erase (refMember u p))
    have hw₁ : Sound env (setSet w (refsKey ((view env w).released (scheme env) (u, p)))
      ((w.redis.sets (refsKey ((view env w).released (scheme env) (u, p)))).erase
        (refMember u p))) := hw.setSet _ _
    unfold RefStore.unref
    by_cases hempty : (w.redis.sets (refsKey ((view env w).released (scheme env) (u, p)))).erase
        (refMember u p) = ∅
    · have hempty' : ((view env w).refs ((view env w).released (scheme env) (u, p))).erase
          ((scheme env).ref (u, p)) = ∅ := hempty
      rw [if_pos hempty']
      simp only [hempty, Finset.card_empty, Nat.cast_zero, le_refl, if_true] at hview hw₁ ⊢
      obtain ⟨w₂, hcollect, hview₂⟩ := collectObject_view hexact hw₁ hlen
      obtain ⟨w₃, hun, hview₃⟩ := unindex_view hexact (u := u) (w := w₂) p
      refine ⟨w₃, by rw [bind_ok hcollect]; exact hun, ?_⟩
      rw [hview₃, hview₂, hview]
      simp
    · have hempty' : ¬ ((view env w).refs ((view env w).released (scheme env) (u, p))).erase
          ((scheme env).ref (u, p)) = ∅ := hempty
      have hcard : ¬ (((w.redis.sets (refsKey ((view env w).released (scheme env)
          (u, p)))).erase (refMember u p)).card : ℤ) ≤ 0 := by
        have := Finset.card_pos.mpr (Finset.nonempty_iff_ne_empty.mpr hempty)
        omega
      rw [if_neg hempty', if_neg hcard]
      obtain ⟨w₃, hun, hview₃⟩ := unindex_view hexact (u := u) (w := setSet w
        (refsKey ((view env w).released (scheme env) (u, p)))
        ((w.redis.sets (refsKey ((view env w).released (scheme env) (u, p)))).erase
          (refMember u p))) p
      refine ⟨w₃, hun, ?_⟩
      rw [hview₃, hview]
      rfl

/-- `releaseIndexedUnderPrefix` detaches the files below a directory. -/
theorem releaseAll_view (hw : Sound env w) (ps : List Bytes) :
    ∃ w', Action.each (fun vp => releaseContentRef (backend env) u vp) ps w = (.ok (), w') ∧
      Sound env w' ∧
      view env w' = (view env w).detachAll (scheme env) (ps.map fun p => (u, p)) := by
  induction ps generalizing w with
  | nil => exact ⟨w, rfl, hw, rfl⟩
  | cons p ps ih =>
      obtain ⟨w₁, hrel, hview⟩ := releaseContentRef_view hexact (u := u) hw p
      have hops := @releaseContentRef_follows env u p w hw
      rw [hrel] at hops
      obtain ⟨w₂, hrest, hw₂, hview₂⟩ := ih (hops.sound hw)
      refine ⟨w₂, by rw [Action.each_cons, bind_ok hrel, hrest], hw₂, ?_⟩
      rw [hview₂, hview]
      rfl

/-! ## Adding and renaming -/

/-- **`addContentRef` attaches the path.** -/
theorem addContentRef_view (p md5 : Bytes) (size : ℕ) :
    ∃ w', addContentRef (backend env) u p md5 size w = (.ok (), w') ∧
      view env w' = (view env w).attach (scheme env) (u, p) md5 size := by
  unfold addContentRef
  simp only [World.backend_redis]
  rw [bind_ok (addRef_eq md5 p w), arg_exact hexact, arg_exact hexact]
  obtain ⟨w₂, hindex, -, hview₂⟩ := indexFile_view hexact (u := u) (w := setSet w (refsKey md5)
    (insert (refMember u p) (w.redis.sets (refsKey md5)))) p md5 size false (str "ready")
  refine ⟨_, by rw [bind_ok hindex, setPathMd5_eq], ?_⟩
  rw [arg_exact hexact, view_link, hview₂, view_refs]
  rfl

/-- **`renameIndexedFile` moves a file.** -/
theorem renameIndexedFile_view (p q md5 : Bytes) (size : ℕ) :
    ∃ w', renameIndexedFile (backend env) u p q md5 size w = (.ok (), w') ∧
      view env w' = (view env w).moveFile (scheme env) (u, p) (u, q) md5 size := by
  unfold renameIndexedFile
  simp only [World.backend_redis]
  rw [bind_ok (removeRef_eq md5 p w), bind_ok (addRef_eq md5 q _), bind_ok (delPathMd5_eq p _)]
  simp only [arg_exact hexact]
  obtain ⟨w₂, hindex, -, hview₂⟩ := indexFile_view hexact (u := u)
    (w := setSet (setString (setSet (setSet w (refsKey md5)
      ((w.redis.sets (refsKey md5)).erase (refMember u p))) (refsKey md5)
      (insert (refMember u q) ((w.redis.sets (refsKey md5)).erase (refMember u p))))
      (pathKey u p) []) (pathKey u p) ∅) q md5 size false (str "ready")
  have hsets : (setSet w (refsKey md5) ((w.redis.sets (refsKey md5)).erase
      (refMember u p))).redis.sets (refsKey md5) =
      (w.redis.sets (refsKey md5)).erase (refMember u p) := by simp [setSet]
  rw [hsets, bind_ok hindex, bind_ok (setPathMd5_eq q md5 w₂), arg_exact hexact]
  refine ⟨_, rfl, ?_⟩
  have hunrow := view_unrow hexact (u := u) (w := setString w₂ (pathKey u q) md5) p
  refine hunrow.trans ?_
  rw [view_link, hview₂, view_setSet fun m => (pathKey_ne_refsKey _ _ _).symm, view_link, view_refs,
    view_refs]
  simp only [RefStore.moveFile, Function.update_idem, Bool.false_eq_true, if_false]
  rfl

/-- What `renamePhysical` does behind the move of the file: the new row takes the md5 of the
old path key. -/
theorem renamePhysical_view {source dest : Path} (hsource : UserPath env source)
    (hdest : UserPath env dest) (hw : Sound env w) (p q : Bytes) :
    (∃ w₁ w' n, FileManager.renamePath (files env) (render source) (render dest) w = (.ok (), w₁) ∧
      renamePhysical (backend env) u (render source) p (render dest) q w = (.ok (), w') ∧
      view env w' = (view env w).moveOther (scheme env) (u, p) (u, q) n) ∨
    ∃ e w', renamePhysical (backend env) u (render source) p (render dest) q w = (.error e, w') ∧
      view env w' = view env w := by
  have hidle := quiet_idles (@renamePath_quiet env _ _ hsource hdest) w hw
  unfold renamePhysical
  simp only [World.backend_files, World.backend_redis]
  rcases hmove : FileManager.renamePath (files env) (render source) (render dest) w with ⟨e | r, w₁⟩
  · rw [hmove] at hidle
    rw [bind_error hmove]
    exact Or.inr ⟨e, w₁, rfl, view_idles hidle⟩
  · rw [hmove] at hidle
    rw [bind_ok hmove, bind_ok (getPathMd5_eq p w₁), arg_exact hexact]
    have hview := view_idles hidle
    left
    have hlink : w₁.redis.strings (pathKey u p) = (view env w).link (u, p) := by
      rw [← hview]
      rfl
    -- the rest, for the size that is recorded
    have hrest : ∀ n, ∃ w', (do
        unindex (backend env) u p
        indexFile (backend env) u q (w₁.redis.strings (pathKey u p)) n false (str "ready")
        if w₁.redis.strings (pathKey u p) ≠ [] then
          setPathMd5 (redisCalls env) u q (w₁.redis.strings (pathKey u p)) : Act World Unit) w₁ =
          (.ok (), w') ∧
        view env w' = (view env w).moveOther (scheme env) (u, p) (u, q) n := by
      intro n
      obtain ⟨w₂, hun, hview₂⟩ := unindex_view hexact (u := u) (w := w₁) p
      obtain ⟨w₃, hindex, -, hview₃⟩ := indexFile_view hexact (u := u) (w := w₂) q
        (w₁.redis.strings (pathKey u p)) n false (str "ready")
      rw [bind_ok hun, bind_ok hindex, hlink]
      rw [hlink] at hview₃
      by_cases hnil : (view env w).link (u, p) = []
      · refine ⟨w₃, by simp [hnil], ?_⟩
        have hblank : (view env w).link (u, p) = (scheme env).blank := hnil
        rw [hview₃, hview₂, hview]
        simp only [RefStore.clear, RefStore.moveOther, if_pos hblank, Bool.false_eq_true, if_false]
      · refine ⟨_, by simp only [ne_eq, hnil, not_false_eq_true, if_true]; exact setPathMd5_eq _ _ _, ?_⟩
        have hblank : ¬ (view env w).link (u, p) = (scheme env).blank := hnil
        rw [arg_exact hexact, view_link, hview₃, hview₂, hview]
        simp only [RefStore.clear, RefStore.moveOther, if_neg hblank, Bool.false_eq_true, if_false]
    obtain ⟨there, hthere⟩ := @fileExists_ok env (render dest) w₁
    rw [bind_ok hthere]
    cases there with
    | true =>
        obtain ⟨n, hn⟩ := @fileSize_ok env (render dest) w₁
        obtain ⟨w', hrun, hview'⟩ := hrest n
        exact ⟨w₁, w', n, rfl, by rw [← hrun]; exact bind_ok hn, hview'⟩
    | false =>
        obtain ⟨w', hrun, hview'⟩ := hrest 0
        exact ⟨w₁, w', 0, rfl, hrun, hview'⟩

/-! ## Instant upload -/

/-- `clearDestination` detaches the file at the path, if it may, and then there is none. -/
theorem clearDestination_view {dest : Path} (hdest : UserPath env dest) (hw : Sound env w)
    (p : Bytes) (overwrite : Bool) :
    (∃ w', clearDestination (backend env) u (render dest) p overwrite w = (.ok (), w') ∧
      overwrite = true ∧ (∃ d n, (view env w).row (u, p) = some (.file d n)) ∧
      view env w' = (view env w).detach (scheme env) (u, p)) ∨
    (∃ w', clearDestination (backend env) u (render dest) p overwrite w = (.ok (), w') ∧
      (∀ d n, (view env w).row (u, p) ≠ some (.file d n)) ∧ view env w' = view env w) ∨
    ∃ e, clearDestination (backend env) u (render dest) p overwrite w = (.error e, w) := by
  unfold clearDestination
  rw [bind_ok (lookupPlainFile_eq p w)]
  cases hrow : (w.rows.find? (World.isRow env u p)).filter fun r => !r.isDir with
  | some r =>
      have hfile := (lookup_some hexact hrow).1
      dsimp only
      cases overwrite with
      | false => exact Or.inr (Or.inr ⟨_, rfl⟩)
      | true =>
          obtain ⟨w', hrel, hview⟩ := releaseContentRef_view hexact (u := u) hw p
          exact Or.inl ⟨w', hrel, rfl, ⟨_, _, hfile⟩, hview⟩
  | none =>
      have hnone := lookup_none hrow
      obtain ⟨there, hthere⟩ := @fileExists_ok env (render dest) w
      simp only [World.backend_files]
      rw [bind_ok hthere]
      cases there with
      | false => exact Or.inr (Or.inl ⟨w, rfl, hnone, rfl⟩)
      | true =>
          cases overwrite with
          | false => exact Or.inr (Or.inr ⟨_, rfl⟩)
          | true =>
              have hidle := quiet_idles (unlink_quiet (clear_user hdest)) w hw
              refine Or.inr (Or.inl ⟨((files env).unlink (render dest) w).2, ?_, hnone,
                view_idles hidle⟩)
              rfl

/-- An accepted proof is about an object of the store, of the size that was named. -/
theorem checkProof_object (hw : Sound env w) {session : UserSession} {md5 proofMd5 : Bytes}
    {size proofOffset : ℕ} {w' : World} {r : Unit}
    (h : checkProof (backend env) session md5 size proofOffset proofMd5 w = (.ok r, w'))
    (hhex : Hex32 md5) : ∃ x, (view env w).object md5 = some x ∧ x.length = size := by
  have hread := (@checkProof_reads env session md5 size proofOffset proofMd5).end_eq h
  subst hread
  unfold checkProof at h
  obtain ⟨challenge, w₁, h₁, h⟩ := bind_eq_ok h
  cases challenge with
  | none => simp [fail] at h
  | some ol =>
      obtain ⟨expectOff, expectLen⟩ := ol
      have hw₁ := (@getChallenge_reads env session.token md5).end_eq h₁
      subst hw₁
      dsimp only at h
      split at h
      · simp [fail] at h
      · obtain ⟨obj, w₂, h₂, h⟩ := bind_eq_ok h
        have hw₂ := (@resolveObjectPath_reads env md5).end_eq h₂
        subst hw₂
        have hobj : obj = objectText env md5 := by
          have hpath := resolveObjectPath_ok hw h₂
          rw [arg_exact hexact] at hpath
          exact hpath.elim (fun h => h.2) fun h => h.2
        subst hobj
        obtain ⟨there, hthere⟩ := @fileExists_ok env (objectText env md5) w₂
        obtain ⟨n, hn⟩ := @fileSize_ok env (objectText env md5) w₂
        simp only [World.backend_files] at h
        rw [bind_ok hthere] at h
        cases there with
        | false => simp [fail] at h
        | true =>
            simp only [Bool.not_true, Bool.false_eq_true, if_false] at h
            rw [bind_ok hn] at h
            split_ifs at h with hsize
            · simp [fail] at h
            all_goals
              have hsize : n = size := not_not.mp hsize
              subst hsize
              cases he : w₂.fs.entry (objectPath env md5) with
              | none =>
                  obtain ⟨e, hnode⟩ := (node_object hw.links hhex false).2 he
                  simp [fileExists, files, bind_apply, lstat, hnode, Except.map] at hthere
              | some x =>
                  obtain ⟨i, rfl, -⟩ := hw.objects md5 hhex x he
                  have hnode := (node_object hw.links hhex true).1 _ he
                  refine ⟨w₂.fs.data i, ?_, ?_⟩
                  · simp [view, hhex, World.object, FileTree.fileAt, he]
                  · simpa [fileSize, files, bind_apply, Library.Posix.stat, hnode, Except.map,
                      World.fileStat, Library.Posix.sizeOf] using hn

/-- **`instantUpload`** changes nothing, or detaches the file at the path, if there is one,
and attaches the path to the object that was proved. -/
theorem instantUpload_view {session : UserSession} {dest : Path} (hdest : UserPath env dest) (hw : Sound env w) (p md5 : Bytes) (size proofOffset : ℕ)
    (proofMd5 : Bytes) (overwrite : Bool) :
    (∃ e w', instantUpload (backend env) session (render dest) p md5 size proofOffset proofMd5
        overwrite w = (.error e, w') ∧ view env w' = view env w) ∨
    ((checkProof (backend env) session md5 size proofOffset proofMd5 w).1 = .ok () ∧
      (Hex32 md5 → ∃ x, (view env w).object md5 = some x ∧ x.length = size) ∧
      ∃ s₁ w', instantUpload (backend env) session (render dest) p md5 size proofOffset proofMd5
          overwrite w = (.ok (), w') ∧
        view env w' = s₁.attach (scheme env) (session.userId, p) md5 size ∧
        (overwrite = true ∧ (∃ d n, (view env w).row (session.userId, p) = some (.file d n)) ∧
            s₁ = (view env w).detach (scheme env) (session.userId, p) ∨
          (∀ d n, (view env w).row (session.userId, p) ≠ some (.file d n)) ∧
            s₁ = view env w)) := by
  unfold instantUpload
  rcases hproof : checkProof (backend env) session md5 size proofOffset proofMd5 w with ⟨e | r, w₁⟩
  · have hw₁ := (@checkProof_reads env session md5 size proofOffset proofMd5).end_eq hproof
    rw [bind_error hproof]
    exact Or.inl ⟨e, w₁, rfl, by rw [hw₁]⟩
  · have hw₁ := (@checkProof_reads env session md5 size proofOffset proofMd5).end_eq hproof
    subst hw₁
    have hobject := checkProof_object hexact hw hproof
    rw [bind_ok hproof]
    simp only [World.backend_redis]
    rw [bind_ok (delChallenge_eq session.token md5 w₁)]
    -- the world without the challenge
    have hop : IdleOp env w₁ (setSet (setString w₁ (env.dialect.arg (chalKey session.token md5)) [])
        (env.dialect.arg (chalKey session.token md5)) ∅) := IdleOp.unchallenge w₁ _ _
    have hw₂ := hop.sound hw
    have hview₂ := view_idleOp hop
    generalize setSet (setString w₁ (env.dialect.arg (chalKey session.token md5)) [])
        (env.dialect.arg (chalKey session.token md5)) ∅ = w₂ at hop hw₂ hview₂ ⊢
    have hrest : ∀ w₃, clearDestination (backend env) session.userId (render dest) p overwrite w₂ =
        (.ok (), w₃) → ∃ w', (do
          clearDestination (backend env) session.userId (render dest) p overwrite
          let _ ← ensureDir (files env) (parentDir (render dest))
          addContentRef (backend env) session.userId p md5 size : Act World Unit) w₂ = (.ok (), w') ∧
        view env w' = (view env w₃).attach (scheme env) (session.userId, p) md5 size := by
      intro w₃ h₃
      have hops := @clearDestination_follows env session.userId _ hdest p overwrite w₂ hw₂
      rw [h₃] at hops
      have hw₃ := hops.sound hw₂
      rw [bind_ok h₃]
      obtain ⟨ok, w₄, h₄⟩ := @ensureDir_ok env (parentDir (render dest)) w₃
      have hidle := quiet_idles (@ensureDir_parent_quiet env _ hdest) w₃ hw₃
      rw [h₄] at hidle
      obtain ⟨w', hadd, hview'⟩ := addContentRef_view hexact (u := session.userId) (w := w₄) p md5 size
      refine ⟨w', by rw [bind_ok h₄, hadd], ?_⟩
      rw [hview', view_idles hidle]
    rcases clearDestination_view hexact (u := session.userId) hdest hw₂ p overwrite with h | h | h
    · obtain ⟨w₃, h₃, hover, hfile, hview₃⟩ := h
      obtain ⟨w', hrun, hview'⟩ := hrest w₃ h₃
      rw [hview₂] at hfile hview₃
      exact Or.inr ⟨trivial, hobject, _, w', hrun, hview', Or.inl ⟨hover, hfile, hview₃⟩⟩
    · obtain ⟨w₃, h₃, hnone, hview₃⟩ := h
      obtain ⟨w', hrun, hview'⟩ := hrest w₃ h₃
      rw [hview₂] at hnone hview₃
      exact Or.inr ⟨trivial, hobject, _, w', hrun, hview', Or.inr ⟨hnone, hview₃⟩⟩
    · obtain ⟨e, he⟩ := h
      exact Or.inl ⟨e, w₂, bind_error he, hview₂⟩

/-! ## Removing -/

omit hexact in
variable (env) in
/-- The files that `releaseIndexedUnderPrefix` finds below a directory. -/
def filesBelow (w : World) (u : ℤ) (dir : Bytes) : List (ℤ × Bytes) :=
  (w.rows.filter fun r => r.userId = u && !r.isDir &&
    env.dialect.like r.virtualPath (dirPrefix dir ++ str "%")).map fun r => (u, r.virtualPath)

theorem releaseIndexedUnderPrefix_view (hw : Sound env w) (dir : Bytes) :
    ∃ w', releaseIndexedUnderPrefix (backend env) u dir w = (.ok (), w') ∧ Sound env w' ∧
      view env w' = (view env w).detachAll (scheme env) (filesBelow env w u dir) := by
  obtain ⟨w', hrun, hw', hview⟩ := releaseAll_view hexact (u := u) hw
    ((w.rows.filter fun r => r.userId = u && !r.isDir &&
      env.dialect.like r.virtualPath (dirPrefix dir ++ str "%")).map FileRow.virtualPath)
  refine ⟨w', hrun, hw', ?_⟩
  rw [hview, List.map_map]
  rfl

/-- **`removeUserPath`** detaches the path; of a directory, the files below it, and then
clears the path. -/
theorem removeUserPath_view {session : UserSession} {physical : Path}
    (hphys : UserPath env physical) (hw : Sound env w) (p : Bytes) :
    view env (removeUserPath (backend env) session (render physical) p w).2 =
        (view env w).detach (scheme env) (session.userId, p) ∨
      view env (removeUserPath (backend env) session (render physical) p w).2 = view env w ∨
      (∀ d n, (view env w).row (session.userId, p) ≠ some (.file d n)) ∧
        Library.Posix.lstat w.fs (render physical) = .ok .dir ∧
        ∃ s₁, s₁ = (view env w).detachAll (scheme env) (filesBelow env w session.userId p) ∧
          (view env (removeUserPath (backend env) session (render physical) p w).2 = s₁ ∨
            view env (removeUserPath (backend env) session (render physical) p w).2 =
              s₁.clear (scheme env) (session.userId, p)) := by
  unfold removeUserPath
  rw [bind_ok (lookupPlainFile_eq p w)]
  simp only [World.backend_files]
  have hunlink : ∀ {w : World}, Sound env w →
      view env ((files env).unlink (render physical) w).2 = view env w :=
    fun hw => view_idles (quiet_idles (unlink_quiet (clear_user hphys)) _ hw)
  have hrelease : ∀ {w : World}, Sound env w →
      view env (releaseContentRef (backend env) session.userId p w).2 =
        (view env w).detach (scheme env) (session.userId, p) := by
    intro w hw
    obtain ⟨w', hrel, hview⟩ := releaseContentRef_view hexact (u := session.userId) hw p
    rw [hrel, hview]
  cases hrow : (w.rows.find? (World.isRow env session.userId p)).filter fun r => !r.isDir with
  | some r =>
      left
      obtain ⟨w₁, hrel, hview⟩ := releaseContentRef_view hexact (u := session.userId) hw p
      have hops := @releaseContentRef_follows env session.userId p w hw
      rw [hrel] at hops
      have hw₁ := hops.sound hw
      obtain ⟨there, hthere⟩ := @fileExists_ok env (render physical) w₁
      dsimp only
      rw [bind_ok hrel, bind_ok hthere]
      cases there with
      | false => exact hview
      | true => exact (hunlink hw₁).trans hview
  | none =>
      have hnone := lookup_none hrow
      dsimp only
      have hlook : (files env).lstat (render physical) w = (.ok ((Library.Posix.lstat w.fs
        (render physical)).map (World.fileStat env w.fs)), w) := rfl
      rw [bind_ok hlook]
      cases hnode : Library.Posix.lstat w.fs (render physical) with
      | error e => exact Or.inl (hrelease hw)
      | ok x =>
          simp only [Except.map, World.fileStat]
          by_cases hdir : x = .dir
          · subst hdir
            obtain ⟨w₁, hall, hw₁, hview₁⟩ := releaseIndexedUnderPrefix_view hexact
              (u := session.userId) hw p
            rw [if_pos rfl, bind_ok hall]
            refine Or.inr (Or.inr ⟨hnone, rfl, _, rfl, ?_⟩)
            have hidle := quiet_idles (@removePath_quiet env _ hphys) w₁ hw₁
            rcases hremove : FileManager.removePath (files env) (render physical) w₁ with
              ⟨e | r, w₂⟩
            · rw [hremove] at hidle
              rw [bind_error hremove]
              exact Or.inl ((view_idles hidle).trans hview₁)
            · rw [hremove] at hidle
              rw [bind_ok hremove]
              obtain ⟨w₃, hun, hview₃⟩ := unindex_view hexact (u := session.userId) (w := w₂) p
              rw [hun, hview₃, view_idles hidle, hview₁]
              exact Or.inr rfl
          · rw [if_neg hdir]
            have hsame := hunlink hw
            have hops := quiet_follows (u := session.userId)
              (@unlink_quiet env _ (clear_user hphys)) w hw
            rcases hun : (files env).unlink (render physical) w with ⟨e | r, w₁⟩
            · simp [files, World.fileCall] at hun
            · rw [hun] at hsame hops
              have hw₁ := hops.sound hw
              rw [bind_ok hun]
              cases r with
              | ok _ => exact Or.inl (by rw [hrelease hw₁, hsame])
              | error e =>
                  dsimp only
                  split
                  · exact Or.inl (by rw [hrelease hw₁, hsame])
                  · exact Or.inr (Or.inl hsame)

/-! ## The end of an upload -/

omit hexact in
variable (env) in
/-- The part of `commitUpload` behind the clearing of the destination. -/
def commitRest (u : ℤ) (st : UploadSession) : Act World Unit := do
  publishObject (backend env) st.md5 st.partPath st.totalSize
  let _ ← (files env).unlink st.partPath
  addContentRef (backend env) u st.virtualPath st.md5 st.totalSize

omit hexact in
/-- `addContentRef` touches no file. -/
theorem addContentRef_fs (p md5 : Bytes) (size : ℕ) (w : World) :
    (addContentRef (backend env) u p md5 size w).2.fs = w.fs := by
  unfold addContentRef
  simp only [World.backend_redis]
  rw [bind_ok (addRef_eq md5 p w)]
  rcases @indexFile_eq env u p md5 size false (str "ready") (setSet w (refsKey (env.dialect.arg md5))
    (insert (refMember u (env.dialect.arg p)) (w.redis.sets (refsKey (env.dialect.arg md5))))) with
    ⟨kept, -, h⟩ | ⟨-, e, h⟩
  · rw [bind_ok h, setPathMd5_eq]
    rfl
  · rw [bind_error h]
    rfl

/-- What is left once the object is there: the part file is removed, and the path attached. -/
theorem commitRest_attach {st : UploadSession} {s₁ : RefStore (ℤ × Bytes) Bytes Bytes Bytes}
    {p : Path} (hplain : ∀ n ∈ p, Plain n) (hp : st.partPath = render p)
    (hpart : Clear env st.partPath)
    (hpub : publishObject (backend env) st.md5 st.partPath st.totalSize w = (.ok (), w'))
    (hw' : Sound env w') (hdir : w'.fs.entry p ≠ some .dir) (hview : view env w' = s₁) :
    ∃ w₁, commitRest env u st w = (.ok (), w₁) ∧ w₁.fs.entry p = none ∧
      view env w₁ = s₁.attach (scheme env) (u, st.virtualPath) st.md5 st.totalSize := by
  have hidle := quiet_idles (unlink_quiet hpart) w' hw'
  have hgone : ((files env).unlink st.partPath w').2.fs.entry p = none := by
    simp only [files, World.fileCall, Action.move_apply, hp]
    rcases unlink_gone hw'.links hplain hdir with ⟨t, ht, hnone⟩ | ⟨⟨e, he⟩, hnone⟩
    · simp only [ht, hnone]
    · simp only [he, hnone]
  unfold commitRest
  rw [bind_ok hpub]
  rcases hun : (files env).unlink st.partPath w' with ⟨e | r, w₂⟩
  · simp [files, World.fileCall] at hun
  · rw [hun] at hidle hgone
    obtain ⟨w₁, hadd, hview₁⟩ := addContentRef_view hexact (u := u) (w := w₂) st.virtualPath st.md5
      st.totalSize
    have hfs := @addContentRef_fs env u st.virtualPath st.md5 st.totalSize w₂
    rw [hadd] at hfs
    refine ⟨w₁, by rw [bind_ok hun, hadd], by rw [hfs, hgone], ?_⟩
    rw [hview₁, view_idles hidle, hview]

omit hexact in
/-- A tree with another object in the view. -/
theorem view_object {t : FileTree} {m : Bytes} (hm : Hex32 m) (hcalm : Calm env {m} w.fs t) :
    view env { w with fs := t } =
      { view env w with
        object := Function.update (view env w).object m (t.fileAt (objectPath env m)) } := by
  refine RefStore.ext rfl rfl rfl (funext fun m' => ?_)
  by_cases hmm : m' = m
  · subst hmm
    simp [view, hm, World.object]
  · simp only [view, Function.update_of_ne hmm]
    split
    next hhex => exact object_calm hcalm hhex (by simpa using hmm)
    · rfl

variable (env) in
/-- No object of the right size stands under an md5. -/
def Missing (w : World) (m : Bytes) (size : ℕ) : Prop :=
  ∀ y, World.object env w m = some y → y.length ≠ size

/-- Behind the clearing, the bytes of the part file are published and the path is attached to
them, and the part file is gone. Or the copy of a missing object fails, and nothing changes in
the view; where md5 collides, an object may get lost. -/
theorem commitRest_view {free : Prop} {st : UploadSession} (hw : Sound env w) {p : Path}
    (hm : Hex32 st.md5) (hp : st.partPath = render p)
    (hsource : Source env w p st.md5 st.totalSize)
    (hsized : SizedUnless env free w st.md5 st.totalSize) (hpart : Clear env st.partPath) :
    (∃ e w', commitRest env u st w = (.error e, w') ∧
        (view env w' = view env w ∨ ¬ free ∧ view env w' = (view env w).lose st.md5) ∧
        Missing env w st.md5 st.totalSize ∧ CopyFault env w p st.md5 st.totalSize) ∨
      ∃ w' x, commitRest env u st w = (.ok (), w') ∧ env.md5Hex x = st.md5 ∧
        x.length = st.totalSize ∧ (free → ∀ y, (view env w).object st.md5 = some y → y = x) ∧
        view env w' = ((view env w).publish st.md5 x).attach (scheme env)
          (u, st.virtualPath) st.md5 st.totalSize ∧ w'.fs.entry p = none ∧
        ((view env w).object st.md5 = none → w.fs.fileAt p = some x) ∧
        (Missing env w st.md5 st.totalSize → ∃ i j, Through env w i j st.totalSize) := by
  have hobject : ∀ i, w.fs.entry (objectPath env st.md5) = some (.file i) →
      (view env w).object st.md5 = some (w.fs.data i) := by
    intro i hi
    simp [view, hm, World.object, FileTree.fileAt, hi]
  by_cases hthere : ∃ i, w.fs.entry (objectPath env st.md5) = some (.file i) ∧
      (w.fs.data i).length = st.totalSize
  · obtain ⟨i, hi, hlen⟩ := hthere
    have hpub := publishObject_present hw.links hm hi st.partPath
    rw [hlen] at hpub
    have hnote : IdleOp env w (putMeta env w st.md5 st.totalSize) := IdleOp.note _ st.md5 hm _
    have hdigest : env.md5Hex (w.fs.data i) = st.md5 := by
      obtain ⟨j, hj, hdata⟩ := hw.objects st.md5 hm _ hi
      rw [Library.Node.file.injEq] at hj
      rw [hj, hdata]
    obtain ⟨w', hrun, hgone, hview'⟩ := commitRest_attach hexact (u := u) hsource.plain hp hpart hpub
      (hnote.sound hw) hsource.no_dir
      ((view_idleOp hnote).trans (RefStore.publish_self (hobject i hi)).symm)
    refine Or.inr ⟨w', w.fs.data i, hrun, hdigest, hlen, fun _ y hy => ?_, hview', hgone, ?_, ?_⟩
    · exact Option.some.inj (hy.symm.trans (hobject i hi))
    · intro hnone
      rw [hobject i hi] at hnone
      exact absurd hnone (by simp)
    · intro hmissing
      exact absurd hlen (hmissing _ (by simp [World.object, FileTree.fileAt, hi]))
  · have hother : ∀ i, w.fs.entry (objectPath env st.md5) = some (.file i) →
        (w.fs.data i).length ≠ st.totalSize := fun i hi hlen => hthere ⟨i, hi, hlen⟩
    rcases publishObject_copies hw.links hm hsource (hw.writable hm) hother with h | h
    · obtain ⟨t, i, j, x, hpub, hx, hcalm, hj, hrecycles, hbytes, hthrough, -⟩ := h
      obtain ⟨hdigest, hlen⟩ := hsource.bytes x hx
      rw [← hp] at hpub
      have hops : UploadOps env True u w { w with fs := t } ∨ ¬ free ∧
          UploadOps env False u w { w with fs := t } := by
        cases hrecycles with
        | inl hold =>
            refine Or.inr ⟨hsized j hold (hother j hold), Relation.ReflTransGen.single ?_⟩
            exact UploadOp.replace w _ hm id hcalm (Or.inr ⟨j, hj, hold, by rw [hbytes, hdigest]⟩)
        | inr hnew =>
            refine Or.inl (Relation.ReflTransGen.single (UploadOp.op ?_))
            exact StoreOp.publish w _ hm hcalm hnew.1 ⟨j, hj, hnew.2, by rw [hbytes, hdigest]⟩
      have hw₁ : Sound env { w with fs := t } :=
        hops.elim (fun h => h.sound hw) fun h => h.2.sound hw
      have hnote : IdleOp env { w with fs := t } (putMeta env { w with fs := t } st.md5
          st.totalSize) := IdleOp.note _ st.md5 hm _
      have hview : view env { w with fs := t } = (view env w).publish st.md5 x := by
        rw [view_object hm hcalm]
        simp [RefStore.publish, FileTree.fileAt, hj, hbytes]
      obtain ⟨w', hrun, hgone, hview'⟩ := commitRest_attach hexact (u := u) hsource.plain hp hpart hpub
        (hnote.sound hw₁) (fun hd => hsource.no_dir (hcalm.dirs p hsource.place hd))
        ((view_idleOp hnote).trans hview)
      refine Or.inr ⟨w', x, hrun, hdigest, hlen, fun hfree y hy => ?_, hview', hgone,
        fun _ => hx, fun _ => ⟨i, j, hthrough⟩⟩
      cases hrecycles with
      | inl hold => exact absurd hfree (hsized j hold (hother j hold))
      | inr hnew => simp [view, hm, World.object, FileTree.fileAt, hnew.1] at hy
    · obtain ⟨e, t, hpub, hcalm, hfault⟩ := h
      rw [← hp] at hpub
      have hmissing : Missing env w st.md5 st.totalSize := by
        intro y hy
        cases he : w.fs.entry (objectPath env st.md5) with
        | none => simp [World.object, FileTree.fileAt, he] at hy
        | some z =>
            obtain ⟨i, rfl⟩ := hw.writable hm z he
            simp only [World.object, FileTree.fileAt, he, Option.some.injEq] at hy
            exact hy ▸ hother i he
      refine Or.inl ⟨e, _, bind_error hpub, ?_, hmissing, hfault⟩
      cases hcalm with
      | inl hcalm => exact Or.inl (view_tree hcalm)
      | inr hgone =>
          cases he : w.fs.entry (objectPath env st.md5) with
          | none => exact Or.inl (view_tree (calm_absent hgone.1 he hgone.2))
          | some y =>
              obtain ⟨i, rfl⟩ := hw.writable hm y he
              refine Or.inr ⟨hsized i he (hother i he), ?_⟩
              rw [view_object hm hgone.1]
              simp [RefStore.lose, FileTree.fileAt, hgone.2]

/-- **`commitUpload`** changes nothing, or detaches the file at the path, if there is one,
publishes the bytes that were uploaded and attaches the path to them. -/
theorem commitUpload_view {session : UserSession} {st : UploadSession} {fd : ℕ}
    (hw : Sound env w) (hopen : OpenUpload env w st fd) :
    (∃ e w', commitUpload (backend env) session st w = (.error e, w') ∧
      view env w' = view env w) ∨
    ∃ s₁, ((∃ d n, (view env w).row (session.userId, st.virtualPath) = some (.file d n)) ∧
          s₁ = (view env w).detach (scheme env) (session.userId, st.virtualPath) ∨
        (∀ d n, (view env w).row (session.userId, st.virtualPath) ≠ some (.file d n)) ∧
          s₁ = view env w) ∧
      ((∃ e w', commitUpload (backend env) session st w = (.error e, w') ∧
          (view env w' = s₁ ∨ ¬ World.CollisionFree env w ∧ view env w' = s₁.lose st.md5)) ∨
        ∃ w' x, commitUpload (backend env) session st w = (.ok (), w') ∧ Hex32 st.md5 ∧
          env.md5Hex x = st.md5 ∧ x.length = st.totalSize ∧
          (World.CollisionFree env w → ∀ y, s₁.object st.md5 = some y → y = x) ∧
          view env w' = (s₁.publish st.md5 x).attach (scheme env)
            (session.userId, st.virtualPath) st.md5 st.totalSize) := by
  obtain ⟨dest, hdest, hdesteq⟩ := hopen.dest
  obtain ⟨username, hname, hpart⟩ := hopen.part
  have hzero : 0 ∉ baseName st.destPath := by
    rw [hdesteq]
    exact zero_not_mem_baseName (zero_not_mem_render hdest.plain)
  have hclear : Clear env st.partPath := hpart ▸ clear_part hname hopen.md5 hzero
  unfold commitUpload
  simp only [World.backend_files]
  obtain ⟨size, hsize⟩ := @fileSize_ok env st.partPath w
  rw [bind_ok hsize]
  by_cases hsizeeq : size = st.totalSize
  swap
  · rw [if_pos hsizeeq]
    exact Or.inl ⟨_, w, rfl, rfl⟩
  rw [if_neg (not_not.mpr hsizeeq)]
  subst hsizeeq
  rcases hmd5 : md5File (backend env) st.partPath w with ⟨e | md5, w₁⟩
  · have hw₁ := (@md5File_reads env st.partPath).end_eq hmd5
    exact Or.inl ⟨e, w₁, bind_error hmd5, by rw [hw₁]⟩
  have hw₁ := (@md5File_reads env st.partPath).end_eq hmd5
  subst hw₁
  rw [bind_ok hmd5]
  by_cases hmd5eq : md5 = st.md5
  swap
  · rw [if_pos hmd5eq]
    have hidle := quiet_idles (unlink_quiet hclear) w₁ hw
    exact Or.inl ⟨_, ((files env).unlink st.partPath w₁).2, rfl, view_idles hidle⟩
  rw [if_neg (not_not.mpr hmd5eq)]
  subst hmd5eq
  obtain ⟨p, x, hm, hp, hx, hsource⟩ := commit_source hw hopen hsize hmd5
  have hsized := sized_of_source hw hm hx hsource
  -- the rest, from any store that the clearing of the destination leads to
  have hgo : ∀ w₂, Sound env w₂ → Sheds w₁.fs w₂.fs → ∀ s₁, view env w₂ = s₁ →
      (∃ e w', commitRest env session.userId st w₂ = (.error e, w') ∧
        (view env w' = s₁ ∨ ¬ World.CollisionFree env w₁ ∧ view env w' = s₁.lose st.md5)) ∨
      ∃ w' x, commitRest env session.userId st w₂ = (.ok (), w') ∧ Hex32 st.md5 ∧
        env.md5Hex x = st.md5 ∧ x.length = st.totalSize ∧
        (World.CollisionFree env w₁ → ∀ y, s₁.object st.md5 = some y → y = x) ∧
        view env w' = (s₁.publish st.md5 x).attach (scheme env)
          (session.userId, st.virtualPath) st.md5 st.totalSize := by
    rintro w₂ hw₂ hshed s₁ rfl
    obtain ⟨hsource₂, hsized₂⟩ := hsource.shed hshed hsized
    rcases commitRest_view hexact (u := session.userId) hw₂ hm hp hsource₂ hsized₂ hclear with h | h
    · obtain ⟨e, w', hrun, hview, -⟩ := h
      exact Or.inl ⟨e, w', hrun, hview⟩
    · obtain ⟨w', y, hrun, hdigest, hlen, hsame, hview, -⟩ := h
      exact Or.inr ⟨w', y, hrun, hm, hdigest, hlen, hsame, hview⟩
  rw [bind_ok (lookupPlainFile_eq st.virtualPath w₁)]
  cases hrow : (w₁.rows.find? (World.isRow env session.userId st.virtualPath)).filter
      fun r => !r.isDir with
  | some r =>
      have hfile := (lookup_some hexact hrow).1
      obtain ⟨w₂, hrel, hview₂⟩ := releaseContentRef_view hexact (u := session.userId) hw
        st.virtualPath
      have hops := @releaseContentRef_follows env session.userId st.virtualPath w₁ hw
      have hshed := @releaseContentRef_shed env session.userId st.virtualPath w₁
      rw [hrel] at hops hshed
      refine Or.inr ⟨_, Or.inl ⟨⟨_, _, hfile⟩, rfl⟩, ?_⟩
      dsimp only
      rw [bind_ok hrel]
      exact hgo w₂ (hops.sound hw) hshed _ hview₂
  | none =>
      have hnone := lookup_none hrow
      refine Or.inr ⟨_, Or.inr ⟨hnone, rfl⟩, ?_⟩
      obtain ⟨there, hthere⟩ := @fileExists_ok env st.destPath w₁
      dsimp only
      rw [bind_ok hthere]
      cases there with
      | false => exact hgo w₁ hw (Sheds.refl _) _ rfl
      | true =>
          have hidle := quiet_idles (@unlink_quiet env _ (clear_user hdest)) w₁ hw
          have hshed := @unlink_shed env (render dest) w₁
          rw [← hdesteq] at hidle hshed
          rcases hun : (files env).unlink st.destPath w₁ with ⟨e | r, w₂⟩
          · simp [files, World.fileCall] at hun
          · rw [hun] at hidle hshed
            simp only [if_true]
            rw [bind_ok hun]
            exact hgo w₂ (hidle.sound hw) hshed _ (view_idles hidle)

end Exact

end CloudStore.Interface
