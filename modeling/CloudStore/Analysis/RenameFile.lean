import CloudStore.Interface.Coherence
import Mathlib.Data.Multiset.Dedup

/-!
# Renaming a file

In a coherent store the rename of an indexed file succeeds. It moves the row and loses no
file if and only if the destination is no indexed file: what the destination held before
is written over, and a file that is renamed to itself is removed.
-/

set_option autoImplicit false

namespace CloudStore.Analysis

open CloudStore.Library (Bytes Entry RefStore)
open CloudStore.Library.Action (bind_ok)
open CloudStore.Model
open CloudStore.Model.TransferService
open CloudStore.Model.World (backend)
open CloudStore.Interface

/-- The md5 and the size of every file of a user. -/
def userFiles (w : World) (u : ℤ) : Multiset (Bytes × ℕ) :=
  (w.rows.filter fun r => r.userId = u ∧ r.isDir = false).map fun r => (r.md5, r.size)

/-- The paths of the files of a user. -/
def filePaths (w : World) (u : ℤ) : Multiset Bytes :=
  (w.rows.filter fun r => r.userId = u ∧ r.isDir = false).map FileRow.virtualPath

/-- A file has moved from the path `p` to the path `q`, and no file was lost. -/
structure FileMoved (env : Env) (w w' : World) (u : ℤ) (p q : Bytes) : Prop where
  files : userFiles w' u = userFiles w u
  moved : (view env w').row (u, q) = (view env w).row (u, p)
  gone : p ≠ q → (view env w').row (u, p) = none
  others : ∀ k, k ≠ (u, p) → k ≠ (u, q) →
    (view env w').row k = (view env w).row k ∧ (view env w').link k = (view env w).link k

variable {env : Env} {u : ℤ} {w w' : World} {p q : Bytes}

/-- The md5 and the size that the view has for a path of the user. -/
def contentOf (env : Env) (w : World) (u : ℤ) (p : Bytes) : Bytes × ℕ :=
  match (view env w).row (u, p) with
  | some (.file d n) => (d, n)
  | _ => ([], 0)

theorem mem_filePaths : p ∈ filePaths w u ↔ FileAt w u p fun _ => True := by
  unfold filePaths FileAt
  rw [Multiset.mem_coe, List.mem_map]
  constructor
  · rintro ⟨r, hr, rfl⟩
    rw [List.mem_filter, decide_eq_true_eq] at hr
    exact ⟨r, hr.1, hr.2.1, rfl, hr.2.2, trivial⟩
  · rintro ⟨r, hr, hu, hp, hdir, -⟩
    refine ⟨r, ?_, hp⟩
    rw [List.mem_filter, decide_eq_true_eq]
    exact ⟨hr, hu, hdir⟩

section

variable (hexact : env.dialect = Dialect.exact)
include hexact

/-- No path is listed twice. -/
theorem filePaths_nodup (hw : Sound env w) : (filePaths w u).Nodup := by
  unfold filePaths
  rw [Multiset.coe_nodup]
  have hkeys := hw.rowKeys hexact
  have hsub : ((w.rows.filter fun r => r.userId = u ∧ r.isDir = false).map
      fun r => (r.userId, r.virtualPath)).Nodup :=
    hkeys.sublist (List.filter_sublist.map _)
  rw [List.nodup_map_iff_inj_on (List.Nodup.of_map _ hsub)]
  intro r hr r' hr' hpath
  apply List.inj_on_of_nodup_map hsub hr hr'
  rw [List.mem_filter, decide_eq_true_eq] at hr hr'
  rw [hr.2.1, hr'.2.1, hpath]

/-- The files of a user, path by path. -/
theorem userFiles_eq (hw : Sound env w) :
    userFiles w u = (filePaths w u).map (contentOf env w u) := by
  unfold userFiles filePaths
  rw [Multiset.map_coe, List.map_map, Multiset.coe_eq_coe]
  apply List.Perm.of_eq
  apply List.map_congr_left
  intro r hr
  rw [List.mem_filter, decide_eq_true_eq] at hr
  obtain ⟨hr, rfl, hdir⟩ := hr
  have hrow := row_of_mem hexact hw hr
  rw [entryOf, hdir] at hrow
  simp [contentOf, hrow]

theorem file_row (hw : Sound env w) :
    FileAt w u p (fun _ => True) ↔ ∃ d n, (view env w).row (u, p) = some (.file d n) := by
  rw [fileAt_iff hexact hw]
  simp

/-- The rename of an indexed file moves a file of the view. -/
theorem renameUserPath_file {session : UserSession} (hw : Sound env w)
    (hfile : FileAt w session.userId p fun _ => True) (source dest : Bytes) :
    ∃ d n w', renameUserPath (backend env) session source p dest q w = (.ok (), w') ∧
      Sound env w' ∧ (view env w).row (session.userId, p) = some (.file d n) ∧
      view env w' = (view env w).moveFile (scheme env) (session.userId, p) (session.userId, q)
        d n := by
  unfold renameUserPath
  rw [bind_ok (lookupPlainFile_eq p w)]
  cases hrow : (w.rows.find? (World.isRow env session.userId p)).filter fun r => !r.isDir with
  | none =>
      obtain ⟨d, n, hd⟩ := (file_row hexact hw).mp hfile
      exact absurd hd (lookup_none hrow d n)
  | some r =>
      obtain ⟨hview, hr, -⟩ := lookup_some hexact hrow
      obtain ⟨w', hrun, hmove⟩ := renameIndexedFile_view hexact (u := session.userId) (w := w) p q
        r.md5 r.size
      have hfollow := @renameIndexedFile_follows env session.userId r.md5 (hw.rowShort r hr) p q
        r.size w hw
      rw [hrun] at hfollow
      exact ⟨r.md5, r.size, w', hrun, hfollow.sound hw, hview, hmove⟩

/-- **Moving a file to a free path loses no file.** The paths of the user change by one. -/
theorem fileMoved_of_free (hw : Sound env w) (hw' : Sound env w') {d : Bytes} {n : ℕ}
    (hrow : (view env w).row (u, p) = some (.file d n))
    (hmove : view env w' = (view env w).moveFile (scheme env) (u, p) (u, q) d n)
    (hfree : ¬ FileAt w u q fun _ => True) : FileMoved env w w' u p q := by
  have hp : p ∈ filePaths w u := mem_filePaths.mpr ((file_row hexact hw).mpr ⟨d, n, hrow⟩)
  have hq : q ∉ filePaths w u := fun h => hfree (mem_filePaths.mp h)
  have hne : p ≠ q := by
    rintro rfl
    exact hq hp
  have hrows : ∀ a, (view env w').row (u, a) = if a = p then none
      else if a = q then some (.file d n) else (view env w).row (u, a) := by
    intro a
    rw [hmove]
    by_cases hap : a = p
    · simp [RefStore.moveFile, hap]
    · by_cases haq : a = q
      · subst haq
        simp [RefStore.moveFile, hap]
      · simp [RefStore.moveFile, hap, haq]
  refine ⟨?_, ?_, ?_, ?_⟩
  · have hnodup := filePaths_nodup (u := u) hexact hw
    have hpaths : filePaths w' u = q ::ₘ (filePaths w u).erase p := by
      have hcons : (q ::ₘ (filePaths w u).erase p).Nodup :=
        Multiset.nodup_cons.mpr ⟨fun h => hq (Multiset.mem_of_mem_erase h), hnodup.erase p⟩
      apply (Multiset.Nodup.ext (filePaths_nodup hexact hw') hcons).mpr
      intro a
      rw [mem_filePaths, file_row hexact hw', hrows, Multiset.mem_cons, hnodup.mem_erase_iff,
        mem_filePaths, file_row hexact hw]
      by_cases hap : a = p
      · simp [hap, hne]
      · by_cases haq : a = q
        · subst haq
          simp [hap]
        · simp [hap, haq]
    have hsame : ((filePaths w u).erase p).map (contentOf env w' u) =
        ((filePaths w u).erase p).map (contentOf env w u) := by
      apply Multiset.map_congr rfl
      intro a ha
      have hap : a ≠ p := (hnodup.mem_erase_iff.mp ha).1
      have haq : a ≠ q := by
        rintro rfl
        exact hq (Multiset.mem_of_mem_erase ha)
      simp only [contentOf, hrows, if_neg hap, if_neg haq]
    have hhead : contentOf env w' u q = contentOf env w u p := by
      simp [contentOf, hrows, hne.symm, hrow]
    calc userFiles w' u = (filePaths w' u).map (contentOf env w' u) := userFiles_eq hexact hw'
      _ = contentOf env w u p ::ₘ ((filePaths w u).erase p).map (contentOf env w u) := by
        rw [hpaths, Multiset.map_cons, hsame, hhead]
      _ = (filePaths w u).map (contentOf env w u) := by
        rw [← Multiset.map_cons, Multiset.cons_erase hp]
      _ = userFiles w u := (userFiles_eq hexact hw).symm
  · rw [hrows, if_neg hne.symm, if_pos rfl, hrow]
  · intro _
    rw [hrows, if_pos rfl]
  · intro k hkp hkq
    rw [hmove]
    simp [RefStore.moveFile, hkp, hkq]

/-- A file that is written over is lost: the user has a file less, or the moved one is gone. -/
theorem lost_of_occupied (hw : Sound env w) (hw' : Sound env w') {d : Bytes} {n : ℕ}
    (hrow : (view env w).row (u, p) = some (.file d n))
    (hmove : view env w' = (view env w).moveFile (scheme env) (u, p) (u, q) d n)
    (hfile : FileAt w u q fun _ => True) : ¬ FileMoved env w w' u p q := by
  intro h
  have hrowp : (view env w').row (u, p) = none := by
    rw [hmove]
    simp [RefStore.moveFile]
  by_cases hne : p = q
  · subst hne
    have hmoved := h.moved
    rw [hrowp, hrow] at hmoved
    exact absurd hmoved (by simp)
  · have hp : p ∈ filePaths w u := mem_filePaths.mpr ((file_row hexact hw).mpr ⟨d, n, hrow⟩)
    have hnodup := filePaths_nodup (u := u) hexact hw
    have hpaths : filePaths w' u = (filePaths w u).erase p := by
      apply (Multiset.Nodup.ext (filePaths_nodup hexact hw') (hnodup.erase p)).mpr
      intro a
      rw [hnodup.mem_erase_iff, mem_filePaths, mem_filePaths]
      by_cases hap : a = p
      · subst hap
        simp [file_row hexact hw', hrowp]
      · by_cases haq : a = q
        · subst haq
          have hmoved := h.moved
          rw [hrow] at hmoved
          simp [file_row hexact hw', hmoved, hap, hfile]
        · have hsame := (h.others (u, a) (by simp [hap]) (by simp [haq])).1
          rw [file_row hexact hw', file_row hexact hw, hsame]
          simp [hap]
    have hcard := congrArg Multiset.card h.files
    rw [userFiles_eq hexact hw', userFiles_eq hexact hw, Multiset.card_map, Multiset.card_map,
      hpaths] at hcard
    have hless := Multiset.card_erase_lt_of_mem hp
    omega

end

/-- **Renaming a file.** In a coherent store, a rename of an indexed file succeeds, and it
moves the file without losing any exactly if the destination is no indexed file. -/
theorem rename_keeps_files (hexact : env.dialect = Dialect.exact) (hw : Coherent env w)
    {session : UserSession} (hfile : FileAt w session.userId p fun _ => True)
    (source dest : Bytes) :
    ∃ w', renameUserPath (backend env) session source p dest q w = (.ok (), w') ∧
      (FileMoved env w w' session.userId p q ↔ ¬ FileAt w session.userId q fun _ => True) := by
  obtain ⟨d, n, w', hrun, hw', hrow, hmove⟩ := renameUserPath_file (q := q) hexact hw.sound hfile
    source dest
  refine ⟨w', hrun, ?_, ?_⟩
  · intro hmoved hdest
    exact lost_of_occupied hexact hw.sound hw' hrow hmove hdest hmoved
  · intro hfree
    exact fileMoved_of_free hexact hw.sound hw' hrow hmove hfree

/-- The rename of an uploaded file to a free path. -/
theorem rename_keeps_files_upload :
    ∃ w', renameUserPath (backend Sample.env) { userId := 1 } [] (str "/a") [] (str "/b")
        (Sample.after (Sample.login ++ Sample.uploadEmpty "/a")).world = (.ok (), w') ∧
      FileMoved Sample.env (Sample.after (Sample.login ++ Sample.uploadEmpty "/a")).world w' 1
        (str "/a") (str "/b") := by
  have hfacts : (Server.machine Sample.env).Allows (Avoids Sample.env (Unsettles Sample.env))
        (started Sample.env 4096 Sample.entropy) (Sample.login ++ Sample.uploadEmpty "/a") ∧
      FileAt (Sample.after (Sample.login ++ Sample.uploadEmpty "/a")).world 1 (str "/a")
        (fun _ => True) ∧
      ¬ FileAt (Sample.after (Sample.login ++ Sample.uploadEmpty "/a")).world 1 (str "/b")
        (fun _ => True) := by
    decide +kernel
  obtain ⟨hallows, hfile, hfree⟩ := hfacts
  have hw := run_coherent rfl (playback_run hallows)
  obtain ⟨w', hrun, hmoved⟩ := @rename_keeps_files Sample.env _ (str "/a") (str "/b") rfl hw
    { userId := 1 } hfile [] []
  exact ⟨w', hrun, hmoved.mpr hfree⟩

/-- A file that is renamed to the path of another file replaces it. -/
theorem rename_replaces : ∃ w w', Coherent Sample.env w ∧
    FileAt w 1 (str "/a") (fun _ => True) ∧
      renameUserPath (backend Sample.env) { userId := 1 } [] (str "/a") [] (str "/b") w =
        (.ok (), w') ∧ ¬ FileMoved Sample.env w w' 1 (str "/a") (str "/b") := by
  let es := Sample.login ++ Sample.uploadEmpty "/a" ++ Sample.uploadEmpty "/b"
  have hfacts : (Server.machine Sample.env).Allows (Avoids Sample.env (Unsettles Sample.env))
        (started Sample.env 4096 Sample.entropy) es ∧
      FileAt (Sample.after es).world 1 (str "/a") (fun _ => True) ∧
      FileAt (Sample.after es).world 1 (str "/b") (fun _ => True) := by
    decide +kernel
  obtain ⟨hallows, hfile, hdest⟩ := hfacts
  have hw := run_coherent rfl (playback_run hallows)
  obtain ⟨d, n, w', hrun, hw', hrow, hmove⟩ := @renameUserPath_file Sample.env _ (str "/a") (str "/b") rfl
    { userId := 1 } hw.sound hfile [] []
  exact ⟨_, w', hw, hfile, hrun, lost_of_occupied rfl hw.sound hw' hrow hmove hdest⟩

end CloudStore.Analysis
