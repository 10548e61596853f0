import CloudStore.Interface.Playback

/-!
# Coherent stores

A store is coherent if its rows, reference sets, path keys and objects agree. Over the
view this is `RefStore.Coherent`, which every service keeps that does not write over a
file without releasing it. So every run whose calls avoid that ends in a coherent store.
-/

set_option autoImplicit false

namespace CloudStore.Interface

open CloudStore.Library (Bytes Entry RefStore)
open CloudStore.Model
open CloudStore.Model.RedisStore
open CloudStore.Model.TransferService
open CloudStore.Model.World (backend)

variable (env : Env)

/-- Rows, reference sets, path keys and objects agree: the references are those of the
files of the index, path keys hold the md5 of a file and nothing else, an object is there
exactly if it has a reference, and it has the recorded size and md5. -/
structure Coherent (w : World) : Prop where
  sound : Sound env w
  refs : ∀ m x, x ∈ w.redis.sets (refsKey m) ↔
    ∃ u p, refMember u p = x ∧ FileAt w u p fun d => d = m
  keys : ∀ u p m, m ≠ [] →
    (w.redis.strings (pathKey u p) = m ↔ FileAt w u p fun d => d = m)
  objects : ∀ m, Hex32 m → (World.object env w m ≠ none ↔ w.redis.sets (refsKey m) ≠ ∅)
  contents : ∀ r ∈ w.rows, r.isDir = false →
    ∃ x, World.object env w r.md5 = some x ∧ x.length = r.size ∧ env.md5Hex x = r.md5

variable {env} {u : ℤ} {w w' : World}

theorem scheme_blank : ¬ (scheme env).stored (scheme env).blank := by
  intro h
  exact absurd (show Hex32 [] from h) (by decide)

section

variable (hexact : env.dialect = Dialect.exact)
include hexact

/-- **A store is coherent if and only if its view is.** -/
theorem coherent_iff :
    Coherent env w ↔ Sound env w ∧ (view env w).Coherent (scheme env) := by
  constructor
  · intro h
    have hw := h.sound
    have hfile : ∀ {k : ℤ × Bytes} {d : Bytes} {n : ℕ}, (view env w).row k = some (.file d n) →
        ∃ x, World.object env w d = some x ∧ x.length = n ∧ env.md5Hex x = d := by
      intro k d n hrow
      obtain ⟨r, hr, -, -, hdir, rfl, rfl⟩ := mem_of_row hexact hrow
      exact h.contents r hr hdir
    have hstored : ∀ k d n, (view env w).row k = some (.file d n) → Hex32 d := by
      intro k d n hrow
      obtain ⟨x, -, -, hx⟩ := hfile hrow
      exact hx ▸ env.md5_hex x
    have hrefs : ∀ d r, r ∈ (view env w).refs d ↔
        ∃ k n, (scheme env).ref k = r ∧ (view env w).row k = some (.file d n) := by
      intro d r
      refine (h.refs d r).trans ?_
      constructor
      · rintro ⟨u, p, rfl, hfile⟩
        obtain ⟨d', n, hrow, rfl⟩ := (fileAt_iff hexact hw).mp hfile
        exact ⟨(u, p), n, rfl, hrow⟩
      · rintro ⟨k, n, rfl, hrow⟩
        exact ⟨k.1, k.2, rfl, (fileAt_iff hexact hw).mpr ⟨d, n, hrow, rfl⟩⟩
    refine ⟨hw, hstored, ?_, ⟨?_, ?_, ?_⟩, ?_, ?_⟩
    · intro k d n hrow _
      obtain ⟨x, hx, hlen, -⟩ := hfile hrow
      have hm := hstored k d n hrow
      exact ⟨⟨x, by simp only [view, if_pos hm, hx], hlen⟩, (hrefs d _).mpr ⟨k, n, rfl, hrow⟩⟩
    · intro d r hr
      exact (hrefs d r).mp hr
    · intro d hobj
      by_cases hm : Hex32 d
      · simp only [view, if_pos hm] at hobj
        exact (h.objects d hm).mp hobj
      · simp only [view, if_neg hm] at hobj
        exact absurd rfl hobj
    · intro k d n hrow hd
      right
      exact (h.keys k.1 k.2 d hd).mpr ((fileAt_iff hexact hw).mpr ⟨d, n, hrow, rfl⟩)
    · intro k d hd
      refine (h.keys k.1 k.2 d hd).trans ((fileAt_iff hexact hw).trans ?_)
      constructor
      · rintro ⟨d', n, hrow, rfl⟩
        exact ⟨n, hrow⟩
      · rintro ⟨n, hrow⟩
        exact ⟨d, n, hrow, rfl⟩
    · intro d x hobj
      by_cases hm : Hex32 d
      · simp only [view, if_pos hm] at hobj
        cases he : w.fs.entry (World.objectPath env d) with
        | none => simp [World.object, Library.FileTree.fileAt, he] at hobj
        | some y =>
            obtain ⟨i, rfl, hi⟩ := hw.objects d hm y he
            simp only [World.object, Library.FileTree.fileAt, he, Option.some.injEq] at hobj
            exact hobj ▸ hi
      · simp only [view, if_neg hm] at hobj
        exact absurd hobj (by simp)
  · rintro ⟨hw, h⟩
    refine ⟨hw, ?_, ?_, ?_, ?_⟩
    · intro m x
      constructor
      · intro hx
        obtain ⟨k, n, rfl, hrow⟩ := h.exact.1 m x hx
        exact ⟨k.1, k.2, rfl, (fileAt_iff hexact hw).mpr ⟨m, n, hrow, rfl⟩⟩
      · rintro ⟨u, p, rfl, hfile⟩
        obtain ⟨d, n, hrow, rfl⟩ := (fileAt_iff hexact hw).mp hfile
        exact h.refs_iff.mpr ⟨n, hrow⟩
    · intro u p m hm
      refine (h.mirrored (u, p) m hm).trans (Iff.trans ?_ (fileAt_iff hexact hw).symm)
      constructor
      · rintro ⟨n, hrow⟩
        exact ⟨m, n, hrow, rfl⟩
      · rintro ⟨d, n, hrow, rfl⟩
        exact ⟨n, hrow⟩
    · intro m hm
      have hobj : (view env w).object m = World.object env w m := by simp only [view, if_pos hm]
      constructor
      · intro hne
        exact h.exact.2.1 m (by rwa [hobj])
      · intro hne
        obtain ⟨r, hr⟩ := Finset.nonempty_iff_ne_empty.mpr hne
        obtain ⟨k, n, -, hrow⟩ := h.exact.1 m r hr
        rw [← hobj]
        exact h.object_iff.mpr ⟨k, n, hrow⟩
    · intro r hr hdir
      have hrow := row_of_mem hexact hw hr
      rw [entryOf, hdir] at hrow
      have hm : Hex32 r.md5 := h.stored _ _ _ hrow
      obtain ⟨⟨x, hx, hlen⟩, -⟩ := h.backed _ _ _ hrow hm
      have hdigest := h.addressed _ _ hx
      simp only [view, if_pos hm] at hx
      exact ⟨x, hx, hlen, hdigest⟩

theorem Coherent.view (h : Coherent env w) : (view env w).Coherent (scheme env) :=
  ((coherent_iff hexact).mp h).2

end

/-! ## Runs -/

variable (env) in
/-- The calls that may break the agreement: a directory over a file, a rename of anything but
a file to a free path, an instant upload of a text that is no md5 or over a file with the
same content, and an upload where md5 collides. -/
def Unsettles (w : World) (_ : Connection) : Call → Prop
  | .indexFile u p _ _ _ _ => FileAt w u p fun _ => True
  | .renameUserPath session _ p _ q =>
    ¬ FileAt w session.userId p (fun _ => True) ∨ FileAt w session.userId q fun _ => True
  | .instantUpload session _ p md5 _ _ _ _ =>
    ¬ Hex32 md5 ∨ FileAt w session.userId p fun d => d = md5
  | .finishUpload _ => ¬ World.CollisionFree env w
  | _ => False

instance (w : World) (c : Connection) (call : Call) : Decidable (Unsettles env w c call) :=
  match call with
  | .indexFile .. => by dsimp only [Unsettles]; infer_instance
  | .renameUserPath .. => by dsimp only [Unsettles]; infer_instance
  | .instantUpload .. => by dsimp only [Unsettles]; infer_instance
  | .finishUpload .. => by dsimp only [Unsettles]; infer_instance
  | .registerUser .. | .login .. | .checkToken .. | .logout .. | .listDir .. | .statPath .. |
    .makeDir .. | .lookupFile .. | .listIndexed .. | .removeUserPath .. | .queryInstant .. |
    .closeUpload | .beginUpload .. | .writeChunk .. | .closeDownload | .beginDownload .. |
    .readChunk .. => inferInstanceAs (Decidable False)

/-- **What every effect of a call keeps that does not unsettle the store.** -/
theorem effect_coherent (hexact : env.dialect = Dialect.exact) (hw : Sound env w)
    {c : Connection} {call : Call} {s' : RefStore (ℤ × Bytes) Bytes Bytes Bytes}
    (h : (view env w).Coherent (scheme env)) (heffect : Effect env w c call s')
    (hcall : ¬ Unsettles env w c call) : s'.Coherent (scheme env) := by
  have hgone : ∀ {k : ℤ × Bytes}, ∀ d n,
      ((view env w).detach (scheme env) k).row k ≠ some (.file d n) := by
    intro k d n
    simp [RefStore.detach_row]
  have hfree : ∀ {u : ℤ} {p : Bytes}, ¬ FileAt w u p (fun _ => True) →
      ∀ d n, (view env w).row (u, p) ≠ some (.file d n) := by
    intro u p hp d n hrow
    exact hp ((fileAt_iff hexact hw).mpr ⟨d, n, hrow, trivial⟩)
  cases heffect with
  | same => exact h
  | mkdir u p status => exact h.mkdir (hfree hcall)
  | remove session physical p => exact h.detach scheme_blank _
  | removeBelow session physical p hrow hdir => exact h.detachAll scheme_blank _
  | removeDir session physical p hrow hdir =>
      exact (h.detachAll scheme_blank _).clear (RefStore.detachAll_row _ hrow)
  | moveFile session source p dest q hrow =>
      apply h.moveFile hrow
      apply hfree
      intro hq
      exact hcall (Or.inr hq)
  | moveOther session source p dest q n hrow hmove =>
      exfalso
      apply hcall
      left
      intro hp
      obtain ⟨d, n, hd, -⟩ := (fileAt_iff hexact hw).mp hp
      exact hrow d n hd
  | instant session dest p md5 size offset proof overwrite hproof hobj hcleared =>
      have hm : Hex32 md5 := by
        by_contra hm
        exact hcall (Or.inl hm)
      obtain ⟨x, hx, hlen⟩ := hobj hm
      rcases hcleared with ⟨-, ⟨d, n, hrow⟩, rfl⟩ | ⟨hnone, rfl⟩
      · refine (h.detach scheme_blank _).attach hgone hm ?_ hlen
        have hd : d ≠ md5 := by
          rintro rfl
          exact hcall (Or.inr ((fileAt_iff hexact hw).mpr ⟨d, n, hrow, rfl⟩))
        have hrel := (h.released_eq scheme_blank hrow).1
        rw [RefStore.detach_object, hrel, if_neg (fun hc => hd hc.1.symm)]
        exact hx
      · exact h.attach hnone hm hx hlen
  | clearUpload session hopen hrow => exact h.detach scheme_blank _
  | finish session hopen hcleared hhex hdigest hlen hsame =>
      have hsame := hsame (not_not.mp hcall)
      rcases hcleared with ⟨-, rfl⟩ | ⟨hnone, rfl⟩
      · exact (h.detach scheme_blank _).publish_attach hgone hhex hdigest hsame hlen
      · exact h.publish_attach hnone hhex hdigest hsame hlen
  | lose session hopen hcollide hcleared => exact absurd hcollide hcall

/-- **Every run that does not unsettle the store ends in a coherent one.** -/
theorem run_coherent (hexact : env.dialect = Dialect.exact)
    {hist : List (Library.Machine.Record ServerState Event Output)} {s : ServerState}
    (run : (Server.machine env).Run (Server.Start env) (Avoids env (Unsettles env)) hist s) :
    Coherent env s.world := by
  have key := run_view (I := fun s => s.Coherent (scheme env)) hexact RefStore.Coherent.empty
    (fun w c call s' hw h heffect hcall => effect_coherent hexact hw h heffect hcall) run
  exact (coherent_iff hexact).mpr ⟨key.1.world, key.2⟩

/-! ## What a path holds -/

/-- A path holds the content `d`: its row, its key and its reference say so. -/
structure HoldsFile (env : Env) (w : World) (u : ℤ) (p d : Bytes) : Prop where
  sound : Sound env w
  row : ∃ size, (view env w).row (u, p) = some (.file d size)
  nonempty : d ≠ []
  key : (view env w).link (u, p) = d
  ref : refMember u p ∈ (view env w).refs d

/-- The file of a path in a coherent store is held by the path. -/
theorem coherent_holds (hexact : env.dialect = Dialect.exact) {p d : Bytes}
    (hw : Coherent env w) (hfile : FileAt w u p fun m => m = d) : HoldsFile env w u p d := by
  obtain ⟨m, size, hrow, rfl⟩ := (fileAt_iff hexact hw.sound).mp hfile
  have hview := hw.view hexact
  have hm : Hex32 m := hview.stored _ _ _ hrow
  have hne : m ≠ [] := by
    rintro rfl
    exact absurd hm.1 (by decide)
  exact ⟨hw.sound, ⟨size, hrow⟩, hne, (hw.keys u p m hne).mpr hfile,
    (hw.refs m _).mpr ⟨u, p, rfl, hfile⟩⟩

/-- What has the same view holds the same. -/
theorem HoldsFile.of_view {p d : Bytes} (h : HoldsFile env w u p d) (hw : Sound env w')
    (hview : view env w' = view env w) : HoldsFile env w' u p d := by
  obtain ⟨-, hrow, hne, hkey, href⟩ := h
  rw [← hview] at hrow hkey href
  exact ⟨hw, hrow, hne, hkey, href⟩

/-- The statement of a path finds the row of its file. -/
theorem HoldsFile.lookup {p d : Bytes} (h : HoldsFile env w u p d) :
    ∃ r, (w.rows.find? (World.isRow env u p)).filter (fun r => !r.isDir) = some r := by
  obtain ⟨size, hrow⟩ := h.row
  cases hfind : (w.rows.find? (World.isRow env u p)).filter fun r => !r.isDir with
  | none => exact absurd hrow (lookup_none hfind d size)
  | some r => exact ⟨r, rfl⟩

end CloudStore.Interface
