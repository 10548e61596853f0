import CloudStore.Interface.Directories
import CloudStore.Interface.StoreOps

/-!
# Copying a file into the object store

The loops of `copyToObjectStore` write the bytes of the source, or fail and remove what
they wrote. From that, what `publishObject` does to a store that lacks the object.
-/

set_option autoImplicit false

namespace CloudStore.Interface

open CloudStore.Library (Bytes Path Plain FileTree Keeps Fewer SameFiles Handle Action)
open CloudStore.Library.Action
open CloudStore.Library.Posix
open CloudStore.Model
open CloudStore.Model.World (objectPath files)

variable {env : Env}

/-! ## The loops -/

/-- Writing behind the bytes that are there appends. -/
theorem written_append (x : Bytes) {copied : ℕ} (hc : copied ≤ x.length) (chunk : Bytes)
    (hchunk : chunk <+: x.drop copied) :
    World.written (x.take copied) copied chunk = x.take (copied + chunk.length) := by
  have hlen : (x.take copied).length = copied := by simp [hc]
  have hchunk' : chunk = (x.drop copied).take chunk.length := List.prefix_iff_eq_take.mp hchunk
  have hsum : x.take (copied + chunk.length) = x.take copied ++ chunk := by
    rw [List.take_add, ← hchunk']
  unfold World.written
  split
  next h0 => simp [h0]
  · have hdrop : (x.take copied).drop (copied + chunk.length) = [] := by
      rw [List.drop_eq_nil_iff, hlen]
      omega
    have hpad : (x.take copied ++ List.replicate (copied - (x.take copied).length) 0).take copied =
        x.take copied := by
      rw [hlen, Nat.sub_self]
      simp
    rw [splice, hpad, hdrop, List.append_nil, hsum]

/-- The number of bytes that a write of `n` bytes at an offset puts down. -/
def putDown (room : ℕ → Option ℕ) (pos n : ℕ) : ℕ :=
  if ¬ pos + n < 2 ^ 63 then 0
  else
    match room pos with
    | none => n
    | some r => min r n

/-- Whether `n` bytes can be written from an offset on: no write on the way puts down
nothing. The first argument bounds the number of writes. -/
def writesThrough (room : ℕ → Option ℕ) : ℕ → ℕ → ℕ → Bool
  | _, _, 0 => true
  | 0, _, _ + 1 => false
  | fuel + 1, pos, n + 1 =>
    putDown room pos (n + 1) ≠ 0 &&
      writesThrough room fuel (pos + putDown room pos (n + 1)) (n + 1 - putDown room pos (n + 1))

/-- Whether a file of `size` bytes can be copied from an offset on: no read fails, and what
is read can be written. -/
def copiesThrough (readFails : ℕ → Bool) (room : ℕ → Option ℕ) (bufSize size : ℕ) :
    ℕ → ℕ → Bool
  | 0, _ => false
  | fuel + 1, pos =>
    !readFails pos && pos < 2 ^ 63 && (size ≤ pos ||
      writesThrough room (min bufSize (size - pos)) pos (min bufSize (size - pos)) &&
        copiesThrough readFails room bufSize size fuel (pos + min bufSize (size - pos)))

theorem putDown_le (room : ℕ → Option ℕ) (pos n : ℕ) : putDown room pos n ≤ n := by
  unfold putDown
  split
  · exact Nat.zero_le n
  · split
    · exact Nat.le_refl n
    · exact Nat.min_le_right _ n

theorem accepts_eq (d : Disk) (i off : ℕ) {bytes : Bytes} (hfits : off + bytes.length < 2 ^ 63) :
    d.accepts i off bytes = bytes.take (putDown (d.room i) off bytes.length) := by
  unfold Disk.accepts putDown
  rw [if_neg (not_not.mpr hfits)]
  cases d.room i off with
  | none => simp
  | some r =>
      dsimp only
      rw [List.take_eq_take_iff]
      omega

/-- A write puts down the start of the buffer, or it fails. -/
theorem pwrite_eq (i off : ℕ) {bytes : Bytes} (hne : bytes ≠ []) (w : World) :
    (putDown (w.disk.room i) off bytes.length ≠ 0 ∧
      (files env).pwrite i off bytes w = (.ok (.ok (putDown (w.disk.room i) off bytes.length)),
        { w with fs := w.fs.write i (World.written (w.fs.data i) off
          (bytes.take (putDown (w.disk.room i) off bytes.length))) })) ∨
    putDown (w.disk.room i) off bytes.length = 0 ∧
      ∃ e, (files env).pwrite i off bytes w = (.ok (.error e), w) := by
  have hle := putDown_le (w.disk.room i) off bytes.length
  simp only [files, move_apply]
  by_cases hfits : off + bytes.length < 2 ^ 63
  · rw [if_neg (not_not.mpr hfits), accepts_eq w.disk i off hfits]
    generalize putDown (w.disk.room i) off bytes.length = k at hle ⊢
    by_cases hk : k = 0
    · right
      simp [hk, hne]
    · left
      have hlen : (bytes.take k).length = k := by
        rw [List.length_take]
        omega
      have htake : bytes.take k ≠ [] := by
        rw [ne_eq, List.take_eq_nil_iff]
        simp [hk, hne]
      simp [hk, htake, hlen]
  · right
    rw [if_pos hfits]
    exact ⟨by simp only [putDown, if_pos hfits], _, rfl⟩

/-- A write puts down a part of the buffer from its start, and of a buffer that is not
empty at least one byte. Or it fails. -/
theorem pwrite_cases (i off : ℕ) (bytes : Bytes) (w : World) :
    (∃ part, part <+: bytes ∧ (part = [] → bytes = []) ∧
      (files env).pwrite i off bytes w = (.ok (.ok part.length),
        { w with fs := w.fs.write i (World.written (w.fs.data i) off part) })) ∨
      ∃ e, (files env).pwrite i off bytes w = (.ok (.error e), w) := by
  have hprefix : w.disk.accepts i off bytes <+: bytes := by
    unfold Disk.accepts
    split
    · exact List.prefix_refl bytes
    · exact List.take_prefix _ _
  simp only [files, move_apply]
  split_ifs with hfits hnone
  · exact Or.inr ⟨_, rfl⟩
  · refine Or.inl ⟨_, hprefix, fun hpart => ?_, rfl⟩
    by_contra hbytes
    exact hnone ⟨hpart, hbytes⟩
  · exact Or.inr ⟨_, rfl⟩

/-- **The inner loop** appends the whole buffer, or it fails, as the disk has room. Induction
on the fuel, with what is still to be written. -/
theorem writeLoop_spec {x : Bytes} {out pos fuel : ℕ} {buf : Bytes} {w : World}
    (hout : w.fs.data out = x.take pos) (hpos : pos ≤ x.length) (hbuf : buf <+: x.drop pos)
    (hfuel : buf.length ≤ fuel) :
    (writesThrough (w.disk.room out) fuel pos buf.length = true ∧
      TransferService.writeLoop (World.backend env) out pos fuel buf w =
        (.ok true, { w with fs := w.fs.write out (x.take (pos + buf.length)) })) ∨
      writesThrough (w.disk.room out) fuel pos buf.length = false ∧
        ∃ y, TransferService.writeLoop (World.backend env) out pos fuel buf w =
          (.ok false, { w with fs := w.fs.write out y }) := by
  induction fuel generalizing pos buf w with
  | zero =>
      obtain rfl : buf = [] := List.eq_nil_of_length_eq_zero (Nat.le_zero.mp hfuel)
      left
      rw [List.length_nil, Nat.add_zero, w.fs.write_self hout]
      exact ⟨rfl, rfl⟩
  | succ fuel ih =>
      cases buf with
      | nil =>
          left
          rw [List.length_nil, Nat.add_zero pos, w.fs.write_self hout]
          exact ⟨rfl, rfl⟩
      | cons c buf =>
          rw [TransferService.writeLoop]
          simp only [World.backend_files]
          rw [List.length_cons, writesThrough, ← @List.length_cons _ c buf]
          cases @pwrite_eq env out pos (c :: buf) (List.cons_ne_nil c buf) w with
          | inr h =>
              obtain ⟨hzero, e, h⟩ := h
              right
              rw [bind_ok h, hzero]
              exact ⟨rfl, x.take pos, by rw [w.fs.write_self hout]; rfl⟩
          | inl h =>
              obtain ⟨hput, h⟩ := h
              have hle := putDown_le (w.disk.room out) pos (c :: buf).length
              generalize putDown (w.disk.room out) pos (c :: buf).length = k at hput h hle ⊢
              have hlen : ((c :: buf).take k).length = k := by
                rw [List.length_take]
                omega
              have hpart : (c :: buf).take k <+: x.drop pos := (List.take_prefix _ _).trans hbuf
              rw [bind_ok h, hout, written_append x hpos _ hpart, hlen]
              have hfit := hbuf.length_le
              rw [List.length_drop] at hfit
              have hrest : (c :: buf).drop k <+: x.drop (pos + k) := by
                obtain ⟨tail, htail⟩ := hbuf
                refine ⟨tail, ?_⟩
                rw [← List.drop_drop, ← htail, List.drop_append_of_le_length hle]
              have hnext := @ih (pos + k) ((c :: buf).drop k)
                { w with fs := w.fs.write out (x.take (pos + k)) }
                (by simp) (by omega) hrest
                (by rw [List.length_drop]; simp only [List.length_cons] at hfuel ⊢; omega)
              have hsum : pos + k + ((c :: buf).length - k) = pos + (c :: buf).length := by omega
              simp only [FileTree.write_write, List.length_drop, hsum] at hnext
              simpa only [ne_eq, hput, not_false_eq_true, decide_true, Bool.true_and] using hnext

/-- **The copying loop**: it writes the source to the destination, or it fails and has
removed what it wrote, as the disk lets the copy through. Induction on the fuel; the invariant
is that the destination holds the bytes copied so far. -/
theorem copyLoop_spec {i j : ℕ} {x dest : Bytes} {bufSize fuel copied : ℕ} {w : World}
    (hbuf : bufSize ≠ 0) (hij : i ≠ j) (hi : w.fs.data i = x) (hj : w.fs.data j = x.take copied)
    (hc : copied ≤ x.length) (hfuel : x.length - copied < fuel) :
    (copiesThrough (w.disk.readFails (.file i)) (w.disk.room j) bufSize x.length fuel copied =
        true ∧
      TransferService.copyLoop (World.backend env) (.file i) j dest bufSize fuel copied w =
        (.ok x.length, { w with fs := w.fs.write j x })) ∨
      copiesThrough (w.disk.readFails (.file i)) (w.disk.room j) bufSize x.length fuel copied =
          false ∧
        ∃ e y, TransferService.copyLoop (World.backend env) (.file i) j dest bufSize fuel copied w =
          (.error e, ((files env).unlink dest { w with fs := w.fs.write j y }).2) := by
  induction fuel generalizing copied w with
  | zero => omega
  | succ fuel ih =>
      have hfail : ∀ msg, (do
          let _ ← (files env).unlink dest
          fail .internal msg : Act World ℕ) w =
          (.error (.cloud .internal msg), ((files env).unlink dest
            { w with fs := w.fs.write j (x.take copied) }).2) := by
        intro msg
        rw [w.fs.write_self hj]
        rfl
      have hread : (files env).pread (.file i) copied bufSize w =
          (.ok (if w.disk.readFails (.file i) copied then .error .eio
            else if copied < 2 ^ 63 then .ok ((x.drop copied).take bufSize)
            else .error .einval), w) := by
        simp only [files, look_apply, hi]
      rw [TransferService.copyLoop, copiesThrough]
      simp only [World.backend_files]
      rw [bind_ok hread]
      split_ifs with hfails hpos
      · exact Or.inr ⟨by simp [hfails], _, _, hfail _⟩
      · rw [Bool.not_eq_true] at hfails
        rw [hfails, decide_eq_true hpos]
        cases hchunk : (x.drop copied).take bufSize with
        | nil =>
            have hend : x.length ≤ copied := by
              rw [List.take_eq_nil_iff, List.drop_eq_nil_iff] at hchunk
              exact hchunk.resolve_left hbuf
            have hall : x.take copied = x := List.take_of_length_le hend
            left
            rw [w.fs.write_self (hj.trans hall), Nat.le_antisymm hend hc]
            exact ⟨by simp, rfl⟩
        | cons c buf =>
            have hpre : c :: buf <+: x.drop copied := hchunk ▸ List.take_prefix _ _
            have hle := hpre.length_le
            rw [List.length_drop, List.length_cons] at hle
            have hlen : min bufSize (x.length - copied) = buf.length + 1 := by
              rw [← List.length_drop, ← List.length_take, hchunk, List.length_cons]
            rw [hlen, decide_eq_false (by omega)]
            dsimp only
            cases @writeLoop_spec env _ _ _ (buf.length + 1) _ _ hj hc hpre
                (Nat.le_of_eq List.length_cons) with
            | inl hwrite =>
                obtain ⟨hthrough, hwrite⟩ := hwrite
                rw [List.length_cons] at hthrough
                rw [bind_ok hwrite, hthrough]
                simp only [if_true, List.length_cons]
                have hnext := @ih (copied + (buf.length + 1))
                  { w with fs := w.fs.write j (x.take (copied + (buf.length + 1))) }
                  (by simp [Function.update_of_ne hij, hi]) (by simp)
                  (by omega) (by omega)
                simp only [FileTree.write_write] at hnext
                simpa only [Bool.not_false, Bool.and_true, Bool.true_and, Bool.false_or] using hnext
            | inr hwrite =>
                obtain ⟨hthrough, y, hwrite⟩ := hwrite
                rw [List.length_cons] at hthrough
                rw [bind_ok hwrite, hthrough]
                exact Or.inr ⟨by simp, _, y, rfl⟩
      · rw [decide_eq_false hpos]
        exact Or.inr ⟨by simp, _, _, hfail _⟩

/-! ## `ensureDir` makes no file -/

/-- What every `mkdir` does, `ensureDir` does. -/
theorem ensureDirLoop_moves {σ : Type} {f : FileCalls σ} {R : σ → σ → Prop}
    (hrefl : ∀ w, R w w) (htrans : ∀ w w' w'', R w w' → R w' w'' → R w w'')
    (hmkdir : ∀ s, Moves R (f.mkdir s)) (cur : Bytes) (parts : List Bytes) :
    Moves R (ensureDirLoop f cur parts) := by
  induction parts generalizing cur with
  | nil => exact hrefl
  | cons part parts ih =>
      rw [ensureDirLoop]
      split
      · exact ih cur
      · refine Moves.bind htrans (hmkdir _) fun r => ?_
        cases r with
        | ok _ => exact ih _
        | error e =>
            dsimp only
            split
            · exact ih _
            · exact hrefl

theorem ensureDir_moves {σ : Type} {f : FileCalls σ} {R : σ → σ → Prop}
    (hrefl : ∀ w, R w w) (htrans : ∀ w w' w'', R w w' → R w' w'' → R w w'')
    (hmkdir : ∀ s, Moves R (f.mkdir s)) (path : Bytes) :
    Moves R (ensureDir f path) := by
  unfold ensureDir
  split
  · exact hrefl
  · exact ensureDirLoop_moves hrefl htrans hmkdir _ _

theorem ensureDir_sameFiles (path : Bytes) :
    Moves (fun w w' : World => SameFiles w.fs w'.fs) (ensureDir (files env) path) := by
  refine ensureDir_moves (R := fun w w' : World => SameFiles w.fs w'.fs)
    (fun w => SameFiles.refl w.fs) (fun _ _ _ => SameFiles.trans) (fun s w => ?_) path
  simp only [files, World.fileCall, move_apply]
  split
  next t h => exact mkdir_sameFiles h
  · exact SameFiles.refl w.fs

theorem ensureDir_grows (path : Bytes) {q : Path} {x : Library.Node} :
    Moves (fun w w' : World => w.fs.entry q = some x → w'.fs.entry q = some x)
      (ensureDir (files env) path) := by
  refine ensureDir_moves (R := fun w w' : World => w.fs.entry q = some x → w'.fs.entry q = some x)
    (fun _ h => h) (fun _ _ _ h h' hq => h' (h hq)) (fun s w => ?_) path
  simp only [files, World.fileCall, move_apply]
  split
  next t h => exact mkdir_grows h
  · exact id

/-! ## Copying to the place of an object -/

/-- A tree without an object before and after lacks it on the way. -/
theorem calm_absent {t t' : FileTree} {m : Bytes} (h : Calm env {m} t t')
    (hold : t.entry (objectPath env m) = none) (hnew : t'.entry (objectPath env m) = none) :
    Calm env ∅ t t' where
  links := h.links
  fresh := h.fresh
  entry := by
    rintro p ⟨m', hm', -, rfl⟩
    by_cases heq : m' = m
    · rw [heq, hold, hnew]
    · exact h.entry _ ⟨m', hm', by simpa using heq, rfl⟩
  data := by
    rintro p ⟨m', hm', -, rfl⟩ i hi
    by_cases heq : m' = m
    · rw [heq, hold] at hi
      simp at hi
    · exact h.data _ ⟨m', hm', by simpa using heq, rfl⟩ i hi
  dirs := h.dirs

theorem locate_object {t : FileTree} (hl : t.NoLinks) {follow : Bool} {m : Bytes} (hm : Hex32 m)
    {q : Path} (h : locate t follow (objectText env m) = .ok q) : q = objectPath env m := by
  rw [objectText_hex env hm] at h
  exact locate_plain hl (objectPath_plain env hm) h

theorem object_not_other {m : Bytes} : objectPath env m ∉ objectPlaces env {m} := by
  rintro ⟨m', -, hne, heq⟩
  exact hne (objectPath_injective env heq).symm

/-- What the text of an object leads to. -/
theorem node_object {t : FileTree} (hl : t.NoLinks) {m : Bytes} (hm : Hex32 m) (follow : Bool) :
    (∀ x, t.entry (objectPath env m) = some x →
      node t follow (objectText env m) = .ok (objectPath env m, x)) ∧
    (t.entry (objectPath env m) = none → ∃ e, node t follow (objectText env m) = .error e) := by
  have hpath : objectPath env m = (World.objectsDir env ++ [m.take 2]) ++ [m] := by
    simp [objectPath]
  constructor
  · intro x hx
    have hdir := t.closed (World.objectsDir env ++ [m.take 2]) m (by rw [← hpath, hx]; simp)
    have hloc : locate t follow (objectText env m) = .ok (objectPath env m) := by
      rw [objectText_hex env hm, hpath]
      exact locate_render hdir (Hex32.plain hm) fun _ g => hl _ g
    simp [node, hloc, hx]
  · intro hnone
    unfold node
    cases hloc : locate t follow (objectText env m) with
    | error e => exact ⟨e, rfl⟩
    | ok q =>
        obtain rfl := locate_object hl hm hloc
        exact ⟨.enoent, by simp [hnone]⟩

/-- At the place of an object there is nothing or a regular file. -/
def Writable (env : Env) (t : FileTree) (m : Bytes) : Prop :=
  ∀ x, t.entry (objectPath env m) = some x → ∃ i, x = .file i

/-- The inode of an object is that of the file that was there, or a new one. -/
def Recycles (env : Env) (t : FileTree) (m : Bytes) (j : ℕ) : Prop :=
  t.entry (objectPath env m) = some (.file j) ∨ t.entry (objectPath env m) = none ∧ t.fresh ≤ j

/-- The file of an object, emptied: the places of other objects and of part files stay. -/
theorem openTrunc_object {t t' : FileTree} (hl : t.NoLinks) {m : Bytes} (hm : Hex32 m) {j : ℕ}
    (hfile : Writable env t m) (h : openTrunc t (objectText env m) = .ok (j, t')) :
    Calm env {m} t t' ∧ t'.entry (objectPath env m) = some (.file j) ∧ Recycles env t m j ∧
      t'.data = Function.update t.data j [] ∧
      ∀ p ∈ objectPlaces env {m}, t'.entry p ≠ some (.file j) := by
  unfold openTrunc at h
  cases hopen : openCreate t (objectText env m) with
  | error e => simp [hopen, Except.map] at h
  | ok it =>
      obtain ⟨i, t₁⟩ := it
      simp only [hopen, Except.map, Except.ok.injEq, Prod.mk.injEq] at h
      obtain ⟨rfl, rfl⟩ := h
      have hloc : ∀ q, locate t true (objectText env m) = .ok q → q = objectPath env m :=
        fun q hq => locate_object hl hm hq
      obtain ⟨hkeep, -, hclear⟩ := openCreate_keeps (K := objectPlaces env {m})
        (N := partPlaces env) hopen fun q hq _ => hloc q hq ▸ object_not_other
      have hcalm := hkeep.trans (Keeps.write [] hclear)
      cases he : t.entry (objectPath env m) with
      | none =>
          obtain ⟨hfresh, hentry, hdata, -⟩ := openCreate_free hloc he hopen
          refine ⟨hcalm, ?_, Or.inr ⟨he, Nat.le_of_eq hfresh.symm⟩, ?_, hclear⟩
          · rw [FileTree.write_entry, hentry, Function.update_self]
          · rw [FileTree.write_data, hdata, Function.update_idem]
      | some x =>
          obtain ⟨k, rfl⟩ := hfile x he
          obtain ⟨rfl, rfl⟩ := openCreate_there hloc he hopen
          exact ⟨hcalm, he, Or.inl he, rfl, hclear⟩

/-- A half-written object that is removed again. -/
theorem unlink_object {w : World} (hl : w.fs.NoLinks) {m : Bytes} (hm : Hex32 m) {j : ℕ}
    (he : w.fs.entry (objectPath env m) = some (.file j)) :
    ∃ t, ((files env).unlink (objectText env m) w).2 = { w with fs := t } ∧
      Calm env {m} w.fs t ∧ t.entry (objectPath env m) = none := by
  obtain ⟨t, hunlink, hentry⟩ := unlink_file (node_ok ((node_object hl hm false).1 _ he)).1 he
  refine ⟨t, by simp [files, World.fileCall, hunlink], ?_, ?_⟩
  · exact unlink_keeps hunlink fun q hq _ => locate_object hl hm hq ▸ object_not_other
  · rw [hentry, Function.update_self]

/-- The source of a new object: at a place of part files, and with the right digest. -/
structure Source (env : Env) (w : World) (p : Path) (m : Bytes) (size : ℕ) : Prop where
  plain : ∀ n ∈ p, Plain n
  no_dir : w.fs.entry p ≠ some .dir
  place : p ∈ partPlaces env
  bytes : ∀ x, w.fs.fileAt p = some x → env.md5Hex x = m ∧ x.length = size

/-- A source stays one while no file appears. -/
theorem Source.fewer {w w' : World} {p : Path} {m : Bytes} {size : ℕ} (h : Source env w p m size)
    (hfew : Fewer w.fs w'.fs) (hdir : w'.fs.entry p = some .dir → w.fs.entry p = some .dir) :
    Source env w' p m size where
  plain := h.plain
  no_dir := fun hd => h.no_dir (hdir hd)
  place := h.place
  bytes := fun x hx => h.bytes x (hfew.files p x hx)

/-- The part file of a source is not the file of an object. -/
theorem Source.ne_object {w : World} {p : Path} {m : Bytes} {size : ℕ} (h : Source env w p m size)
    (m' : Bytes) : p ≠ objectPath env m' := by
  rintro rfl
  exact @not_above_object env (str "tmp") (by decide) _ h.place.1 m' (List.prefix_refl _)

/-- The disk lets a copy of `size` bytes from the inode `i` to the inode `j` through. -/
def Through (env : Env) (w : World) (i j size : ℕ) : Prop :=
  copiesThrough (w.disk.readFails (.file i)) (w.disk.room j)
    (if env.cfg.chunkSize ≠ 0 then env.cfg.chunkSize else 65536) size (size + 1) 0 = true

/-- What makes the copy of a source fail: there is no source, the directory of the object
cannot be made, or the disk does not let the copy through. -/
def CopyFault (env : Env) (w : World) (p : Path) (m : Bytes) (size : ℕ) : Prop :=
  w.fs.fileAt p = none ∨ ¬ Open w.fs (World.objectsDir env ++ [m.take 2]) ∨
    ∃ i j, ¬ Through env w i j size

theorem objectDir_plain {m : Bytes} (hm : Hex32 m) :
    ∀ n ∈ World.objectsDir env ++ [m.take 2], Plain n := by
  intro n hn
  cases List.mem_append.mp hn with
  | inl h => exact objectsDir_plain env n h
  | inr h => exact List.mem_singleton.mp h ▸ Hex32.take_plain hm

/-- The directory of an object is made if it can be. -/
theorem ensureDir_object {w : World} (hl : w.fs.NoLinks) {m : Bytes} (hm : Hex32 m)
    (hopen : Open w.fs (World.objectsDir env ++ [m.take 2])) :
    ∃ t, ensureDir (files env) (parentDir (objectText env m)) w = (.ok true, { w with fs := t }) ∧
      Made (World.objectsDir env ++ [m.take 2]) w.fs t := by
  have hpath : objectPath env m = World.objectsDir env ++ [m.take 2] ++ [m] := by simp [objectPath]
  rw [objectText_hex env hm, hpath, parentDir_render (Hex32.plain hm)]
  exact ensureDir_makes (objectDir_plain hm) hl hopen

/-- In its directory an object can be opened for writing. -/
theorem openTrunc_opens {t : FileTree} (hl : t.NoLinks) {m : Bytes} (hm : Hex32 m)
    (hfile : Writable env t m) (hdir : t.entry (World.objectsDir env ++ [m.take 2]) = some .dir) :
    ∃ jt, openTrunc t (objectText env m) = .ok jt := by
  have hpath : objectPath env m = World.objectsDir env ++ [m.take 2] ++ [m] := by simp [objectPath]
  have hloc : locate t true (objectText env m) =
      .ok (World.objectsDir env ++ [m.take 2] ++ [m]) := by
    rw [objectText_hex env hm, hpath]
    exact locate_render hdir (Hex32.plain hm) fun _ g => hl _ g
  have hthere : t.entry (World.objectsDir env ++ [m.take 2] ++ [m]) = none ∨
      ∃ i, t.entry (World.objectsDir env ++ [m.take 2] ++ [m]) = some (.file i) := by
    rw [← hpath]
    cases he : t.entry (objectPath env m) with
    | none => exact Or.inl rfl
    | some x =>
        obtain ⟨i, rfl⟩ := hfile x he
        exact Or.inr ⟨i, rfl⟩
  obtain ⟨it, hopen⟩ := openCreate_opens hloc hdir (Hex32.plain hm) hthere
  exact ⟨_, by rw [openTrunc, hopen]; rfl⟩

/-- An object that was opened for writing was in its directory before. -/
theorem openTrunc_dir {t t' : FileTree} (hl : t.NoLinks) {m : Bytes} (hm : Hex32 m) {j : ℕ}
    (h : openTrunc t (objectText env m) = .ok (j, t')) :
    t.entry (World.objectsDir env ++ [m.take 2]) = some .dir := by
  have hpath : objectPath env m = World.objectsDir env ++ [m.take 2] ++ [m] := by simp [objectPath]
  cases he : t.entry (objectPath env m) with
  | some x =>
      rw [hpath] at he
      exact t.closed _ m (by rw [he]; simp)
  | none =>
      unfold openTrunc at h
      cases hopen : openCreate t (objectText env m) with
      | error e => simp [hopen, Except.map] at h
      | ok it =>
          obtain ⟨i, t₁⟩ := it
          obtain ⟨-, hentry, -⟩ := openCreate_free (fun q hq => locate_object hl hm hq) he hopen
          have hdir := t₁.closed (World.objectsDir env ++ [m.take 2]) m (by
            rw [← hpath, hentry, Function.update_self]
            simp)
          rw [hentry, Function.update_of_ne] at hdir
          · exact hdir
          · rw [hpath]
            simp

/-- **`copyToObjectStore`** makes or overwrites the object with the bytes of the source. Or it
fails, by one of the faults of a copy, and then no object has changed, or the object is gone. -/
theorem copyToObjectStore_spec {w : World} (hl : w.fs.NoLinks) {p : Path} {m : Bytes} {size : ℕ}
    (hm : Hex32 m) (hsource : Source env w p m size) (hfile : Writable env w.fs m) :
    (∃ t i j x, TransferService.copyToObjectStore (World.backend env) (render p) (objectText env m)
        size w = (.ok (), { w with fs := t }) ∧ w.fs.fileAt p = some x ∧ Calm env {m} w.fs t ∧
        t.entry (objectPath env m) = some (.file j) ∧ Recycles env w.fs m j ∧ t.data j = x ∧
        Through env w i j size ∧ Open w.fs (World.objectsDir env ++ [m.take 2])) ∨
      ∃ e t, TransferService.copyToObjectStore (World.backend env) (render p) (objectText env m)
        size w = (.error e, { w with fs := t }) ∧ (Calm env ∅ w.fs t ∨
          Calm env {m} w.fs t ∧ t.entry (objectPath env m) = none) ∧ CopyFault env w p m size := by
  unfold TransferService.copyToObjectStore
  simp only [World.backend_files]
  have hread : (files env).openRead (render p) w = (.ok (openRead w.fs (render p)), w) := rfl
  rw [bind_ok hread]
  cases hopen : openRead w.fs (render p) with
  | error e =>
      refine Or.inr ⟨_, w.fs, rfl, Or.inl (Keeps.refl _), Or.inl ?_⟩
      unfold FileTree.fileAt
      split
      next i hi =>
        have hnode := (@node_render _ true hl _ hsource.plain).1 _ hi
        simp [openRead, stat, hnode, Except.map] at hopen
      · rfl
  | ok input =>
      have hinput : ∃ i, input = .file i ∧ w.fs.entry p = some (.file i) := by
        unfold openRead stat at hopen
        cases hnode : node w.fs true (render p) with
        | error e => simp [hnode, Except.map] at hopen
        | ok qx =>
            obtain ⟨q, x⟩ := qx
            obtain ⟨hloc, he⟩ := node_ok hnode
            obtain rfl := locate_plain hl hsource.plain hloc
            cases x with
            | file i =>
                simp only [hnode, Except.map, Except.ok.injEq] at hopen
                exact ⟨i, hopen.symm, he⟩
            | dir => exact absurd he hsource.no_dir
            | link g => exact absurd he (hl _ g)
            | special k => simp [hnode, Except.map] at hopen
      obtain ⟨i, rfl, hi⟩ := hinput
      have hx : w.fs.fileAt p = some (w.fs.data i) := by simp [FileTree.fileAt, hi]
      have hquiet := @ensureDir_object_quiet env _ hm w hl
      have hfew := (@ensureDir_sameFiles env (parentDir (objectText env m)) w).fewer
      dsimp only
      obtain ⟨ok, w₁, hdir⟩ := @ensureDir_ok env (parentDir (objectText env m)) w
      simp only [hdir] at hquiet hfew
      obtain ⟨hcalm, hw₁⟩ := hquiet
      obtain ⟨t₁, rfl⟩ : ∃ t₁, w₁ = { w with fs := t₁ } := ⟨_, hw₁⟩
      clear hw₁
      simp only at hcalm hfew
      have hl₁ := hcalm.links hl
      have hobj : objectPath env m ∈ objectPlaces env ∅ := ⟨m, hm, by simp, rfl⟩
      have hsame₁ : t₁.entry (objectPath env m) = w.fs.entry (objectPath env m) :=
        hcalm.entry _ hobj
      have hfile₁ : Writable env t₁ m := fun x hx => hfile x (hsame₁.symm.trans hx)
      have hmono : Calm env {m} w.fs t₁ := hcalm.mono (objectPlaces_mono (by simp))
      rw [bind_ok hdir]
      cases htrunc : openTrunc t₁ (objectText env m) with
      | error e =>
          have hopen : (files env).openTrunc (objectText env m) { w with fs := t₁ } =
              (.ok (.error e), { w with fs := t₁ }) := by
            simp [files, World.openCall, htrunc]
          rw [bind_ok hopen]
          refine Or.inr ⟨_, t₁, rfl, Or.inl hcalm, Or.inr (Or.inl fun hmake => ?_)⟩
          obtain ⟨t₂, hmk, hmade⟩ := ensureDir_object hl hm hmake
          obtain rfl : t₁ = t₂ := by
            rw [hdir, Prod.mk.injEq, World.mk.injEq] at hmk
            exact hmk.2.1
          obtain ⟨jt, hjt⟩ := openTrunc_opens hl₁ hm hfile₁ (by rw [hmade.entry]; simp)
          rw [htrunc] at hjt
          simp at hjt
      | ok jt =>
          obtain ⟨j, t₂⟩ := jt
          have hopen : (files env).openTrunc (objectText env m) { w with fs := t₁ } =
              (.ok (.ok j), { w with fs := t₂ }) := by
            simp [files, World.openCall, htrunc]
          obtain ⟨hcalm₂, hj, hrecycles, hdata, hclear⟩ := openTrunc_object hl₁ hm hfile₁ htrunc
          have hfresh := hfew.fresh
          have hij : i ≠ j := by
            rintro rfl
            rcases hrecycles with h | ⟨-, h⟩
            · rw [hsame₁] at h
              exact hsource.ne_object m (w.fs.ino_inj _ _ _ hi h)
            · have := w.fs.ino_lt p i hi
              omega
          have hi₂ : t₂.data i = w.fs.data i := by
            rw [hdata, Function.update_of_ne hij]
            exact hfew.data i (w.fs.ino_lt p i hi)
          have hj₂ : t₂.data j = [] := by rw [hdata, Function.update_self]
          have hreads : (files env).reads (.file i) { w with fs := t₂ } =
              (.ok ((w.fs.data i).length + 1), { w with fs := t₂ }) := by
            simp [files, hi₂]
          rw [bind_ok hopen]
          simp only
          rw [bind_ok hreads]
          have hbuf : (if (World.backend env).cfg.chunkSize ≠ 0
              then (World.backend env).cfg.chunkSize else 65536) ≠ 0 := by
            split <;> simp_all
          have hwrite : ∀ y, Calm env {m} w.fs (t₂.write j y) := fun y =>
            (hmono.trans hcalm₂).trans (Keeps.write y hclear)
          have hsize := (hsource.bytes _ hx).2
          cases @copyLoop_spec env _ _ _ (objectText env m) _ _ _
              { w with fs := t₂ } hbuf hij hi₂ (by simpa using hj₂) (Nat.zero_le _)
              (Nat.lt_succ_of_le (Nat.sub_le _ 0)) with
          | inl hloop =>
              obtain ⟨hthrough, hloop⟩ := hloop
              rw [bind_ok hloop, if_neg (by rw [hsize]; simp)]
              refine Or.inl ⟨t₂.write j (w.fs.data i), i, j, _, rfl, hx, hwrite _, ?_, ?_, ?_, ?_, ?_⟩
              · rw [FileTree.write_entry, hj]
              · exact hrecycles.imp (fun h => hsame₁.symm.trans h) fun h =>
                  ⟨hsame₁.symm.trans h.1, Nat.le_trans hfresh h.2⟩
              · rw [FileTree.write_data, Function.update_self]
              · rw [hsize] at hthrough
                exact hthrough
              · intro q hq
                have hprefix : t₁.entry q = some .dir := by
                  have hparent := openTrunc_dir hl₁ hm htrunc
                  obtain ⟨r, hr⟩ := hq
                  rw [← hr] at hparent
                  by_cases hnil : r = []
                  · simpa [hnil] using hparent
                  · exact t₁.dir_of_below hnil (by simp [hparent])
                cases he : w.fs.entry q with
                | none => exact Or.inl rfl
                | some y =>
                    have hgrows := @ensureDir_grows env (parentDir (objectText env m)) q y w
                    simp only [hdir] at hgrows
                    exact Or.inr ((hgrows he).symm.trans hprefix)
          | inr hloop =>
              obtain ⟨hthrough, e, y, hloop⟩ := hloop
              have hl₂ := (hwrite y).links hl
              obtain ⟨t, hunlink, hcalm₃, hgone⟩ := @unlink_object env
                { w with fs := t₂.write j y } hl₂ _ hm j (by rw [← hj]; rfl)
              rw [bind_error hloop, hunlink]
              refine Or.inr ⟨e, t, rfl, Or.inr ⟨(hwrite y).trans hcalm₃, hgone⟩,
                Or.inr (Or.inr ⟨i, j, fun h => ?_⟩)⟩
              rw [hsize] at hthrough
              exact Bool.false_ne_true (hthrough.symm.trans h)

/-! ## `publishObject` -/

theorem hasSize_present {w : World} (hl : w.fs.NoLinks) {m : Bytes} (hm : Hex32 m) {i : ℕ}
    (hi : w.fs.entry (objectPath env m) = some (.file i)) (size : ℕ) :
    TransferService.hasSize (World.backend env) (objectText env m) size w =
      (.ok (decide ((w.fs.data i).length = size)), w) := by
  have hfalse := (node_object hl hm false).1 _ hi
  have htrue := (node_object hl hm true).1 _ hi
  simp [TransferService.hasSize, fileExists, fileSize, files, bind_apply, lstat, stat, hfalse, htrue,
    Except.map, World.fileStat, Library.Posix.sizeOf]

theorem hasSize_absent {w : World} (hl : w.fs.NoLinks) {m : Bytes} (hm : Hex32 m)
    (hnone : w.fs.entry (objectPath env m) = none) (size : ℕ) :
    TransferService.hasSize (World.backend env) (objectText env m) size w = (.ok false, w) := by
  obtain ⟨e, he⟩ := (node_object hl hm false).2 hnone
  simp [TransferService.hasSize, fileExists, files, bind_apply, lstat, he, Except.map]

/-- `setObject` writes the records of an object. -/
theorem setObject_eq {m : Bytes} (hm : Hex32 m) (size : ℕ) (w : World) :
    RedisStore.setObject (World.redisCalls env) m (objectText env m) size w =
      (.ok (), putMeta env w m size) := by
  have harg : env.dialect.arg m = m := arg_of_zero_not_mem _ (hex_clean hm.2).2.1
  simp [RedisStore.setObject, World.redisCalls, World.redisCall, bind_apply, arg_objKey,
    arg_objsizeKey, harg, putMeta, setString]

theorem publishObject_eq {m : Bytes} (hm : Hex32 m) (src : Bytes) (size : ℕ) (w : World) :
    TransferService.publishObject (World.backend env) m src size w =
      (do
        if ← TransferService.hasSize (World.backend env) (objectText env m) size then
          RedisStore.setObject (World.redisCalls env) m (objectText env m) size
        else
          let _ ← ensureDir (files env) (parentDir (objectText env m))
          TransferService.copyToObjectStore (World.backend env) src (objectText env m) size
          let _ ← (files env).chmod (objectText env m)
          RedisStore.setObject (World.redisCalls env) m (objectText env m) size : Act World Unit) w := by
  have hlen : ¬ m.length < 2 := by
    rw [hm.1]
    omega
  unfold TransferService.publishObject
  rw [objectPathFor_eq, if_neg hlen]
  rfl

/-- An object that is there is only noted. -/
theorem publishObject_present {w : World} (hl : w.fs.NoLinks) {m : Bytes} (hm : Hex32 m) {i : ℕ}
    (hi : w.fs.entry (objectPath env m) = some (.file i)) (src : Bytes) :
    TransferService.publishObject (World.backend env) m src (w.fs.data i).length w =
      (.ok (), putMeta env w m (w.fs.data i).length) := by
  rw [publishObject_eq hm, bind_ok (hasSize_present hl hm hi _)]
  simp only [decide_true, if_true]
  exact setObject_eq hm _ w

/-- Where the directory of an object could be made, it still can after it was made. -/
theorem Made.open_ {p : Path} {t t' : FileTree} (h : Made p t t') : Open t' p := by
  intro q hq
  rw [h.entry, if_pos hq]
  exact Or.inr rfl

/-- **An object that is not there, or not of the right size**, is copied from the source and
noted. Or the copy fails, by one of its faults, and then nothing about objects changes, or the
object is gone. -/
theorem publishObject_copies {w : World} (hl : w.fs.NoLinks) {p : Path} {m : Bytes} {size : ℕ}
    (hm : Hex32 m) (hsource : Source env w p m size) (hfile : Writable env w.fs m)
    (hsize : ∀ i, w.fs.entry (objectPath env m) = some (.file i) → (w.fs.data i).length ≠ size) :
    (∃ t i j x, TransferService.publishObject (World.backend env) m (render p) size w =
        (.ok (), putMeta env { w with fs := t } m size) ∧ w.fs.fileAt p = some x ∧
        Calm env {m} w.fs t ∧ t.entry (objectPath env m) = some (.file j) ∧
        Recycles env w.fs m j ∧ t.data j = x ∧ Through env w i j size ∧
        Open w.fs (World.objectsDir env ++ [m.take 2])) ∨
      ∃ e t, TransferService.publishObject (World.backend env) m (render p) size w =
        (.error e, { w with fs := t }) ∧ (Calm env ∅ w.fs t ∨
          Calm env {m} w.fs t ∧ t.entry (objectPath env m) = none) ∧ CopyFault env w p m size := by
  have hno : TransferService.hasSize (World.backend env) (objectText env m) size w =
      (.ok false, w) := by
    cases he : w.fs.entry (objectPath env m) with
    | none => exact hasSize_absent hl hm he size
    | some x =>
        obtain ⟨i, rfl⟩ := hfile x he
        rw [hasSize_present hl hm he, decide_eq_false (hsize i he)]
  rw [publishObject_eq hm, bind_ok hno]
  simp only [Bool.false_eq_true, if_false]
  have hquiet := @ensureDir_object_quiet env _ hm w hl
  have hsame := @ensureDir_sameFiles env (parentDir (objectText env m)) w
  obtain ⟨ok, w₁, hdir⟩ := @ensureDir_ok env (parentDir (objectText env m)) w
  simp only [hdir] at hquiet hsame
  obtain ⟨hcalm, hw₁⟩ := hquiet
  obtain ⟨t₁, rfl⟩ : ∃ t₁, w₁ = { w with fs := t₁ } := ⟨_, hw₁⟩
  clear hw₁
  simp only at hcalm hsame
  have hfew := hsame.fewer
  have hobj : objectPath env m ∈ objectPlaces env ∅ := ⟨m, hm, by simp, rfl⟩
  have hsame₁ : t₁.entry (objectPath env m) = w.fs.entry (objectPath env m) :=
    hcalm.entry _ hobj
  have hfile₁ : Writable env t₁ m := fun x hx => hfile x (hsame₁.symm.trans hx)
  have hsource₁ : Source env { w with fs := t₁ } p m size :=
    hsource.fewer hfew (hcalm.dirs p hsource.place)
  have hmono : Calm env {m} w.fs t₁ := hcalm.mono (objectPlaces_mono (by simp))
  rw [bind_ok hdir]
  cases copyToObjectStore_spec (w := { w with fs := t₁ }) (hcalm.links hl) hm hsource₁ hfile₁ with
  | inl h =>
      obtain ⟨t, i, j, x, hcopy, hx, hcalm₂, hj, hrecycles, hdata, hthrough, hopen⟩ := h
      have hroom : Open w.fs (World.objectsDir env ++ [m.take 2]) := by
        intro q hq
        cases he : w.fs.entry q with
        | none => exact Or.inl rfl
        | some y =>
            have hgrows := @ensureDir_grows env (parentDir (objectText env m)) q y w
            simp only [hdir] at hgrows
            have hy := hopen q hq
            rw [hgrows he] at hy
            exact hy
      have hchmod : ∀ w, (files env).chmod (objectText env m) w =
          (.ok ((stat w.fs (objectText env m)).map fun _ => ()), w) := fun w => rfl
      rw [bind_ok hcopy, bind_ok (hchmod _), setObject_eq hm]
      refine Or.inl ⟨t, i, j, x, rfl, hfew.files p x hx, hmono.trans hcalm₂, hj, ?_, hdata,
        hthrough, hroom⟩
      exact hrecycles.imp (fun h => hsame₁.symm.trans h) fun ⟨h, hle⟩ =>
        ⟨hsame₁.symm.trans h, Nat.le_trans hfew.fresh hle⟩
  | inr h =>
      obtain ⟨e, t, hcopy, hgone, hfault⟩ := h
      rw [bind_error hcopy]
      refine Or.inr ⟨e, t, rfl, ?_, ?_⟩
      · exact hgone.imp (fun h => hcalm.trans h) fun h => ⟨hmono.trans h.1, h.2⟩
      · rcases hfault with hnone | hclosed | hdisk
        · exact Or.inl ((hsame.files p).symm.trans hnone)
        · refine Or.inr (Or.inl fun hopen => hclosed ?_)
          obtain ⟨t₂, hmk, hmade⟩ := ensureDir_object hl hm hopen
          obtain rfl : t₁ = t₂ := by
            rw [hdir, Prod.mk.injEq, World.mk.injEq] at hmk
            exact hmk.2.1
          exact hmade.open_
        · exact Or.inr (Or.inr hdisk)

end CloudStore.Interface
