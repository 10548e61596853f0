import CloudStore.Interface.Sealed
import CloudStore.Interface.Trace

/-!
# Downloads

What a download reads: the file of an object, which is sealed and shorter than the offsets
that the file calls take. A connection keeps its download through every call but a logout
and those that close or begin one, and a `download_chunk` is answered from it.
-/

set_option autoImplicit false

namespace CloudStore.Interface

open CloudStore.Library (Bytes FileTree Sized Handle Action)
open CloudStore.Library.Action
open CloudStore.Library.Posix
open CloudStore.Model
open CloudStore.Model.RedisStore
open CloudStore.Model.TransferService
open CloudStore.Model.Connection (stringArg uint64Arg)
open CloudStore.Model.World (objectPath files redisCalls backend)

variable {env : Env} {w : World} {u : ℤ} {m x : Bytes}

/-! ## The lengths of files -/

theorem written_length {old bytes : Bytes} {off n : ℕ} (hold : old.length < n)
    (hend : off + bytes.length < n) : (World.written old off bytes).length < n := by
  unfold World.written splice
  split
  · exact hold
  · simp only [List.length_append, List.length_take, List.length_drop, List.length_replicate]
    omega

/-- A write at an offset that does not fit into 63 bits fails. -/
theorem sized_framed (env : Env) (f : ℕ) :
    FramedAll env fun w w' => Sized f (2 ^ 63) w.fs → Sized f (2 ^ 63) w'.fs where
  refl _ := id
  trans _ _ _ h h' := h' ∘ h
  mkdir := by
    intro s w h
    simp only [files, World.fileCall, move_apply]
    split
    next t hrun => exact mkdir_sized (by norm_num) h hrun
    · exact h
  rmdir := by
    intro s w h
    simp only [files, World.fileCall, move_apply]
    split
    next t hrun =>
      have hshed := rmdir_sheds hrun
      exact h.of_same hshed.fresh hshed.data
    · exact h
  unlink := by
    intro s w h
    simp only [files, World.fileCall, move_apply]
    split
    next t hrun =>
      have hshed := unlink_sheds hrun
      exact h.of_same hshed.fresh hshed.data
    · exact h
  redis _ _ := id
  rows _ _ := id
  users _ _ _ := id
  drawn _ _ := id
  rename := by
    intro s s' w h
    simp only [files, World.fileCall, move_apply]
    split
    next t hrun =>
      obtain ⟨hfresh, hdata, -⟩ := rename_files hrun
      exact h.of_same hfresh hdata
    · exact h
  openCreate := by
    intro s w h
    simp only [files, World.openCall, move_apply]
    split
    next i t hrun => exact openCreate_sized (by norm_num) h hrun
    · exact h
  openTrunc := by
    intro s w h
    simp only [files, World.openCall, move_apply, openTrunc]
    cases hrun : openCreate w.fs s with
    | error e => exact h
    | ok it =>
        obtain ⟨j, t₁⟩ := it
        have hcreated := openCreate_sized (by norm_num) h hrun
        apply hcreated.write
        intro _
        norm_num
  ftruncate := by
    intro i w h
    apply h.write
    intro _
    norm_num
  pwrite := by
    intro i off bytes w h
    simp only [files, move_apply]
    split_ifs with hfits hnone
    · exact h
    · apply h.write
      intro hold
      have hpart : (w.disk.accepts i off bytes).length ≤ bytes.length := by
        unfold Disk.accepts
        split
        · exact le_refl _
        · rw [List.length_take]
          omega
      apply written_length hold
      omega
    · exact h

/-- No call changes what the disk refuses. -/
theorem disk_framed (env : Env) : FramedAll env fun w w' => w'.disk = w.disk where
  refl _ := rfl
  trans _ _ _ h h' := h'.trans h
  mkdir s w := by
    simp only [files, World.fileCall, move_apply]
    split <;> rfl
  rmdir s w := by
    simp only [files, World.fileCall, move_apply]
    split <;> rfl
  unlink s w := by
    simp only [files, World.fileCall, move_apply]
    split <;> rfl
  redis _ _ := rfl
  rows _ _ := rfl
  users _ _ _ := rfl
  drawn _ _ := rfl
  rename s s' w := by
    simp only [files, World.fileCall, move_apply]
    split <;> rfl
  openCreate s w := by
    simp only [files, World.openCall, move_apply]
    split <;> rfl
  openTrunc s w := by
    simp only [files, World.openCall, move_apply]
    split <;> rfl
  ftruncate _ _ := rfl
  pwrite i off bytes w := by
    simp only [files, move_apply]
    split_ifs <;> rfl

/-- Without changes of the disk a run keeps it without faults. -/
theorem run_disk {env : Env} {ok : ServerState → Event → Prop}
    (hok : ∀ s e, ok s e → ∀ d, e ≠ .disk d)
    {hist : List (Library.Machine.Record ServerState Event Output)} {s : ServerState}
    (run : (Server.machine env).Run (Server.Start env) ok hist s) : s.world.disk = {} := by
  apply run.invariant (fun s hs => hs.1.disk)
  intro s e hs he
  have hsame := (disk_framed env).step s (hok s e he)
  exact hsame.trans hs

/-- Objects lie under inodes from `f` on, whose files are shorter than the offsets of the file
calls. -/
structure Lengths (env : Env) (f : ℕ) (w : World) : Prop where
  sized : Sized f (2 ^ 63) w.fs
  objects : ∀ p ∈ objectPlaces env ∅, ∀ i, w.fs.entry p = some (.file i) → f ≤ i

theorem Lengths.object {f : ℕ} (h : Lengths env f w) (hm : Hex32 m)
    (hx : World.object env w m = some x) : x.length < 2 ^ 63 := by
  unfold World.object FileTree.fileAt at hx
  split at hx
  next i hi =>
    rw [← Option.some.inj hx]
    exact h.sized.data i (h.objects _ ⟨m, hm, by simp, rfl⟩ i hi) (w.fs.ino_lt _ _ hi)
  · simp at hx

/-- The lengths of objects stay in bounds. -/
theorem lengths_invariant : TraceInvariant env fun _ s => ∃ f, Lengths env f s.world where
  start := by
    intro s hs
    refine ⟨s.world.fs.fresh, ⟨le_refl _, fun i hi hlt => ?_⟩, ?_⟩
    · omega
    · rintro p ⟨m, hm, -, rfl⟩ i hi
      have hnone := hs.1.empty_dirs (World.objectsDir env) (by simp) (m.take 2)
      have habove : s.world.fs.entry (World.objectsDir env ++ [m.take 2]) = some .dir := by
        apply s.world.fs.closed _ m
        simp only [objectPath] at hi
        simp [hi]
      simp [hnone] at habove
  opened := fun _ _ _ _ h _ => h
  closed := fun _ _ _ h => h
  expired := by
    rintro _ s key ⟨f, h⟩
    have hfs := expireKey_fs s.world key
    exact ⟨f, ⟨hfs ▸ h.sized, hfs ▸ h.objects⟩⟩
  disk := by
    rintro _ s d ⟨f, h⟩
    exact ⟨f, ⟨h.sized, h.objects⟩⟩
  call := by
    rintro _ s id c call hsafe ⟨f, h⟩ hid hissued
    have hc := hsafe.conns id c hid
    have hinodes := (call_operates hsafe.world hc hissued).inodes
    refine ⟨f, (sized_framed env f).call s.world c call h.sized, fun p hp i hi => ?_⟩
    cases hinodes.2 p hp i hi with
    | inl hold => exact h.objects p hp i hold
    | inr hnew => exact le_trans h.sized.fresh hnew

/-! ## The start of a download -/

/-- `resolveObjectPath` of a 32-hex md5. -/
theorem resolveObjectPath_hex (hw : Sound env w) (hm : Hex32 m) :
    resolveObjectPath (backend env) m w = (.ok (objectText env m), w) := by
  have hlen : ¬ m.length < 2 := by
    have := hm.1
    omega
  have harg : env.dialect.arg m = m := arg_of_zero_not_mem _ (hex_clean hm.2).2.1
  unfold resolveObjectPath
  simp only [World.backend_redis]
  rw [bind_ok (getObjectPath_eq m w), harg]
  split_ifs with hcached
  · rw [(hw.cached m hcached).2]
    rfl
  · rw [objectPathFor_eq, if_neg hlen]
    rfl

/-- The md5 of a path does not depend on the random bytes that have been drawn. -/
theorem downloadMd5_drawn (p : Bytes) (n : ℕ) :
    (downloadMd5 (backend env) u p { w with drawn := n }).1 =
      (downloadMd5 (backend env) u p w).1 := by
  unfold downloadMd5
  simp only [World.backend_redis]
  rw [bind_ok (getPathMd5_eq p _), bind_ok (getPathMd5_eq p _)]
  dsimp only
  split
  · rw [bind_ok (lookupPlainFile_eq p _), bind_ok (lookupPlainFile_eq p _)]
    cases (w.rows.find? (World.isRow env u p)).filter fun r => !r.isDir with
    | none => rfl
    | some info =>
        dsimp only
        split <;> rfl
  · rfl

theorem toHex_length (data : Bytes) : (toHex data).length = 2 * data.length := by
  induction data with
  | nil => rfl
  | cons b data ih =>
      rw [toHex, List.flatMap_cons, List.length_append, List.length_cons]
      change _ + (toHex data).length = _
      rw [ih]
      simp only [List.length_cons, List.length_nil]
      omega

/-- What `download_begin` opens: the file of the object, which is there. -/
theorem beginDownload_ok {session : UserSession} {p : Bytes} {d : DownloadSession}
    (hw : Sound env w) (hm : Hex32 m)
    (hmd5 : (downloadMd5 (backend env) session.userId p w).1 = .ok m)
    (h : (beginDownload (backend env) session p w).1 = .ok d) :
    ∃ i, w.fs.entry (objectPath env m) = some (.file i) ∧ d.fd = some (.file i) ∧
      d.totalSize = (w.fs.data i).length ∧ d.fileId.length = 32 := by
  have hw' : Sound env { w with drawn := w.drawn + 16 } := { hw with }
  have hid : randomHex (backend env) 16 w =
      (.ok (toHex ((List.range 16).map fun k => w.entropy (w.drawn + k))),
        { w with drawn := w.drawn + 16 }) := rfl
  have hkey : downloadMd5 (backend env) session.userId p { w with drawn := w.drawn + 16 } =
      (.ok m, { w with drawn := w.drawn + 16 }) := by
    apply Prod.ext
    · rw [downloadMd5_drawn, hmd5]
    · exact downloadMd5_reads p _
  unfold beginDownload at h
  rw [bind_ok hid, bind_ok hkey, bind_ok (resolveObjectPath_hex hw' hm)] at h
  cases hentry : w.fs.entry (objectPath env m) with
  | none =>
      obtain ⟨e, he⟩ := (node_object hw.links hm false).2 hentry
      simp [fileExists, files, bind_apply, lstat, he, Except.map, Model.fail] at h
  | some x =>
      obtain ⟨i, rfl, -⟩ := hw.objects m hm x hentry
      have hfalse := (node_object hw.links hm false).1 _ hentry
      have htrue := (node_object hw.links hm true).1 _ hentry
      simp [fileExists, fileSize, files, bind_apply, lstat, stat, openRead, hfalse, htrue, Except.map,
        World.fileStat, Library.Posix.sizeOf] at h
      refine ⟨i, rfl, ?_⟩
      rw [← h]
      refine ⟨rfl, rfl, ?_⟩
      rw [toHex_length, List.length_map, List.length_range]

/-! ## The download of a connection -/

/-- The calls that take a connection's download away. -/
def EndsDownload : Call → Bool
  | .logout _ | .closeDownload | .beginDownload .. => true
  | _ => false

/-- Every other call leaves the download as it is, and the connection logged in. -/
theorem runCall_download {c : Connection} {call : Call} (hkeep : EndsDownload call = false) :
    (runCall env w c call).2.download = c.download ∧
      (c.authed = true → (runCall env w c call).2.authed = true) := by
  have hsettle : ∀ {α : Type} {f : α → Connection → Connection},
      (∀ r, (f r c).download = c.download ∧ (c.authed = true → (f r c).authed = true)) →
        ∀ r : Except Exn α × World, (settle c f r).2.download = c.download ∧
          (c.authed = true → (settle c f r).2.authed = true) := by
    intro α f hf r
    rcases r with ⟨e | x, w'⟩
    · exact ⟨rfl, id⟩
    · exact hf x
  cases call with
  | login name password ip => exact hsettle (fun _ => ⟨rfl, fun _ => rfl⟩) _
  | checkToken token => exact hsettle (fun _ => ⟨rfl, fun _ => rfl⟩) _
  | logout token => simp [EndsDownload] at hkeep
  | closeDownload => simp [EndsDownload] at hkeep
  | beginDownload session physical p => simp [EndsDownload] at hkeep
  | closeUpload => exact ⟨rfl, id⟩
  | writeChunk offset data => exact ⟨rfl, id⟩
  | finishUpload session =>
      simp only [runCall]
      split
      · exact ⟨rfl, id⟩
      · exact ⟨rfl, id⟩
  | _ => exact hsettle (fun _ => ⟨rfl, id⟩) _

/-- A call spares sealed files, with what the other connections have open. -/
theorem SealedIn.call {i : ℕ} {s : ServerState} (h : SealedIn env i x s) (hsafe : Safe env s)
    {id : ℕ} {c : Connection} {call : Call} (hid : s.conns id = some c)
    (hissued : Issued env s.world c call) (hfree : World.CollisionFree env s.world) :
    SealedIn env i x (afterCall env s id c call) :=
  h.moved id (call_seals hsafe.world (hsafe.conns id c hid) hissued hfree ⟨h.1, h.2 id c hid⟩)

/-! ## The answer to `download_chunk` -/

/-- The number of bytes that `onDownloadChunk` asks for, from the length of the request. -/
def effectiveLength (cfg : Config) (length : ℕ) : ℕ :=
  if length = 0 ∨ length > kMaxFrameSize - 64 then cfg.chunkSize else length

/-- A `download_chunk` request with its sequence number, download, offset and effective length. -/
structure ChunkRequest (cfg : Config) (root : Json) (seq : ℕ) (fileId : Bytes) (offset len : ℕ) :
    Prop where
  cmd : stringArg root "cmd" "" = .ok (str "download_chunk")
  seq : uint64Arg root "seq" = .ok seq
  data : ∃ d v length, root.item (str "data") = .ok d ∧ stringArg d "file_id" "" = .ok fileId ∧
    uint64Arg d "offset" = .ok offset ∧ d.get (str "length") (.int cfg.chunkSize) = .ok v ∧
      v.asUInt = .ok length ∧ len = effectiveLength cfg length

/-- What is sent for a range of a file: its bytes, or the end of the file. -/
def rangeReply (seq : ℕ) (fileId : Bytes) (offset len : ℕ) (x : Bytes) : Reply :=
  if offset < x.length then .chunk fileId offset ((x.drop offset).take len)
  else .json (makeReply seq 0 (str "ok")
    (.obj [(str "eof", .bool true), (str "offset", .int offset)]))

theorem asUInt64_lt {v : Json} {n : ℕ} (h : v.asUInt64 = .ok n) : n < 2 ^ 64 := by
  unfold Json.asUInt64 Json.asIntegral at h
  cases v with
  | null =>
      simp only [Except.map, Except.ok.injEq] at h
      omega
  | bool b =>
      simp only [Except.map, Except.ok.injEq] at h
      split at h <;> omega
  | int i =>
      dsimp only at h
      split at h
      · simp only [Except.map, Except.ok.injEq] at h
        omega
      · simp [Except.map] at h
  | real text i isZero =>
      dsimp only at h
      split at h
      · simp only [Except.map, Except.ok.injEq] at h
        omega
      · simp [Except.map] at h
  | str s => simp [Except.map] at h
  | arr xs => simp [Except.map] at h
  | obj ms => simp [Except.map] at h

theorem uint64Arg_lt {d : Json} {key : String} {n : ℕ} (h : uint64Arg d key = .ok n) : n < 2 ^ 64 := by
  unfold uint64Arg at h
  cases hv : d.get (str key) (.int 0) with
  | error e =>
      rw [hv] at h
      cases h
  | ok v =>
      rw [hv] at h
      exact asUInt64_lt h

theorem toDecimal_length {n k : ℕ} (hk : 1 ≤ k) (h : n < 10 ^ k) : (toDecimal n).length ≤ k := by
  unfold toDecimal
  split
  · exact hk
  · rw [List.length_map, List.length_reverse]
    exact (Nat.digits_length_le_iff (by norm_num) n).mpr h

theorem toDecimalInt_natCast (n : ℕ) : toDecimalInt (n : ℤ) = toDecimal n := by
  unfold toDecimalInt
  rw [if_neg (by omega), Int.natAbs_natCast]

theorem encode_small {n : ℕ} (h : n ≤ 1000) : Protocol.encode n = .ok () := by
  have hmax : kMaxFrameSize = 2097152 := by decide
  unfold Protocol.encode
  rw [if_neg (by omega)]

/-- The range arithmetic of `readChunk`. -/
theorem readChunk_range {st : DownloadSession} {i offset len : ℕ} (hfd : st.fd = some (.file i))
    (hbytes : w.fs.data i = x) (hsize : st.totalSize = x.length) (hlt : x.length < 2 ^ 63)
    (hdisk : w.disk = {}) (hlen : len + 40 ≤ kMaxFrameSize) :
    readChunk (backend env) st offset len w = (.ok ((x.drop offset).take len), w) := by
  have hmax : kMaxFrameSize = 2097152 := by decide
  have hread : ∀ n, offset < x.length → (files env).pread (.file i) offset n w =
      (.ok (.ok ((x.drop offset).take n)), w) := by
    intro n hn
    have hoff : offset < 2 ^ 63 := by omega
    simp only [files, Action.look_apply, hdisk, hbytes, Bool.false_eq_true, if_false, if_pos hoff]
  unfold readChunk
  simp only [hfd, hsize]
  split
  next hend =>
    rw [List.drop_eq_nil_of_le (by omega), List.take_nil]
    rfl
  next hstart =>
    have hstart : offset < x.length := by omega
    have hsum : (offset + len) % 2 ^ 64 = offset + len := Nat.mod_eq_of_lt (by omega)
    rw [hsum, World.backend_files, bind_ok (hread _ hstart)]
    split
    next hlong =>
      have hcut : (x.length - offset) % 2 ^ 32 = x.length - offset := Nat.mod_eq_of_lt (by omega)
      have hdrop : (x.drop offset).length = x.length - offset := List.length_drop
      rw [hcut, List.take_of_length_le (by omega), List.take_of_length_le (by omega)]
      rfl
    · rfl

/-- **The answer to a `download_chunk`** on an open download. -/
theorem downloadChunk_reply {c : Connection} {i : ℕ} {root : Json} {seq offset len : ℕ}
    (hauthed : c.authed = true) (hfd : c.download.fd = some (.file i))
    (hid : c.download.fileId.length = 32) (hbytes : w.fs.data i = x)
    (hsize : c.download.totalSize = x.length) (hlt : x.length < 2 ^ 63) (hdisk : w.disk = {})
    (hreq : ChunkRequest env.cfg root seq c.download.fileId offset len) (hpos : 1 ≤ len)
    (hlen : len + 40 ≤ kMaxFrameSize) :
    (Server.frameTurn env w c (.json (.ok root))).sent =
      [rangeReply seq c.download.fileId offset len x] := by
  obtain ⟨d, v, length, hdata, hfile, hoffset, hv, hlength, hw⟩ := hreq.data
  have hne : c.download.fileId ≠ [] := by
    intro hnil
    simp [hnil] at hid
  have hread : readChunk (backend env) c.download offset len w =
      (.ok ((x.drop offset).take len), w) := readChunk_range hfd hbytes hsize hlt hdisk hlen
  have htoken : Connection.implicitToken true root (str "download_chunk") = .ok none := rfl
  have hcmd : Connection.Command.ofText (str "download_chunk") = some .downloadChunk := by decide
  have hwant : (if length = 0 ∨ length > kMaxFrameSize - 64 then env.cfg.chunkSize else length) =
      len := hw.symm
  simp only [Server.frameTurn, Connection.onFrame, Connection.handleFrame, Connection.handleJson,
    Action.tryCatch_apply, Action.bind_apply, Action.monadLift_apply, hreq.cmd, hreq.seq,
    Connection.tokenLogin, Connection.fields, Action.look_apply, hauthed, htoken, hcmd,
    Connection.handler, Connection.onDownloadChunk, Connection.requireLogin, Action.pure_apply,
    hdata, hfile, hoffset, hv, hlength, Bool.not_true, Bool.false_eq_true, if_false, hne, ne_eq,
    not_true_eq_false, or_self, hwant, Connection.record, Action.change_apply, Connection.system,
    Action.zoom_apply, hread, World.backend_cfg]
  have hbytes' : ((x.drop offset).take len).length = min len (x.length - offset) := by
    rw [List.length_take, List.length_drop]
  by_cases hend : offset < x.length
  · have hsome : (x.drop offset).take len ≠ [] := by
      rw [← List.length_pos_iff, hbytes']
      omega
    have hfits : Protocol.encodeChunk c.download.fileId ((x.drop offset).take len).length = .ok () := by
      unfold Protocol.encodeChunk Protocol.encode
      rw [if_neg (by simp [hid]), if_neg (by omega)]
    simp only [if_neg hsome, Connection.sendChunk, Action.bind_apply, Action.monadLift_apply, hfits,
      Action.change_apply, List.nil_append, rangeReply, if_pos hend]
  · have hnone : (x.drop offset).take len = [] := by
      rw [← List.length_eq_zero_iff, hbytes']
      omega
    have hfits : Protocol.encode (makeReply seq 0 (str "ok")
        (.obj [(str "eof", .bool true), (str "offset", .int offset)])).dumpText.length = .ok () := by
      have hseq : (toDecimal seq).length ≤ 20 := by
        apply toDecimal_length (by norm_num)
        exact lt_of_lt_of_le (uint64Arg_lt hreq.seq) (by norm_num)
      have hoff : (toDecimal offset).length ≤ 20 := by
        apply toDecimal_length (by norm_num)
        exact lt_of_lt_of_le (uint64Arg_lt hoffset) (by norm_num)
      apply encode_small
      simp only [makeReply, Json.dumpText, Json.dumpMembers, List.length_append, List.length_cons,
        List.length_nil, toDecimalInt_natCast, if_true]
      have hquotes : (Json.quote (str "code")).length = 6 ∧ (Json.quote (str "data")).length = 6 ∧
          (Json.quote (str "eof")).length = 5 ∧ (Json.quote (str "offset")).length = 8 ∧
          (Json.quote (str "msg")).length = 5 ∧ (Json.quote (str "ok")).length = 4 ∧
          (Json.quote (str "seq")).length = 5 ∧ (toDecimalInt 0).length = 1 ∧
          (str "true").length = 4 := by
        decide +kernel
      omega
    simp only [if_pos hnone, Connection.sendOk, Connection.sendJson, Action.bind_apply,
      Action.monadLift_apply, hfits, Action.change_apply, List.nil_append, rangeReply, if_neg hend]

end CloudStore.Interface
