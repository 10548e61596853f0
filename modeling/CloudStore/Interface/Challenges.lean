import CloudStore.Interface.Downloads

/-!
# Challenges

A challenge is the text of an offset and a length under a key of Redis, and it reads back as
it was written. Only `setChallenge`, `delChallenge` and the expiry of the key touch it: the
services that move references and files leave every challenge as it is.
-/

set_option autoImplicit false

namespace CloudStore.Interface

open CloudStore.Library (Bytes FileTree Fewer Action)
open CloudStore.Library.Action
open CloudStore.Library.Posix
open CloudStore.Model
open CloudStore.Model.RedisStore
open CloudStore.Model.TransferService
open CloudStore.Model.World (objectPath files redisCalls backend)

variable {env : Env} {u : ℤ} {w w' : World} {t m : Bytes} {offset len : ℕ}

/-! ## The text of a challenge -/

/-- The value that `setChallenge` writes. -/
def challengeText (offset len : ℕ) : Bytes := toDecimal offset ++ str ":" ++ toDecimal len

theorem colon_not_mem_toDecimal (n : ℕ) : 58 ∉ toDecimal n := by
  intro hcolon
  exact absurd (toDecimal_digit hcolon) (by decide)

/-- A challenge within its types reads back. -/
theorem getChallenge_some (hoffset : offset < 2 ^ 64) (hlen : len < 2 ^ 32)
    (h : w.redis.strings (env.dialect.arg (chalKey t m)) = challengeText offset len) :
    getChallenge (redisCalls env) t m w = (.ok (some (offset, len)), w) := by
  have hbefore : (challengeText offset len).takeWhile (· ≠ 58) = toDecimal offset := by
    rw [challengeText, List.append_assoc, str_colon, List.takeWhile_append_of_pos]
    · simp
    · intro c hc
      have hne : c ≠ 58 := fun heq => colon_not_mem_toDecimal offset (heq ▸ hc)
      simpa using hne
  have hafter : ((challengeText offset len).dropWhile (· ≠ 58)).drop 1 = toDecimal len := by
    rw [challengeText, List.append_assoc, str_colon, List.dropWhile_append_of_pos]
    · simp
    · intro c hc
      have hne : c ≠ 58 := fun heq => colon_not_mem_toDecimal offset (heq ▸ hc)
      simpa using hne
  have hcolon : (challengeText offset len).contains 58 = true := by
    simp [challengeText, str_colon]
  have hget : (redisCalls env).cmdGet (chalKey t m) w = (.ok (challengeText offset len), w) := by
    simp [redisCalls, h]
  unfold getChallenge
  rw [bind_ok hget, if_pos hcolon, hbefore, hafter, stoull_toDecimal hoffset,
    stoull_toDecimal (show len < 2 ^ 64 by omega)]
  simp only [Action.bind_apply, Action.monadLift_apply, Action.pure_apply, Nat.mod_eq_of_lt hlen]

/-- Tokens and md5s do not end early in a command to Redis. -/
theorem arg_chalKey_clean (d : Dialect) (ht : 0 ∉ t) (hm : Hex32 m) :
    d.arg (chalKey t m) = chalKey t m := by
  apply arg_of_zero_not_mem
  simp only [chalKey, List.mem_append, not_or]
  exact ⟨⟨⟨by decide, ht⟩, by decide⟩, (hex_clean hm.2).2.1⟩

/-! ## What leaves the challenges -/

/-- Every challenge is as it was. -/
def ChallengesKept (w w' : World) : Prop :=
  ∀ t m, w'.redis.strings (chalKey t m) = w.redis.strings (chalKey t m)

theorem ChallengesKept.refl (w : World) : ChallengesKept w w := fun _ _ => rfl

theorem ChallengesKept.trans (w w' w'' : World) (h : ChallengesKept w w')
    (h' : ChallengesKept w' w'') : ChallengesKept w w'' :=
  fun t m => (h' t m).trans (h t m)

/-- Nothing in Redis changes. -/
theorem challengesKept_of_eq {α : Type} {a : Act World α} (h : ∀ w, (a w).2.redis = w.redis) :
    Moves ChallengesKept a := by
  intro w t m
  rw [h w]

theorem challengesKept_of_reads {α : Type} {a : Act World α} (h : Reads a) :
    Moves ChallengesKept a :=
  challengesKept_of_eq fun w => congrArg World.redis (h w)

theorem unlink_challenges (s : Bytes) : Moves ChallengesKept ((files env).unlink s) := by
  apply challengesKept_of_eq
  intro w
  simp only [files, World.fileCall, Action.move_apply]
  split <;> rfl

theorem mkdir_challenges (s : Bytes) : Moves ChallengesKept ((files env).mkdir s) := by
  apply challengesKept_of_eq
  intro w
  simp only [files, World.fileCall, Action.move_apply]
  split <;> rfl

theorem unindex_challenges (p : Bytes) :
    Moves ChallengesKept (unindex (backend env) u p) := by
  intro w t m
  rw [unindex_eq]
  simp only [Interface.setString, Interface.setSet]
  rw [Function.update_of_ne (pathKey_ne_chalKey _ _ _ _).symm]

theorem indexFile_challenges (p md5 : Bytes) (size : ℕ) (isDir : Bool) (status : Bytes) :
    Moves ChallengesKept (indexFile (backend env) u p md5 size isDir status) := by
  intro w
  rcases indexFile_eq p md5 size isDir status w with ⟨kept, -, hrun⟩ | ⟨-, e, hrun⟩
  · rw [hrun]
    exact ChallengesKept.refl w
  · rw [hrun]
    exact ChallengesKept.refl w

theorem addContentRef_challenges (p md5 : Bytes) (size : ℕ) :
    Moves ChallengesKept (addContentRef (backend env) u p md5 size) := by
  apply Moves.bind ChallengesKept.trans
  · intro w
    rw [World.backend_redis, addRef_eq]
    exact ChallengesKept.refl w
  intro _
  apply Moves.bind ChallengesKept.trans (indexFile_challenges p md5 size false _)
  intro _ w t m
  rw [World.backend_redis, setPathMd5_eq]
  simp only [Interface.setString]
  rw [Function.update_of_ne (pathKey_ne_chalKey _ _ _ _).symm]

theorem deleteObjectMeta_challenges (md5 : Bytes) :
    Moves ChallengesKept (deleteObjectMeta (redisCalls env) md5) := by
  intro w t m
  rw [deleteObjectMeta_eq]
  simp only [dropMeta]
  rw [Function.update_of_ne (chalKey_ne_refsKey _ _ _),
    Function.update_of_ne (chalKey_ne_objsizeKey _ _ _),
    Function.update_of_ne (objKey_ne_chalKey _ _ _).symm]

theorem collectObject_challenges (md5 : Bytes) :
    Moves ChallengesKept (collectObject (backend env) md5) := by
  apply Moves.bind ChallengesKept.trans (challengesKept_of_reads (resolveObjectPath_reads md5))
  intro obj
  apply Moves.bind ChallengesKept.trans (challengesKept_of_reads (fileExists_reads obj))
  intro there
  cases there with
  | false => exact deleteObjectMeta_challenges md5
  | true =>
      apply Moves.bind ChallengesKept.trans (challengesKept_of_reads fun _ => rfl)
      intro _
      apply Moves.bind ChallengesKept.trans (unlink_challenges obj)
      intro _
      exact deleteObjectMeta_challenges md5

theorem releaseContentRef_challenges (p : Bytes) :
    Moves ChallengesKept (releaseContentRef (backend env) u p) := by
  apply Moves.bind ChallengesKept.trans (challengesKept_of_reads (releasedMd5_reads p))
  intro md5
  dsimp only
  split
  · apply Moves.bind ChallengesKept.trans
    · intro w
      rw [World.backend_redis, removeRef_eq]
      exact ChallengesKept.refl w
    intro refs
    split
    · apply Moves.bind ChallengesKept.trans (collectObject_challenges md5)
      intro _
      exact unindex_challenges p
    · exact unindex_challenges p
  · exact unindex_challenges p

theorem clearDestination_challenges (dest p : Bytes) (overwrite : Bool) :
    Moves ChallengesKept (clearDestination (backend env) u dest p overwrite) := by
  apply Moves.bind ChallengesKept.trans (challengesKept_of_reads (lookupPlainFile_reads p))
  intro row
  cases row with
  | some _ =>
      cases overwrite with
      | true => exact releaseContentRef_challenges p
      | false => exact Moves.of_throw ChallengesKept.refl _
  | none =>
      apply Moves.bind ChallengesKept.trans (challengesKept_of_reads (fileExists_reads dest))
      intro there
      cases there with
      | false => exact Moves.of_pure ChallengesKept.refl _
      | true =>
          cases overwrite with
          | false => exact Moves.of_throw ChallengesKept.refl _
          | true =>
              apply Moves.bind ChallengesKept.trans (unlink_challenges dest)
              intro _
              exact Moves.of_pure ChallengesKept.refl _

/-! ## Reading an object -/

theorem object_of_entry {i : ℕ} (h : w.fs.entry (objectPath env m) = some (.file i)) :
    World.object env w m = some (w.fs.data i) := by
  simp [World.object, FileTree.fileAt, h]

theorem fileExists_object (hw : Sound env w) (hm : Hex32 m) :
    fileExists (files env) (objectText env m) w = (.ok (World.object env w m).isSome, w) := by
  cases hentry : w.fs.entry (objectPath env m) with
  | none =>
      obtain ⟨e, he⟩ := (node_object hw.links hm false).2 hentry
      simp [fileExists, files, bind_apply, lstat, he, Except.map, World.object, FileTree.fileAt, hentry]
  | some node =>
      obtain ⟨i, rfl, -⟩ := hw.objects m hm node hentry
      rw [object_of_entry hentry]
      simp [fileExists, files, bind_apply, lstat, (node_object hw.links hm false).1 _ hentry, Except.map]

theorem fileSize_object (hw : Sound env w) (hm : Hex32 m) {x : Bytes}
    (hx : World.object env w m = some x) :
    fileSize (files env) (objectText env m) w = (.ok x.length, w) := by
  unfold World.object FileTree.fileAt at hx
  split at hx
  next i hentry =>
    rw [← Option.some.inj hx]
    simp [fileSize, files, bind_apply, stat, (node_object hw.links hm true).1 _ hentry, Except.map,
      World.fileStat, Library.Posix.sizeOf]
  · simp at hx

/-- `md5FileRange` within a file, on a disk that can be read. -/
theorem md5FileRange_file {path : Bytes} {i : ℕ} (hopen : openRead w.fs path = .ok (.file i))
    (hread : ∀ h off, w.disk.readFails h off = false) (hinside : offset + len ≤ (w.fs.data i).length)
    (hlt : (w.fs.data i).length < 2 ^ 63) :
    md5FileRange (backend env) path offset len w =
      (.ok (env.md5Hex (((w.fs.data i).drop offset).take len)), w) := by
  have hopened : (files env).openRead path w = (.ok (.ok (.file i)), w) := by
    simp [files, hopen]
  have hoffset : offset < 2 ^ 63 := by omega
  have hpread : (files env).pread (.file i) offset len w =
      (.ok (.ok (((w.fs.data i).drop offset).take len)), w) := by
    simp only [files, Action.look_apply, hread, if_pos hoffset]
    rfl
  have htake : (((w.fs.data i).drop offset).take len).length = len := by
    rw [List.length_take, List.length_drop]
    omega
  unfold md5FileRange
  rw [World.backend_files, bind_ok hopened]
  dsimp only
  rw [if_neg (by omega), bind_ok hpread]
  dsimp only
  rw [if_pos htake]
  rfl

theorem openRead_object (hw : Sound env w) (hm : Hex32 m) {x : Bytes}
    (hx : World.object env w m = some x) :
    ∃ i, openRead w.fs (objectText env m) = .ok (.file i) ∧ w.fs.data i = x := by
  unfold World.object FileTree.fileAt at hx
  split at hx
  next i hentry =>
    refine ⟨i, ?_, Option.some.inj hx⟩
    simp [openRead, stat, (node_object hw.links hm true).1 _ hentry, Except.map]
  · simp at hx

/-! ## The proof stage -/

/-- **What passes the proof stage**, for a challenge inside the object that is there: the
offset, the size, and the digest of the bytes asked for, if any are. -/
theorem checkProof_iff {session : UserSession} {proofMd5 : Bytes} {size proofOffset : ℕ}
    (hw : Sound env w) (hm : Hex32 m) (hread : ∀ h off, w.disk.readFails h off = false)
    (hget : getChallenge (redisCalls env) session.token m w = (.ok (some (offset, len)), w))
    (hinside : ∀ x, World.object env w m = some x → offset + len ≤ x.length ∧ x.length < 2 ^ 63) :
    (checkProof (backend env) session m size proofOffset proofMd5 w).1 = .ok () ↔
      proofOffset = offset ∧ ∃ x, World.object env w m = some x ∧ x.length = size ∧
        (len = 0 ∨ proofMd5 = env.md5Hex ((x.drop offset).take len)) := by
  unfold checkProof
  rw [World.backend_redis, bind_ok hget]
  dsimp only
  by_cases hoffset : proofOffset = offset
  · rw [if_neg (not_not.mpr hoffset), and_iff_right hoffset, bind_ok (resolveObjectPath_hex hw hm),
      World.backend_files, bind_ok (fileExists_object hw hm)]
    cases hx : World.object env w m with
    | none => simp [Model.fail]
    | some x =>
        obtain ⟨hin, hlt⟩ := hinside x hx
        simp only [Option.isSome_some, Bool.not_true, Bool.false_eq_true, if_false,
          Option.some.injEq, exists_eq_left']
        rw [bind_ok (fileSize_object hw hm hx)]
        by_cases hsize : x.length = size
        · rw [if_neg (not_not.mpr hsize), and_iff_right hsize]
          by_cases hlen : len = 0
          · simp [hlen]
          · obtain ⟨i, hopen, rfl⟩ := openRead_object hw hm hx
            rw [if_pos (Nat.pos_of_ne_zero hlen),
              bind_ok (md5FileRange_file hopen hread hin hlt), or_iff_right hlen]
            split
            next hne => simp [Model.fail, Ne.symm hne]
            next heq => simp [not_not.mp heq]
        · rw [if_pos hsize]
          simp [Model.fail, hsize]
  · rw [if_pos hoffset]
    simp [Model.fail, hoffset]

/-! ## The requests -/

/-- `queryInstant` sets a challenge for an object of the size asked about. -/
theorem queryInstant_hit (session : UserSession) (hw : Sound env w) (hm : Hex32 m) {x : Bytes}
    (hx : World.object env w m = some x) :
    let window := challengeWindow env.cfg.challengeBytes x.length (challengeSeed (m ++ session.token))
    queryInstant (backend env) session m x.length w =
      (.ok { hit := true, size := x.length, challengeOffset := window.1, challengeLen := window.2 },
        Interface.setString w (env.dialect.arg (chalKey session.token m))
          (challengeText window.1 window.2)) := by
  have hsize : hasSize (backend env) (objectText env m) x.length w = (.ok true, w) := by
    unfold hasSize
    rw [World.backend_files, bind_ok (fileExists_object hw hm), hx]
    simp only [Option.isSome_some, if_true]
    rw [bind_ok (fileSize_object hw hm hx)]
    simp
  unfold queryInstant
  rw [if_neg (not_not.mpr hm.1), bind_ok (resolveObjectPath_hex hw hm), bind_ok hsize, if_pos rfl]
  dsimp only
  rw [World.backend_redis, bind_ok (setChallenge_eq _ _ _ _ w)]
  rfl

/-- Nothing is set otherwise. -/
theorem queryInstant_miss (session : UserSession) (hw : Sound env w) (hm : Hex32 m) {size : ℕ}
    (hx : ∀ x, World.object env w m = some x → x.length ≠ size) :
    queryInstant (backend env) session m size w = (.ok {}, w) := by
  have hsize : hasSize (backend env) (objectText env m) size w = (.ok false, w) := by
    unfold hasSize
    rw [World.backend_files, bind_ok (fileExists_object hw hm)]
    cases hobject : World.object env w m with
    | none => rfl
    | some x =>
        simp only [Option.isSome_some, if_true]
        rw [bind_ok (fileSize_object hw hm hobject)]
        simp [hx x hobject]
  unfold queryInstant
  rw [if_neg (not_not.mpr hm.1), bind_ok (resolveObjectPath_hex hw hm), bind_ok hsize]
  rfl

theorem instantUpload_refused {session : UserSession} {dest p md5 proofMd5 : Bytes}
    {size proofOffset : ℕ} {overwrite : Bool}
    (h : (checkProof (backend env) session md5 size proofOffset proofMd5 w).1 ≠ .ok ()) :
    (instantUpload (backend env) session dest p md5 size proofOffset proofMd5 overwrite w).2 = w := by
  have hstay : (checkProof (backend env) session md5 size proofOffset proofMd5 w).2 = w :=
    checkProof_reads session md5 size proofOffset proofMd5 w
  cases hproof : (checkProof (backend env) session md5 size proofOffset proofMd5 w).1 with
  | ok r => exact absurd hproof h
  | error e =>
      have hrun : checkProof (backend env) session md5 size proofOffset proofMd5 w = (.error e, w) :=
        Prod.ext hproof hstay
      unfold instantUpload
      rw [bind_error hrun]

/-- An upload that passes the proof stage uses up its challenge, and no other. -/
theorem instantUpload_passed {session : UserSession} {dest p md5 proofMd5 : Bytes}
    {size proofOffset : ℕ} {overwrite : Bool}
    (h : (checkProof (backend env) session md5 size proofOffset proofMd5 w).1 = .ok ()) (t m : Bytes) :
    (instantUpload (backend env) session dest p md5 size proofOffset proofMd5 overwrite w).2.redis.strings
        (chalKey t m) =
      Function.update w.redis.strings (env.dialect.arg (chalKey session.token md5)) []
        (chalKey t m) := by
  have hrun : checkProof (backend env) session md5 size proofOffset proofMd5 w = (.ok (), w) :=
    Prod.ext h (checkProof_reads session md5 size proofOffset proofMd5 w)
  have hrest : Moves ChallengesKept (do
      clearDestination (backend env) session.userId dest p overwrite
      let _ ← ensureDir (files env) (parentDir dest)
      addContentRef (backend env) session.userId p md5 size) := by
    apply Moves.bind ChallengesKept.trans (clearDestination_challenges dest p overwrite)
    intro _
    apply Moves.bind ChallengesKept.trans
      (ensureDir_moves ChallengesKept.refl ChallengesKept.trans mkdir_challenges _)
    intro _
    exact addContentRef_challenges p md5 size
  unfold instantUpload
  rw [bind_ok hrun, World.backend_redis, bind_ok (delChallenge_eq _ _ w)]
  exact hrest _ t m

theorem chalKey_start (t m : Bytes) : (str "cs:chal:").isPrefixOf (chalKey t m) = true := by
  rw [List.isPrefixOf_iff_prefix, chalKey, List.append_assoc, List.append_assoc]
  exact List.prefix_append _ _

theorem expireKey_challenge (w : World) (key t m : Bytes) :
    (Server.expireKey w key).redis.strings (chalKey t m) =
      Function.update w.redis.strings key [] (chalKey t m) := by
  unfold Server.expireKey
  dsimp only
  split
  · rfl
  next hother =>
    have hne : chalKey t m ≠ key := fun heq => hother (heq ▸ chalKey_start t m)
    rw [Function.update_of_ne hne]

/-- The calls that these requests make add no file. -/
theorem fewer_framed (env : Env) : Framed env fun w w' => Fewer w.fs w'.fs where
  refl w := Fewer.refl w.fs
  trans _ _ _ := Fewer.trans
  mkdir s w := by
    simp only [files, World.fileCall, Action.move_apply]
    split
    next t h => exact (mkdir_sameFiles h).fewer
    · exact Fewer.refl w.fs
  rmdir s w := by
    simp only [files, World.fileCall, Action.move_apply]
    split
    next t h => exact (rmdir_sheds h).fewer
    · exact Fewer.refl w.fs
  unlink s w := by
    simp only [files, World.fileCall, Action.move_apply]
    split
    next t h => exact (unlink_sheds h).fewer
    · exact Fewer.refl w.fs
  redis w _ := Fewer.refl w.fs
  rows w _ := Fewer.refl w.fs
  users w _ _ := Fewer.refl w.fs
  drawn w _ := Fewer.refl w.fs

end CloudStore.Interface
