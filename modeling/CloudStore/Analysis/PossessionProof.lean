import CloudStore.Analysis.ChallengeWindow
import CloudStore.Interface.Challenges
import CloudStore.Interface.Publishing
import CloudStore.Model.Client

/-!
# The proof of possession

Runs of `instant_query` and `instant_upload` requests of any sessions, with the keys of Redis
that expire in between. The history of a run says which challenge is open for a token and an
md5; that is the challenge that Redis holds, it was made for the object that is there, and an
upload passes the proof stage exactly with it.
-/

set_option autoImplicit false

namespace CloudStore.Analysis

open CloudStore.Library (Bytes Path Machine)
open CloudStore.Library.Posix
open CloudStore.Model
open CloudStore.Model.RedisStore
open CloudStore.Model.TransferService
open CloudStore.Model.World (backend redisCalls)
open CloudStore.Interface

variable {env : Env} {w : World}

/-! ## Requests and challenges -/

/-- A request, the end of a key's life, or a change of what the disk refuses. -/
inductive ProofEvent where
  | query (session : UserSession) (md5 : Bytes) (size : ℕ)
  | upload (session : UserSession) (dest : Path) (p md5 : Bytes) (size offset : ℕ) (proofMd5 : Bytes)
      (overwrite : Bool)
  | expire (key : Bytes)
  | disk (d : Disk)

/-- The answer to a query, or the end of the proof stage of an upload. -/
inductive ProofOutput where
  | answered (r : Except Exn InstantQuery)
  | proved (r : Except Exn Unit)
  | silent

/-- The requests, served one after the other. -/
def possession (env : Env) : Machine World ProofEvent ProofOutput where
  step w
    | .query session md5 size =>
      let r := queryInstant (backend env) session md5 size w
      (r.2, .answered r.1)
    | .upload session dest p md5 size offset proofMd5 overwrite =>
      ((instantUpload (backend env) session (render dest) p md5 size offset proofMd5 overwrite w).2,
        .proved (checkProof (backend env) session md5 size offset proofMd5 w).1)
    | .expire key => (Server.expireKey w key, .silent)
    | .disk d => ({ w with disk := d }, .silent)

/-- The challenge that is open for a token and an md5: the last one that a query has answered
with, unless an upload has passed the proof stage or the key has expired since. -/
def openChallenge (t m : Bytes) : List (Machine.Record World ProofEvent ProofOutput) → Option (ℕ × ℕ)
  | [] => none
  | r :: older =>
    match r.event, r.output with
    | .query session md5 _, .answered (.ok q) =>
      if session.token = t ∧ md5 = m ∧ q.hit = true then some (q.challengeOffset, q.challengeLen)
      else openChallenge t m older
    | .upload session _ _ md5 _ _ _ _, .proved (.ok ()) =>
      if session.token = t ∧ md5 = m then none else openChallenge t m older
    | .expire key, _ => if key = chalKey t m then none else openChallenge t m older
    | _, _ => openChallenge t m older

/-- Tokens are hexadecimal: no separator of a key and no end of a text is in them. -/
def CleanToken (t : Bytes) : Prop := 58 ∉ t ∧ 0 ∉ t

/-- The md5 has 32 hexadecimal digits, and the destination lies below the users' directories. -/
def Admissible (env : Env) : ProofEvent → Prop
  | .query session md5 _ => CleanToken session.token ∧ Hex32 md5
  | .upload session dest _ md5 _ _ _ _ => CleanToken session.token ∧ Hex32 md5 ∧ UserPath env dest
  | .expire _ => True
  | .disk _ => True

/-- A sound store, with files of a length that the file calls can address and without open
challenges. -/
structure Unasked (env : Env) (w : World) : Prop where
  sound : Sound env w
  lengths : ∀ m x, Hex32 m → World.object env w m = some x → x.length < 2 ^ 63
  strings : ∀ t m, w.redis.strings (chalKey t m) = []

/-! ## The invariant -/

/-- What Redis holds of a challenge. -/
def storedText (c : Option (ℕ × ℕ)) : Bytes := c.elim [] fun c => challengeText c.1 c.2

/-- Redis holds the challenges that are open, and each was made for the object that is there. -/
structure Asked (env : Env) (hist : List (Machine.Record World ProofEvent ProofOutput)) (w : World) :
    Prop where
  sound : Sound env w
  lengths : ∀ m x, Hex32 m → World.object env w m = some x → x.length < 2 ^ 63
  strings : ∀ t m, CleanToken t → Hex32 m →
    w.redis.strings (chalKey t m) = storedText (openChallenge t m hist)
  bounds : ∀ t m c, CleanToken t → Hex32 m → openChallenge t m hist = some c →
    c.1 < 2 ^ 64 ∧ c.2 < 2 ^ 32
  windows : ∀ t m c x, CleanToken t → Hex32 m → openChallenge t m hist = some c →
    World.object env w m = some x → ∃ seed, c = challengeWindow env.cfg.challengeBytes x.length seed

theorem Unasked.asked (h : Unasked env w) : Asked env [] w where
  sound := h.sound
  lengths := h.lengths
  strings t m _ _ := h.strings t m
  bounds _ _ _ _ _ hc := by simp [openChallenge] at hc
  windows _ _ _ _ _ _ hc := by simp [openChallenge] at hc

/-- A challenge lies within the object and within its types. -/
theorem challengeWindow_bounds {challengeBytes size : ℕ} (hbytes : challengeBytes < 2 ^ 32)
    (hsize : size < 2 ^ 63) (seed : ℕ) :
    let window := challengeWindow challengeBytes size seed
    window.1 < 2 ^ 64 ∧ window.2 < 2 ^ 32 ∧ window.1 + window.2 ≤ size ∧
      (window.2 = 0 ↔ size = 0) := by
  have hpos := windowLength_pos challengeBytes
  have hlength : windowLength challengeBytes < 2 ^ 32 := by
    unfold windowLength
    split <;> omega
  dsimp only
  by_cases hzero : size = 0
  · subst hzero
    simp [challengeWindow]
  · have hinside := challengeWindow_inside (Nat.pos_of_ne_zero hzero) challengeBytes seed
    by_cases hshort : size ≤ windowLength challengeBytes
    · rw [challengeWindow_short (by omega) hshort] at hinside ⊢
      dsimp only at hinside ⊢
      omega
    · rw [challengeWindow_long (by omega)] at hinside ⊢
      dsimp only at hinside ⊢
      omega

/-- After a step that makes no challenge and no object. -/
theorem Asked.fewer {hist hist' : List (Machine.Record World ProofEvent ProofOutput)} {w' : World}
    (h : Asked env hist w) (hsound : Sound env w') (hfewer : Library.Fewer w.fs w'.fs)
    (hstrings : ∀ t m, CleanToken t → Hex32 m →
      w'.redis.strings (chalKey t m) = storedText (openChallenge t m hist'))
    (hopen : ∀ t m c, CleanToken t → Hex32 m → openChallenge t m hist' = some c →
      openChallenge t m hist = some c) : Asked env hist' w' where
  sound := hsound
  lengths m x hm hx := h.lengths m x hm (hfewer.files _ x hx)
  strings := hstrings
  bounds t m c ht hm hc := h.bounds t m c ht hm (hopen t m c ht hm hc)
  windows t m c x ht hm hc hx := h.windows t m c x ht hm (hopen t m c ht hm hc) (hfewer.files _ x hx)

section

variable {hist : List (Machine.Record World ProofEvent ProofOutput)} {session : UserSession}
  {md5 proofMd5 p : Bytes} {dest : Path} {size offset : ℕ} {overwrite : Bool}

/-- A query keeps the invariant: it opens the challenge that it answers with, or none. -/
theorem Asked.query (h : Asked env hist w) (hbytes : env.cfg.challengeBytes < 2 ^ 32)
    (htoken : CleanToken session.token) (hm : Hex32 md5) :
    Asked env ((possession env).record w (.query session md5 size) :: hist)
      ((possession env).step w (.query session md5 size)).1 := by
  by_cases hthere : ∃ x, World.object env w md5 = some x ∧ x.length = size
  · obtain ⟨x, hx, rfl⟩ := hthere
    have hrun := queryInstant_hit session h.sound hm hx
    dsimp only at hrun
    obtain ⟨hoffset, hlen, -, -⟩ := challengeWindow_bounds hbytes (h.lengths md5 x hm hx)
      (challengeSeed (md5 ++ session.token))
    -- the challenge is for the object, and every other one is as it was
    have hopen : ∀ t m, openChallenge t m
        ((possession env).record w (.query session md5 x.length) :: hist) =
        if session.token = t ∧ md5 = m then
          some (challengeWindow env.cfg.challengeBytes x.length (challengeSeed (md5 ++ session.token)))
        else openChallenge t m hist := by
      intro t m
      simp [openChallenge, Machine.record, possession, hrun]
    have hworld : ((possession env).step w (.query session md5 x.length)).1 =
        setString w (chalKey session.token md5) (challengeText
          (challengeWindow env.cfg.challengeBytes x.length (challengeSeed (md5 ++ session.token))).1
          (challengeWindow env.cfg.challengeBytes x.length (challengeSeed (md5 ++ session.token))).2) := by
      rw [← arg_chalKey_clean env.dialect htoken.2 hm]
      simp only [possession, hrun]
    rw [hworld]
    constructor
    · rw [← hworld]
      exact (queryInstant_idles (fun _ => htoken.1) md5 x.length w h.sound).sound h.sound
    · exact h.lengths
    · intro t m ht hm'
      rw [hopen]
      split_ifs with heq
      · obtain ⟨rfl, rfl⟩ := heq
        simp [setString, storedText]
      · have hne : chalKey t m ≠ chalKey session.token md5 := by
          intro hkey
          obtain ⟨ht', hm''⟩ := chalKey_injective ht.1 htoken.1 hkey
          exact heq ⟨ht'.symm, hm''.symm⟩
        simp only [setString, Function.update_of_ne hne]
        exact h.strings t m ht hm'
    · intro t m c ht hm' hc
      rw [hopen] at hc
      split_ifs at hc with heq
      · rw [← Option.some.inj hc]
        exact ⟨hoffset, hlen⟩
      · exact h.bounds t m c ht hm' hc
    · intro t m c y ht hm' hc hy
      rw [hopen] at hc
      split_ifs at hc with heq
      · obtain ⟨rfl, rfl⟩ := heq
        obtain rfl := Option.some.inj (hx.symm.trans hy)
        exact ⟨_, (Option.some.inj hc).symm⟩
      · exact h.windows t m c y ht hm' hc hy
  · have hrun : queryInstant (backend env) session md5 size w = (.ok {}, w) :=
      queryInstant_miss session h.sound hm fun x hx hlen => hthere ⟨x, hx, hlen⟩
    have hworld : ((possession env).step w (.query session md5 size)).1 = w := by
      simp only [possession, hrun]
    have hopen : ∀ t m, openChallenge t m
        ((possession env).record w (.query session md5 size) :: hist) = openChallenge t m hist := by
      intro t m
      simp [openChallenge, Machine.record, possession, hrun]
    rw [hworld]
    apply h.fewer h.sound (Library.Fewer.refl w.fs)
    · intro t m ht hm'
      rw [hopen]
      exact h.strings t m ht hm'
    · intro t m c _ _ hc
      rwa [hopen] at hc

/-- An upload keeps the invariant: it takes its challenge away where it passes. -/
theorem Asked.upload (h : Asked env hist w) (htoken : CleanToken session.token) (hm : Hex32 md5)
    (hdest : UserPath env dest) :
    Asked env ((possession env).record w
        (.upload session dest p md5 size offset proofMd5 overwrite) :: hist)
      ((possession env).step w (.upload session dest p md5 size offset proofMd5 overwrite)).1 := by
  have hsound : Sound env (instantUpload (backend env) session (render dest) p md5 size offset
      proofMd5 overwrite w).2 :=
    (instantUpload_follows (fun _ => htoken.1) hdest p md5 size offset proofMd5 overwrite w
      h.sound).sound h.sound
  have hfewer : Library.Fewer w.fs (instantUpload (backend env) session (render dest) p md5 size offset
      proofMd5 overwrite w).2.fs :=
    (fewer_framed env).instantUpload session (render dest) p md5 size offset proofMd5 overwrite w
  cases hproof : (checkProof (backend env) session md5 size offset proofMd5 w).1 with
  | error e =>
      have hstay : (instantUpload (backend env) session (render dest) p md5 size offset proofMd5
          overwrite w).2 = w := instantUpload_refused (by simp [hproof])
      have hopen : ∀ t m, openChallenge t m ((possession env).record w
          (.upload session dest p md5 size offset proofMd5 overwrite) :: hist) =
          openChallenge t m hist := by
        intro t m
        simp [openChallenge, Machine.record, possession, hproof]
      apply h.fewer hsound hfewer
      · intro t m ht hm'
        rw [hopen, hstay]
        exact h.strings t m ht hm'
      · intro t m c _ _ hc
        rwa [hopen] at hc
  | ok r =>
      have hopen : ∀ t m, openChallenge t m ((possession env).record w
          (.upload session dest p md5 size offset proofMd5 overwrite) :: hist) =
          if session.token = t ∧ md5 = m then none else openChallenge t m hist := by
        intro t m
        simp [openChallenge, Machine.record, possession, hproof]
      apply h.fewer hsound hfewer
      · intro t m ht hm'
        rw [hopen, instantUpload_passed hproof t m, arg_chalKey_clean env.dialect htoken.2 hm]
        split_ifs with heq
        · obtain ⟨rfl, rfl⟩ := heq
          simp [storedText]
        · have hne : chalKey t m ≠ chalKey session.token md5 := by
            intro hkey
            obtain ⟨ht', hm''⟩ := chalKey_injective ht.1 htoken.1 hkey
            exact heq ⟨ht'.symm, hm''.symm⟩
          rw [Function.update_of_ne hne]
          exact h.strings t m ht hm'
      · intro t m c _ _ hc
        rw [hopen] at hc
        split_ifs at hc with heq
        exact hc

/-- The end of the life of a key, which may be the key of a challenge. -/
theorem Asked.expire (h : Asked env hist w) (key : Bytes) :
    Asked env ((possession env).record w (.expire key) :: hist)
      ((possession env).step w (.expire key)).1 := by
  have hopen : ∀ t m, openChallenge t m ((possession env).record w (.expire key) :: hist) =
      if key = chalKey t m then none else openChallenge t m hist := by
    intro t m
    simp [openChallenge, Machine.record, possession]
  apply h.fewer (expireKey_sound h.sound key)
  · rw [expireKey_fs]
    exact Library.Fewer.refl w.fs
  · intro t m ht hm
    rw [hopen, expireKey_challenge]
    split_ifs with heq
    · rw [heq, Function.update_self]
      rfl
    · rw [Function.update_of_ne (Ne.symm heq)]
      exact h.strings t m ht hm
  · intro t m c _ _ hc
    rw [hopen] at hc
    split_ifs at hc with heq
    exact hc

/-- **Every step keeps the invariant.** -/
theorem Asked.step (h : Asked env hist w) (hbytes : env.cfg.challengeBytes < 2 ^ 32)
    {e : ProofEvent} (he : Admissible env e) :
    Asked env ((possession env).record w e :: hist) ((possession env).step w e).1 := by
  cases e with
  | query session md5 size => exact h.query hbytes he.1 he.2
  | upload session dest p md5 size offset proofMd5 overwrite => exact h.upload he.1 he.2.1 he.2.2
  | expire key => exact h.expire key
  | disk d => exact h.fewer { h.sound with } (Library.Fewer.refl w.fs) h.strings fun _ _ _ _ _ hc => hc

end

end CloudStore.Analysis
