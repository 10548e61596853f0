import CloudStore.Interface.Playback

/-!
# Isolation of users

What one user does leaves alone what the stores hold of every other user: the rows, the
path keys, the references, and the objects that the other user refers to. This is shown
operation by operation and carried through the calls of a frame.
-/

set_option autoImplicit false

namespace CloudStore.Analysis

open CloudStore.Library (Bytes Path FileTree Keeps)
open CloudStore.Model
open CloudStore.Model.RedisStore
open CloudStore.Model.World (objectPath)
open CloudStore.Interface

variable (env : Env)

/-- The stores hold of the user `b` what they held before. -/
structure Untouched (b : ℤ) (w w' : World) : Prop where
  rows : w'.rows.filter (fun r => r.userId = b) = w.rows.filter fun r => r.userId = b
  links : ∀ p, w'.redis.strings (pathKey b p) = w.redis.strings (pathKey b p)
  refs : ∀ m p, refMember b p ∈ w.redis.sets (refsKey m) → refMember b p ∈ w'.redis.sets (refsKey m)
  objects : ∀ m, Hex32 m → (∃ p, refMember b p ∈ w.redis.sets (refsKey m)) →
    ∀ x, World.object env w m = some x → World.object env w' m = some x

variable {env} {b u : ℤ} {w w' w'' : World}

/-- Rows, keys, sets and files are all that the statement looks at. -/
theorem Untouched.of_same (hrows : w'.rows = w.rows) (hstrings : w'.redis.strings = w.redis.strings)
    (hsets : w'.redis.sets = w.redis.sets) (hfs : w'.fs = w.fs) : Untouched env b w w' where
  rows := by rw [hrows]
  links := fun _ => by rw [hstrings]
  refs := fun _ _ h => hsets ▸ h
  objects := by
    intro m _ _ x hx
    unfold World.object at *
    rwa [hfs]

theorem Untouched.refl (w : World) : Untouched env b w w := Untouched.of_same rfl rfl rfl rfl

theorem Untouched.trans (h : Untouched env b w w') (h' : Untouched env b w' w'') :
    Untouched env b w w'' where
  rows := h'.rows.trans h.rows
  links := fun p => (h'.links p).trans (h.links p)
  refs := fun m p hp => h'.refs m p (h.refs m p hp)
  objects := by
    intro m hm hp x hx
    obtain ⟨p, hp⟩ := hp
    exact h'.objects m hm ⟨p, h.refs m p hp⟩ x (h.objects m hm ⟨p, hp⟩ x hx)

/-- Without a change of rows, keys and sets, only the objects are to be looked at. -/
theorem Untouched.of_tree {t : FileTree}
    (h : ∀ m, Hex32 m → (∃ p, refMember b p ∈ w.redis.sets (refsKey m)) →
      ∀ x, w.fs.fileAt (objectPath env m) = some x → t.fileAt (objectPath env m) = some x) :
    Untouched env b w { w with fs := t } :=
  ⟨rfl, fun _ => rfl, fun _ _ h => h, h⟩

theorem Untouched.of_calm {t : FileTree} (h : Calm env ∅ w.fs t) :
    Untouched env b w { w with fs := t } := by
  refine Untouched.of_tree fun m hm _ x hx => ?_
  rw [h.fileAt ⟨m, hm, by simp, rfl⟩]
  exact hx

/-- A string under a key that is no path key of `b`. -/
theorem Untouched.setString {key : Bytes} (hkey : ∀ p, pathKey b p ≠ key) (value : Bytes) :
    Untouched env b w (setString w key value) where
  rows := rfl
  links := fun p => Function.update_of_ne (hkey p) _ _
  refs := fun _ _ h => h
  objects := fun _ _ _ _ h => h

/-- A set that keeps the members of `b`, if it is a reference set. -/
theorem Untouched.setSet {key : Bytes} {value : Finset Bytes}
    (hkey : ∀ m p, refsKey m = key → refMember b p ∈ w.redis.sets (refsKey m) →
      refMember b p ∈ value) : Untouched env b w (setSet w key value) where
  rows := rfl
  links := fun _ => rfl
  refs := by
    intro m p hp
    by_cases hk : refsKey m = key
    · simp only [Interface.setSet, hk, Function.update_self]
      exact hkey m p hk hp
    · simpa only [Interface.setSet, Function.update_of_ne hk] using hp
  objects := fun _ _ _ _ h => h

/-- Changing only elements that a filter drops, before and after, is not seen behind it. -/
theorem filter_map_of_dropped {α : Type} {f : α → α} {q : α → Bool}
    (h : ∀ x, f x = x ∨ q x = false ∧ q (f x) = false) (xs : List α) :
    (xs.map f).filter q = xs.filter q := by
  induction xs with
  | nil => rfl
  | cons x xs ih =>
      rw [List.map_cons, List.filter_cons, List.filter_cons, ih]
      cases h x with
      | inl hx => rw [hx]
      | inr hx =>
          rw [hx.1, hx.2]
          rfl

/-- The rows of `b` are not among those written. -/
theorem upsertRow_other {rows : List FileRow} {new : FileRow} (hnew : new.userId ≠ b) :
    (World.upsertRow env rows new).filter (fun r => r.userId = b) =
      rows.filter fun r => r.userId = b := by
  unfold World.upsertRow
  split
  · apply filter_map_of_dropped
    intro r
    split
    next hdup =>
      have hr : r.userId ≠ b := by
        simp only [World.isDuplicate, Bool.and_eq_true, decide_eq_true_eq] at hdup
        exact hdup.1 ▸ hnew
      exact Or.inr ⟨by simpa using hr, by simpa using hr⟩
    · exact Or.inl rfl
  · rw [List.filter_append, List.filter_singleton]
    simp [hnew]

theorem unrow_other {rows : List FileRow} {p : Bytes} (hu : u ≠ b) :
    (rows.filter fun r => !World.isRow env u p r).filter (fun r => r.userId = b) =
      rows.filter fun r => r.userId = b := by
  rw [List.filter_filter]
  apply List.filter_congr
  intro r _
  by_cases hr : r.userId = b
  · have hne : ¬ r.userId = u := fun h => hu (h.symm.trans hr)
    simp [World.isRow, hr, hr ▸ hne]
  · simp [hr]

/-- An operation that leaves the records alone. -/
theorem idleOp_untouched (h : IdleOp env w w') : Untouched env b w w' := by
  have hchal : ∀ t m, (∀ p, pathKey b p ≠ env.dialect.arg (chalKey t m)) ∧
      ∀ m', refsKey m' ≠ env.dialect.arg (chalKey t m) := by
    intro t m
    obtain ⟨rest, hrest, -⟩ := arg_chalKey env.dialect t m
    rw [hrest]
    constructor
    · intro p
      refine ne_of_take_ne 4 ?_
      simp only [pathKey, List.append_assoc]
      rw [start_take (by decide), start_take (by decide)]
      decide
    · intro m'
      refine ne_of_take_ne 4 ?_
      simp only [refsKey]
      rw [start_take (by decide), start_take (by decide)]
      decide
  cases h with
  | draw n => exact Untouched.of_same rfl rfl rfl rfl
  | tree h => exact Untouched.of_calm h
  | challenge t m value h => exact Untouched.setString (hchal t m).1 _
  | unchallenge t m =>
      exact (Untouched.setString (hchal t m).1 _).trans
        (Untouched.setSet fun m' _ hk => absurd hk ((hchal t m).2 m'))
  | note m hm size =>
      exact (Untouched.setString (fun p => (objKey_ne_pathKey _ _ _).symm) _).trans
        (Untouched.setString (fun p => pathKey_ne_objsizeKey _ _ _) _)

/-- **An operation of a user leaves every other user alone.** -/
theorem storeOp_untouched (h : StoreOp env u w w') (hu : u ≠ b) : Untouched env b w w' := by
  have hpath : ∀ p q, pathKey b q ≠ pathKey u p := fun p q hk => hu (pathKey_injective hk).1.symm
  have hmember : ∀ p q, refMember b q ≠ refMember u p := fun p q hk =>
    hu (refMember_injective hk).1.symm
  cases h with
  | idle h => exact idleOp_untouched h
  | link p m h => exact Untouched.setString (hpath p) _
  | unlink p =>
      exact (Untouched.setString (hpath p) _).trans
        (Untouched.setSet fun m _ hk => absurd hk.symm (pathKey_ne_refsKey _ _ _))
  | addRef m p =>
      refine Untouched.setSet fun m' q hk hq => ?_
      obtain rfl := refsKey_injective hk
      exact Finset.mem_insert_of_mem hq
  | removeRef m p =>
      refine Untouched.setSet fun m' q hk hq => ?_
      obtain rfl := refsKey_injective hk
      exact Finset.mem_erase.mpr ⟨hmember p q, hq⟩
  | row r hr h =>
      exact ⟨upsertRow_other (hr ▸ hu), fun _ => rfl, fun _ _ h => h, fun _ _ _ _ h => h⟩
  | unrow p => exact ⟨unrow_other hu, fun _ => rfl, fun _ _ h => h, fun _ _ _ _ h => h⟩
  | @collect m t h hkeep hgone =>
      -- `b` is not among the users that refer to `m`: nobody is
      have hnobody : ∀ m' p, refMember b p ∈ w.redis.sets (refsKey m') → m' ≠ m := by
        rintro m' p hp rfl
        rw [h] at hp
        simp at hp
      have htree : Untouched env b w { w with fs := t } := by
        refine Untouched.of_tree fun m' hm' hp x hx => ?_
        obtain ⟨p, hp⟩ := hp
        rw [hkeep.fileAt ⟨m', hm', by simpa using hnobody m' p hp, rfl⟩]
        exact hx
      refine htree.trans ⟨rfl, ?_, ?_, ?_⟩
      · intro p
        simp only [dropMeta]
        rw [Function.update_of_ne (pathKey_ne_refsKey _ _ _),
          Function.update_of_ne (pathKey_ne_objsizeKey _ _ _),
          Function.update_of_ne (objKey_ne_pathKey _ _ _).symm]
      · intro m' p hp
        have hne : refsKey m' ≠ refsKey m := fun hk => hnobody m' p hp (refsKey_injective hk)
        simp only [dropMeta]
        rwa [Function.update_of_ne hne, Function.update_of_ne (refsKey_ne_objsizeKey _ _),
          Function.update_of_ne (objKey_ne_refsKey _ _).symm]
      · exact fun _ _ _ _ h => h
  | publish m hm hkeep hnew hobj =>
      refine Untouched.of_tree fun m' hm' _ x hx => ?_
      have hne : m' ≠ m := by
        rintro rfl
        simp [FileTree.fileAt, hnew] at hx
      rw [hkeep.fileAt ⟨m', hm', by simpa using hne, rfl⟩]
      exact hx

theorem storeOps_untouched (h : StoreOps env u w w') (hu : u ≠ b) : Untouched env b w w' := by
  induction h with
  | refl => exact Untouched.refl w
  | tail _ hop ih => exact ih.trans (storeOp_untouched hop hu)

/-- Operations on accounts leave everybody's files alone. -/
theorem accountOps_untouched (h : AccountOps env w w') : Untouched env b w w' := by
  induction h with
  | refl => exact Untouched.refl w
  | tail _ hop ih =>
      refine ih.trans ?_
      cases hop with
      | draw n => exact Untouched.of_same rfl rfl rfl rfl
      | tree h _ => exact Untouched.of_calm h
      | user r n h => exact Untouched.of_same rfl rfl rfl rfl
      | login s hcolon hzero h => exact Untouched.of_same rfl rfl rfl rfl
      | logout k => exact Untouched.of_same rfl rfl rfl rfl

/-- The calls of a frame under sessions of other users. -/
theorem calls_untouched {c c' : Connection} {rs : List (CallRecord World)}
    (h : Calls env w c rs w' c') (hw : Sound env w) (hc : ConnOk env w c)
    (hfree : ∀ r ∈ rs, World.CollisionFree env r.sys)
    (hother : ∀ r ∈ rs, r.conn.authed = true → r.conn.session.userId ≠ b) :
    Untouched env b w w' := by
  have key : Sound env w' ∧ ConnOk env w' c' ∧ Untouched env b w w' := by
    refine h.keep (P := fun w' c' => Sound env w' ∧ ConnOk env w' c' ∧ Untouched env b w w')
      (Q := fun r => World.CollisionFree env r.sys ∧
        (r.conn.authed = true → r.conn.session.userId ≠ b))
      ⟨hw, hc, Untouched.refl w⟩ (fun r hr => ⟨hfree r hr, hother r hr⟩) ?_
    rintro w₁ c₁ call ⟨hw₁, hc₁, hun⟩ hissued ⟨hfree₁, hother₁⟩
    have hoperates := call_operates hw₁ hc₁ hissued
    refine ⟨hoperates.sound hw₁, call_connOk hw₁ hc₁ hissued, hun.trans ?_⟩
    cases hoperates with
    | inl h => exact storeOps_untouched (h.2.storeOps hfree₁) (hother₁ h.1)
    | inr h => exact accountOps_untouched h
  exact key.2.2

/-- The end of the life of a session or of a challenge. -/
theorem expireKey_untouched (key : Bytes) : Untouched env b w (Server.expireKey w key) := by
  unfold Server.expireKey
  dsimp only
  split
  next hchal =>
    refine ⟨rfl, fun p => ?_, fun _ _ h => h, fun _ _ _ _ h => h⟩
    have hne : pathKey b p ≠ key := by
      rintro rfl
      rw [List.isPrefixOf_iff_prefix, List.prefix_iff_eq_take] at hchal
      refine absurd hchal ?_
      simp only [pathKey, List.append_assoc]
      rw [start_take (by decide)]
      decide
    exact Function.update_of_ne hne _ _
  · exact Untouched.of_same rfl rfl rfl rfl

/-- **Isolation.** In every state that the server reaches, an event whose requests are
executed under sessions of the user `a` leaves every other user `b` alone. -/
theorem isolation {hist : List (Library.Machine.Record ServerState Event Output)} {s : ServerState}
    (run : (Server.machine env).Run (Server.Start env) (NoCollision env) hist s) (e : Event)
    (hfree : NoCollision env s e) {a b : ℤ}
    (ha : ∀ r ∈ (Server.step env s e).2.calls, r.conn.authed = true → r.conn.session.userId = a)
    (hb : b ≠ a) : Untouched env b s.world (Server.step env s e).1.world := by
  have hsafe := run_safe run
  cases e with
  | connect id ip =>
      unfold Server.step
      dsimp only
      cases s.conns id <;> exact Untouched.refl _
  | close id => exact Untouched.refl _
  | expire key => exact expireKey_untouched key
  | disk d => exact Untouched.of_same rfl rfl rfl rfl
  | frame id f =>
      unfold NoCollision at hfree
      unfold Server.step at hfree ha ⊢
      dsimp only at hfree ha ⊢
      cases hid : s.conns id with
      | none => exact Untouched.refl _
      | some c =>
          simp only [hid] at hfree ha
          exact calls_untouched (onFrame_calls f s.world c) hsafe.world (hsafe.conns id c hid) hfree
            fun r hr hauthed => by rw [ha r hr hauthed]; exact hb.symm

/-- A user makes a directory after an upload of another content. -/
theorem isolation_mkdir :
    Untouched Sample.env 2 (Sample.after (Sample.login ++ Sample.uploadEmpty "/a")).world
      (Server.step Sample.env (Sample.after (Sample.login ++ Sample.uploadEmpty "/a"))
        (.frame 0 (request "mkdir" [("path", .str (str "/b"))]))).1.world :=
  isolation (a := 1) (playback_run (by decide +kernel)) _ (by decide +kernel) (by decide +kernel)
    (by decide)

end CloudStore.Analysis
