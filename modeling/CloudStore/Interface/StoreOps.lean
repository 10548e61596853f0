import CloudStore.Interface.Keys
import CloudStore.Interface.Storage
import Mathlib.Logic.Relation

/-!
# Store operations

What a request of a user can do to the stores, one operation at a time: `StoreOp` lists
the operations on files, on the records of the user, on reference sets and on objects,
and `AccountOp` those on users and sessions. Each service is a sequence of such
operations, so an invariant needs one case for each operation and no look at the services.

`Sound` is the invariant that the services rely on: no links, every object under its md5,
every cached object path the right one, and md5 texts that lead to no other object.
-/

set_option autoImplicit false

namespace CloudStore.Interface

open CloudStore.Library (Bytes Path FileTree Keeps SameFiles)
open CloudStore.Library.Posix
open CloudStore.Model
open CloudStore.Model.RedisStore
open CloudStore.Model.World (objectPath)

variable (env : Env)

/-- A session whose root is a directory in `users` and whose name fits into `tmp`. -/
structure SessionOk (s : UserSession) : Prop where
  root : ∃ name, NameOk name ∧ s.rootDir = joinPath env.cfg.usersRoot name
  name : NameOk s.username

/-- What holds of the stores between any two operations. -/
structure Sound (w : World) : Prop where
  links : w.fs.NoLinks
  objects : ∀ m, Hex32 m → ∀ x, w.fs.entry (objectPath env m) = some x →
    ∃ i, x = .file i ∧ env.md5Hex (w.fs.data i) = m
  cached : ∀ m, w.redis.strings (objKey m) ≠ [] →
    Hex32 m ∧ w.redis.strings (objKey m) = objectText env m
  linkShort : ∀ u p, Short env.dialect (w.redis.strings (pathKey u p))
  rowShort : ∀ r ∈ w.rows, Short env.dialect r.md5
  rowKeys : env.dialect = Dialect.exact →
    (w.rows.map fun r => (r.userId, r.virtualPath)).Nodup
  sessions : ∀ k raw, w.redis.sessions k = some raw → ∃ s,
    raw = .ok (AuthService.sessionJson s) ∧ k = sessionKey s.token ∧
      58 ∉ s.token ∧ 0 ∉ s.token ∧ SessionOk env s
  users : ∀ r ∈ w.users, validUsername r.username = true
  challenges : env.dialect.cStrings = false → ∀ t m, 58 ∉ t →
    w.redis.strings (chalKey t m) ≠ [] → m.length = 32
  parts : ∀ p ∈ partPlaces env, w.fs.entry p ≠ some .dir

/-- Set a string of Redis. -/
def setString (w : World) (key value : Bytes) : World :=
  { w with redis := { w.redis with strings := Function.update w.redis.strings key value } }

/-- Set a set of Redis. -/
def setSet (w : World) (key : Bytes) (value : Finset Bytes) : World :=
  { w with redis := { w.redis with sets := Function.update w.redis.sets key value } }

/-- Drop the records of an object. -/
def dropMeta (w : World) (m : Bytes) : World :=
  { w with redis :=
    { w.redis with
      strings := Function.update (Function.update (Function.update w.redis.strings
        (objKey m) []) (objsizeKey m) []) (refsKey m) []
      sets := Function.update (Function.update (Function.update w.redis.sets
        (objKey m) ∅) (objsizeKey m) ∅) (refsKey m) ∅ } }

/-- Write the records of an object. -/
def putMeta (w : World) (m : Bytes) (size : ℕ) : World :=
  setString (setString w (objKey m) (objectText env m)) (objsizeKey m) (toDecimal size)

/-- The operations that leave rows, path keys, references and contents as they are. -/
inductive IdleOp : World → World → Prop
  /-- Read random bytes. -/
  | draw (w : World) (n : ℕ) : IdleOp w { w with drawn := n }
  /-- A change of the tree away from the objects. -/
  | tree (w : World) {t : FileTree} (h : Calm env ∅ w.fs t) : IdleOp w { w with fs := t }
  /-- A challenge. -/
  | challenge (w : World) (t m value : Bytes)
      (h : env.dialect.cStrings = false → 58 ∉ t ∧ (value ≠ [] → m.length = 32)) :
      IdleOp w (setString w (env.dialect.arg (chalKey t m)) value)
  /-- The end of a challenge, which also empties the set under its key. -/
  | unchallenge (w : World) (t m : Bytes) :
      IdleOp w (setSet (setString w (env.dialect.arg (chalKey t m)) [])
        (env.dialect.arg (chalKey t m)) ∅)
  /-- The records of an object written. -/
  | note (w : World) (m : Bytes) (hm : Hex32 m) (size : ℕ) : IdleOp w (putMeta env w m size)

/-- The operations on the records of the user `u` and on contents. -/
inductive StoreOp (u : ℤ) : World → World → Prop
  | idle {w w' : World} (h : IdleOp env w w') : StoreOp u w w'
  /-- A path key. -/
  | link (w : World) (p m : Bytes) (h : Short env.dialect m) :
      StoreOp u w (setString w (pathKey u p) m)
  /-- The removal of a path key, which also empties the set under it. -/
  | unlink (w : World) (p : Bytes) :
      StoreOp u w (setSet (setString w (pathKey u p) []) (pathKey u p) ∅)
  /-- A reference of the user more. -/
  | addRef (w : World) (m p : Bytes) :
      StoreOp u w (setSet w (refsKey m) (insert (refMember u p) (w.redis.sets (refsKey m))))
  /-- A reference of the user less. -/
  | removeRef (w : World) (m p : Bytes) :
      StoreOp u w (setSet w (refsKey m) ((w.redis.sets (refsKey m)).erase (refMember u p)))
  /-- A row of the user written. -/
  | row (w : World) (r : FileRow) (hu : r.userId = u) (h : Short env.dialect r.md5) :
      StoreOp u w { w with rows := World.upsertRow env w.rows r }
  /-- A row of the user removed. -/
  | unrow (w : World) (p : Bytes) :
      StoreOp u w { w with rows := w.rows.filter fun r => !World.isRow env u p r }
  /-- An object without references removed, with its records. -/
  | collect (w : World) (m : Bytes) {t : FileTree} (h : w.redis.sets (refsKey m) = ∅)
      (hkeep : Calm env {m} w.fs t)
      (hgone : Hex32 m → t.entry (objectPath env m) = w.fs.entry (objectPath env m) ∧
          t.data = w.fs.data ∨ t.entry (objectPath env m) = none) :
      StoreOp u w (dropMeta { w with fs := t } m)
  /-- A new object, under its md5. -/
  | publish (w : World) (m : Bytes) (hm : Hex32 m) {t : FileTree}
      (hkeep : Calm env {m} w.fs t)
      (hnew : w.fs.entry (objectPath env m) = none)
      (hobj : ∃ i, t.entry (objectPath env m) = some (.file i) ∧ w.fs.fresh ≤ i ∧
        env.md5Hex (t.data i) = m) :
      StoreOp u w { w with fs := t }

/-- The operations of the end of an upload. Unless the store is `free` of collisions, an object
may be written over with other bytes of the same md5, or get lost on the way. -/
inductive UploadOp (free : Prop) (u : ℤ) : World → World → Prop
  | op {w w' : World} (h : StoreOp env u w w') : UploadOp free u w w'
  | replace (w : World) (m : Bytes) (hm : Hex32 m) {t : FileTree} (hcollide : ¬ free)
      (hkeep : Calm env {m} w.fs t)
      (hobj : t.entry (objectPath env m) = none ∨
        ∃ i, t.entry (objectPath env m) = some (.file i) ∧
          w.fs.entry (objectPath env m) = some (.file i) ∧ env.md5Hex (t.data i) = m) :
      UploadOp free u w { w with fs := t }

/-- What a registration writes: a row with a valid name that no other row equals, with the
directory of that name and the next id. -/
structure NewAccount (w : World) (r : UserRow) (n : ℤ) : Prop where
  name : validUsername r.username = true
  root : r.rootDir = joinPath env.cfg.usersRoot r.username
  id : r.id = w.nextId
  next : n = w.nextId + 1
  free : ∀ r' ∈ w.users, env.dialect.sameName r.username r'.username = false

/-- The operations on users and sessions. -/
inductive AccountOp : World → World → Prop
  | draw (w : World) (n : ℕ) : AccountOp w { w with drawn := n }
  | tree (w : World) {t : FileTree} (h : Calm env ∅ w.fs t) (hfiles : SameFiles w.fs t) :
      AccountOp w { w with fs := t }
  | user (w : World) (r : UserRow) (n : ℤ) (h : NewAccount env w r n) :
      AccountOp w { w with users := w.users ++ [r], nextId := n }
  | login (w : World) (s : UserSession) (hcolon : 58 ∉ s.token) (hzero : 0 ∉ s.token)
      (h : SessionOk env s) :
      AccountOp w { w with redis := { w.redis with
        sessions := Function.update w.redis.sessions (sessionKey s.token)
          (some (.ok (AuthService.sessionJson s))) } }
  | logout (w : World) (k : Bytes) :
      AccountOp w { w with redis := { w.redis with
        sessions := Function.update w.redis.sessions k none } }

/-- A sequence of operations that leave the records alone. -/
abbrev IdleOps : World → World → Prop := Relation.ReflTransGen (IdleOp env)

/-- A sequence of operations of a user. -/
abbrev StoreOps (u : ℤ) : World → World → Prop := Relation.ReflTransGen (StoreOp env u)

abbrev UploadOps (free : Prop) (u : ℤ) : World → World → Prop :=
  Relation.ReflTransGen (UploadOp env free u)

abbrev AccountOps : World → World → Prop := Relation.ReflTransGen (AccountOp env)

/-! ## Soundness is kept -/

variable {env} {w w' : World} {u : ℤ}

theorem objects_of_keeps {t t' : FileTree} (h : Calm env ∅ t t')
    (hobj : ∀ m, Hex32 m → ∀ x, t.entry (objectPath env m) = some x →
      ∃ i, x = .file i ∧ env.md5Hex (t.data i) = m) :
    ∀ m, Hex32 m → ∀ x, t'.entry (objectPath env m) = some x →
      ∃ i, x = .file i ∧ env.md5Hex (t'.data i) = m := by
  intro m hm x hx
  have hmem : objectPath env m ∈ objectPlaces env ∅ := ⟨m, hm, by simp, rfl⟩
  rw [h.entry _ hmem] at hx
  obtain ⟨i, rfl, hi⟩ := hobj m hm x hx
  exact ⟨i, rfl, by rw [h.data _ hmem i hx, hi]⟩

/-- Objects stay under their md5 where one of them is removed or replaced. -/
theorem objects_of_keeps_but {t t' : FileTree} {m₀ : Bytes}
    (h : Calm env {m₀} t t')
    (hobj : ∀ m, Hex32 m → ∀ x, t.entry (objectPath env m) = some x →
      ∃ i, x = .file i ∧ env.md5Hex (t.data i) = m)
    (h₀ : Hex32 m₀ → ∀ x, t'.entry (objectPath env m₀) = some x →
      ∃ i, x = .file i ∧ env.md5Hex (t'.data i) = m₀) :
    ∀ m, Hex32 m → ∀ x, t'.entry (objectPath env m) = some x →
      ∃ i, x = .file i ∧ env.md5Hex (t'.data i) = m := by
  intro m hm x hx
  by_cases heq : m = m₀
  · subst heq
    exact h₀ hm x hx
  · have hmem : objectPath env m ∈ objectPlaces env {m₀} := ⟨m, hm, by simpa using heq, rfl⟩
    rw [h.entry _ hmem] at hx
    obtain ⟨i, rfl, hi⟩ := hobj m hm x hx
    exact ⟨i, rfl, by rw [h.data _ hmem i hx, hi]⟩

/-- A string under a key that is neither a path key nor an object key nor a challenge. -/
theorem Sound.setString (hw : Sound env w) {key value : Bytes}
    (hobj : ∀ m, key = objKey m → value ≠ [] → Hex32 m ∧ value = objectText env m)
    (hpath : ∀ u p, key = pathKey u p → Short env.dialect value)
    (hchal : env.dialect.cStrings = false → ∀ t m, 58 ∉ t → key = chalKey t m → value ≠ [] →
      m.length = 32) : Sound env (Interface.setString w key value) where
  __ := hw
  cached := by
    intro m hm
    by_cases hk : objKey m = key
    · simp only [Interface.setString, hk, Function.update_self] at hm ⊢
      exact hobj m hk.symm hm
    · simp only [Interface.setString, Function.update_of_ne hk] at hm ⊢
      exact hw.cached m hm
  linkShort := by
    intro u p
    by_cases hk : pathKey u p = key
    · simp only [Interface.setString, hk, Function.update_self]
      exact hpath u p hk.symm
    · simp only [Interface.setString, Function.update_of_ne hk]
      exact hw.linkShort u p
  challenges := by
    intro hexact t m ht hm
    by_cases hk : chalKey t m = key
    · simp only [Interface.setString, hk, Function.update_self] at hm
      exact hchal hexact t m ht hk.symm hm
    · simp only [Interface.setString, Function.update_of_ne hk] at hm
      exact hw.challenges hexact t m ht hm

theorem Sound.setString_nil (hw : Sound env w) (key : Bytes) : Sound env (Interface.setString w key []) :=
  hw.setString (by simp) (fun _ _ _ => short_nil _) (by simp)

theorem Sound.setSet (hw : Sound env w) (key : Bytes) (value : Finset Bytes) :
    Sound env (Interface.setSet w key value) where
  __ := hw

theorem Sound.withTree (hw : Sound env w) {t : FileTree} {D : Set Bytes}
    (hcalm : Calm env D w.fs t)
    (hobj : ∀ m, Hex32 m → ∀ x, t.entry (objectPath env m) = some x →
      ∃ i, x = .file i ∧ env.md5Hex (t.data i) = m) : Sound env { w with fs := t } where
  __ := hw
  links := hcalm.links hw.links
  objects := hobj
  parts := fun p hp hdir => hw.parts p hp (hcalm.dirs p hp hdir)

theorem Sound.withRows (hw : Sound env w) {rows : List FileRow}
    (hshort : ∀ r ∈ rows, Short env.dialect r.md5)
    (hkeys : env.dialect = Dialect.exact → (rows.map fun r => (r.userId, r.virtualPath)).Nodup) :
    Sound env { w with rows := rows } where
  __ := hw
  rowShort := hshort
  rowKeys := hkeys

theorem Sound.dropMeta (hw : Sound env w) (m : Bytes) :
    Sound env (Interface.dropMeta w m) :=
  ((((((hw.setString_nil (objKey m)).setString_nil (objsizeKey m)).setString_nil (refsKey m)).setSet
    (objKey m) ∅).setSet (objsizeKey m) ∅).setSet (refsKey m) ∅)

theorem mem_upsertRow {rows : List FileRow} {new r : FileRow}
    (h : r ∈ World.upsertRow env rows new) :
    r ∈ rows ∨ r = new ∨ (∃ old ∈ rows, World.isDuplicate env new old = true ∧
      r = { old with md5 := new.md5, size := new.size, isDir := new.isDir, status := new.status }) := by
  unfold World.upsertRow at h
  split at h
  · obtain ⟨old, hold, rfl⟩ := List.mem_map.mp h
    split
    next hdup => exact Or.inr (Or.inr ⟨old, hold, hdup, rfl⟩)
    · exact Or.inl hold
  · cases List.mem_append.mp h with
    | inl h => exact Or.inl h
    | inr h => exact Or.inr (Or.inl (List.mem_singleton.mp h))

theorem upsertRow_keys {rows : List FileRow} {new : FileRow} (hexact : env.dialect = Dialect.exact)
    (h : (rows.map fun r => (r.userId, r.virtualPath)).Nodup) :
    ((World.upsertRow env rows new).map fun r => (r.userId, r.virtualPath)).Nodup := by
  unfold World.upsertRow
  split
  · have hsame : ((rows.map fun r => if World.isDuplicate env new r then
        { r with md5 := new.md5, size := new.size, isDir := new.isDir, status := new.status }
        else r).map fun r => (r.userId, r.virtualPath)) =
        rows.map fun r => (r.userId, r.virtualPath) := by
      rw [List.map_map]
      apply List.map_congr_left
      intro r _
      simp only [Function.comp_apply]
      split <;> rfl
    rwa [hsame]
  next hnone =>
    rw [List.map_append, List.nodup_append]
    refine ⟨h, by simp, ?_⟩
    intro a ha b hb hab
    obtain ⟨r, hr, rfl⟩ := List.mem_map.mp ha
    rw [List.map_singleton, List.mem_singleton] at hb
    rw [hb, Prod.mk.injEq] at hab
    apply hnone
    rw [List.any_eq_true]
    exact ⟨r, hr, by simp [World.isDuplicate, hexact, Dialect.exact, hab.1, hab.2]⟩

theorem IdleOp.sound (h : IdleOp env w w') (hw : Sound env w) : Sound env w' := by
  cases h with
  | draw n => exact { hw with }
  | tree h => exact hw.withTree h (objects_of_keeps h hw.objects)
  | challenge t m value h =>
      obtain ⟨rest, hrest, hsame⟩ := arg_chalKey env.dialect t m
      refine hw.setString (fun m' hk => ?_) (fun v p hk => ?_) (fun hexact t' m' ht' hk hv => ?_)
      · exfalso
        rw [hrest] at hk
        refine ne_of_take_ne 4 ?_ hk
        simp only [objKey]
        rw [start_take (by decide), start_take (by decide)]
        decide
      · exfalso
        rw [hrest] at hk
        refine ne_of_take_ne 4 ?_ hk
        simp only [pathKey, List.append_assoc]
        rw [start_take (by decide), start_take (by decide)]
        decide
      · rw [hsame hexact] at hk
        obtain ⟨ht, hlen⟩ := h hexact
        obtain ⟨-, rfl⟩ := chalKey_injective ht ht' hk
        exact hlen hv
  | unchallenge t m => exact (hw.setString_nil _).setSet _ _
  | note m hm size =>
      refine Sound.setString (Sound.setString hw (fun m' hk _ => ?_) (fun v p hk => ?_)
        (fun _ t m' _ hk => ?_)) (fun m' hk => ?_) (fun v p hk => ?_) (fun _ t m' _ hk => ?_)
      · obtain rfl := objKey_injective hk
        exact ⟨hm, rfl⟩
      · exact absurd hk (objKey_ne_pathKey _ _ _)
      · exact absurd hk (objKey_ne_chalKey _ _ _)
      · exact absurd hk.symm (objKey_ne_objsizeKey _ _)
      · exact absurd hk.symm (pathKey_ne_objsizeKey _ _ _)
      · exact absurd hk.symm (chalKey_ne_objsizeKey _ _ _)

/-- **An operation of a user keeps the stores sound.** -/
theorem StoreOp.sound (h : StoreOp env u w w') (hw : Sound env w) : Sound env w' := by
  cases h with
  | idle h => exact h.sound hw
  | link p m h =>
      refine hw.setString (fun m' hk => ?_) (fun v q _ => h) (fun _ t m' _ hk => ?_)
      · exact absurd hk.symm (objKey_ne_pathKey _ _ _)
      · exact absurd hk (pathKey_ne_chalKey _ _ _ _)
  | unlink p => exact (hw.setString_nil _).setSet _ _
  | addRef m p => exact hw.setSet _ _
  | removeRef m p => exact hw.setSet _ _
  | row r hu h =>
      refine hw.withRows (fun r' hr' => ?_) fun hexact => upsertRow_keys hexact (hw.rowKeys hexact)
      rcases mem_upsertRow hr' with hr' | rfl | ⟨old, -, -, rfl⟩
      · exact hw.rowShort r' hr'
      · exact h
      · exact h
  | unrow p =>
      refine hw.withRows (fun r hr => hw.rowShort r (List.mem_filter.mp hr).1) fun hexact => ?_
      exact (hw.rowKeys hexact).sublist (List.filter_sublist.map _)
  | collect m h hkeep hgone =>
      refine Sound.dropMeta (hw.withTree hkeep
        (objects_of_keeps_but hkeep hw.objects fun hm x hx => ?_)) m
      cases hgone hm with
      | inl h =>
          rw [h.1] at hx
          obtain ⟨i, rfl, hi⟩ := hw.objects m hm x hx
          exact ⟨i, rfl, by rw [h.2, hi]⟩
      | inr h => simp [h] at hx
  | publish m hm hkeep hnew hobj =>
      refine hw.withTree hkeep (objects_of_keeps_but hkeep hw.objects ?_)
      intro _ x hx
      obtain ⟨i, hi, -, hmd5⟩ := hobj
      rw [hi, Option.some.injEq] at hx
      exact ⟨i, hx.symm, hmd5⟩

/-- The end of an upload keeps the stores sound: other bytes still have the md5. -/
theorem UploadOp.sound {free : Prop} (h : UploadOp env free u w w') (hw : Sound env w) :
    Sound env w' := by
  cases h with
  | op h => exact h.sound hw
  | replace m hm hcollide hkeep hobj =>
      refine hw.withTree hkeep (objects_of_keeps_but hkeep hw.objects fun _ x hx => ?_)
      rcases hobj with hnone | ⟨i, hi, -, hmd5⟩
      · simp [hnone] at hx
      · rw [hi, Option.some.injEq] at hx
        exact ⟨i, hx.symm, hmd5⟩

/-- **An operation on accounts keeps the stores sound.** -/
theorem AccountOp.sound (h : AccountOp env w w') (hw : Sound env w) : Sound env w' := by
  cases h with
  | draw n => exact { hw with }
  | tree h _ => exact hw.withTree h (objects_of_keeps h hw.objects)
  | user r n h =>
      refine { hw with users := fun r' hr' => ?_ }
      cases List.mem_append.mp hr' with
      | inl hr' => exact hw.users r' hr'
      | inr hr' => exact List.mem_singleton.mp hr' ▸ h.name
  | login s hcolon hzero h =>
      refine { hw with sessions := fun k raw hk => ?_ }
      by_cases heq : k = sessionKey s.token
      · simp only [heq, Function.update_self, Option.some.injEq] at hk
        exact ⟨s, hk.symm, heq, hcolon, hzero, h⟩
      · simp only [Function.update_of_ne heq] at hk
        exact hw.sessions k raw hk
  | logout k =>
      refine { hw with sessions := fun k' raw hk => ?_ }
      by_cases heq : k' = k
      · simp [heq] at hk
      · simp only [Function.update_of_ne heq] at hk
        exact hw.sessions k' raw hk

theorem IdleOps.sound (h : IdleOps env w w') (hw : Sound env w) : Sound env w' := by
  induction h with
  | refl => exact hw
  | tail _ h ih => exact h.sound ih

theorem IdleOps.storeOps (h : IdleOps env w w') : StoreOps env u w w' := by
  induction h with
  | refl => exact Relation.ReflTransGen.refl
  | tail _ h ih => exact ih.tail (StoreOp.idle h)

theorem StoreOps.sound (h : StoreOps env u w w') (hw : Sound env w) : Sound env w' := by
  induction h with
  | refl => exact hw
  | tail _ h ih => exact h.sound ih

theorem StoreOps.uploadOps {free : Prop} (h : StoreOps env u w w') : UploadOps env free u w w' := by
  induction h with
  | refl => exact Relation.ReflTransGen.refl
  | tail _ h ih => exact ih.tail (UploadOp.op h)

/-- Without collisions the end of an upload is made of the other operations. -/
theorem UploadOps.storeOps {free : Prop} (hfree : free) (h : UploadOps env free u w w') :
    StoreOps env u w w' := by
  induction h with
  | refl => exact Relation.ReflTransGen.refl
  | tail _ h ih =>
      cases h with
      | op h => exact ih.tail h
      | replace m hm hcollide => exact absurd hfree hcollide

theorem UploadOps.sound {free : Prop} (h : UploadOps env free u w w') (hw : Sound env w) :
    Sound env w' := by
  induction h with
  | refl => exact hw
  | tail _ h ih => exact h.sound ih

theorem AccountOps.sound (h : AccountOps env w w') (hw : Sound env w) : Sound env w' := by
  induction h with
  | refl => exact hw
  | tail _ h ih => exact h.sound ih

end CloudStore.Interface
