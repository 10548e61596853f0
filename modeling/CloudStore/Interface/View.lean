import CloudStore.Interface.Safety
import CloudStore.Library.RefStore

/-!
# The stores as a reference-counted content store

`view` reads a world as a `RefStore`: keys are the pairs of a user and a virtual path,
digests are the md5 texts, and a digest is stored under if it is one of 32 hexadecimal
digits. What the records of Redis and the rows become is stated here in terms of the
view, for stores that take keys and paths exactly.
-/

set_option autoImplicit false

namespace CloudStore.Interface

open CloudStore.Library (Bytes FileTree Entry RefScheme RefStore)
open CloudStore.Model
open CloudStore.Model.RedisStore
open CloudStore.Model.World (objectPath)

variable (env : Env)

/-- The scheme of the store: members of reference sets, md5 texts, and their digests. -/
def scheme : RefScheme (ℤ × Bytes) Bytes Bytes Bytes where
  ref k := refMember k.1 k.2
  ref_injective := by
    rintro ⟨u, p⟩ ⟨v, q⟩ h
    obtain ⟨rfl, rfl⟩ := refMember_injective h
    rfl
  blank := []
  stored := Hex32
  size := List.length
  digest := env.md5Hex

/-- What a row says of its path. -/
def entryOf (r : FileRow) : Entry Bytes := if r.isDir then .dir else .file r.md5 r.size

/-- The world as a content store. -/
def view (w : World) : RefStore (ℤ × Bytes) Bytes Bytes Bytes where
  row k := (w.rows.find? (World.isRow env k.1 k.2)).map entryOf
  link k := w.redis.strings (pathKey k.1 k.2)
  refs m := w.redis.sets (refsKey m)
  object m := if Hex32 m then World.object env w m else none

/-- There is a file of the index at a path, with an md5 of a kind. -/
def FileAt (w : World) (u : ℤ) (p : Bytes) (P : Bytes → Prop) : Prop :=
  ∃ r ∈ w.rows, r.userId = u ∧ r.virtualPath = p ∧ r.isDir = false ∧ P r.md5

instance (w : World) (u : ℤ) (p : Bytes) (P : Bytes → Prop) [DecidablePred P] :
    Decidable (FileAt w u p P) := inferInstanceAs (Decidable (∃ r ∈ w.rows, _))

variable {env} {u : ℤ} {w w' : World}

/-- The view looks at the rows, the path keys, the reference sets and the objects. -/
theorem view_congr (hrows : w'.rows = w.rows)
    (hlink : ∀ v p, w'.redis.strings (pathKey v p) = w.redis.strings (pathKey v p))
    (hrefs : ∀ m, w'.redis.sets (refsKey m) = w.redis.sets (refsKey m))
    (hobj : ∀ m, Hex32 m → World.object env w' m = World.object env w m) :
    view env w' = view env w := by
  unfold view
  rw [hrows]
  refine RefStore.ext rfl (funext fun k => hlink k.1 k.2) (funext hrefs) (funext fun m => ?_)
  by_cases hm : Hex32 m
  · simp only [if_pos hm, hobj m hm]
  · simp only [if_neg hm]

/-! ## What the view does not see -/

theorem object_calm {D : Set Bytes} {t : FileTree} (h : Calm env D w.fs t) {m : Bytes}
    (hm : Hex32 m) (hD : m ∉ D) : World.object env { w with fs := t } m = World.object env w m :=
  h.fileAt ⟨m, hm, hD, rfl⟩

theorem view_tree {t : FileTree} (h : Calm env ∅ w.fs t) :
    view env { w with fs := t } = view env w :=
  view_congr rfl (fun _ _ => rfl) (fun _ => rfl) fun _ hm => object_calm h hm (by simp)

theorem chalKey_ne (t m : Bytes) : (∀ v p, pathKey v p ≠ env.dialect.arg (chalKey t m)) ∧
    ∀ m', refsKey m' ≠ env.dialect.arg (chalKey t m) := by
  obtain ⟨rest, hrest, -⟩ := arg_chalKey env.dialect t m
  rw [hrest]
  constructor
  · intro v p
    refine ne_of_take_ne 4 ?_
    simp only [pathKey, List.append_assoc]
    rw [start_take (by decide), start_take (by decide)]
    decide
  · intro m'
    refine ne_of_take_ne 4 ?_
    simp only [refsKey]
    rw [start_take (by decide), start_take (by decide)]
    decide

/-- A string that is under no path key. -/
theorem view_setString {key : Bytes} (hkey : ∀ v p, pathKey v p ≠ key) (value : Bytes) :
    view env (setString w key value) = view env w :=
  view_congr rfl (fun v p => Function.update_of_ne (hkey v p) _ _) (fun _ => rfl) fun _ _ => rfl

/-- A set that is no reference set. -/
theorem view_setSet {key : Bytes} (hkey : ∀ m, refsKey m ≠ key) (value : Finset Bytes) :
    view env (setSet w key value) = view env w :=
  view_congr rfl (fun _ _ => rfl) (fun m => Function.update_of_ne (hkey m) _ _) fun _ _ => rfl

theorem view_idleOp (h : IdleOp env w w') : view env w' = view env w := by
  cases h with
  | draw n => rfl
  | tree h => exact view_tree h
  | challenge t m value h => exact view_setString (chalKey_ne t m).1 _
  | unchallenge t m =>
      rw [view_setSet (chalKey_ne t m).2, view_setString (chalKey_ne t m).1]
  | note m hm size =>
      unfold putMeta
      rw [view_setString fun v p => pathKey_ne_objsizeKey v p m,
        view_setString fun v p => (objKey_ne_pathKey m v p).symm]

theorem view_idles (h : IdleOps env w w') : view env w' = view env w := by
  induction h with
  | refl => rfl
  | tail _ h ih => exact (view_idleOp h).trans ih

theorem view_accounts (h : AccountOps env w w') : view env w' = view env w := by
  induction h with
  | refl => rfl
  | tail _ h ih =>
      refine Eq.trans ?_ ih
      cases h with
      | draw n => rfl
      | tree h _ => exact view_tree h
      | user r n h => rfl
      | login s hcolon hzero h => rfl
      | logout k => rfl

theorem view_expireKey (key : Bytes) : view env (Server.expireKey w key) = view env w := by
  unfold Server.expireKey
  dsimp only
  split
  next hchal =>
    refine view_congr rfl (fun v p => Function.update_of_ne ?_ _ _) (fun _ => rfl) fun _ _ => rfl
    rintro rfl
    rw [List.isPrefixOf_iff_prefix, List.prefix_iff_eq_take] at hchal
    refine absurd hchal ?_
    simp only [pathKey, List.append_assoc]
    rw [start_take (by decide)]
    decide
  · rfl

/-! ## Records under exact keys -/

theorem view_link (p m : Bytes) :
    view env (setString w (pathKey u p) m) =
      { view env w with link := Function.update (view env w).link (u, p) m } := by
  refine RefStore.ext rfl (funext fun k => ?_) rfl rfl
  by_cases hk : k = (u, p)
  · subst hk
    simp [view, setString]
  · have hne : pathKey k.1 k.2 ≠ pathKey u p := by
      intro h
      obtain ⟨h1, h2⟩ := pathKey_injective h
      exact hk (Prod.ext h1 h2)
    simp [view, setString, Function.update_of_ne hk, Function.update_of_ne hne]

theorem view_refs (m : Bytes) (value : Finset Bytes) :
    view env (setSet w (refsKey m) value) =
      { view env w with refs := Function.update (view env w).refs m value } := by
  refine RefStore.ext rfl rfl (funext fun m' => ?_) rfl
  by_cases hm : m' = m
  · subst hm
    simp [view, setSet]
  · have hne : refsKey m' ≠ refsKey m := fun h => hm (refsKey_injective h)
    simp [view, setSet, Function.update_of_ne hm, Function.update_of_ne hne]

/-- Without its records an object has no references. -/
theorem view_dropMeta (m : Bytes) :
    view env (dropMeta w m) =
      { view env w with refs := Function.update (view env w).refs m ∅ } := by
  rw [← view_refs]
  refine view_congr rfl (fun v p => ?_) (fun m' => ?_) fun _ _ => rfl
  · simp only [dropMeta, setSet]
    rw [Function.update_of_ne (pathKey_ne_refsKey _ _ _),
      Function.update_of_ne (pathKey_ne_objsizeKey _ _ _),
      Function.update_of_ne (objKey_ne_pathKey _ _ _).symm]
  · simp only [dropMeta, setSet]
    by_cases hk : refsKey m' = refsKey m
    · rw [hk, Function.update_self, Function.update_self]
    · rw [Function.update_of_ne hk, Function.update_of_ne hk,
        Function.update_of_ne (refsKey_ne_objsizeKey _ _),
        Function.update_of_ne (objKey_ne_refsKey _ _).symm]

section Exact

variable (hexact : env.dialect = Dialect.exact)
include hexact

theorem arg_exact (s : Bytes) : env.dialect.arg s = s := by
  rw [hexact]
  rfl

theorem isRow_exact {p : Bytes} {r : FileRow} :
    World.isRow env u p r = true ↔ r.userId = u ∧ r.virtualPath = p := by
  simp [World.isRow, hexact, Dialect.exact]

theorem isDuplicate_exact {new r : FileRow} :
    World.isDuplicate env new r = World.isRow env new.userId new.virtualPath r := by
  simp [World.isRow, World.isDuplicate, hexact, Dialect.exact]

/-- A row of a path is not one of another path. -/
theorem isRow_other {k k' : ℤ × Bytes} (hk : k' ≠ k) {r : FileRow}
    (h : World.isRow env k.1 k.2 r = true) : World.isRow env k'.1 k'.2 r = false := by
  rw [isRow_exact hexact] at h
  rw [Bool.eq_false_iff, ne_eq, isRow_exact hexact]
  rintro ⟨h1, h2⟩
  exact hk (Prod.ext (h1.symm.trans h.1) (h2.symm.trans h.2))

theorem view_unrow (p : Bytes) :
    view env { w with rows := w.rows.filter fun r => !World.isRow env u p r } =
      { view env w with row := Function.update (view env w).row (u, p) none } := by
  refine RefStore.ext (funext fun k => ?_) rfl rfl rfl
  simp only [view, List.find?_filter]
  by_cases hk : k = (u, p)
  · subst hk
    simp
  · rw [Function.update_of_ne hk]
    have hsame : (fun r => !World.isRow env u p r && World.isRow env k.1 k.2 r) =
        World.isRow env k.1 k.2 := by
      funext r
      cases hr : World.isRow env u p r with
      | false => simp
      | true => simp [isRow_other hexact (k := (u, p)) hk hr]
    simp only [Bool.not_eq_eq_eq_not, Bool.not_true, Bool.decide_and, Bool.decide_eq_false,
      Bool.decide_eq_true, hsame]

theorem view_upsertRow (r : FileRow) :
    view env { w with rows := World.upsertRow env w.rows r } =
      { view env w with
        row := Function.update (view env w).row (r.userId, r.virtualPath) (some (entryOf r)) } := by
  refine RefStore.ext (funext fun k => ?_) rfl rfl rfl
  have hself : World.isRow env r.userId r.virtualPath r = true :=
    (isRow_exact hexact).mpr ⟨rfl, rfl⟩
  simp only [view]
  unfold World.upsertRow
  split
  next hany =>
    have hcomp : World.isRow env k.1 k.2 ∘ (fun old => if World.isDuplicate env r old then
        { old with md5 := r.md5, size := r.size, isDir := r.isDir, status := r.status }
        else old) = World.isRow env k.1 k.2 := by
      funext old
      simp only [Function.comp_apply]
      split <;> rfl
    rw [List.find?_map, hcomp]
    by_cases hk : k = (r.userId, r.virtualPath)
    · subst hk
      rw [Function.update_self]
      rw [List.any_eq_true] at hany
      obtain ⟨old, hold, hdup⟩ := hany
      rw [isDuplicate_exact hexact] at hdup
      cases hfind : w.rows.find? (World.isRow env r.userId r.virtualPath) with
      | none => exact absurd hdup (List.find?_eq_none.mp hfind old hold)
      | some found =>
          have hfound := List.find?_some hfind
          simp [isDuplicate_exact hexact, hfound, entryOf]
    · rw [Function.update_of_ne hk]
      cases hfind : w.rows.find? (World.isRow env k.1 k.2) with
      | none => rfl
      | some found =>
          have hfound := List.find?_some hfind
          have hne := isRow_other hexact (k := k) (fun h => hk h.symm) hfound
          simp [isDuplicate_exact hexact, hne]
  next hany =>
    rw [List.find?_append]
    by_cases hk : k = (r.userId, r.virtualPath)
    · subst hk
      have hnone : w.rows.find? (World.isRow env r.userId r.virtualPath) = none := by
        rw [List.find?_eq_none]
        intro old hold hdup
        rw [← isDuplicate_exact hexact] at hdup
        exact hany (List.any_eq_true.mpr ⟨old, hold, hdup⟩)
      simp [hnone, hself]
    · have hne := isRow_other hexact (k := (r.userId, r.virtualPath)) hk hself
      simp [hne, Function.update_of_ne hk]

/-- In a sound store the statement of a path finds the row that is there. -/
theorem find_row (hw : Sound env w) {r : FileRow} (hr : r ∈ w.rows) :
    w.rows.find? (World.isRow env r.userId r.virtualPath) = some r := by
  have hself : World.isRow env r.userId r.virtualPath r = true :=
    (isRow_exact hexact).mpr ⟨rfl, rfl⟩
  cases hfind : w.rows.find? (World.isRow env r.userId r.virtualPath) with
  | none => exact absurd hself (List.find?_eq_none.mp hfind r hr)
  | some r' =>
      have hrow := (isRow_exact hexact).mp (List.find?_some hfind)
      have hsame : r' = r := List.inj_on_of_nodup_map (hw.rowKeys hexact)
        (List.mem_of_find?_eq_some hfind) hr (Prod.ext hrow.1 hrow.2)
      rw [hsame]

/-- In a sound store the view tells of every row. -/
theorem row_of_mem (hw : Sound env w) {r : FileRow} (hr : r ∈ w.rows) :
    (view env w).row (r.userId, r.virtualPath) = some (entryOf r) := by
  simp only [view, find_row hexact hw hr, Option.map_some]

/-- A file of the view is a row. -/
theorem mem_of_row {k : ℤ × Bytes} {d : Bytes} {n : ℕ}
    (h : (view env w).row k = some (.file d n)) :
    ∃ r ∈ w.rows, r.userId = k.1 ∧ r.virtualPath = k.2 ∧ r.isDir = false ∧ r.md5 = d ∧
      r.size = n := by
  simp only [view] at h
  cases hfind : w.rows.find? (World.isRow env k.1 k.2) with
  | none => simp [hfind] at h
  | some r =>
      have hrow := (isRow_exact hexact).mp (List.find?_some hfind)
      refine ⟨r, List.mem_of_find?_eq_some hfind, hrow.1, hrow.2, ?_⟩
      cases hdir : r.isDir with
      | true => simp [hfind, entryOf, hdir] at h
      | false => simpa [hfind, entryOf, hdir] using h

theorem fileAt_iff (hw : Sound env w) {p : Bytes} {P : Bytes → Prop} :
    FileAt w u p P ↔ ∃ d n, (view env w).row (u, p) = some (.file d n) ∧ P d := by
  constructor
  · rintro ⟨r, hr, rfl, rfl, hdir, hP⟩
    have hrow := row_of_mem hexact hw hr
    rw [entryOf, hdir] at hrow
    exact ⟨_, _, hrow, hP⟩
  · rintro ⟨d, n, hrow, hP⟩
    obtain ⟨r, hr, hu, hp, hdir, rfl, -⟩ := mem_of_row hexact hrow
    exact ⟨r, hr, hu, hp, hdir, hP⟩

end Exact

end CloudStore.Interface
