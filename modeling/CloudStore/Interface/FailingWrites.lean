import CloudStore.Interface.Publishing
import CloudStore.Interface.RelatedServices
import CloudStore.Model.FailingStatements

/-!
# Replacements while SQL statements fail

A replacement reads the row of the path with two calls for a statement, gives the old content
up with two more, and writes the new row with the last two. What fails behind the first two
leaves the store torn: the reference of the old content is gone, or the path has no key.
-/

set_option autoImplicit false

namespace CloudStore.Interface

open CloudStore.Library (Bytes Path FileTree Action RefStore Sheds)
open CloudStore.Library.Action (bind_apply bind_ok bind_error beside)
open CloudStore.Library.Posix
open CloudStore.Model
open CloudStore.Model.RedisStore
open CloudStore.Model.TransferService
open CloudStore.Model.World (objectPath objectsDir files redisCalls backend)

variable {env : Env} {u : ℤ} {w w' : World} {fails : ℕ → Option Bool} {i : ℕ}

/-! ## Calls for statements -/

theorem stating_ok {what : Bytes} {α : Type} (a : Act World α) (h : fails i = none) :
    stating fails what a (w, i) = ((a w).1, ((a w).2, i + 1)) := by
  simp [stating, h]

theorem stating_error {what : Bytes} {α : Type} (a : Act World α) {executed : Bool}
    (h : fails i = some executed) :
    stating fails what a (w, i) = (.error (.std (what ++ str ": Lost connection")),
      (if executed then (a w).2 else w, i + 1)) := by
  simp [stating, h]

theorem withConn_statements {α : Type} (a : Act (World × ℕ) α) :
    (failingStatements fails (backend env)).sql.withConn a = a := rfl

theorem prepare_ok (h : fails i = none) (sql : String) :
    (failingStatements fails (backend env)).sql.prepare sql (w, i) = (.ok (), (w, i + 1)) :=
  stating_ok _ h

/-- Where the execution fails, the row is taken for absent. -/
theorem lookupPlainFile_prepared (p : Bytes) (h : fails i = none) :
    lookupPlainFile (failingStatements fails (backend env)) u p (w, i) =
      (.ok (if fails (i + 1) = none then
        (w.rows.find? (World.isRow env u p)).filter fun r => !r.isDir else none), (w, i + 2)) := by
  have hlookup : lookupFile (failingStatements fails (backend env)) u p (w, i) =
      (.ok (if fails (i + 1) = none then w.rows.find? (World.isRow env u p) else none),
        (w, i + 2)) := by
    unfold lookupFile
    rw [withConn_statements, bind_ok (prepare_ok h _), Action.tryCatch_apply]
    cases hfails : fails (i + 1) with
    | none =>
        rw [show (failingStatements fails (backend env)).sql.selectFile u p (w, i + 1) = _ from
          stating_ok _ hfails]
        rfl
    | some executed =>
        rw [show (failingStatements fails (backend env)).sql.selectFile u p (w, i + 1) = _ from
          stating_error _ hfails]
        cases executed <;> rfl
  unfold lookupPlainFile
  rw [bind_ok hlookup]
  cases fails (i + 1) <;> rfl

section

variable (hexact : env.dialect = Dialect.exact)
include hexact

/-- The md5 that is released is that of the path key. -/
theorem HoldsFile.released (fails : ℕ → Option Bool) (i : ℕ) {p d : Bytes}
    (hold : HoldsFile env w u p d) :
    releasedMd5 (backend env) u p w = (.ok d, w) ∧
      releasedMd5 (failingStatements fails (backend env)) u p (w, i) = (.ok d, (w, i)) := by
  have hget : getPathMd5 (redisCalls env) u p w = (.ok d, w) := by
    rw [getPathMd5_eq, arg_exact hexact]
    exact congrArg (fun x => (Except.ok x, w)) hold.key
  have hget' : getPathMd5 (failingStatements fails (backend env)).redis u p (w, i) =
      (.ok d, (w, i)) := Action.beside_run hget i
  unfold releasedMd5
  constructor
  · rw [World.backend_redis, bind_ok hget, if_neg hold.nonempty]
    rfl
  · rw [bind_ok hget', if_neg hold.nonempty]
    rfl

end

/-! ## Publishing -/

section

variable {σ : Type} (b : Backend σ) (q : SqlCalls σ)

end

/-- The rows, the reference sets, the path keys and the objects are as they were. -/
structure StoreKept (env : Env) (w w' : World) : Prop where
  rows : w'.rows = w.rows
  refs : ∀ m, w'.redis.sets (refsKey m) = w.redis.sets (refsKey m)
  keys : ∀ u p, w'.redis.strings (pathKey u p) = w.redis.strings (pathKey u p)
  objects : ∀ m, Hex32 m → World.object env w' m = World.object env w m

section

variable (hexact : env.dialect = Dialect.exact)
include hexact

theorem HoldsFile.length {p d : Bytes} (hold : HoldsFile env w u p d) : d.length = 32 := by
  have h := (hold.sound.linkShort u p).length (by rw [hexact]; rfl)
  rw [show w.redis.strings (pathKey u p) = d from hold.key] at h
  exact h.resolve_left hold.nonempty

omit hexact in
/-- A destination whose row is read is released. -/
theorem HoldsFile.clearDestination {p d : Bytes} (hold : HoldsFile env w u p d) (dest : Bytes)
    (h : fails i = none) (h' : fails (i + 1) = none) :
    TransferService.clearDestination (failingStatements fails (backend env)) u dest p true (w, i) =
      releaseContentRef (failingStatements fails (backend env)) u p (w, i + 2) := by
  obtain ⟨row, hrow⟩ := hold.lookup
  unfold TransferService.clearDestination
  rw [bind_ok (lookupPlainFile_prepared p h), if_pos h', hrow]
  rfl

omit hexact

theorem StoreKept.trans {w'' : World} (h : StoreKept env w w') (h' : StoreKept env w' w'') :
    StoreKept env w w'' where
  rows := h'.rows.trans h.rows
  refs m := (h'.refs m).trans (h.refs m)
  keys u p := (h'.keys u p).trans (h.keys u p)
  objects m hm := (h'.objects m hm).trans (h.objects m hm)

end

end CloudStore.Interface
