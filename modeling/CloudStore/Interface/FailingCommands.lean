import CloudStore.Interface.RelatedServices
import CloudStore.Interface.ServiceViews
import CloudStore.Model.FailingRedis

/-!
# Releases while Redis commands fail

A release removes the object that its md5 leads to if the count it reads is not positive,
and 0 is also what a failed SCARD reads as. No other object and no row of another path is
touched, whatever the commands do.
-/

set_option autoImplicit false

namespace CloudStore.Interface

open CloudStore.Library (Bytes Path Action FileTree)
open CloudStore.Library.Action (Moves bind_apply bind_ok bind_error beside)
open CloudStore.Library.Posix
open CloudStore.Model
open CloudStore.Model.RedisStore
open CloudStore.Model.TransferService
open CloudStore.Model.World (objectPath files redisCalls backend)

variable {env : Env} {u : ℤ} {w w' : World}

/-! ## Lost keys -/

/-- Redis without some of its keys. -/
def forget (lost : Bytes → Bool) (w : World) : World :=
  { w with redis :=
    { strings := fun key => if lost key then [] else w.redis.strings key
      sessions := fun key => if lost key then none else w.redis.sessions key
      sets := fun key => if lost key then ∅ else w.redis.sets key } }

/-- What holds between operations still holds when keys are lost. -/
theorem Sound.forget (hw : Sound env w) (lost : Bytes → Bool) :
    Sound env (Interface.forget lost w) where
  links := hw.links
  objects := hw.objects
  cached m h := by
    have hkept : (Interface.forget lost w).redis.strings (objKey m) =
        w.redis.strings (objKey m) := by
      simp only [Interface.forget] at h ⊢
      split_ifs at h ⊢ <;> simp_all
    rw [hkept] at h ⊢
    exact hw.cached m h
  linkShort u p := by
    simp only [Interface.forget]
    split
    · exact short_nil _
    · exact hw.linkShort u p
  rowShort := hw.rowShort
  rowKeys := hw.rowKeys
  sessions k raw h := by
    simp only [Interface.forget] at h
    split_ifs at h
    exact hw.sessions k raw h
  users := hw.users
  challenges hd t m ht h := by
    simp only [Interface.forget] at h
    split_ifs at h
    · simp at h
    · exact hw.challenges hd t m ht h
  parts := hw.parts

/-! ## The object of an md5 -/

theorem joinPath_append (x : Bytes) {a : Bytes} (ha : a ≠ []) (b : Bytes) :
    joinPath x (a ++ b) = joinPath x a ++ b := by
  obtain ⟨c, a, rfl⟩ := List.exists_cons_of_ne_nil ha
  unfold joinPath
  split_ifs <;> simp_all

theorem arg_length_le (md5 : Bytes) : (env.dialect.arg md5).length ≤ md5.length := by
  unfold Dialect.arg
  split
  · exact cstr_length_le md5
  · exact le_rfl

theorem arg_hex {m : Bytes} (hm : Hex32 m) : env.dialect.arg m = m := by
  unfold Dialect.arg
  split
  · exact cstr_hex hm
  · rfl

/-- What Redis takes for a 32-hex md5 leads where that md5 leads. -/
theorem locate_arg {t : FileTree} {md5 : Bytes} (hm : Hex32 (env.dialect.arg md5)) (follow : Bool) :
    locate t follow (objectText env md5) =
      locate t follow (objectText env (env.dialect.arg md5)) := by
  have hcstr : cstr (objectText env md5) = cstr (objectText env (env.dialect.arg md5)) := by
    unfold Dialect.arg at hm ⊢
    split_ifs at hm ⊢
    · by_cases hzero : 0 ∈ md5
      · obtain ⟨a, b, rfl, ha⟩ := List.eq_append_cons_of_mem hzero
        rw [cstr_append_zero ha] at hm ⊢
        have hlen := hm.1
        have htake : (a ++ 0 :: b).take 2 = a.take 2 := List.take_append_of_le_length (by omega)
        have htext : objectText env (a ++ 0 :: b) = objectText env a ++ 0 :: b := by
          unfold objectText
          rw [htake, joinPath_append _ (Hex32.plain hm).1]
        have hclean : 0 ∉ objectText env a := by
          rw [objectText_hex env hm]
          exact zero_not_mem_render (objectPath_plain env hm)
        rw [htext, cstr_append_zero hclean, cstr_of_zero_not_mem hclean]
      · rw [cstr_of_zero_not_mem hzero]
    · rfl
  unfold locate
  rw [hcstr]

/-- A short md5 leads to its own object, which `unlink` removes, or to none. -/
theorem object_unlinked (hw : Sound env w) {md5 obj : Bytes} (hshort : Short env.dialect md5)
    (hobj : 2 ≤ md5.length ∧ obj = objectText env md5 ∨
      Hex32 (env.dialect.arg md5) ∧ obj = objectText env (env.dialect.arg md5))
    {m : Bytes} (hm : Hex32 m) :
    World.object env { w with fs := ((unlink w.fs obj).toOption.getD w.fs) } m =
      if env.dialect.arg md5 = m then none else World.object env w m := by
  split
  next harg =>
    have hloc : locate w.fs false obj = locate w.fs false (objectText env m) := by
      rcases hobj with ⟨-, rfl⟩ | ⟨-, rfl⟩
      · rw [locate_arg (harg ▸ hm), harg]
      · rw [harg]
    cases he : w.fs.entry (objectPath env m) with
    | none =>
        obtain ⟨e, hnode⟩ := (node_object hw.links hm false).2 he
        have hnode' : node w.fs false obj = .error e := by
          rw [← hnode]
          unfold node
          rw [hloc]
        have hunlink : unlink w.fs obj = .error e := by simp [unlink, hnode']
        simp [hunlink, Except.toOption, World.object, FileTree.fileAt, he]
    | some x =>
        obtain ⟨i, rfl, -⟩ := hw.objects m hm x he
        obtain ⟨t, ht, hentry⟩ := unlink_file (hloc.trans
          (node_ok ((node_object hw.links hm false).1 _ he)).1) he
        simp [ht, Except.toOption, World.object, FileTree.fileAt, hentry]
  next harg =>
    cases hunlink : unlink w.fs obj with
    | error e => rfl
    | ok t =>
        have hcalm : Calm env {env.dialect.arg md5} w.fs t :=
          unlink_keeps hunlink fun q hloc hq => object_of_short hw.links hshort hobj hloc hq
        exact object_calm hcalm hm fun h => harg (Set.mem_singleton_iff.mp h).symm

/-! ## Commands -/

variable (outcome : ℕ → Outcome) (n : ℕ)

/-- Without an exception the caller receives the value of the reply or of an absent key. -/
theorem result_reached {o : Outcome} (ho : o ≠ .unreachable) {α : Type} (missing x : α) :
    o.result missing (.ok x) = .ok (if o = .served then x else missing) := by
  cases o <;> simp_all [Outcome.result]

theorem cmdGet_commands (key : Bytes) :
    (failingRedis outcome (backend env)).redis.cmdGet key (w, n) =
      ((outcome n).result [] (.ok (w.redis.strings (env.dialect.arg key))), (w, n + 1)) := by
  simp [failingRedis, commanding, redisCalls]

/-- The tree stays, and so do the rows of other paths. -/
structure Apart (env : Env) (u : ℤ) (p : Bytes) (st st' : World × ℕ) : Prop where
  fs : st'.1.fs = st.1.fs
  others : ∀ r, World.isRow env u p r = false → (r ∈ st'.1.rows ↔ r ∈ st.1.rows)

namespace Apart

variable {p : Bytes}

theorem refl (st : World × ℕ) : Apart env u p st st := ⟨rfl, fun _ _ => Iff.rfl⟩

theorem trans (st st' st'' : World × ℕ) (h : Apart env u p st st') (h' : Apart env u p st' st'') :
    Apart env u p st st'' :=
  ⟨h'.fs.trans h.fs, fun r hr => (h'.others r hr).trans (h.others r hr)⟩

theorem of_rows {st st' : World × ℕ} (hfs : st'.1.fs = st.1.fs) (hrows : st'.1.rows = st.1.rows) :
    Apart env u p st st' := ⟨hfs, fun r _ => by rw [hrows]⟩

end Apart

theorem cmdDel_apart (p key : Bytes) :
    Moves (Apart env u p) ((failingRedis outcome (backend env)).redis.cmdDel key) := by
  rintro ⟨w, n⟩
  apply Apart.of_rows <;> simp only [failingRedis, commanding] <;> split <;> rfl

theorem deleteObjectMeta_apart (p md5 : Bytes) :
    Moves (Apart env u p)
      (deleteObjectMeta (failingRedis outcome (backend env)).redis md5) :=
  Moves.bind Apart.trans (cmdDel_apart outcome p _) fun _ =>
    Moves.bind Apart.trans (cmdDel_apart outcome p _) fun _ => cmdDel_apart outcome p _

theorem unindex_apart (p : Bytes) :
    Moves (Apart env u p) (unindex (failingRedis outcome (backend env)) u p) := by
  have hdelete : Moves (Apart env u p)
      ((failingRedis outcome (backend env)).sql.deleteFile u p) := by
    rintro ⟨w, n⟩
    refine ⟨rfl, fun r hr => ?_⟩
    have hrows : ((failingRedis outcome (backend env)).sql.deleteFile u p (w, n)).2.1.rows =
        w.rows.filter fun r => !World.isRow env u p r := rfl
    rw [hrows, List.mem_filter]
    simp [hr]
  exact Moves.bind Apart.trans (fun st => Apart.refl st) fun _ =>
    Moves.bind Apart.trans hdelete fun _ => cmdDel_apart outcome p _

/-! ## The parts of a release -/

/-- The md5 that a release takes for that of the path, by what becomes of the first
command. -/
def releasedBy (env : Env) (o : Outcome) (w : World) (u : ℤ) (p : Bytes) : Bytes :=
  if o = .served ∧ w.redis.strings (pathKey u (env.dialect.arg p)) ≠ [] then
    w.redis.strings (pathKey u (env.dialect.arg p))
  else (((w.rows.find? (World.isRow env u p)).filter fun r => !r.isDir).map FileRow.md5).getD []

theorem releasedBy_short (hw : Sound env w) (o : Outcome) (p : Bytes) :
    Short env.dialect (releasedBy env o w u p) := by
  unfold releasedBy
  split_ifs
  · exact hw.linkShort u _
  · cases hrow : (w.rows.find? (World.isRow env u p)).filter fun r => !r.isDir with
    | none => exact short_nil _
    | some r =>
        rw [Option.filter_eq_some_iff] at hrow
        exact hw.rowShort r (List.mem_of_find?_eq_some hrow.1)

theorem releasedMd5_commands (p : Bytes) (hn : outcome n ≠ .unreachable) :
    releasedMd5 (failingRedis outcome (backend env)) u p (w, n) =
      (.ok (releasedBy env (outcome n) w u p), (w, n + 1)) := by
  have hget : getPathMd5 (failingRedis outcome (backend env)).redis u p (w, n) =
      (.ok (if outcome n = .served then w.redis.strings (pathKey u (env.dialect.arg p)) else []),
        (w, n + 1)) := by
    unfold getPathMd5
    rw [cmdGet_commands, result_reached hn, arg_pathKey]
  have hlookup : lookupPlainFile (failingRedis outcome (backend env)) u p (w, n + 1) =
      (.ok ((w.rows.find? (World.isRow env u p)).filter fun r => !r.isDir), (w, n + 1)) := rfl
  unfold releasedMd5 releasedBy
  rw [bind_ok hget]
  by_cases hserved : outcome n = .served
  · rw [if_pos hserved]
    by_cases hnil : w.redis.strings (pathKey u (env.dialect.arg p)) = []
    · rw [if_pos hnil, if_neg (by simp [hnil]), bind_ok hlookup]
      cases (w.rows.find? (World.isRow env u p)).filter fun r => !r.isDir <;> rfl
    · rw [if_neg hnil, if_pos ⟨hserved, hnil⟩]
      rfl
  · rw [if_neg hserved, if_pos rfl, if_neg (by simp [hserved]), bind_ok hlookup]
    cases (w.rows.find? (World.isRow env u p)).filter fun r => !r.isDir <;> rfl

/-- The references of an md5 behind the SREM of a path. -/
def refsLeft (env : Env) (o : Outcome) (w : World) (u : ℤ) (p md5 : Bytes) : Finset Bytes :=
  if o.executed then
    (w.redis.sets (refsKey (env.dialect.arg md5))).erase (refMember u (env.dialect.arg p))
  else w.redis.sets (refsKey (env.dialect.arg md5))

theorem removeRef_commands (hw : Sound env w) (md5 p : Bytes) (hn : outcome n ≠ .unreachable)
    (hn' : outcome (n + 1) ≠ .unreachable) :
    ∃ w₁, removeRef (failingRedis outcome (backend env)).redis md5 u p (w, n) =
        (.ok (if outcome (n + 1) = .served then
          ((refsLeft env (outcome n) w u p md5).card : ℤ) else 0), (w₁, n + 2)) ∧
      Sound env w₁ ∧ w₁.fs = w.fs ∧ w₁.rows = w.rows := by
  have hrem : (failingRedis outcome (backend env)).redis.cmdSRem (refsKey md5) (refMember u p)
      (w, n) = ((outcome n).result 0 (.ok (((w.redis.sets (refsKey (env.dialect.arg md5))).card : ℤ) -
          ((w.redis.sets (refsKey (env.dialect.arg md5))).erase
            (refMember u (env.dialect.arg p))).card)),
        (if (outcome n).executed then setSet w (refsKey (env.dialect.arg md5))
          ((w.redis.sets (refsKey (env.dialect.arg md5))).erase (refMember u (env.dialect.arg p)))
          else w, n + 1)) := by
    simp [failingRedis, commanding, redisCalls, arg_refsKey, arg_refMember, setSet]
  have hcard : ∀ w₁ : World, (failingRedis outcome (backend env)).redis.cmdSCard (refsKey md5)
      (w₁, n + 1) = ((outcome (n + 1)).result 0
        (.ok ((w₁.redis.sets (refsKey (env.dialect.arg md5))).card : ℤ)), (w₁, n + 2)) := by
    intro w₁
    simp [failingRedis, commanding, redisCalls, arg_refsKey]
  rw [result_reached hn] at hrem
  unfold removeRef refsLeft
  cases hexecuted : (outcome n).executed with
  | true =>
      rw [hexecuted, if_pos rfl] at hrem
      refine ⟨setSet w (refsKey (env.dialect.arg md5)) ((w.redis.sets
        (refsKey (env.dialect.arg md5))).erase (refMember u (env.dialect.arg p))), ?_,
        hw.setSet _ _, rfl, rfl⟩
      rw [bind_ok hrem, hcard, result_reached hn']
      simp [setSet]
  | false =>
      rw [hexecuted, if_neg Bool.false_ne_true] at hrem
      refine ⟨w, ?_, hw, rfl, rfl⟩
      rw [bind_ok hrem, hcard, result_reached hn']
      simp

/-- The place of an object is known, unless there is no connection or the md5 is too short. -/
theorem resolveObjectPath_commands (hw : Sound env w) (md5 : Bytes)
    (hn : outcome n ≠ .unreachable) :
    (md5.length < 2 ∧ ∃ e, resolveObjectPath (failingRedis outcome (backend env)) md5 (w, n) =
        (.error e, (w, n + 1))) ∨
      ∃ obj, resolveObjectPath (failingRedis outcome (backend env)) md5 (w, n) =
          (.ok obj, (w, n + 1)) ∧
        (2 ≤ md5.length ∧ obj = objectText env md5 ∨
          Hex32 (env.dialect.arg md5) ∧ obj = objectText env (env.dialect.arg md5)) := by
  have hget : getObjectPath (failingRedis outcome (backend env)).redis md5 (w, n) =
      (.ok (if outcome n = .served then w.redis.strings (objKey (env.dialect.arg md5)) else []),
        (w, n + 1)) := by
    unfold getObjectPath
    rw [cmdGet_commands, result_reached hn, arg_objKey]
  unfold resolveObjectPath
  rw [bind_ok hget]
  by_cases hcached : (if outcome n = .served then
      w.redis.strings (objKey (env.dialect.arg md5)) else []) = []
  · have hfor : objectPathFor (failingRedis outcome (backend env)) md5 =
        if md5.length < 2 then .error (.cloud .badRequest (str "bad md5"))
        else .ok (objectText env md5) := rfl
    rw [if_neg (not_not.mpr hcached), hfor]
    split_ifs with hlen
    · exact Or.inl ⟨hlen, _, rfl⟩
    · exact Or.inr ⟨_, rfl, Or.inl ⟨by omega, rfl⟩⟩
  · rw [if_pos hcached]
    have hserved : outcome n = .served := by
      by_contra h
      exact hcached (if_neg h)
    rw [if_pos hserved] at hcached ⊢
    obtain ⟨hhex, hpath⟩ := hw.cached _ hcached
    exact Or.inr ⟨_, rfl, Or.inr ⟨hhex, hpath⟩⟩

/-- A collection ends with the object of its md5 unlinked, if there is a connection. -/
theorem collectObject_commands (hw : Sound env w) {md5 : Bytes} (hshort : Short env.dialect md5)
    (p : Bytes) {m : Bytes} (hm : Hex32 m) :
    ∃ w₁, Apart env u p (w₁, n + 1)
        (collectObject (failingRedis outcome (backend env)) md5 (w, n)).2 ∧ w₁.rows = w.rows ∧
      World.object env w₁ m =
        if outcome n ≠ .unreachable ∧ env.dialect.arg md5 = m then none else World.object env w m := by
  have hfiles : FilesRelated (Action.lifted Exn World ℕ) (files env)
      (failingRedis outcome (backend env)).files := by constructor <;> intros <;> rfl
  unfold collectObject
  by_cases hn : outcome n = .unreachable
  · have hget : resolveObjectPath (failingRedis outcome (backend env)) md5 (w, n) =
        (.error (.std (str "redis connect failed: Connection refused")), (w, n + 1)) := by
      unfold resolveObjectPath getObjectPath
      apply bind_error
      rw [cmdGet_commands, hn]
      rfl
    rw [bind_error hget]
    exact ⟨w, Apart.refl _, rfl, by simp [hn]⟩
  · rcases resolveObjectPath_commands outcome n hw md5 hn with ⟨hlen, e, hresolve⟩ | hresolve
    · rw [bind_error hresolve]
      refine ⟨w, Apart.refl _, rfl, ?_⟩
      rw [if_neg]
      rintro ⟨-, rfl⟩
      have hle := @arg_length_le env md5
      have := hm.1
      omega
    · obtain ⟨obj, hresolve, hobj⟩ := hresolve
      rw [bind_ok hresolve]
      have hunlinked := object_unlinked hw hshort hobj hm
      obtain ⟨there, hthere⟩ := @fileExists_ok env obj w
      have hthere' : fileExists (failingRedis outcome (backend env)).files obj (w, n + 1) =
          (.ok there, (w, n + 1)) := by
        rw [show fileExists (failingRedis outcome (backend env)).files obj =
          beside (fileExists (files env) obj) from hfiles.fileExists _]
        exact Action.beside_run hthere _
      rw [bind_ok hthere']
      cases there with
      | false =>
          -- nothing is there, and nothing is unlinked
          refine ⟨w, deleteObjectMeta_apart outcome p md5 (w, n + 1), rfl, ?_⟩
          obtain ⟨e, hnode⟩ := fileExists_false hthere
          have hgone : unlink w.fs obj = .error e := by
            cases hn : node w.fs false obj with
            | ok qx => simp [lstat, hn, Except.map] at hnode
            | error e' =>
                simp only [lstat, hn, Except.map] at hnode
                cases hnode
                simp [unlink, hn]
          rw [hgone] at hunlinked
          rw [if_congr (and_iff_right hn) rfl rfl]
          exact hunlinked
      | true =>
          obtain ⟨r, hrun⟩ := @unlink_run env obj w
          have hrun' : (failingRedis outcome (backend env)).files.unlink obj (w, n + 1) =
            (.ok r, ({ w with fs := (unlink w.fs obj).toOption.getD w.fs }, n + 1)) :=
              Action.beside_run hrun _
          have hchmod : (failingRedis outcome (backend env)).files.chmod obj (w, n + 1) =
            (.ok ((Library.Posix.stat w.fs obj).map fun _ => ()), (w, n + 1)) := rfl
          rw [if_pos rfl, bind_ok hchmod, bind_ok hrun']
          refine ⟨_, deleteObjectMeta_apart outcome p md5 _, rfl, ?_⟩
          rw [if_congr (and_iff_right hn) rfl rfl]
          exact hunlinked

/-! ## A release -/

/-- A release collects the object of `m`: it takes `m` for the md5 of the path, and the count
of the references that are left comes out as 0. -/
structure Collects (env : Env) (outcome : ℕ → Outcome) (n : ℕ) (w : World) (u : ℤ)
    (p m : Bytes) : Prop where
  connected : ∀ i < 4, outcome (n + i) ≠ .unreachable
  released : env.dialect.arg (releasedBy env (outcome n) w u p) = m
  counted : outcome (n + 2) = .served → refsLeft env (outcome (n + 1)) w u p m = ∅

theorem removeRef_apart (md5 p : Bytes) :
    Moves (Apart env u p) (removeRef (failingRedis outcome (backend env)).redis md5 u p) := by
  have hrem : Moves (Apart env u p) ((failingRedis outcome (backend env)).redis.cmdSRem
      (refsKey md5) (refMember u p)) := by
    rintro ⟨w, n⟩
    apply Apart.of_rows <;> simp only [failingRedis, commanding] <;> split <;> rfl
  refine Moves.bind Apart.trans hrem fun _ => ?_
  rintro ⟨w, n⟩
  apply Apart.of_rows <;> simp only [failingRedis, commanding] <;> split <;> rfl

theorem removeRef_unreachable (md5 p : Bytes)
    (hn : outcome n = .unreachable ∨ outcome (n + 1) = .unreachable) :
    ∃ e st, removeRef (failingRedis outcome (backend env)).redis md5 u p (w, n) =
      (.error e, st) := by
  unfold removeRef
  rcases hrem : (failingRedis outcome (backend env)).redis.cmdSRem (refsKey md5) (refMember u p)
    (w, n) with ⟨e | r, w₁, n₁⟩
  · exact ⟨e, _, bind_error hrem⟩
  · obtain rfl : n + 1 = n₁ := congrArg (fun x => x.2.2) hrem
    rw [bind_ok hrem]
    rcases hn with hn | hn
    · have hresult : (outcome n).result 0 _ = .ok r := congrArg Prod.fst hrem
      rw [hn] at hresult
      cases hresult
    · simp only [failingRedis, commanding, hn]
      exact ⟨_, _, rfl⟩

/-- The count that a release reads is not positive. -/
theorem count_le_iff {o : Outcome} (s : Finset Bytes) :
    (if o = .served then (s.card : ℤ) else 0) ≤ 0 ↔ (o = .served → s = ∅) := by
  split_ifs with ho
  · have hcard : (s.card : ℤ) ≤ 0 ↔ s.card = 0 := by omega
    rw [hcard, Finset.card_eq_zero]
    exact ⟨fun h _ => h, fun h => h ho⟩
  · simp [ho]

/-- What a release leaves of the world, up to its last commands. -/
theorem releaseContentRef_ends (hw : Sound env w) (p : Bytes) {m : Bytes} (hm : Hex32 m) :
    ∃ st, Apart env u p st
        (releaseContentRef (failingRedis outcome (backend env)) u p (w, n)).2 ∧
      (∀ r, World.isRow env u p r = false → (r ∈ st.1.rows ↔ r ∈ w.rows)) ∧
      (Collects env outcome n w u p m → World.object env st.1 m = none) ∧
      (¬ Collects env outcome n w u p m → World.object env st.1 m = World.object env w m) := by
  unfold releaseContentRef
  by_cases hn : outcome n = .unreachable
  · have hget : releasedMd5 (failingRedis outcome (backend env)) u p (w, n) =
        (.error (.std (str "redis connect failed: Connection refused")), (w, n + 1)) := by
      unfold releasedMd5 getPathMd5
      apply bind_error
      rw [cmdGet_commands, hn]
      rfl
    rw [bind_error hget]
    refine ⟨(w, n + 1), Apart.refl _, fun _ _ => Iff.rfl, fun h => ?_, fun _ => rfl⟩
    exact absurd hn (h.connected 0 (by omega))
  · rw [bind_ok (releasedMd5_commands outcome n p hn)]
    have hshort := releasedBy_short (u := u) hw (outcome n) p
    -- the world right behind the first command, if no object is collected
    have hkept : ∀ st, Apart env u p (w, n + 1) st → ¬ Collects env outcome n w u p m →
        ∃ st', Apart env u p st' st ∧
          (∀ r, World.isRow env u p r = false → (r ∈ st'.1.rows ↔ r ∈ w.rows)) ∧
          (Collects env outcome n w u p m → World.object env st'.1 m = none) ∧
          (¬ Collects env outcome n w u p m →
            World.object env st'.1 m = World.object env w m) := by
      intro st hapart hnot
      exact ⟨(w, n + 1), hapart, fun _ _ => Iff.rfl, fun h => absurd h hnot, fun _ => rfl⟩
    by_cases hnil : releasedBy env (outcome n) w u p = []
    · rw [if_neg (not_not.mpr hnil)]
      refine hkept _ (unindex_apart outcome p _) fun h => ?_
      have hle := @arg_length_le env (releasedBy env (outcome n) w u p)
      have hlen := hm.1
      rw [h.released, hnil, hlen] at hle
      simp at hle
    · rw [if_pos hnil]
      by_cases hunreachable : outcome (n + 1) = .unreachable ∨ outcome (n + 2) = .unreachable
      · obtain ⟨e, st, hremove⟩ := @removeRef_unreachable env u w outcome (n + 1)
          (releasedBy env (outcome n) w u p) p hunreachable
        have hapart := @removeRef_apart env u outcome (releasedBy env (outcome n) w u p) p (w, n + 1)
        rw [bind_error hremove]
        rw [hremove] at hapart
        refine hkept _ hapart fun h => ?_
        rcases hunreachable with h' | h'
        · exact h.connected 1 (by omega) h'
        · exact h.connected 2 (by omega) h'
      · obtain ⟨hn₁, hn₂⟩ := not_or.mp hunreachable
        obtain ⟨w₁, hremove, hw₁, hfs, hrows⟩ := @removeRef_commands env u w outcome (n + 1) hw
          (releasedBy env (outcome n) w u p) p hn₁ hn₂
        rw [bind_ok hremove]
        have hcount := @count_le_iff (outcome (n + 2))
          (refsLeft env (outcome (n + 1)) w u p (releasedBy env (outcome n) w u p))
        have hsame : env.dialect.arg (releasedBy env (outcome n) w u p) = m →
            refsLeft env (outcome (n + 1)) w u p (releasedBy env (outcome n) w u p) =
              refsLeft env (outcome (n + 1)) w u p m := by
          intro h
          unfold refsLeft
          rw [h, arg_hex hm]
        by_cases hle : (if outcome (n + 1 + 1) = .served then
            ((refsLeft env (outcome (n + 1)) w u p
              (releasedBy env (outcome n) w u p)).card : ℤ) else 0) ≤ 0
        · have hzero := hcount.mp hle
          rw [if_pos hle]
          obtain ⟨w₂, hapart, hrows₂, hobject⟩ := @collectObject_commands env u w₁ outcome (n + 3) hw₁
            _ hshort p m hm
          have hobject₁ : World.object env w₁ m = World.object env w m := by
            rw [World.object, hfs, World.object]
          have hends : ∀ r st, collectObject (failingRedis outcome (backend env))
              (releasedBy env (outcome n) w u p) (w₁, n + 3) = (r, st) →
              Apart env u p (w₂, n + 4) (((collectObject (failingRedis outcome (backend env))
                (releasedBy env (outcome n) w u p)) >>= fun _ =>
                  unindex (failingRedis outcome (backend env)) u p) (w₁, n + 3)).2 := by
            intro r st hcollect
            rw [hcollect] at hapart
            cases r with
            | error e =>
                rw [bind_error hcollect]
                exact hapart
            | ok _ =>
                rw [bind_ok hcollect]
                exact Apart.trans _ _ _ hapart (unindex_apart outcome p st)
          refine ⟨(w₂, n + 4), hends _ _ rfl, fun r _ => by rw [hrows₂, hrows], fun h => ?_,
            fun h => ?_⟩
          · rw [hobject, if_pos ⟨h.connected 3 (by omega), h.released⟩]
          · rw [hobject, if_neg, hobject₁]
            rintro ⟨hn₃, hreleased⟩
            refine h ⟨fun i hi => ?_, hreleased, fun hserved => ?_⟩
            · interval_cases i <;> assumption
            · rw [← hsame hreleased]
              exact hzero hserved
        · rw [if_neg hle]
          have hstart : Apart env u p (w, n + 1) (w₁, n + 3) := Apart.of_rows hfs hrows
          refine hkept _ (Apart.trans _ _ _ hstart (unindex_apart outcome p _)) fun h => ?_
          apply hle
          apply hcount.mpr
          rw [hsame h.released]
          exact h.counted

/-- **A release while Redis commands fail** removes the objects that it collects, and no row
of another path. -/
theorem releaseContentRef_commands (hw : Sound env w) (p : Bytes) :
    (∀ r, World.isRow env u p r = false →
      (r ∈ (releaseContentRef (failingRedis outcome (backend env)) u p (w, n)).2.1.rows ↔
        r ∈ w.rows)) ∧
    ∀ m, Hex32 m →
      (Collects env outcome n w u p m → World.object env
        (releaseContentRef (failingRedis outcome (backend env)) u p (w, n)).2.1 m = none) ∧
      (¬ Collects env outcome n w u p m → World.object env
        (releaseContentRef (failingRedis outcome (backend env)) u p (w, n)).2.1 m =
          World.object env w m) := by
  constructor
  · intro r hr
    obtain ⟨st, hapart, hothers, -⟩ := releaseContentRef_ends outcome n (u := u) hw p
      (env.md5_hex [])
    exact (hapart.others r hr).trans (hothers r hr)
  · intro m hm
    obtain ⟨st, hapart, -, hgone, hkept⟩ := releaseContentRef_ends outcome n (u := u) hw p hm
    have hobject : World.object env
        (releaseContentRef (failingRedis outcome (backend env)) u p (w, n)).2.1 m =
          World.object env st.1 m := by
      rw [World.object, hapart.fs, World.object]
    rw [hobject]
    exact ⟨hgone, hkept⟩

end CloudStore.Interface
