import CloudStore.Interface.ObjectCopy
import CloudStore.Library.Subtree
import CloudStore.Model.StoppedProcess

/-!
# Copying while calls fall short, fail or do not come

What stands at the destination of `copyToObjectStore` at each point of its run: what was there
before, or the start of the source, or nothing.
-/

set_option autoImplicit false

namespace CloudStore.Interface

open CloudStore.Library
open CloudStore.Library.Action (Meets Moves meets_bind bind_ok)
open CloudStore.Library.Posix
open CloudStore.Model
open CloudStore.Model.TransferService
open CloudStore.Model.World (files)

variable {env : Env} {faults : Faults} {x : Bytes} {p q : Path}

/-! ## The states of a copy -/

/-- A destination that is as long as the source holds its bytes. -/
def Faithful (x : Bytes) (q : Path) (w : World) : Prop :=
  ∀ y, w.fs.fileAt q = some y → y.length = x.length → y = x

/-- Before the destination is opened: no file there is as long as the source. -/
structure Prior (x : Bytes) (p q : Path) (i : ℕ) (w : World) : Prop where
  source : w.fs.entry p = some (.file i)
  bytes : w.fs.data i = x
  other : ∀ y, w.fs.fileAt q = some y → y.length ≠ x.length
  direct : Direct w.fs q

/-- The destination holds the first `n` bytes of the source. -/
structure Copying (x : Bytes) (p q : Path) (i j n : ℕ) (w : World) : Prop where
  source : w.fs.entry p = some (.file i)
  bytes : w.fs.data i = x
  dest : w.fs.entry q = some (.file j)
  apart : i ≠ j
  copied : w.fs.data j = x.take n

theorem Prior.faithful {w : World} {i : ℕ} (h : Prior x p q i w) : Faithful x q w :=
  fun y hy hlen => absurd hlen (h.other y hy)

theorem Copying.faithful {w : World} {i j n : ℕ} (h : Copying x p q i j n w) : Faithful x q w := by
  intro y hy hlen
  have hdata : w.fs.fileAt q = some (x.take n) := by
    unfold FileTree.fileAt
    rw [h.dest]
    exact congrArg some h.copied
  rw [hdata] at hy
  obtain rfl := Option.some.inj hy
  rw [List.length_take] at hlen
  exact List.take_of_length_le (by omega)

/-- Appending to the destination. -/
theorem Copying.append {w : World} {i j n : ℕ} (h : Copying x p q i j n w) (hn : n ≤ x.length)
    {part : Bytes} (hpart : part <+: x.drop n) :
    Copying x p q i j (n + part.length)
      { w with fs := w.fs.write j (World.written (w.fs.data j) n part) } where
  source := h.source
  bytes := by
    rw [FileTree.write_data, Function.update_of_ne h.apart, h.bytes]
  dest := h.dest
  apart := h.apart
  copied := by
    rw [FileTree.write_data, Function.update_self, h.copied]
    exact written_append x hn part hpart

theorem faithful_of_gone {w : World} (h : w.fs.entry q = none) : Faithful x q w := by
  intro y hy
  simp [FileTree.fileAt, h] at hy

/-- What an exception of a copy leaves once the destination is open. -/
def Undone (faults : Faults) (x : Bytes) (q : Path) (st : World × Progress) : Prop :=
  Faithful x q st.1 ∧ (faults.stop = none → st.1.fs.entry q = none)

/-! ## Calls -/

/-- A call is made, unless the process is stopped before it. -/
theorem meets_counted {σ α : Type} {a : ℕ → Act σ α} {st : σ × Progress}
    {Q : α → σ × Progress → Prop} {E : Exn → σ × Progress → Prop}
    (hstop : faults.stop ≠ none → E stopped st)
    (hrun : Meets (a st.2.calls) st.1
      (fun y s => Q y (s, { st.2 with calls := st.2.calls + 1 }))
      fun e s => E e (s, { st.2 with calls := st.2.calls + 1 })) :
    Meets (counted faults a) st Q E := by
  unfold Meets counted at *
  split_ifs with h
  · exact hstop (by simp [h])
  · revert hrun
    rcases a st.2.calls st.1 with ⟨e | y, s⟩
    · exact id
    · exact id

/-- The backend of the copy. -/
abbrev faultyBackend (env : Env) (faults : Faults) : Backend (World × Progress) :=
  (World.backend env).faulty faults

section Copy

variable {i j : ℕ}

/-- A write appends a part of the buffer, or fails. -/
theorem faulty_pwrite {n : ℕ} {buf : Bytes} {st : World × Progress}
    (hst : Copying x p q i j n st.1) (hn : n ≤ x.length) (hne : buf ≠ []) (hbuf : buf <+: x.drop n) :
    Meets ((faultyBackend env faults).files.pwrite j n buf) st
      (fun r st' => match r with
        | .ok k => k ≠ 0 ∧ k ≤ buf.length ∧ Copying x p q i j (n + k) st'.1
        | .error _ => Copying x p q i j n st'.1)
      fun _ st' => faults.stop ≠ none ∧ Copying x p q i j n st'.1 := by
  unfold faultyBackend Backend.faulty
  rw [World.backend_files]
  unfold FileCalls.faulty
  dsimp only
  apply meets_counted
  · exact fun hstop => ⟨hstop, hst⟩
  rcases hwrites : faults.writes st.2.calls with _ | most
  · exact hst
  dsimp only
  have htake : buf.take (most + 1) <+: buf := List.take_prefix _ _
  rcases @pwrite_cases env j n (buf.take (most + 1)) st.1 with ⟨part, hpart, hempty, hrun⟩ |
    ⟨e, hrun⟩
  · unfold Meets
    simp only
    rw [hrun]
    refine ⟨fun hzero => ?_, (hpart.trans htake).length_le, ?_⟩
    · have hnil := hempty (List.length_eq_zero_iff.mp hzero)
      simp [hne] at hnil
    · exact hst.append hn ((hpart.trans htake).trans hbuf)
  · unfold Meets
    simp only
    rw [hrun]
    exact hst

/-- A read delivers a part of what is left, and something unless nothing is left, or fails. -/
theorem faulty_pread {n bufSize : ℕ} {st : World × Progress} (hbufSize : bufSize ≠ 0)
    (hst : Copying x p q i j n st.1) :
    Meets ((faultyBackend env faults).files.pread (.file i) n bufSize) st
      (fun r st' => Copying x p q i j n st'.1 ∧
        ∀ buf, r = .ok buf → buf <+: x.drop n ∧ (buf = [] → x.length ≤ n))
      fun _ st' => faults.stop ≠ none ∧ Copying x p q i j n st'.1 := by
  unfold faultyBackend Backend.faulty
  rw [World.backend_files]
  unfold FileCalls.faulty
  dsimp only
  apply meets_counted
  · exact fun hstop => ⟨hstop, hst⟩
  rcases hreads : faults.reads st.2.calls with _ | most
  · exact ⟨hst, by simp⟩
  have hread : (files env).pread (.file i) n (min bufSize (most + 1)) st.1 =
      (.ok (if st.1.disk.readFails (.file i) n then .error .eio
        else if n < 2 ^ 63 then .ok ((x.drop n).take (min bufSize (most + 1)))
        else .error .einval), st.1) := by
    simp only [files, Action.look_apply, hst.bytes]
  unfold Meets
  simp only
  rw [hread]
  refine ⟨hst, fun buf hok => ?_⟩
  split_ifs at hok
  obtain rfl := Except.ok.inj hok
  refine ⟨List.take_prefix _ _, fun hnil => ?_⟩
  rw [List.take_eq_nil_iff, List.drop_eq_nil_iff] at hnil
  omega

/-- The destination is removed, unless the process is stopped before. -/
theorem faulty_remove {α : Type} {n : ℕ} {st : World × Progress} (hst : Copying x p q i j n st.1)
    (msg : Bytes) (Q : α → World × Progress → Prop) :
    Meets
      (do
        let _ ← (faultyBackend env faults).files.unlink (render q)
        fail .internal msg : Act (World × Progress) α) st Q fun _ st' => Undone faults x q st' := by
  apply meets_bind.mpr
  show Meets (counted faults fun _ => (files env).unlink (render q)) st _ _
  apply meets_counted
  · exact fun hstop => ⟨hst.faithful, fun h => absurd h hstop⟩
  obtain ⟨t, ht, -, hgone⟩ := unlink_prunes hst.dest (by simp)
  have hrun : (files env).unlink (render q) st.1 = (.ok (.ok ()), { st.1 with fs := t }) := by
    simp only [files, World.fileCall, Action.move_apply, ht]
  unfold Meets
  rw [hrun]
  exact ⟨faithful_of_gone hgone, fun _ => hgone⟩

/-- The inner loop appends the buffer, or a write fails. Induction on the fuel, with what is still
to be written. -/
theorem faulty_writeLoop {n fuel : ℕ} {buf : Bytes} {st : World × Progress}
    (hst : Copying x p q i j n st.1) (hn : n ≤ x.length) (hbuf : buf <+: x.drop n)
    (hfuel : buf.length ≤ fuel) :
    Meets (writeLoop (faultyBackend env faults) j n fuel buf) st
      (fun done st' => ∃ k, Copying x p q i j k st'.1 ∧ (done = true → k = n + buf.length))
      fun _ st' => faults.stop ≠ none ∧ Faithful x q st'.1 := by
  induction fuel generalizing n buf st with
  | zero =>
      obtain rfl : buf = [] := List.eq_nil_of_length_eq_zero (Nat.le_zero.mp hfuel)
      exact ⟨n, hst, fun _ => rfl⟩
  | succ fuel ih =>
      cases buf with
      | nil => exact ⟨n, hst, fun _ => rfl⟩
      | cons c buf =>
          unfold writeLoop
          apply meets_bind.mpr
          apply (faulty_pwrite hst hn (List.cons_ne_nil c buf) hbuf).mono
          · rintro (e | k) st' hst'
            · exact ⟨n, hst', by simp⟩
            · obtain ⟨hpos, hle, hst'⟩ := hst'
              dsimp only
              have hlen := hbuf.length_le
              rw [List.length_drop] at hlen
              have hrest : (c :: buf).drop k <+: x.drop (n + k) := by
                obtain ⟨tail, htail⟩ := hbuf
                refine ⟨tail, ?_⟩
                rw [← List.drop_drop, ← htail, List.drop_append_of_le_length hle]
              have hshort : ((c :: buf).drop k).length ≤ fuel := by
                rw [List.length_drop]
                omega
              apply (ih hst' (by omega) hrest hshort).mono
              · rintro done st'' ⟨m, hst'', hdone⟩
                refine ⟨m, hst'', fun h => ?_⟩
                rw [hdone h, List.length_drop]
                omega
              · exact fun _ _ h => h
          · exact fun _ st' h => ⟨h.1, h.2.faithful⟩

/-- The outer loop copies the source to its end, or it is undone. Induction on the fuel; the
invariant is that the destination holds the bytes copied so far. -/
theorem faulty_copyLoop {n bufSize fuel : ℕ} {st : World × Progress} (hbufSize : bufSize ≠ 0)
    (hst : Copying x p q i j n st.1) (hn : n ≤ x.length) (hfuel : x.length - n < fuel) :
    Meets (copyLoop (faultyBackend env faults) (.file i) j (render q) bufSize fuel n) st
      (fun copied st' => copied = x.length ∧ Copying x p q i j x.length st'.1)
      fun _ st' => Undone faults x q st' := by
  induction fuel generalizing n st with
  | zero => omega
  | succ fuel ih =>
      unfold copyLoop
      apply meets_bind.mpr
      apply (faulty_pread hbufSize hst).mono
      · rintro (e | buf) st' ⟨hst', hbuf⟩
        · exact faulty_remove hst' _ _
        obtain ⟨hpre, hempty⟩ := hbuf buf rfl
        rcases buf with _ | ⟨c, buf⟩
        · obtain rfl : n = x.length := Nat.le_antisymm hn (hempty rfl)
          exact ⟨rfl, hst'⟩
        · have hle := hpre.length_le
          rw [List.length_drop, List.length_cons] at hle
          apply meets_bind.mpr
          apply (faulty_writeLoop hst' hn hpre (by simp)).mono
          · rintro done st'' ⟨k, hst'', hdone⟩
            by_cases h : done = true
            · obtain rfl := hdone h
              rw [if_pos h]
              rw [List.length_cons] at hst''
              exact ih hst'' (by omega) (by omega)
            · rw [if_neg h]
              exact faulty_remove hst'' _ _
          · exact fun _ st' h => ⟨h.2, fun hnone => absurd hnone h.1⟩
      · exact fun _ st' h => ⟨h.2.faithful, fun hnone => absurd hnone h.1⟩

end Copy

/-! ## `copyToObjectStore` -/

variable {i : ℕ}

/-- `mkdir` changes nothing about the source or the destination. -/
theorem Prior.mkdir {w : World} {t : FileTree} {s : Bytes} (h : Prior x p q i w)
    (ht : mkdir w.fs s = .ok t) : Prior x p q i { w with fs := t } where
  source := mkdir_grows ht h.source
  bytes := ((mkdir_sameFiles ht).data i (w.fs.ino_lt p i h.source)).trans h.bytes
  other := fun y hy => h.other y (((mkdir_sameFiles ht).files q).symm.trans hy)
  direct := by
    intro r hr g
    rcases mkdir_entry ht r with hsame | hdir
    · rw [hsame]
      exact h.direct r hr g
    · rw [hdir]
      simp

theorem faulty_mkdir (s : Bytes) :
    Moves (fun st st' : World × Progress =>
        Prior x p q i st.1 → Prior x p q i st'.1 ∧ st'.2.opened = st.2.opened)
      ((faultyBackend env faults).files.mkdir s) := by
  intro st hst
  apply (Action.meets_end (P := fun st' : World × Progress =>
    Prior x p q i st'.1 ∧ st'.2.opened = st.2.opened)).mp
  show Meets (counted faults fun _ => (files env).mkdir s) st _ _
  apply meets_counted
  · exact fun _ => ⟨hst, rfl⟩
  unfold Meets
  simp only [files, World.fileCall, Action.move_apply]
  cases ht : mkdir st.1.fs s with
  | error e => exact ⟨hst, trivial⟩
  | ok t => exact ⟨hst.mkdir ht, trivial⟩

theorem faulty_ensureDir (s : Bytes) :
    Moves (fun st st' : World × Progress =>
        Prior x p q i st.1 → Prior x p q i st'.1 ∧ st'.2.opened = st.2.opened)
      (ensureDir (faultyBackend env faults).files s) := by
  apply ensureDir_moves
  · exact fun st h => ⟨h, rfl⟩
  · intro st st' st'' h h' hst
    exact ⟨(h' (h hst).1).1, (h' (h hst).1).2.trans (h hst).2⟩
  · exact faulty_mkdir

/-- The destination is opened, and empty then. -/
theorem faulty_openTrunc {st : World × Progress} (hplain : ∀ n ∈ q, Plain n)
    (hst : Prior x p q i st.1) :
    Meets ((faultyBackend env faults).files.openTrunc (render q)) st
      (fun r st' => match r with
        | .ok j => Copying x p q i j 0 st'.1
        | .error _ => st'.1 = st.1 ∧ st'.2.opened = st.2.opened)
      fun _ st' => faults.stop ≠ none ∧ st' = st := by
  have hloc : ∀ r, locate st.1.fs true (render q) = .ok r → r = q :=
    fun r hr => locate_direct hst.direct hplain hr
  have hi := hst.source
  have hbytes := hst.bytes
  have hpq : p ≠ q := by
    rintro rfl
    refine hst.other x ?_ rfl
    simp only [FileTree.fileAt, hi, hbytes]
  have hcopying : ∀ j t, openTrunc st.1.fs (render q) = .ok (j, t) →
      Copying x p q i j 0 { st.1 with fs := t } := by
    intro j t ht
    unfold openTrunc at ht
    cases hopen : openCreate st.1.fs (render q) with
    | error e => simp [hopen, Except.map] at ht
    | ok jt =>
        obtain ⟨k, t'⟩ := jt
        simp only [hopen, Except.map, Except.ok.injEq, Prod.mk.injEq] at ht
        obtain ⟨rfl, rfl⟩ := ht
        rcases openCreate_place hloc hopen with ⟨hthere, rfl⟩ | ⟨hfree, rfl, hentry, hdata⟩
        · have hik : i ≠ k := by
            rintro rfl
            exact hpq (st.1.fs.ino_inj _ _ _ hi hthere)
          exact ⟨hi, by simp [Function.update_of_ne hik, hbytes], hthere, hik, by simp⟩
        · have hlt := st.1.fs.ino_lt p i hi
          have hik : i ≠ st.1.fs.fresh := by omega
          refine ⟨?_, ?_, ?_, hik, by simp⟩
          · rw [FileTree.write_entry, hentry, Function.update_of_ne hpq, hi]
          · rw [FileTree.write_data, Function.update_of_ne hik, hdata,
              Function.update_of_ne hik, hbytes]
          · rw [FileTree.write_entry, hentry, Function.update_self]
  have hcall : Meets (counted faults fun _ => (files env).openTrunc (render q)) st
      (fun r st' => match r with
        | .ok j => Copying x p q i j 0 st'.1
        | .error _ => st'.1 = st.1 ∧ st'.2.opened = st.2.opened)
      fun _ st' => faults.stop ≠ none ∧ st' = st := by
    apply meets_counted
    · exact fun hstop => ⟨hstop, rfl⟩
    unfold Meets
    simp only [files, World.openCall, Action.move_apply]
    cases ht : openTrunc st.1.fs (render q) with
    | error e => exact ⟨rfl, trivial⟩
    | ok jt => exact hcopying jt.1 jt.2 ht
  show Meets (noted (counted faults fun _ => (files env).openTrunc (render q))) st _ _
  revert hcall
  unfold Meets noted
  rcases counted faults (fun _ => (files env).openTrunc (render q)) st with ⟨e | e | j, st'⟩
  · exact id
  · exact id
  · exact id

/-- **`copyToObjectStore`** leaves the destination as long as the source only with its bytes, and
where it throws after opening the destination, nothing is left there. -/
theorem faulty_copy {st : World × Progress} (hplain : ∀ n ∈ q, Plain n)
    (hst : Prior x p q i st.1) (hopened : st.2.opened = false) :
    Meets (copyToObjectStore (faultyBackend env faults) (render p) (render q) x.length) st
      (fun _ st' => Faithful x q st'.1)
      fun _ st' => Faithful x q st'.1 ∧
        (faults.stop = none → st'.2.opened = true → st'.1.fs.entry q = none) := by
  have hprior : ∀ st' : World × Progress, Prior x p q i st'.1 → st'.2.opened = false →
      Faithful x q st'.1 ∧
        (faults.stop = none → st'.2.opened = true → st'.1.fs.entry q = none) :=
    fun st' h hfalse => ⟨h.faithful, fun _ htrue => by simp [hfalse] at htrue⟩
  unfold copyToObjectStore
  apply meets_bind.mpr
  show Meets (counted faults fun _ => (files env).openRead (render p)) st _ _
  apply meets_counted
  · exact fun _ => hprior st hst hopened
  have hnode := @node_of_entry st.1.fs p _ hst.source true (by simp)
  have hread : (files env).openRead (render p) st.1 = (.ok (.ok (.file i)), st.1) := by
    simp only [files, Action.look_apply, openRead, stat, hnode, Except.map]
  unfold Meets
  rw [hread]
  apply meets_bind.mpr
  -- the directories
  have hdirs := @faulty_ensureDir env faults x p q i (parentDir (render q))
    (st.1, { st.2 with calls := st.2.calls + 1 }) hst
  apply Meets.mono (Action.meets_end (P := fun st' : World × Progress =>
    Prior x p q i st'.1 ∧ st'.2.opened = st.2.opened).mpr hdirs)
  · rintro - st₁ ⟨hst₁, hopened₁⟩
    rw [hopened] at hopened₁
    apply meets_bind.mpr
    apply (faulty_openTrunc hplain hst₁).mono
    · rintro (e | j) st₂ hst₂
      · exact hprior st₂ (hst₂.1 ▸ hst₁) (hst₂.2.trans hopened₁)
      · -- the loops
        apply meets_bind.mpr
        have hreads : (faultyBackend env faults).files.reads (.file i) st₂ =
            (.ok (x.length + 1), st₂) := by
          have hrun : (files env).reads (.file i) st₂.1 = (.ok (x.length + 1), st₂.1) := by
            simp only [files, Action.look_apply, hst₂.bytes]
          exact Action.beside_run hrun st₂.2
        unfold Meets
        rw [hreads]
        have hbuf : (if (faultyBackend env faults).cfg.chunkSize ≠ 0
            then (faultyBackend env faults).cfg.chunkSize else 65536) ≠ 0 := by
          split_ifs with h
          · exact h
          · simp
        apply meets_bind.mpr
        apply (faulty_copyLoop hbuf hst₂ (Nat.zero_le _) (by omega)).mono
        · rintro copied st₃ ⟨hcopied, hst₃⟩
          rw [if_neg (by simp [hcopied])]
          exact hst₃.faithful
        · exact fun _ st₃ h => ⟨h.1, fun hstop _ => h.2 hstop⟩
    · rintro e st₂ ⟨-, rfl⟩
      exact hprior _ hst₁ hopened₁
  · exact fun _ st₁ h => hprior st₁ h.1 (h.2.trans hopened)

/-! ## `publishObject` -/

/-- A call that leaves the file tree alone, and throws only where the process is stopped. -/
theorem counted_quiet {α : Type} {a : Act World α} (hfs : ∀ w, (a w).2.fs = w.fs)
    {st : World × Progress} {P : World × Progress → Prop}
    (hP : ∀ st', st'.1.fs = st.1.fs → P st') :
    Meets (counted faults fun _ => a) st (fun _ st' => P st') fun _ st' => P st' := by
  apply Action.meets_end.mpr
  apply hP
  unfold counted
  split_ifs
  · rfl
  · exact hfs st.1

theorem publishPath_plain {m : Bytes} (hm₂ : Plain (m.take 2)) (hm : Plain m) :
    ∀ n ∈ World.objectPath env m, Plain n := by
  intro n hn
  rcases List.mem_append.mp hn with hn | hn
  · exact objectsDir_plain env n hn
  · rcases List.mem_cons.mp hn with rfl | hn
    · exact hm₂
    · exact List.mem_singleton.mp hn ▸ hm

/-- A destination that is absent, or a file of another size, is found not to have the size. -/
theorem faulty_hasSize {st : World × Progress} (hplain : ∀ n ∈ q, Plain n)
    (hst : Prior x p q i st.1)
    (hfile : ∀ y, st.1.fs.entry q = some y → ∃ j, y = .file j) :
    Meets (hasSize (faultyBackend env faults) (render q) x.length) st
      (fun r st' => r = false ∧ st'.1 = st.1 ∧ st'.2.opened = st.2.opened)
      fun _ st' => st'.1 = st.1 := by
  unfold hasSize fileExists
  rw [meets_bind, meets_bind]
  show Meets (counted faults fun _ => (files env).lstat (render q)) st _ _
  apply meets_counted
  · exact fun _ => rfl
  have hlstat : (files env).lstat (render q) st.1 =
      (.ok ((lstat st.1.fs (render q)).map (World.fileStat env st.1.fs)), st.1) := rfl
  unfold Meets
  rw [hlstat]
  rcases hq : st.1.fs.entry q with _ | y
  · -- nothing is there
    have hnone : ∃ e, lstat st.1.fs (render q) = .error e := by
      unfold lstat
      rcases hnode : node st.1.fs false (render q) with e | ⟨r, y⟩
      · exact ⟨e, rfl⟩
      · obtain ⟨hloc, hentry⟩ := node_ok hnode
        obtain rfl := locate_direct hst.direct hplain hloc
        simp [hq] at hentry
    obtain ⟨e, he⟩ := hnone
    rw [he]
    exact ⟨rfl, rfl, rfl⟩
  · obtain ⟨j, rfl⟩ := hfile y hq
    have hnode := fun follow => @node_of_entry st.1.fs q _ hq follow (by simp)
    have hthere : lstat st.1.fs (render q) = .ok (.file j) := by
      unfold lstat
      rw [hnode]
      rfl
    have hsize : (st.1.fs.data j).length ≠ x.length := by
      apply hst.other
      simp [FileTree.fileAt, hq]
    rw [hthere]
    show Meets (fileSize (faultyBackend env faults).files (render q) >>= fun k =>
      pure (decide (k = x.length))) _ _ _
    unfold fileSize
    rw [meets_bind, meets_bind]
    show Meets (counted faults fun _ => (files env).stat (render q)) _ _ _
    apply meets_counted
    · exact fun _ => rfl
    have hstat : (files env).stat (render q) st.1 =
        (.ok (.ok (World.fileStat env st.1.fs (.file j))), st.1) := by
      simp only [files, Action.look_apply, stat, hnode, Except.map]
    unfold Meets
    rw [hstat]
    refine ⟨decide_eq_false ?_, rfl, rfl⟩
    exact hsize

/-- **`publishObject`** leaves the destination as long as the source only with its bytes. -/
theorem faulty_publish {m : Bytes} {w : World} (hm₂ : Plain (m.take 2)) (hm : Plain m)
    (hst : Prior x p (World.objectPath env m) i w)
    (hfile : ∀ y, w.fs.entry (World.objectPath env m) = some y → ∃ j, y = .file j) :
    Meets (publishObject (faultyBackend env faults) m (render p) x.length) (w, {})
      (fun _ st' => Faithful x (World.objectPath env m) st'.1)
      fun _ st' => Faithful x (World.objectPath env m) st'.1 := by
  have hplain := @publishPath_plain env m hm₂ hm
  have hsame : ∀ st st' : World × Progress, Faithful x (World.objectPath env m) st.1 →
      st'.1.fs = st.1.fs → Faithful x (World.objectPath env m) st'.1 := by
    intro st st' h hfs y hy
    rw [hfs] at hy
    exact h y hy
  unfold publishObject
  rw [meets_bind]
  apply Action.meets_lift.mpr
  constructor
  swap
  · exact fun _ _ => hst.faithful
  intro obj hobj
  have htext : obj = render (World.objectPath env m) := by
    have hfor : (if m.length < 2 then .error (.cloud .badRequest (str "bad md5"))
        else .ok (objectText env m) : Except Exn Bytes) = .ok obj := hobj
    split_ifs at hfor
    rw [← Except.ok.inj hfor]
    exact objectText_plain env hm₂ hm
  subst htext
  rw [meets_bind]
  apply (faulty_hasSize hplain hst hfile).mono
  · rintro r ⟨w₁, done⟩ ⟨rfl, hw, hopened₁⟩
    obtain rfl : w₁ = w := hw
    simp only [Bool.false_eq_true, if_false]
    rw [meets_bind]
    apply Meets.mono (Action.meets_end (P := fun st' : World × Progress =>
      Prior x p (World.objectPath env m) i st'.1 ∧ st'.2.opened = done.opened).mpr
        (faulty_ensureDir _ (w₁, done) hst))
    · rintro - st₂ ⟨hst₂, hopened₂⟩
      rw [meets_bind]
      apply (faulty_copy hplain hst₂ (hopened₂.trans hopened₁)).mono
      · intro _ st₃ hst₃
        rw [meets_bind]
        apply Meets.mono (Q := fun _ st' => Faithful x (World.objectPath env m) st'.1)
          (E := fun _ st' => Faithful x (World.objectPath env m) st'.1)
        · exact counted_quiet (fun _ => rfl) fun st' h => hsame st₃ st' hst₃ h
        · intro _ st₄ hst₄
          unfold RedisStore.setObject
          rw [meets_bind]
          apply Meets.mono (Q := fun _ st' => Faithful x (World.objectPath env m) st'.1)
            (E := fun _ st' => Faithful x (World.objectPath env m) st'.1)
          · exact counted_quiet (fun _ => rfl) fun st' h => hsame st₄ st' hst₄ h
          · intro _ st₅ hst₅
            exact counted_quiet (fun _ => rfl) fun st' h => hsame st₅ st' hst₅ h
          · exact fun _ _ h => h
        · exact fun _ _ h => h
      · exact fun _ _ h => h.1
    · exact fun _ _ h => h.1.faithful
  · intro e st₁ hst₁
    rw [hst₁]
    exact hst.faithful

end CloudStore.Interface
