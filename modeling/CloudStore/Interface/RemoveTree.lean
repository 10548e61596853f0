import CloudStore.Interface.Entries
import CloudStore.Model.FailingRemoval

/-!
# Removing a subtree

What `removeRecursive` does on any file tree, links and all, while its calls fail in any
pattern. `StaysBelow` says what a run below a path may do; the run is an induction on the height
of the subtree, and each round of the loop over the names is a run below one of them. More
recursion than the height allows for changes nothing.
-/

set_option autoImplicit false

namespace CloudStore.Interface

open CloudStore.Library
open CloudStore.Library.Action (Meets meets_bind bind_ok bind_error bind_apply)
open CloudStore.Library.Posix
open CloudStore.Model
open CloudStore.Model.FileManager

/-! ## The bound of the recursion -/

/-- What the recursive functions throw where their bound is too small. -/
abbrev recursionBound : Exn := .std (str "recursion bound")

section Bound

variable {σ α β : Type}

/-- A larger bound makes no difference to a run that does not come to the bound. -/
def Extends (a a' : Act σ α) : Prop := ∀ st, (a st).1 ≠ .error recursionBound → a' st = a st

theorem Extends.refl (a : Act σ α) : Extends a a := fun _ _ => rfl

theorem Extends.bind {a a' : Act σ α} {f f' : α → Act σ β} (ha : Extends a a')
    (hf : ∀ x, Extends (f x) (f' x)) : Extends (a >>= f) (a' >>= f') := by
  intro st h
  rcases hrun : a st with ⟨e | x, st'⟩
  · rw [bind_error hrun] at h ⊢
    apply bind_error
    rw [ha st, hrun]
    rw [hrun]
    intro he
    exact h (congrArg Except.error (Except.error.inj he))
  · rw [bind_ok hrun] at h ⊢
    have hrun' : a' st = (.ok x, st') := by rw [ha st (by rw [hrun]; simp), hrun]
    rw [bind_ok hrun']
    exact hf x st' h

theorem removeNames_extends {remove remove' : Bytes → Act σ Unit}
    (h : ∀ s, Extends (remove s) (remove' s)) (physical : Bytes) (names : List Bytes) :
    Extends (removeNames remove physical names) (removeNames remove' physical names) := by
  induction names with
  | nil => exact Extends.refl _
  | cons name names ih =>
      unfold removeNames
      split_ifs
      · exact ih
      · exact (h _).bind fun _ => ih

theorem removeRecursive_succ (f : FileCalls σ) (n : ℕ) (s : Bytes) :
    Extends (removeRecursive f n s) (removeRecursive f (n + 1) s) := by
  induction n generalizing s with
  | zero => exact fun st h => absurd rfl h
  | succ n ih =>
      unfold removeRecursive
      apply (Extends.refl _).bind
      rintro (e | node)
      · exact Extends.refl _
      · dsimp only
        split_ifs
        · apply (Extends.refl _).bind
          rintro (e | names)
          · exact Extends.refl _
          · exact (removeNames_extends ih s names).bind fun _ => Extends.refl _
        · exact Extends.refl _

/-- A run that does not come to its bound is the run for every larger bound. -/
theorem removeRecursive_extends (f : FileCalls σ) {n m : ℕ} (hnm : n ≤ m) (s : Bytes) :
    Extends (removeRecursive f n s) (removeRecursive f m s) := by
  induction m, hnm using Nat.le_induction with
  | base => exact Extends.refl _
  | succ m _ ih =>
      intro st h
      have hm := ih st h
      rw [removeRecursive_succ f m s st (by rwa [hm]), hm]

end Bound

/-! ## What a run below a path may do -/

/-- On the way from `st` to `st'` entries at `p` and below are removed, and each call is made
at a path there to which no link leads, on a tree with the entries outside of `st`. -/
structure StaysBelow (p : Path) (st st' : World × CallLog) : Prop where
  rest : st'.1 = { st.1 with fs := st'.1.fs }
  prunes : Prunes p st.1.fs st'.1.fs
  calls : ∃ l, st'.2 = st.2 ++ l ∧ ∀ x ∈ l, Prunes p st.1.fs x.1 ∧
    ∃ q, p <+: q ∧ x.2.path = render q ∧ WalksDirectly x.1 x.2.follows (render q)

namespace StaysBelow

variable {p r : Path} {st st' st'' : World × CallLog}

theorem refl (p : Path) (st : World × CallLog) : StaysBelow p st st :=
  ⟨rfl, Prunes.refl p _, [], by simp, by simp⟩

theorem trans (h : StaysBelow p st st') (h' : StaysBelow p st' st'') : StaysBelow p st st'' where
  rest := by rw [h'.rest, h.rest]
  prunes := h.prunes.trans h'.prunes
  calls := by
    obtain ⟨l, hl, hcalls⟩ := h.calls
    obtain ⟨l', hl', hcalls'⟩ := h'.calls
    refine ⟨l ++ l', by rw [hl', hl, List.append_assoc], ?_⟩
    intro x hx
    rcases List.mem_append.mp hx with hx | hx
    · exact hcalls x hx
    · exact ⟨h.prunes.trans (hcalls' x hx).1, (hcalls' x hx).2⟩

/-- A run below a path of the subtree is a run below its top. -/
theorem widen (h : StaysBelow (p ++ r) st st') : StaysBelow p st st' where
  rest := h.rest
  prunes := h.prunes.widen
  calls := by
    obtain ⟨l, hl, hcalls⟩ := h.calls
    refine ⟨l, hl, fun x hx => ?_⟩
    obtain ⟨hprunes, q, hq, hpath⟩ := hcalls x hx
    exact ⟨hprunes.widen, q, (List.prefix_append p r).trans hq, hpath⟩

end StaysBelow

variable {env : Env} (fails : ℕ → Option Errno)

/-- The file calls of the server, written down and failing in a pattern. -/
abbrev removalFiles (env : Env) (fails : ℕ → Option Errno) : FileCalls (World × CallLog) :=
  failingRemovals fails World.fs (World.files env)

/-- One call at a path is written down; it fails, or does what it does. -/
theorem meets_logged {α : Type} {c : PathCall} {a : Act World (Except Errno α)} {p : Path}
    {st : World × CallLog} {Q : Except Errno α → World → Prop} (hpath : c.path = render p)
    (hwalk : WalksDirectly st.1.fs c.follows (render p)) (herr : ∀ e, Q (.error e) st.1)
    (hrun : ∃ x w, a st.1 = (.ok x, w) ∧ w = { st.1 with fs := w.fs } ∧
      Prunes p st.1.fs w.fs ∧ Q x w) :
    Meets (logged fails World.fs c a) st (fun x st' => StaysBelow p st st' ∧ Q x st'.1)
      fun _ _ => False := by
  have hcall : ∀ w : World, w = { st.1 with fs := w.fs } → Prunes p st.1.fs w.fs →
      StaysBelow p st (w, st.2 ++ [(st.1.fs, c)]) := by
    intro w hrest hprunes
    refine ⟨hrest, hprunes, [(st.1.fs, c)], rfl, fun x hx => ?_⟩
    rw [List.mem_singleton.mp hx]
    exact ⟨Prunes.refl p _, p, List.prefix_refl p, hpath, hwalk⟩
  obtain ⟨x, w, ha, hrest, hprunes, hQ⟩ := hrun
  unfold Meets logged
  rw [ha]
  cases fails st.2.length with
  | some e => exact ⟨hcall st.1 rfl (Prunes.refl p _), herr e⟩
  | none => exact ⟨hcall w hrest hprunes, hQ⟩

/-! ## The calls at an occupied path -/

section Calls

variable {p : Path} {x : Node} {st : World × CallLog}

theorem lstat_meets (hx : st.1.fs.entry p = some x) :
    Meets ((removalFiles env fails).lstat (render p)) st
      (fun r st' => StaysBelow p st st' ∧ st'.1 = st.1 ∧ ∀ y, r = .ok y → y.node = x)
      fun _ _ => False := by
  have hwalk := @walksDirectly_render st.1.fs p x hx false (by simp)
  apply meets_logged (c := .lstat (render p)) (a := (World.files env).lstat (render p))
    (Q := fun r w => w = st.1 ∧ ∀ y : FileStat, r = .ok y → y.node = x) fails rfl hwalk
  · exact fun e => ⟨rfl, by simp⟩
  refine ⟨_, st.1, lstat_run hx, rfl, Prunes.refl p _, rfl, fun y hy => ?_⟩
  rw [← Except.ok.inj hy]
  rfl

theorem opendir_meets (hx : st.1.fs.entry p = some .dir) :
    Meets ((removalFiles env fails).opendir (render p)) st
      (fun r st' => StaysBelow p st st' ∧ st'.1 = st.1 ∧
        ∀ names, r = .ok names → names = str "." :: str ".." :: st.1.fs.children p)
      fun _ _ => False := by
  have hwalk := @walksDirectly_render st.1.fs p .dir hx true (by simp)
  apply meets_logged (c := .opendir (render p)) (a := (World.files env).opendir (render p))
    (Q := fun r w => w = st.1 ∧
      ∀ names, r = .ok names → names = str "." :: str ".." :: st.1.fs.children p) fails rfl hwalk
  · exact fun e => ⟨rfl, by simp⟩
  exact ⟨_, st.1, opendir_run hx, rfl, Prunes.refl p _, rfl, fun _ h => (Except.ok.inj h).symm⟩

theorem unlink_meets (hx : st.1.fs.entry p = some x) (hdir : x ≠ .dir) :
    Meets ((removalFiles env fails).unlink (render p)) st
      (fun r st' => StaysBelow p st st' ∧ ∀ y, r = .ok y → st'.1.fs.entry p = none)
      fun _ _ => False := by
  apply meets_logged fails rfl (walksDirectly_render hx (by simp [PathCall.follows]))
    (Q := fun r w => ∀ y, r = .ok y → w.fs.entry p = none)
  · simp
  obtain ⟨t, ht, hprunes, hgone⟩ := unlink_prunes hx hdir
  refine ⟨.ok (), { st.1 with fs := t }, ?_, rfl, hprunes, fun _ _ => hgone⟩
  simp only [World.files, World.fileCall, Action.move_apply, ht]

theorem rmdir_meets (hx : st.1.fs.entry p = some .dir) :
    Meets ((removalFiles env fails).rmdir (render p)) st
      (fun r st' => StaysBelow p st st' ∧ ∀ y, r = .ok y → st'.1.fs.entry p = none)
      fun _ _ => False := by
  apply meets_logged fails rfl (walksDirectly_render hx (by simp))
    (Q := fun r w => ∀ y, r = .ok y → w.fs.entry p = none)
  · simp
  simp only [World.files, World.fileCall, Action.move_apply]
  cases ht : rmdir st.1.fs (render p) with
  | error e => exact ⟨.error e, st.1, rfl, rfl, Prunes.refl p _, by simp⟩
  | ok t =>
      obtain ⟨hprunes, hgone⟩ := rmdir_prunes hx ht
      exact ⟨.ok (), { st.1 with fs := t }, rfl, rfl, hprunes, fun _ _ => hgone⟩

end Calls

/-! ## The removal -/

/-- What a removal of `p` ends in. -/
def Clears (remove : Act (World × CallLog) Unit) (p : Path) (st : World × CallLog) : Prop :=
  Meets remove st (fun _ st' => StaysBelow p st st' ∧ st'.1.fs.entry p = none)
    fun e st' => StaysBelow p st st' ∧ e ≠ recursionBound

variable {fails}

/-- The loop over the names of a directory: each round is a removal below one name and leaves
the other names, and the directory, as they are. -/
theorem removeNames_staysBelow {n : ℕ} {p : Path} {remove : Bytes → Act (World × CallLog) Unit}
    (hremove : ∀ m st, st.1.fs.entry (p ++ [m]) ≠ none → HeightBelow st.1.fs (p ++ [m]) n →
      Clears (remove (render (p ++ [m]))) (p ++ [m]) st)
    {names : List Name} (hnodup : names.Nodup) {st : World × CallLog}
    (hentry : ∀ m ∈ names, m ≠ str "." → m ≠ str ".." → st.1.fs.entry (p ++ [m]) ≠ none)
    (hheight : HeightBelow st.1.fs p (n + 1)) :
    Meets (removeNames remove (render p) names) st
      (fun _ st' => StaysBelow p st st' ∧ st'.1.fs.entry p = st.1.fs.entry p)
      fun e st' => StaysBelow p st st' ∧ e ≠ recursionBound := by
  induction names generalizing st with
  | nil => exact ⟨StaysBelow.refl p st, rfl⟩
  | cons m names ih =>
      obtain ⟨hm, hnodup⟩ := List.nodup_cons.mp hnodup
      unfold removeNames
      split_ifs with hdots
      · exact ih hnodup (fun k hk => hentry k (List.mem_cons_of_mem _ hk)) hheight
      · rw [not_or] at hdots
        have hchild := hentry m List.mem_cons_self hdots.1 hdots.2
        have hplain := st.1.fs.plain p m hchild
        have hp : st.1.fs.entry p ≠ none := by simp [st.1.fs.closed p m hchild]
        rw [joinPath_render (st.1.fs.plain_of_entry hp) hplain.1 hplain.2.2.2.1, meets_bind]
        apply (hremove m st hchild (hheight.child m)).mono
        · rintro - st₁ ⟨hconf, -⟩
          -- what is not below the name is as before
          have hself : st₁.1.fs.entry p = st.1.fs.entry p := by
            apply hconf.prunes.outside
            intro h
            have := h.length_le
            simp at this
          have hother : ∀ k ∈ names, st₁.1.fs.entry (p ++ [k]) = st.1.fs.entry (p ++ [k]) := by
            intro k hk
            apply hconf.prunes.outside
            intro h
            rw [List.prefix_append_right_inj] at h
            have heq : m = k := by simpa using h.eq_of_length rfl
            exact hm (heq ▸ hk)
          apply (ih hnodup _ (hheight.shed hconf.prunes.sheds)).mono
          · exact fun _ st₂ ⟨hconf₂, hp₂⟩ => ⟨hconf.widen.trans hconf₂, hp₂.trans hself⟩
          · exact fun e st₂ ⟨hconf₂, he⟩ => ⟨hconf.widen.trans hconf₂, he⟩
          · intro k hk hdot hdotdot
            rw [hother k hk]
            exact hentry k (List.mem_cons_of_mem _ hk) hdot hdotdot
        · exact fun e st₁ ⟨hconf, he⟩ => ⟨hconf.widen, he⟩

/-- The names that `readdir` delivers are distinct. -/
theorem names_nodup (t : FileTree) (p : Path) :
    (str "." :: str ".." :: t.children p).Nodup := by
  have hplain : ∀ m ∈ t.children p, Plain m := fun m hm => t.plain p m ((t.mem_children p m).mp hm)
  rw [List.nodup_cons, List.nodup_cons, List.mem_cons, not_or]
  refine ⟨⟨by decide, fun h => ?_⟩, fun h => ?_, List.nodup_dedup _⟩
  · exact (hplain _ h).2.1 (by decide)
  · exact (hplain _ h).2.2.1 (by decide)

/-- A directory is removed after what is in it. -/
theorem removeDir_clears {n : ℕ} {p : Path} {st : World × CallLog}
    (hremove : ∀ m st, st.1.fs.entry (p ++ [m]) ≠ none → HeightBelow st.1.fs (p ++ [m]) n →
      Clears (removeRecursive (removalFiles env fails) n (render (p ++ [m]))) (p ++ [m]) st)
    (hp : st.1.fs.entry p = some .dir) (hheight : HeightBelow st.1.fs p (n + 1)) :
    Clears
      (do
        removeNames (removeRecursive (removalFiles env fails) n) (render p)
          (str "." :: str ".." :: st.1.fs.children p)
        (removalFiles env fails).closedir
        match ← (removalFiles env fails).rmdir (render p) with
        | .ok _ => return ()
        | .error e => fail .internal (str "rmdir failed: " ++ strerror e)) p st := by
  unfold Clears
  rw [meets_bind]
  apply (removeNames_staysBelow hremove (names_nodup st.1.fs p) _ hheight).mono
  · rintro - st₁ ⟨hconf, hsame⟩
    have hclosedir : (removalFiles env fails).closedir st₁ = (.ok (), st₁) := rfl
    unfold Meets
    rw [bind_ok hclosedir]
    apply meets_bind.mpr
    apply (rmdir_meets fails (hsame.trans hp)).mono
    · rintro (e | y) st₂ ⟨hconf₂, hgone⟩
      · exact ⟨hconf.trans hconf₂, by simp⟩
      · exact ⟨hconf.trans hconf₂, hgone y rfl⟩
    · exact fun _ _ h => h.elim
  · exact fun _ _ h => h
  · intro m hm hdot hdotdot
    have hchild : m ∈ st.1.fs.children p := by
      rcases List.mem_cons.mp hm with rfl | hm
      · exact absurd rfl hdot
      rcases List.mem_cons.mp hm with rfl | hm
      · exact absurd rfl hdotdot
      · exact hm
    exact (st.1.fs.mem_children p m).mp hchild

/-- **A removal clears its subtree and stays in it.** The induction is on the height of the
subtree, which the bound of the recursion is to cover. -/
theorem removeRecursive_clears {n : ℕ} {p : Path} {st : World × CallLog}
    (hp : st.1.fs.entry p ≠ none) (hheight : HeightBelow st.1.fs p n) :
    Clears (removeRecursive (removalFiles env fails) n (render p)) p st := by
  induction n generalizing p st with
  | zero =>
      have := hheight [] (by simpa using hp)
      simp at this
  | succ n ih =>
      obtain ⟨x, hx⟩ := Option.ne_none_iff_exists'.mp hp
      unfold Clears removeRecursive
      rw [meets_bind]
      apply (lstat_meets fails hx).mono
      · rintro (e | y) st₁ ⟨hconf, hsame, hnode⟩
        · exact ⟨hconf, by simp⟩
        dsimp only
        rw [← hsame] at hx hheight
        have hy := hnode y rfl
        split_ifs with hdir
        · have hxdir : st₁.1.fs.entry p = some .dir := by rw [hx, ← hy, hdir]
          rw [meets_bind]
          apply (opendir_meets fails hxdir).mono
          · rintro (e | names) st₂ ⟨hconf₂, hsame₂, hnames⟩
            · exact ⟨hconf.trans hconf₂, by simp⟩
            obtain rfl := hnames names rfl
            rw [← hsame₂] at hxdir hheight ⊢
            apply (removeDir_clears (fun m st hm hh => ih hm hh) hxdir hheight).mono
            · exact fun _ st₃ h => ⟨(hconf.trans hconf₂).trans h.1, h.2⟩
            · exact fun _ st₃ h => ⟨(hconf.trans hconf₂).trans h.1, h.2⟩
          · exact fun _ _ h => h.elim
        · rw [meets_bind]
          apply (unlink_meets fails hx (hy ▸ hdir)).mono
          · rintro (e | y) st₂ ⟨hconf₂, hgone⟩
            · exact ⟨hconf.trans hconf₂, by simp⟩
            · exact ⟨hconf.trans hconf₂, hgone y rfl⟩
          · exact fun _ _ h => h.elim
      · exact fun _ _ h => h.elim

end CloudStore.Interface
