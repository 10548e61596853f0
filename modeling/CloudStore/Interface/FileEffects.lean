import CloudStore.Interface.Storage

/-!
# File calls away from the objects

`Quiet` says that a program changes nothing but the file tree, and there leaves the places
of the objects alone. The file calls are quiet on texts that lead elsewhere (`Clear`);
so are `ensureDir` and the functions of `FileManager` on the texts that the server passes.
-/

set_option autoImplicit false

namespace CloudStore.Interface

open CloudStore.Library (Bytes Name Path Plain FileTree Keeps Action)
open CloudStore.Library.Action
open CloudStore.Library.Posix
open CloudStore.Model
open CloudStore.Model.World (usersDir objectsDir tmpDir objectPath files)

variable (env : Env)

/-- A text that leads to no object, unless to a directory. -/
def Clear (s : Bytes) : Prop :=
  ∀ (t : FileTree) (follow : Bool) (q : Path), t.NoLinks → locate t follow s = .ok q →
    t.entry q ≠ some .dir → q ∉ objectPlaces env ∅

/-- A path where a directory may be made: neither of an object nor of a part file. -/
def Away (p : Path) : Prop := p ∉ objectPlaces env ∅ ∧ p ∉ partPlaces env

/-- The step changes the tree only, and leaves the objects alone. -/
def Quiet (w w' : World) : Prop :=
  w.fs.NoLinks → Calm env ∅ w.fs w'.fs ∧ w' = { w with fs := w'.fs }

variable {env}

theorem Quiet.refl (w : World) : Quiet env w w := fun _ => ⟨Keeps.refl _, rfl⟩

theorem Quiet.trans (w w' w'' : World) (h : Quiet env w w') (h' : Quiet env w' w'') :
    Quiet env w w'' := by
  intro hl
  obtain ⟨hk, hw⟩ := h hl
  obtain ⟨hk', hw'⟩ := h' (hk.links hl)
  refine ⟨hk.trans hk', ?_⟩
  rw [hw', hw]

theorem Quiet.withTree {w : World} {t : FileTree}
    (h : w.fs.NoLinks → Calm env ∅ w.fs t) : Quiet env w { w with fs := t } :=
  fun hl => ⟨h hl, rfl⟩

/-! ## Clear texts -/

theorem clear_of_path {p : Path} (hplain : ∀ n ∈ p, Plain n) (hp : p ∉ objectPlaces env ∅) :
    Clear env (render p) := by
  intro t follow q hl hq _
  exact locate_plain hl hplain hq ▸ hp

theorem clear_user {p : Path} (hp : UserPath env p) : Clear env (render p) :=
  clear_of_path hp.plain hp.not_object

theorem clear_part {username md5 dest : Bytes} (hname : NameOk username) (hlen : md5.length = 32)
    (hdest : 0 ∉ baseName dest) : Clear env (partText env username md5 dest) := by
  intro t follow q hl hq hdir
  exact partText_clear env hl hname hlen hdest hdir hq

/-! ## Paths where directories are made -/

theorem away_of_user {p q : Path} (hp : UserPath env p) (hq : q <+: p) : Away env q :=
  ⟨hp.prefix_not_object hq ∅, hp.prefix_not_part hq⟩

theorem away_of_userRoot {name : Bytes} {q : Path} (hq : q <+: userRoot env name) :
    Away env q := by
  have hlen : (userRoot env name).length ≤ env.root.length + 2 := by
    have hle := below_length_le (usersDir env) name
    rwa [usersDir, List.length_append, List.length_singleton] at hle
  refine ⟨not_object_of_length env (by have := hq.length_le; omega) ∅, ?_⟩
  rintro ⟨htmp, -⟩
  have heq : tmpDir env = usersDir env := by
    have hsame : (tmpDir env).length = (usersDir env).length := by simp [tmpDir, usersDir]
    exact (List.prefix_of_prefix_length_le (htmp.trans hq) (prefix_below _ _)
      hsame.le).eq_of_length hsame
  rw [tmpDir, usersDir] at heq
  have := List.append_cancel_left heq
  exact absurd this (by decide)

/-- The directory of part files has no dot in its name. -/
theorem away_of_partDir {name : Bytes} (hname : NameOk name) {q : Path}
    (hq : q <+: partDir env name) : Away env q := by
  have hlen : (partDir env name).length ≤ env.root.length + 2 := by
    have hle := below_length_le (tmpDir env) name
    rwa [tmpDir, List.length_append, List.length_singleton] at hle
  refine ⟨not_object_of_length env (by have := hq.length_le; omega) ∅, ?_⟩
  rintro ⟨htmp, n, hn, hdot⟩
  have hmem : n ∈ q.drop env.root.length := by
    obtain ⟨rest, rfl⟩ := htmp
    have hrest : n ∈ str "tmp" :: rest := by
      rw [tmpDir, List.append_assoc, List.getLast?_append_of_ne_nil _ (by simp)] at hn
      exact List.mem_of_getLast? hn
    simpa [tmpDir] using hrest
  have hname' : n ∈ (partDir env name).drop env.root.length := by
    obtain ⟨rest, hrest⟩ := hq
    have hle : env.root.length ≤ q.length := by
      have := htmp.length_le
      simp [tmpDir] at this
      omega
    rw [← hrest, List.drop_append_of_le_length hle]
    exact List.mem_append_left _ hmem
  have hcases : n = str "tmp" ∨ n = name := by
    unfold partDir below at hname'
    split_ifs at hname' with h0
    · exact Or.inl (by simpa [tmpDir] using hname')
    · simpa [tmpDir] using hname'
  cases hcases with
  | inl h => exact absurd hdot (h ▸ by decide)
  | inr h => exact hname.1 (h ▸ hdot)

theorem away_of_objectDir {m : Bytes} {q : Path} (hq : q <+: objectsDir env ++ [m.take 2]) :
    Away env q := by
  refine ⟨not_object_of_length env (by have := hq.length_le; simp [objectsDir] at this; omega) ∅, ?_⟩
  rintro ⟨htmp, -⟩
  have heq : tmpDir env = objectsDir env := by
    have hsame : (tmpDir env).length = (objectsDir env).length := by simp [tmpDir, objectsDir]
    exact (List.prefix_of_prefix_length_le (htmp.trans hq) (List.prefix_append _ _)
      hsame.le).eq_of_length hsame
  rw [tmpDir, objectsDir] at heq
  have := List.append_cancel_left heq
  exact absurd this (by decide)

/-! ## File calls -/

theorem mkdir_quiet {p : Path} (hp : ∀ n ∈ p, Plain n) (haway : Away env p) :
    Moves (Quiet env) ((files env).mkdir (render p)) := by
  intro w
  simp only [files, World.fileCall, move_apply]
  cases h : mkdir w.fs (render p) with
  | error e => exact Quiet.refl w
  | ok t =>
      refine Quiet.withTree fun hl => mkdir_keeps h fun q hq _ => ?_
      exact locate_plain hl hp hq ▸ haway

theorem unlink_quiet {s : Bytes} (hs : Clear env s) :
    Moves (Quiet env) ((files env).unlink s) := by
  intro w
  simp only [files, World.fileCall, move_apply]
  cases h : unlink w.fs s with
  | error e => exact Quiet.refl w
  | ok t => exact Quiet.withTree fun hl => unlink_keeps h fun q hq => hs w.fs false q hl hq

theorem rmdir_quiet {p : Path} (hp : UserPath env p) :
    Moves (Quiet env) ((files env).rmdir (render p)) := by
  intro w
  simp only [files, World.fileCall, move_apply]
  cases h : rmdir w.fs (render p) with
  | error e => exact Quiet.refl w
  | ok t =>
      refine Quiet.withTree fun hl => rmdir_keeps h fun q hq => ?_
      exact locate_plain hl hp.plain hq ▸ hp.not_object

theorem rename_quiet {p q : Path} (hp : UserPath env p) (hq : UserPath env q) :
    Moves (Quiet env) ((files env).rename (render p) (render q)) := by
  intro w
  simp only [files, World.fileCall, move_apply]
  cases h : rename w.fs (render p) (render q) with
  | error e => exact Quiet.refl w
  | ok t =>
      refine Quiet.withTree fun hl => rename_keeps h (fun r hr => ?_) fun r hr => ?_
      · obtain rfl := locate_plain hl hp.plain hr
        exact fun x hx => hx.elim (hp.not_above x) (hp.not_above_part x)
      · obtain rfl := locate_plain hl hq.plain hr
        exact fun x hx => hx.elim (hq.not_above x) (hq.not_above_part x)

/-! ## `ensureDir` -/

/-- One call of `mkdir` in `ensureDirLoop`, and the rest of the loop behind it. -/
theorem ensureDirLoop_quiet_step {next : Bytes} {parts : List Bytes}
    (hnext : Moves (Quiet env) ((files env).mkdir next))
    (hrest : Moves (Quiet env) (ensureDirLoop (files env) next parts)) :
    Moves (Quiet env) (do
      match ← (files env).mkdir next with
      | .ok _ => ensureDirLoop (files env) next parts
      | .error e => if e = .eexist then ensureDirLoop (files env) next parts else return false) := by
  apply Moves.bind Quiet.trans hnext
  intro r
  cases r with
  | ok _ => exact hrest
  | error e =>
      dsimp only
      split
      · exact hrest
      · exact Moves.of_pure Quiet.refl _

/-- The text that the loop of `ensureDir` makes next. -/
theorem ensureDirLoop_cons {cur : Path} {n : Name} (hcur : ∀ m ∈ cur, Plain m) (hn : Plain n)
    (names : List Name) (w : World) :
    ensureDirLoop (files env) (render cur) (n :: names) w = (do
      match ← (files env).mkdir (render (cur ++ [n])) with
      | .ok _ => ensureDirLoop (files env) (render (cur ++ [n])) names
      | .error e =>
        if e = .eexist then ensureDirLoop (files env) (render (cur ++ [n])) names
        else return false : Act World Bool) w := by
  have hskip : ¬ (n = [] ∨ n = str ".") := by
    rw [not_or]
    exact ⟨hn.1, hn.2.1⟩
  have hnext : (if render cur = str "/" then render cur ++ n
      else if render cur = [] then n else render cur ++ str "/" ++ n) =
      render (cur ++ [n]) := by
    have hslash : str "/" = render [] := by decide
    rw [render_append_singleton, hslash]
    by_cases hc : cur = []
    · simp [hc]
    · have h1 : render cur ≠ render [] := fun h =>
        hc (render_injective hcur (by simp) h)
      have h2 : render cur ≠ [] := by simp [render]
      rw [if_neg h1, if_neg h2, if_neg hc, render_nil]
      simp
  rw [ensureDirLoop, if_neg hskip]
  exact hnext ▸ rfl

/-- The loop of `ensureDir` over the names of a path. -/
theorem ensureDirLoop_quiet {cur names : Path} (hcur : ∀ n ∈ cur, Plain n)
    (hplain : ∀ n ∈ names, Plain n) (haway : ∀ q, q <+: cur ++ names → Away env q) :
    Moves (Quiet env) (ensureDirLoop (files env) (render cur) names) := by
  induction names generalizing cur with
  | nil => exact Moves.of_pure Quiet.refl _
  | cons n names ih =>
      have hn := hplain n (by simp)
      have hcur' : ∀ m ∈ cur ++ [n], Plain m := by
        intro m hm
        cases List.mem_append.mp hm with
        | inl h => exact hcur m h
        | inr h => exact List.mem_singleton.mp h ▸ hn
      have happ : cur ++ n :: names = cur ++ [n] ++ names := by simp
      rw [happ] at haway
      intro w
      rw [ensureDirLoop_cons hcur hn]
      refine ensureDirLoop_quiet_step ?_ ?_ w
      · exact mkdir_quiet hcur' (haway _ (List.prefix_append _ _))
      · exact ih hcur' (fun m hm => hplain m (by simp [hm])) haway

/-- `ensureDir` on the text of a path. -/
theorem ensureDir_quiet {p : Path} (hp : ∀ n ∈ p, Plain n)
    (haway : ∀ q, q <+: p → Away env q) :
    Moves (Quiet env) (ensureDir (files env) (render p)) := by
  have hslash : str "/" = render [] := by decide
  have hne : render p ≠ [] := by simp [render]
  have hhead : (render p).head? = some 47 := rfl
  unfold ensureDir
  rw [if_neg hne, if_pos hhead, split_eq_components]
  by_cases h0 : p = []
  · subst h0
    have h1 : components (render []) = [[], []] := rfl
    rw [h1]
    simp only [ensureDirLoop, true_or, if_true]
    exact Moves.of_pure Quiet.refl _
  · rw [components_render hp h0, ensureDirLoop, if_pos (Or.inl rfl), hslash]
    exact ensureDirLoop_quiet (by simp) hp (by simpa using haway)

/-- The directory of a user. -/
theorem ensureDir_userRoot_quiet {name : Bytes} (hname : NameOk name) :
    Moves (Quiet env) (ensureDir (files env) (joinPath env.cfg.usersRoot name)) := by
  rw [userRoot_text env hname]
  exact ensureDir_quiet (userRoot_plain env hname) fun q hq => away_of_userRoot hq

/-- The directory for the part files of a user. -/
theorem ensureDir_tmp_quiet {name : Bytes} (hname : NameOk name) :
    Moves (Quiet env) (ensureDir (files env) (joinPath env.cfg.tmpRoot name)) := by
  rw [partDir_text env hname]
  exact ensureDir_quiet (partDir_plain env hname) fun q hq => away_of_partDir hname hq

/-- The parent directory of a path of a user. -/
theorem ensureDir_parent_quiet {p : Path} (hp : UserPath env p) :
    Moves (Quiet env) (ensureDir (files env) (parentDir (render p))) := by
  cases List.eq_nil_or_concat p with
  | inl h => exact absurd h hp.ne_nil
  | inr h =>
      obtain ⟨d, n, rfl⟩ := h
      rw [List.concat_eq_append] at *
      rw [parentDir_render (hp.plain n (by simp))]
      apply ensureDir_quiet fun m hm => hp.plain m (by simp [hm])
      exact fun q hq => away_of_user hp (hq.trans (List.prefix_append _ _))

/-- The directory of an object. -/
theorem ensureDir_object_quiet {m : Bytes} (hm : Hex32 m) :
    Moves (Quiet env) (ensureDir (files env) (parentDir (objectText env m))) := by
  have hpath : objectPath env m = objectsDir env ++ [m.take 2] ++ [m] := by simp [objectPath]
  rw [objectText_hex env hm, hpath, parentDir_render (Hex32.plain hm)]
  apply ensureDir_quiet
  · intro n hn
    cases List.mem_append.mp hn with
    | inl h => exact objectsDir_plain env n h
    | inr h => exact List.mem_singleton.mp h ▸ Hex32.take_plain hm
  · exact fun q hq => away_of_objectDir hq

/-! ## FileManager -/

theorem makeDir_quiet {p : Path} (hp : UserPath env p) :
    Moves (Quiet env) (FileManager.makeDir (files env) (render p)) := by
  apply Moves.bind Quiet.trans (mkdir_quiet hp.plain (away_of_user hp (List.prefix_refl p)))
  intro r
  cases r with
  | ok _ => exact Moves.of_pure Quiet.refl _
  | error e =>
      dsimp only
      split <;> exact Moves.of_throw Quiet.refl _

theorem lstat_read (s : Bytes) (w : World) : ((files env).lstat s w).2 = w := rfl

theorem fileExists_read (s : Bytes) (w : World) : (fileExists (files env) s w).2 = w := by
  unfold fileExists
  apply read_bind (R := fun w w' => w' = w) rfl rfl
  intro r _
  cases r <;> rfl

theorem renamePath_quiet {p q : Path} (hp : UserPath env p) (hq : UserPath env q) :
    Moves (Quiet env) (FileManager.renamePath (files env) (render p) (render q)) := by
  intro w
  apply read_bind (Quiet.refl w) (fileExists_read _ w)
  intro r _
  cases r with
  | true => exact Quiet.refl w
  | false =>
      apply Moves.bind Quiet.trans (rename_quiet hp hq)
      intro r
      cases r with
      | ok _ => exact Moves.of_pure Quiet.refl _
      | error e => exact Moves.of_throw Quiet.refl _

/-- The names that `opendir` delivers, but for the first two, are plain. -/
theorem opendir_names {s : Bytes} {w w' : World} {names : List Name}
    (h : (files env).opendir s w = (.ok (.ok names), w')) :
    ∀ n ∈ names, n = str "." ∨ n = str ".." ∨ Plain n := by
  simp only [files, look_apply, readdir, Prod.mk.injEq, Except.ok.injEq] at h
  cases hnode : node w.fs true s with
  | error e => simp [hnode, Except.map] at h
  | ok qx =>
      obtain ⟨q, x⟩ := qx
      cases x with
      | dir =>
          simp only [hnode, Except.map, Except.ok.injEq] at h
          intro n hn
          rw [← h.1] at hn
          rcases List.mem_cons.mp hn with rfl | hn
          · exact Or.inl rfl
          rcases List.mem_cons.mp hn with rfl | hn
          · exact Or.inr (Or.inl rfl)
          · exact Or.inr (Or.inr (w.fs.plain q n ((w.fs.mem_children q n).mp hn)))
      | file i => simp [hnode, Except.map] at h
      | link g => simp [hnode, Except.map] at h
      | special k => simp [hnode, Except.map] at h

/-- The `readdir` loop of `removeRecursive`. -/
theorem removeNames_quiet {p : Path} (hp : UserPath env p) {remove : Bytes → Act World Unit}
    (hremove : ∀ n, Plain n → Moves (Quiet env) (remove (render (p ++ [n]))))
    {names : List Name} (hnames : ∀ n ∈ names, n = str "." ∨ n = str ".." ∨ Plain n) :
    Moves (Quiet env) (FileManager.removeNames remove (render p) names) := by
  induction names with
  | nil => exact Moves.of_pure Quiet.refl _
  | cons n names ih =>
      have hrest := ih fun m hm => hnames m (by simp [hm])
      rw [FileManager.removeNames]
      split
      · exact hrest
      next hskip =>
        rw [not_or] at hskip
        have hn : Plain n := by
          rcases hnames n (by simp) with h | h | h
          · exact absurd h hskip.1
          · exact absurd h hskip.2
          · exact h
        rw [joinPath_render hp.plain hn.1 hn.2.2.2.1]
        exact Moves.bind Quiet.trans (hremove n hn) fun _ => hrest

/-- **Recursive removal touches no object**: induction on the depth, and for each directory
on its names. -/
theorem removeRecursive_quiet {depth : ℕ} {p : Path} (hp : UserPath env p) :
    Moves (Quiet env) (FileManager.removeRecursive (files env) depth (render p)) := by
  induction depth generalizing p with
  | zero => exact Moves.of_throw Quiet.refl _
  | succ depth ih =>
      intro w
      rw [FileManager.removeRecursive]
      apply read_bind (Quiet.refl w) rfl
      intro r _
      cases r with
      | error e => exact Quiet.refl w
      | ok st =>
          dsimp only
          split
          · apply read_bind (Quiet.refl w) rfl
            intro r hr
            cases r with
            | error e => exact Quiet.refl w
            | ok names =>
                intro hl
                have hnames := opendir_names hr
                have hloop := removeNames_quiet hp (fun n hn => ih (hp.append hn)) hnames
                refine (Moves.bind Quiet.trans hloop fun _ => ?_) w hl
                refine Moves.bind Quiet.trans (Moves.of_pure Quiet.refl _) fun _ => ?_
                refine Moves.bind Quiet.trans (rmdir_quiet hp) fun r => ?_
                cases r with
                | ok _ => exact Moves.of_pure Quiet.refl _
                | error e => exact Moves.of_throw Quiet.refl _
          · refine (Moves.bind Quiet.trans (unlink_quiet (clear_user hp)) fun r => ?_) w
            cases r with
            | ok _ => exact Moves.of_pure Quiet.refl _
            | error e => exact Moves.of_throw Quiet.refl _

theorem removePath_quiet {p : Path} (hp : UserPath env p) :
    Moves (Quiet env) (FileManager.removePath (files env) (render p)) := by
  intro w
  apply read_bind (Quiet.refl w) rfl
  intro depth _
  exact removeRecursive_quiet hp w

end CloudStore.Interface
