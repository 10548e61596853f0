import CloudStore.Interface.Entries
import CloudStore.Interface.Resolution

/-!
# Path resolution without links

On a file tree without links `resolve` follows the names of the normal form below the root, and
says exactly which paths exist.
-/

set_option autoImplicit false

namespace CloudStore.Interface

open CloudStore.Library (Bytes Name Path Plain FileTree Node Action)
open CloudStore.Library.Action (bind_ok)
open CloudStore.Library.Posix
open CloudStore.Model
open CloudStore.Model.PathGuard

variable {env : Env}

/-- A path that is occupied, or that need not exist and whose parent is. -/
def Reachable (t : FileTree) (mustExist : Bool) (d p : Path) : Prop :=
  t.entry (d ++ p) ≠ none ∨ (mustExist = false ∧ t.entry (d ++ p.dropLast) ≠ none)

instance (t : FileTree) (mustExist : Bool) (d p : Path) : Decidable (Reachable t mustExist d p) :=
  inferInstanceAs (Decidable (_ ∨ _))

theorem reachable_occupied {t : FileTree} {mustExist : Bool} {d p : Path}
    (h : t.entry (d ++ p) ≠ none) : Reachable t mustExist d p := Or.inl h

theorem reachable_nil {t : FileTree} {mustExist : Bool} {d : Path} (h : t.entry d ≠ none) :
    Reachable t mustExist d [] := reachable_occupied (by rwa [List.append_nil])

/-- Behind an occupied name, what is reached is what is reached from there. -/
theorem reachable_cons {t : FileTree} {mustExist : Bool} {d p : Path} {n : Name}
    (h : t.entry (d ++ [n]) ≠ none) :
    Reachable t mustExist d (n :: p) ↔ Reachable t mustExist (d ++ [n]) p := by
  have hassoc : ∀ q, d ++ n :: q = d ++ [n] ++ q := fun q => by simp
  unfold Reachable
  cases p with
  | nil => simp [h]
  | cons m p => rw [List.dropLast_cons_cons, hassoc (m :: p), hassoc (m :: p).dropLast]

/-- Behind a free name, only the name itself is reached. -/
theorem reachable_free {t : FileTree} {mustExist : Bool} {d p : Path} {n : Name}
    (hd : t.entry d ≠ none) (h : t.entry (d ++ [n]) = none) :
    Reachable t mustExist d (n :: p) ↔ p = [] ∧ mustExist = false := by
  have hassoc : ∀ q, d ++ n :: q = d ++ [n] ++ q := fun q => by simp
  unfold Reachable
  cases p with
  | nil => simp [h, hd]
  | cons m p =>
      have hbelow : ∀ q, t.entry (d ++ [n] ++ q) = none := by
        intro q
        by_cases hq : q = []
        · rw [hq, List.append_nil, h]
        · exact t.entry_below_eq_none hq (by simp [h])
      rw [List.dropLast_cons_cons, hassoc (m :: p), hassoc (m :: p).dropLast, hbelow, hbelow]
      simp

/-- The calls see nothing at a free name of an occupied path. -/
theorem lstat_free {w : World} {p : Path} {n : Name} (hp : Solid w.fs p) (hn : Plain n)
    (hfree : w.fs.entry (p ++ [n]) = none) :
    ∃ e, (World.files env).lstat (render (p ++ [n])) w = (.ok (.error e), w) := by
  obtain ⟨e, hnode⟩ := (node_below hp hn).2 hfree
  refine ⟨e, ?_⟩
  simp only [World.files, Action.look_apply, lstat, hnode]
  rfl

/-- Where there are no links, the loop of `resolve` follows the names. -/
theorem resolveLoop_plain {w : World} (hl : w.fs.NoLinks) {root cur : Path} {norm : Bytes}
    {mustExist : Bool} {parts : List Bytes} (hroot : ∀ n ∈ root, Plain n)
    (hcur : w.fs.entry cur ≠ none) (hin : root <+: cur) (hparts : ∀ n ∈ parts, Plain n) :
    if Reachable w.fs mustExist cur parts then
      resolveLoop (World.files env) (render root) norm mustExist (render cur) parts w =
        (.ok (render (cur ++ parts)), w)
    else ∃ e, resolveLoop (World.files env) (render root) norm mustExist (render cur) parts w =
      (.error e, w) := by
  have hinside : ∀ p, w.fs.entry p ≠ none → root <+: p →
      isInside (render p) (render root) = true :=
    fun p hp hpre => (startsWithPath_render (w.fs.plain_of_entry hp) hroot).mpr hpre
  induction parts generalizing cur with
  | nil =>
      rw [if_pos (reachable_nil hcur), resolveLoop, if_pos (hinside cur hcur hin), List.append_nil]
      rfl
  | cons name parts ih =>
      obtain ⟨y, hy⟩ := Option.ne_none_iff_exists'.mp hcur
      have hsolid : Solid w.fs cur := ⟨y, hy, fun g hg => hl cur g (hg ▸ hy)⟩
      have hn := hparts name (by simp)
      have hrest : ∀ n ∈ parts, Plain n := fun n hm => hparts n (by simp [hm])
      have hjoin : joinPath (render cur) name = render (cur ++ [name]) :=
        joinPath_render (w.fs.plain_of_entry hcur) hn.1 hn.2.2.2.1
      have hnext : root <+: cur ++ [name] := hin.trans (List.prefix_append _ _)
      have hpath : cur ++ name :: parts = cur ++ [name] ++ parts := by simp
      rw [resolveLoop, if_neg hn.1, hjoin]
      cases he : w.fs.entry (cur ++ [name]) with
      | none =>
          obtain ⟨e, hstat⟩ := @lstat_free env w cur name hsolid hn he
          rw [bind_ok hstat]
          simp only [reachable_free hcur he, hinside cur hcur hin, if_true]
          split_ifs with hlast
          · rw [hlast.1]
            rfl
          · exact ⟨_, rfl⟩
      | some x =>
          have hoccupied : w.fs.entry (cur ++ [name]) ≠ none := by simp [he]
          have hins := hinside _ hoccupied hnext
          have hih := ih hoccupied hnext hrest
          rw [bind_ok (lstat_run he), hpath]
          simp only [World.fileStat, reachable_cons hoccupied]
          cases x with
          | link g => exact absurd he (hl _ g)
          | dir => simpa only [hins, Bool.true_or, if_true] using hih
          | file i => simpa only [hins, Bool.true_or, if_true] using hih
          | special k => exact hih

/-- A text that `realpath` answers for is absolute. -/
theorem absolute_of_realpath {t : FileTree} {s real : Bytes} (h : realpath t s = .ok real) :
    s ≠ [] ∧ s.head? = some 47 := by
  unfold realpath node locate at h
  cases s with
  | nil => simp [cstr, Except.map] at h
  | cons c s =>
      by_cases hc : c = 47
      · simp [hc]
      · exfalso
        by_cases hzero : c = 0
        · subst hzero
          simp [cstr, Except.map] at h
        · have hcstr : cstr (c :: s) = c :: cstr s := by simp [cstr, hzero]
          rw [hcstr] at h
          simp [hc, Except.map] at h

/-- **`resolve` where there are no links.** -/
theorem resolve_plain {w : World} (hl : w.fs.NoLinks) {userRoot logical : Bytes} {root names : Path}
    {mustExist : Bool} (hreal : realpath w.fs userRoot = .ok (render root))
    (hroot : w.fs.entry root ≠ none) (hnames : ∀ n ∈ names, Plain n)
    (hnorm : normalizeLogical logical = .ok ([47].intercalate names)) :
    if Reachable w.fs mustExist root names then
      resolve (World.files env) userRoot logical mustExist w =
        (.ok (render (root ++ names)), w)
    else ∃ e, resolve (World.files env) userRoot logical mustExist w = (.error e, w) := by
  obtain ⟨hne, hhead⟩ := absolute_of_realpath hreal
  have hrun : resolve (World.files env) userRoot logical mustExist w =
      (if [47].intercalate names = [] then pure (render root) else
        resolveLoop (World.files env) (render root) ([47].intercalate names) mustExist
          (render root) (split ([47].intercalate names) 47) : Act World Bytes) w := by
    unfold resolve
    rw [if_neg (by simp [hne, hhead])]
    simp only [mustRealpath, Action.bind_apply, World.files, Action.look_apply, hreal,
      Action.pure_apply, Action.monadLift_apply, hnorm]
  rw [hrun]
  by_cases hnil : names = []
  · subst hnil
    rw [if_pos (reachable_nil hroot), List.append_nil]
    rfl
  · rw [if_neg fun h => hnil ((intercalate_eq_nil hnames).mp h), split_intercalate hnil hnames]
    exact resolveLoop_plain hl (w.fs.plain_of_entry hroot) hroot (List.prefix_refl _) hnames

end CloudStore.Interface
