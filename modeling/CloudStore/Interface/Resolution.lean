import CloudStore.Interface.PathText
import CloudStore.Model.World

/-!
# Path resolution

What `PathGuard::resolve` returns on a file tree. The loop keeps a current path that is
occupied, is no link and lies below the real root (`resolveLoop_spec`); a link moves it to
the place the link leads to, which the loop accepts only below the root.
-/

set_option autoImplicit false

namespace CloudStore.Interface

open CloudStore.Library (Bytes Name Path Plain FileTree Node Action)
open CloudStore.Library.Posix
open CloudStore.Model

/-- The path `p` is reached through directories: it is occupied by no link, or it is a
free name of a node that is no link. -/
structure Grounded (t : FileTree) (p : Path) : Prop where
  plain : ∀ n ∈ p, Plain n
  no_link : ∀ g, t.entry p ≠ some (.link g)
  parent : p = [] ∨ Solid t p.dropLast

/-- No link lies on the way to an occupied path. -/
theorem no_link_above {t : FileTree} {p q : Path} (hp : Solid t p) (hq : q <+: p) :
    ∀ g, t.entry q ≠ some (.link g) := by
  obtain ⟨x, hx, hlink⟩ := hp
  obtain ⟨rest, rfl⟩ := hq
  by_cases hrest : rest = []
  · subst hrest
    rw [List.append_nil] at hx
    intro g hg
    rw [hx] at hg
    exact hlink g (Option.some.inj hg)
  · have hdir : t.entry q = some .dir := t.dir_of_below hrest (by simp [hx])
    simp [hdir]

theorem Grounded.no_link_prefix {t : FileTree} {p q : Path} (h : Grounded t p) (hq : q <+: p) :
    ∀ g, t.entry q ≠ some (.link g) := by
  cases List.eq_nil_or_concat p with
  | inl h0 =>
      subst h0
      rw [List.prefix_nil] at hq
      exact hq ▸ h.no_link
  | inr h0 =>
      obtain ⟨d, n, rfl⟩ := h0
      rw [List.concat_eq_append] at *
      cases List.prefix_concat_iff.mp hq with
      | inl heq => exact heq ▸ h.no_link
      | inr hpre =>
          have hsolid : Solid t d := by simpa using h.parent
          exact no_link_above hsolid hpre

theorem grounded_of_solid {t : FileTree} {p : Path} (h : Solid t p) : Grounded t p := by
  have hocc : t.entry p ≠ none := by
    obtain ⟨x, hx, -⟩ := h
    simp [hx]
  refine ⟨t.plain_of_entry hocc, no_link_above h (List.prefix_refl p), ?_⟩
  cases List.eq_nil_or_concat p with
  | inl h0 => exact Or.inl h0
  | inr h0 =>
      obtain ⟨d, n, rfl⟩ := h0
      rw [List.concat_eq_append] at *
      right
      simpa using solid_of_dir (t.closed d n hocc)

/-- **The text of a grounded path leads nowhere else.** -/
theorem Grounded.locate {t : FileTree} {p : Path} (h : Grounded t p) {follow : Bool} {q : Path}
    (hq : locate t follow (render p) = .ok q) : q = p := by
  cases List.eq_nil_or_concat p with
  | inl h0 =>
      subst h0
      rw [locate_render_nil, Except.ok.injEq] at hq
      exact hq.symm
  | inr h0 =>
      obtain ⟨d, n, rfl⟩ := h0
      rw [List.concat_eq_append] at *
      have hn := h.plain n (by simp)
      have hsolid : Solid t d := by simpa using h.parent
      by_cases hd : t.entry d = some .dir
      · rw [locate_render hd hn fun _ => h.no_link, Except.ok.injEq] at hq
        exact hq.symm
      · -- the parent is a file or a special file: the walk stops with an error there
        exfalso
        have hdplain : ∀ m ∈ d, Plain m := fun m hm => h.plain m (by simp [hm])
        cases List.eq_nil_or_concat d with
        | inl h0 => exact hd (by rw [h0]; exact t.root_dir)
        | inr h0 =>
            obtain ⟨e, m, rfl⟩ := h0
            rw [List.concat_eq_append] at *
            obtain ⟨x, hx, hlink⟩ := hsolid
            have he := t.closed e m (by simp [hx])
            have hm := hdplain m (by simp)
            have hscan : scan t follow [] (e ++ [m, n]) = .fail .enotdir := by
              rw [scan_through (by simpa using he) _ fun k hk => hdplain k (by simp [hk])]
              rw [List.nil_append, scan]
              simp only [he, if_true, hm.1, hm.2.1, hm.2.2.1, or_self, if_false, hx]
              cases x with
              | link g => exact absurd rfl (hlink g)
              | dir => exact absurd hx hd
              | file i => simp [scan, hx]
              | special k => simp [scan, hx]
            unfold Library.Posix.locate at hq
            rw [cstr_of_zero_not_mem (zero_not_mem_render h.plain), render] at hq
            simp only at hq
            rw [components_intercalate (by simp) fun k hk => (h.plain k hk).2.2.2.1, walk] at hq
            have happ : e ++ [m] ++ [n] = e ++ [m, n] := by simp
            simp [happ, hscan] at hq

/-- `lstat` on the text of a name below an occupied path sees its entry. -/
theorem node_below {t : FileTree} {p : Path} {n : Name} (hp : Solid t p)
    (hn : Plain n) :
    (∀ x, t.entry (p ++ [n]) = some x → node t false (render (p ++ [n])) = .ok (p ++ [n], x)) ∧
      (t.entry (p ++ [n]) = none → ∃ e, node t false (render (p ++ [n])) = .error e) := by
  constructor
  · intro x hx
    have hdir := t.closed p n (by simp [hx])
    have hloc : locate t false (render (p ++ [n])) = .ok (p ++ [n]) :=
      locate_render hdir hn (by simp)
    simp [node, hloc, hx]
  · intro hnone
    unfold node
    cases hloc : locate t false (render (p ++ [n])) with
    | error e => exact ⟨e, rfl⟩
    | ok q =>
        have hground : Grounded t (p ++ [n]) := by
          refine ⟨?_, by simp [hnone], Or.inr (by simpa using hp)⟩
          intro m hm
          cases List.mem_append.mp hm with
          | inl h => exact (grounded_of_solid hp).plain m h
          | inr h => exact List.mem_singleton.mp h ▸ hn
        have hq := hground.locate hloc
        subst hq
        exact ⟨.enoent, by simp [hnone]⟩

/-- What `realpath` answers: the text of a path that is occupied, and by no link. -/
theorem realpath_ok {t : FileTree} {s real : Bytes} (h : realpath t s = .ok real) :
    ∃ p, Solid t p ∧ real = render p ∧ ∃ x, node t true s = .ok (p, x) := by
  unfold realpath at h
  cases hnode : node t true s with
  | error e => simp [hnode, Except.map] at h
  | ok px =>
      obtain ⟨p, x⟩ := px
      simp only [hnode, Except.map, Except.ok.injEq] at h
      have hx := node_follow_not_link hnode
      exact ⟨p, ⟨x, hx.1, hx.2⟩, h.symm, x, rfl⟩

variable (env : Env)

/-- **The loop of `resolve`.** From a solid path below the root it returns a grounded path
below the root, and changes nothing. -/
theorem resolveLoop_spec (w : World) {root cur : Path} {norm result : Bytes} {mustExist : Bool}
    {parts : List Bytes} {w' : World} (hroot : ∀ n ∈ root, Plain n) (hcur : Solid w.fs cur)
    (hin : root <+: cur) (hparts : ∀ n ∈ parts, Plain n)
    (h : PathGuard.resolveLoop (World.files env) (render root) norm mustExist (render cur) parts w =
      (.ok result, w')) :
    w' = w ∧ ∃ p, Grounded w.fs p ∧ root <+: p ∧ result = render p := by
  induction parts generalizing cur with
  | nil =>
      have hinside : PathGuard.isInside (render cur) (render root) = true :=
        (startsWithPath_render (grounded_of_solid hcur).plain hroot).mpr hin
      simp only [PathGuard.resolveLoop, hinside, if_true, Action.pure_apply, Prod.mk.injEq,
        Except.ok.injEq] at h
      exact ⟨h.2.symm, cur, (grounded_of_solid hcur), hin, h.1.symm⟩
  | cons name parts ih =>
      have hn := hparts name (by simp)
      have hrest : ∀ n ∈ parts, Plain n := fun n hm => hparts n (by simp [hm])
      have hjoin : joinPath (render cur) name = render (cur ++ [name]) :=
        joinPath_render (grounded_of_solid hcur).plain hn.1 hn.2.2.2.1
      have hnext : root <+: cur ++ [name] := hin.trans (List.prefix_append _ _)
      have hplain : ∀ n ∈ cur ++ [name], Plain n := by
        intro m hm
        cases List.mem_append.mp hm with
        | inl h => exact (grounded_of_solid hcur).plain m h
        | inr h => exact List.mem_singleton.mp h ▸ hn
      have hinside : PathGuard.isInside (render (cur ++ [name])) (render root) = true :=
        (startsWithPath_render hplain hroot).mpr hnext
      rw [PathGuard.resolveLoop, if_neg hn.1] at h
      simp only [hjoin, Action.bind_apply, World.files, Action.look_apply, lstat] at h
      cases he : w.fs.entry (cur ++ [name]) with
      | none =>
          obtain ⟨e, hnode⟩ := (node_below hcur hn).2 he
          simp only [hnode, Except.map] at h
          have hincur : PathGuard.isInside (render cur) (render root) = true :=
            (startsWithPath_render (grounded_of_solid hcur).plain hroot).mpr hin
          split_ifs at h with hlast
          · simp only [Action.pure_apply, Prod.mk.injEq, Except.ok.injEq] at h
            refine ⟨h.2.symm, cur ++ [name], ⟨hplain, by simp [he], ?_⟩, hnext, h.1.symm⟩
            right
            simpa using hcur
          · simp [fail] at h
      | some x =>
          have hnode := (node_below hcur hn).1 x he
          simp only [hnode, Except.map, World.fileStat] at h
          cases x with
          | link g =>
              -- the loop goes on at the place the link leads to
              simp only [PathGuard.mustRealpath, Action.bind_apply, Action.look_apply] at h
              cases hreal : realpath w.fs (render (cur ++ [name])) with
              | error e => simp [hreal, fail] at h
              | ok real =>
                  obtain ⟨p, hsolid, rfl, -⟩ := realpath_ok hreal
                  simp only [hreal, Action.pure_apply] at h
                  split_ifs at h with hins
                  · exact ih hsolid
                      ((startsWithPath_render (grounded_of_solid hsolid).plain hroot).mp hins) hrest h
                  · simp [fail] at h
          | dir =>
              simp only [hinside, Bool.true_or, if_true] at h
              exact ih ⟨_, he, by simp⟩ hnext hrest h
          | file i =>
              simp only [hinside, Bool.true_or, if_true] at h
              exact ih ⟨_, he, by simp⟩ hnext hrest h
          | special k => exact ih ⟨_, he, by simp⟩ hnext hrest h

/-- **`resolve` stays below the real root.** -/
theorem resolve_spec {w w' : World} {userRoot logical result : Bytes} {mustExist : Bool}
    (h : PathGuard.resolve (World.files env) userRoot logical mustExist w = (.ok result, w')) :
    w' = w ∧ ∃ root p, realpath w.fs userRoot = .ok (render root) ∧ Solid w.fs root ∧
      Grounded w.fs p ∧ root <+: p ∧ result = render p := by
  unfold PathGuard.resolve at h
  split_ifs at h with habs
  · simp [fail] at h
  · simp only [PathGuard.mustRealpath, Action.bind_apply, World.files, Action.look_apply] at h
    cases hreal : realpath w.fs userRoot with
    | error e => simp [hreal, fail] at h
    | ok real =>
        obtain ⟨root, hsolid, rfl, -⟩ := realpath_ok hreal
        simp only [hreal, Action.pure_apply, Action.monadLift_apply] at h
        cases hnorm : PathGuard.normalizeLogical logical with
        | error e => simp [hnorm] at h
        | ok norm =>
            obtain ⟨names, hplain, rfl, -⟩ := normalizeLogical_ok hnorm
            simp only [hnorm] at h
            split_ifs at h with hnil
            · simp only [Action.pure_apply, Prod.mk.injEq, Except.ok.injEq] at h
              exact ⟨h.2.symm, root, root, rfl, hsolid, (grounded_of_solid hsolid), List.prefix_refl _,
                h.1.symm⟩
            · have hne : names ≠ [] := fun h0 => hnil ((intercalate_eq_nil hplain).mpr h0)
              rw [split_intercalate hne hplain] at h
              obtain ⟨hw, p, hp, hin, hr⟩ := resolveLoop_spec env w (grounded_of_solid hsolid).plain hsolid
                (List.prefix_refl _) hplain h
              exact ⟨hw, root, p, rfl, hsolid, hp, hin, hr⟩

end CloudStore.Interface
