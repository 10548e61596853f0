import CloudStore.Interface.NormalForm
import CloudStore.Model.Collation

/-!
# The listing of the index

The statement of `listIndexed` over-approximates: its pattern is a text of the user, in which
percent signs and underscores are wildcards. What it selects besides the direct children has a
slash behind the start of the pattern, or does not begin with that start.
-/

set_option autoImplicit false

namespace CloudStore.Interface

open CloudStore.Library (Bytes Name Path Plain Action)
open CloudStore.Library.Posix
open CloudStore.Library.StackWalk (walk_kept)
open CloudStore.Model
open CloudStore.Model.TransferService
open CloudStore.Model.World (backend)

/-! ## LIKE -/

/-- A text without backslash, as a pattern with a percent sign behind it, matches all that
begins with it. -/
theorem sqlLike_prefix {p : Bytes} (h : 92 ∉ p) (s : Bytes) : sqlLike (p ++ [37]) (p ++ s) = true := by
  induction p with
  | nil => simp [sqlLike]
  | cons c p ih =>
      have hp : sqlLike (p ++ [37]) (p ++ s) = true := ih fun hc => h (List.mem_cons_of_mem _ hc)
      have hback : c ≠ 92 := by
        rintro rfl
        exact h List.mem_cons_self
      by_cases hpercent : c = 37
      · subst hpercent
        rw [List.cons_append, sqlLike, List.any_eq_true]
        exact ⟨p ++ s, by simp, hp⟩
      by_cases hunderscore : c = 95
      · subst hunderscore
        exact hp
      · simp [sqlLike, hback, hp]

/-- LIKE is that of MySQL, up to a fold of the bytes. -/
structure Folds (d : Dialect) (fold : UInt8 → UInt8) : Prop where
  like : ∀ text pattern, d.like text pattern = sqlLike (pattern.map fold) (text.map fold)
  percent : fold 37 = 37
  backslash : ∀ c, fold c = 92 → c = 92

theorem exact_folds : Folds Dialect.exact id :=
  ⟨fun _ _ => by simp [Dialect.exact], rfl, fun _ h => h⟩

theorem shipped_folds : Folds Dialect.shipped lowerCase := by
  refine ⟨fun _ _ => rfl, by decide, fun c h => ?_⟩
  unfold lowerCase at h
  split at h
  next hupper =>
    simp only [Bool.and_eq_true, decide_eq_true_eq, UInt8.le_iff_toNat_le] at hupper
    have hval := congrArg UInt8.toNat h
    rw [UInt8.toNat_add] at hval
    simp only [UInt8.reduceToNat] at hval hupper
    omega
  · exact h

theorem Folds.prefix_like {d : Dialect} {fold : UInt8 → UInt8} (h : Folds d fold) {p : Bytes}
    (hp : 92 ∉ p) (s : Bytes) : d.like (p ++ s) (p ++ str "%") = true := by
  have hpercent : (str "%").map fold = [37] := by
    rw [show str "%" = [37] from by decide]
    simp [h.percent]
  rw [h.like, List.map_append, List.map_append, hpercent]
  apply sqlLike_prefix
  intro hmem
  obtain ⟨c, hc, hfold⟩ := List.mem_map.mp hmem
  rw [h.backslash c hfold] at hc
  exact hp hc

/-! ## Children -/

/-- A path is a directory path and a name behind one slash. -/
def IsChild (dir path : Bytes) : Prop :=
  ∃ name, name ≠ [] ∧ 47 ∉ name ∧ path = (if dir = str "/" then dir else dir ++ str "/") ++ name

instance (dir path : Bytes) : Decidable (IsChild dir path) :=
  decidable_of_iff (∃ name ∈ path.tails, name ≠ [] ∧ 47 ∉ name ∧
      path = (if dir = str "/" then dir else dir ++ str "/") ++ name) (by
    constructor
    · rintro ⟨name, -, h⟩
      exact ⟨name, h⟩
    · rintro ⟨name, hne, hslash, hpath⟩
      refine ⟨name, ?_, hne, hslash, hpath⟩
      rw [List.mem_tails, hpath]
      exact List.suffix_append _ name)

/-- The root is a child of no directory. -/
theorem not_isChild_root (dir : Bytes) : ¬ IsChild dir (render []) := by
  rintro ⟨name, hname, -, hroot⟩
  have hlen := congrArg List.length hroot
  have hpos := List.length_pos_iff.mpr hname
  have hdir : 1 ≤ (if dir = str "/" then dir else dir ++ str "/").length := by
    split_ifs with h
    · rw [h]
      decide
    · simp [str]
  rw [render_nil, List.length_singleton, List.length_append] at hlen
  omega

/-- A slash and the normal form of a logical path. -/
def LogicalPath (s : Bytes) : Prop := ∃ a n, PathGuard.normalizeLogical a = .ok n ∧ s = str "/" ++ n

/-- A logical path is the text of a path of legal names, and its own normal form. -/
theorem LogicalPath.names {s : Bytes} (h : LogicalPath s) : ∃ names : Path,
    (∀ n ∈ names, Plain n ∧ ¬ Illegal n) ∧ s = render names ∧
      PathGuard.normalizeLogical s = .ok ([47].intercalate names) := by
  obtain ⟨a, n, hn, rfl⟩ := h
  obtain ⟨names, hplain, rfl, hloop⟩ := normalizeLogical_ok hn
  have hlegal : ∀ c ∈ names, ¬ Illegal c := by
    intro c hc
    have hkept := walk_kept ((normalizeLoop_eq _ _).symm.trans hloop) (by simp) c hc
    obtain ⟨-, -, -, htilde, hback⟩ := keep_of_move hkept
    exact not_or.mpr ⟨htilde, by simpa using hback⟩
  exact ⟨names, fun c hc => ⟨hplain c hc, hlegal c hc⟩, slash_normal,
    normalizeLogical_render hplain hlegal⟩

/-- A logical path is the text of a path of names without backslashes. -/
theorem LogicalPath.render {s : Bytes} (h : LogicalPath s) : ∃ names : Path,
    (∀ n ∈ names, Plain n ∧ 92 ∉ n) ∧ s = render names := by
  obtain ⟨names, hnames, hs, -⟩ := h.names
  refine ⟨names, fun c hc => ⟨(hnames c hc).1, ?_⟩, hs⟩
  have hlegal := (not_or.mp (hnames c hc).2).2
  simpa using hlegal

/-- A logical path is its own normal form. -/
instance (s : Bytes) : Decidable (LogicalPath s) :=
  decidable_of_iff (PathGuard.normalizeLogical s = .ok (s.drop 1) ∧ s = str "/" ++ s.drop 1) (by
    constructor
    · rintro ⟨hn, hs⟩
      exact ⟨s, s.drop 1, hn, hs⟩
    · intro h
      obtain ⟨names, -, rfl, hnorm⟩ := h.names
      exact ⟨hnorm, rfl⟩)

/-- A logical path has no backslash. -/
theorem LogicalPath.backslash {s : Bytes} (h : LogicalPath s) : 92 ∉ s := by
  obtain ⟨names, hnames, rfl⟩ := h.render
  intro hmem
  rcases mem_render hmem with hslash | ⟨n, hn, hb⟩
  · exact absurd hslash (by decide)
  · exact (hnames n hn).2 hb

/-- The text of a path is a child of the text of a directory if it is one name longer. -/
theorem isChild_render_iff {d q : Path} (hd : ∀ n ∈ d, Plain n) (hq : ∀ n ∈ q, Plain n)
    (hne : q ≠ []) : IsChild (render d) (render q) ↔ ∃ n, q = d ++ [n] := by
  have hslash : str "/" = [47] := by decide
  have htext : ∀ n, (if render d = str "/" then render d
      else render d ++ str "/") ++ n = if d = [] then 47 :: n else render d ++ 47 :: n := by
    intro n
    by_cases hd0 : d = []
    · subst hd0
      rw [if_pos rfl, if_pos (by decide)]
      rfl
    · have hroot : render d ≠ str "/" := by
        intro hroot
        exact hd0 (render_injective hd (by simp) (hroot.trans (by decide)))
      rw [if_neg hroot, if_neg hd0, hslash, List.append_assoc]
      rfl
  unfold IsChild
  constructor
  · rintro ⟨n, -, hn, hpath⟩
    rw [htext n] at hpath
    have hcomponents := congrArg components hpath
    rw [components_render hq hne] at hcomponents
    refine ⟨n, ?_⟩
    split_ifs at hcomponents with hd0
    · have hsplit := components_append_slash [] n
      rw [components_of_slash_not_mem hn] at hsplit
      rw [hd0]
      exact (List.cons.inj (hcomponents.trans hsplit)).2
    · rw [components_append_slash, components_of_slash_not_mem hn,
        components_render hd hd0] at hcomponents
      exact (List.cons.inj hcomponents).2
  · rintro ⟨n, rfl⟩
    have hn := hq n (by simp)
    refine ⟨n, hn.1, hn.2.2.2.1, ?_⟩
    rw [htext n, render_append_singleton]

theorem dirPrefix_render {names : Path} (h : ∀ n ∈ names, Plain n) :
    dirPrefix (render names) =
      if render names = str "/" then render names else render names ++ str "/" := by
  have hne : render names ≠ [] := by simp [render]
  unfold dirPrefix
  rw [if_neg hne]
  dsimp only
  by_cases hnames : names = []
  · subst hnames
    decide
  · have hroot : render names ≠ str "/" := by
      intro hroot
      exact hnames (render_injective h (by simp) (hroot.trans (by decide)))
    rw [if_neg (getLast?_render h hnames), if_neg hroot]

/-- **What is not nested are the direct children.** -/
theorem nested_iff {names q : Path} (h : ∀ n ∈ names, Plain n) (hq : ∀ n ∈ q, Plain n)
    (hne : q ≠ []) :
    nested (dirPrefix (render names)) (render q) = false ↔ IsChild (render names) (render q) := by
  have hslash : str "/" = [47] := by decide
  have hlast := getLast?_render hq hne
  by_cases hnames : names = []
  · -- below the root
    subst hnames
    have hroot : render [] = str "/" := by decide
    have hstart : dirPrefix (str "/") = str "/" := by decide
    unfold nested IsChild
    rw [hroot, hstart, if_neg (by simp), if_pos rfl, if_pos ⟨rfl, rfl⟩, hslash]
    change ([47].intercalate q).contains 47 = false ↔ _
    constructor
    · intro h47
      refine ⟨[47].intercalate q, ?_, by simpa using h47, rfl⟩
      rw [ne_eq, intercalate_eq_nil hq]
      exact hne
    · rintro ⟨name, -, hname, hpath⟩
      have heq : [47].intercalate q = name := List.cons.inj hpath |>.2
      rw [heq]
      simpa using hname
  · have hroot : render names ≠ str "/" := by
      intro hroot
      exact hnames (render_injective h (by simp) (hroot.trans (by decide)))
    have hstart : dirPrefix (render names) = render names ++ [47] := by
      rw [dirPrefix_render h, if_neg hroot, hslash]
    have hlong : render names ++ [47] ≠ [47] := by simp [render]
    unfold nested IsChild
    rw [hstart, if_neg hroot, hslash]
    by_cases hpre : render names ++ [47] <+: render q
    · obtain ⟨t, ht⟩ := hpre
      have hne' : t ≠ [] := by
        rintro rfl
        rw [List.append_nil] at ht
        rw [← ht] at hlast
        simp at hlast
      have hprefix : (render names ++ [47]).isPrefixOf (render q) = true := by
        rw [List.isPrefixOf_iff_prefix]
        exact ⟨t, ht⟩
      have hcut : (render q).drop ((render names ++ [47]).length - 1) = 47 :: t := by
        rw [← ht]
        simp
      rw [if_pos ⟨hlong, hprefix⟩, hcut, if_pos List.head?_cons, List.drop_one, List.tail_cons]
      constructor
      · intro h47
        exact ⟨t, hne', by simpa using h47, ht.symm⟩
      · rintro ⟨name, -, hname, hpath⟩
        rw [← ht] at hpath
        have heq : t = name := List.append_cancel_left hpath
        rw [heq]
        simpa using hname
    · have hprefix : ¬ (render names ++ [47]).isPrefixOf (render q) = true := by
        rwa [List.isPrefixOf_iff_prefix]
      rw [if_neg fun hboth => hprefix hboth.2, if_neg fun hboth => hlong hboth.1]
      apply iff_of_false
      · simp [render]
      · rintro ⟨name, -, -, hpath⟩
        exact hpre ⟨name, hpath.symm⟩

end CloudStore.Interface
