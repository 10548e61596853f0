import CloudStore.Library.Posix
import Mathlib.Data.List.Basic
import Mathlib.Data.List.Infix
import Mathlib.Data.List.TakeWhile
import Mathlib.Tactic.Common

/-!
# Following path texts

What `Posix.locate` answers for the texts that programs build. A text written by
`render` leads to the path it was written for (`locate_render`), so under a tree
without links the calls read and write exactly that entry (`node_render`,
`vacancy_render`). For a text of any origin, `locate_last` bounds the answer: a directory, or
a path that ends in the last component of the text. With links in the tree, a followed
text never ends at a link (`node_follow_not_link`).
-/

set_option autoImplicit false

namespace CloudStore.Library.Posix

/-! ## Texts -/

theorem zero_not_mem_cstr (s : Bytes) : 0 ∉ cstr s := by
  intro h
  have := List.mem_takeWhile_imp h
  simp at this

theorem cstr_append {s : Bytes} (h : 0 ∉ s) (rest : Bytes) : cstr (s ++ rest) = s ++ cstr rest := by
  have hs : ∀ x ∈ s, decide (x ≠ 0) = true := fun x hx => by
    have : x ≠ 0 := fun h0 => h (h0 ▸ hx)
    simpa using this
  exact List.takeWhile_append_of_pos hs

theorem cstr_of_zero_not_mem {s : Bytes} (h : 0 ∉ s) : cstr s = s := by
  simpa [cstr] using cstr_append h []

/-- A string with a zero byte is cut there. -/
theorem cstr_append_zero {s : Bytes} (h : 0 ∉ s) (rest : Bytes) : cstr (s ++ 0 :: rest) = s := by
  rw [cstr_append h]
  simp [cstr]

/-- What follows a zero byte is not seen. -/
theorem cstr_append_of_zero_mem {s : Bytes} (h : 0 ∈ s) (rest : Bytes) :
    cstr (s ++ rest) = cstr s := by
  obtain ⟨a, b, rfl, ha⟩ := List.eq_append_cons_of_mem h
  rw [List.append_assoc, List.cons_append, cstr_append_zero ha, cstr_append_zero ha]

theorem cstr_length_lt {s : Bytes} (h : 0 ∈ s) : (cstr s).length < s.length := by
  obtain ⟨a, b, rfl, ha⟩ := List.eq_append_cons_of_mem h
  rw [cstr_append_zero ha, List.length_append, List.length_cons]
  omega

theorem cstr_length_le (s : Bytes) : (cstr s).length ≤ s.length :=
  (List.takeWhile_prefix _).length_le

theorem components_intercalate {p : Path} (hp : p ≠ []) (h : ∀ n ∈ p, (47 : UInt8) ∉ n) :
    components ([47].intercalate p) = p :=
  List.splitOn_intercalate 47 h hp

/-- The bytes of a component are bytes of the text, and no slashes. -/
theorem mem_component {s : Bytes} {c : Name} (hc : c ∈ components s) {b : UInt8} (hb : b ∈ c) :
    b ∈ s ∧ b ≠ 47 := by
  induction s generalizing c with
  | nil =>
      simp only [components, List.splitOn_nil, List.mem_singleton] at hc
      simp [hc] at hb
  | cons x xs ih =>
      rw [components, List.splitOn_cons_eq_if_modifyHead] at hc
      by_cases hx : (x == 47) = true
      · rw [if_pos hx] at hc
        cases List.mem_cons.mp hc with
        | inl h => simp [h] at hb
        | inr h =>
            have := ih h hb
            exact ⟨List.mem_cons_of_mem _ this.1, this.2⟩
      · rw [if_neg hx] at hc
        -- the head of the split gains the byte `x`, which is no slash
        cases hl : xs.splitOn 47 with
        | nil => exact absurd hl (List.splitOn_ne_nil 47 xs)
        | cons d ds =>
            have hd : d ∈ components xs := by simp [components, hl]
            rw [hl, List.modifyHead_cons] at hc
            cases List.mem_cons.mp hc with
            | inl h =>
                rw [h] at hb
                cases List.mem_cons.mp hb with
                | inl h' =>
                    have hx' : x ≠ 47 := by simpa using hx
                    exact ⟨by simp [h'], h' ▸ hx'⟩
                | inr h' =>
                    have := ih hd h'
                    exact ⟨List.mem_cons_of_mem _ this.1, this.2⟩
            | inr h =>
                have hc' : c ∈ components xs := by simp [components, hl, h]
                have := ih hc' hb
                exact ⟨List.mem_cons_of_mem _ this.1, this.2⟩

/-- A component that is not empty, `.` or `..` is a plain name, if the text has no zero
byte. -/
theorem plain_component {s : Bytes} (hs : 0 ∉ s) {c : Name} (hc : c ∈ components s)
    (h : ¬ (c = [] ∨ c = [46])) (h' : c ≠ [46, 46]) : Plain c := by
  rw [not_or] at h
  refine ⟨h.1, h.2, h', fun hb => (mem_component hc hb).2 rfl, fun hb => ?_⟩
  exact hs (mem_component hc hb).1

theorem components_append_slash (s s' : Bytes) :
    components (s ++ 47 :: s') = components s ++ components s' :=
  List.splitOn_append_cons_self s s'

theorem components_of_slash_not_mem {s : Bytes} (h : 47 ∉ s) : components s = [s] :=
  List.splitOn_eq_singleton h

theorem components_ne_nil (s : Bytes) : components s ≠ [] := List.splitOn_ne_nil 47 s

/-! ## Rendered paths -/

theorem intercalate_append_singleton (sep : Bytes) (p : Path) (n : Name) (hp : p ≠ []) :
    sep.intercalate (p ++ [n]) = sep.intercalate p ++ sep ++ n := by
  induction p with
  | nil => exact absurd rfl hp
  | cons m p ih =>
      cases p with
      | nil => simp [List.intercalate_cons_cons]
      | cons m' p =>
          rw [List.cons_append, List.cons_append, List.intercalate_cons_cons,
            ← List.cons_append, ih (by simp), List.intercalate_cons_cons]
          simp [List.append_assoc]

@[simp] theorem render_nil : render [] = [47] := rfl

/-- A rendered path grows by a slash and the name. -/
theorem render_append_singleton (p : Path) (n : Name) :
    render (p ++ [n]) = if p = [] then 47 :: n else render p ++ 47 :: n := by
  by_cases hp : p = []
  · simp [hp, render]
  · simp [hp, render, intercalate_append_singleton [47] p n hp]

theorem mem_render {p : Path} {b : UInt8} (hb : b ∈ render p) : b = 47 ∨ ∃ n ∈ p, b ∈ n := by
  induction p using List.reverseRecOn with
  | nil => exact Or.inl (by simpa using hb)
  | append_singleton p n ih =>
      have hn : b ∈ 47 :: n → b = 47 ∨ ∃ m ∈ p ++ [n], b ∈ m := by
        intro h
        cases List.mem_cons.mp h with
        | inl h => exact Or.inl h
        | inr h => exact Or.inr ⟨n, by simp, h⟩
      rw [render_append_singleton] at hb
      split_ifs at hb
      · exact hn hb
      · cases List.mem_append.mp hb with
        | inl h =>
            cases ih h with
            | inl h => exact Or.inl h
            | inr h =>
                obtain ⟨m, hm, hbm⟩ := h
                exact Or.inr ⟨m, List.mem_append_left _ hm, hbm⟩
        | inr h => exact hn h

theorem zero_not_mem_render {p : Path} (hp : ∀ n ∈ p, Plain n) : 0 ∉ render p := by
  intro h
  cases mem_render h with
  | inl h => exact absurd h (by decide)
  | inr h =>
      obtain ⟨n, hn, h0⟩ := h
      exact (hp n hn).2.2.2.2 h0

/-- Two paths with plain names have different texts. -/
theorem render_injective {p q : Path} (hp : ∀ n ∈ p, Plain n) (hq : ∀ n ∈ q, Plain n)
    (h : render p = render q) : p = q := by
  have hnil : ∀ r : Path, (∀ n ∈ r, Plain n) → render r = [47] → r = [] := by
    intro r hr h
    cases r with
    | nil => rfl
    | cons n r =>
        have hn := (hr n (by simp)).1
        cases n with
        | nil => exact absurd rfl hn
        | cons b n =>
            cases r <;> simp [render, List.intercalate_cons_cons] at h
  by_cases hp0 : p = []
  · rw [hp0, render_nil] at h
    rw [hp0, hnil q hq h.symm]
  by_cases hq0 : q = []
  · rw [hq0, render_nil] at h
    exact absurd (hnil p hp h) hp0
  have hi : [47].intercalate p = [47].intercalate q := (List.cons.inj h).2
  rw [← components_intercalate hp0 fun n hn => (hp n hn).2.2.2.1, hi,
    components_intercalate hq0 fun n hn => (hq n hn).2.2.2.1]

/-! ## Following components -/

variable {t : FileTree}

/-- Plain names that lead through directories are followed one by one. -/
theorem scan_through {follow : Bool} {cur a : Path} (ha : t.entry (cur ++ a) = some .dir)
    (rest : List Name) (hplain : ∀ n ∈ a, Plain n) :
    scan t follow cur (a ++ rest) = scan t follow (cur ++ a) rest := by
  induction a generalizing cur with
  | nil => simp
  | cons n a ih =>
      have hcur : t.entry cur = some .dir :=
        t.dir_of_below (q := n :: a) (by simp) (by simp [ha])
      have ha' : t.entry ((cur ++ [n]) ++ a) = some .dir := by simpa using ha
      have hn : t.entry (cur ++ [n]) = some .dir := by
        cases a with
        | nil => simpa using ha
        | cons m a => exact t.dir_of_below (q := m :: a) (by simp) (by rw [ha']; simp)
      have hp := hplain n (by simp)
      rw [List.cons_append, scan]
      simp only [hcur, if_true, hp.1, hp.2.1, hp.2.2.1, or_self, if_false, hn]
      rw [ih ha' fun m hm => hplain m (by simp [hm])]
      simp

/-- The last name is not followed further, unless it is a link. -/
theorem scan_singleton {follow : Bool} {cur : Path} {n : Name} (hcur : t.entry cur = some .dir)
    (hn : Plain n) (hlink : follow = true → ∀ g, t.entry (cur ++ [n]) ≠ some (.link g)) :
    scan t follow cur [n] = .found (cur ++ [n]) := by
  rw [scan]
  simp only [hcur, if_true, hn.1, hn.2.1, hn.2.2.1, or_self, if_false, true_and]
  cases h : t.entry (cur ++ [n]) with
  | none => rfl
  | some x =>
      cases x with
      | link g =>
          cases follow with
          | false => rfl
          | true => exact absurd h (hlink rfl g)
      | dir => rfl
      | file i => rfl
      | special k => rfl

/-- No link lies on the way to `p`, nor at `p`. -/
def Direct (t : FileTree) (p : Path) : Prop := ∀ r, r <+: p → ∀ g, t.entry r ≠ some (.link g)

theorem direct_of_noLinks (hl : t.NoLinks) (p : Path) : Direct t p := fun r _ g => hl r g

/-- Without links on the way, names that do not lead through directories end in an error. -/
theorem scan_blocked {follow : Bool} {cur a : Path} {rest : List Name}
    (hl : ∀ r, r <+: a → ∀ g, t.entry (cur ++ r) ≠ some (.link g))
    (ha : t.entry (cur ++ a) ≠ some .dir) (hrest : rest ≠ []) (hplain : ∀ n ∈ a, Plain n) :
    ∃ e, scan t follow cur (a ++ rest) = .fail e := by
  induction a generalizing cur with
  | nil =>
      cases rest with
      | nil => exact absurd rfl hrest
      | cons c rest =>
          rw [List.append_nil] at ha
          simp [scan, ha]
  | cons n a ih =>
      have hp := hplain n (by simp)
      rw [List.cons_append, scan]
      simp only [hp.1, hp.2.1, hp.2.2.1, or_self, if_false]
      by_cases hcur : t.entry cur = some .dir
      · simp only [hcur, if_true]
        have hne : a ++ rest ≠ [] := by simp [hrest]
        have hlinks : ∀ r, r <+: a → ∀ g, t.entry (cur ++ [n] ++ r) ≠ some (.link g) := by
          intro r hr g
          rw [List.append_assoc]
          exact hl (n :: r) (List.cons_prefix_cons.mpr ⟨rfl, hr⟩) g
        have ih' := @ih (cur ++ [n]) hlinks (by simpa using ha) fun m hm => hplain m (by simp [hm])
        cases h : t.entry (cur ++ [n]) with
        | none => simp [hne]
        | some x =>
            cases x with
            | link g => exact absurd h (hl [n] ⟨a, rfl⟩ g)
            | dir => exact ih'
            | file i => exact ih'
            | special k => exact ih'
      · simp [hcur]

theorem scan_ne_link {follow : Bool} (hl : t.NoLinks) {cur : Path} {cs : List Name}
    {d : Path} {g : Bytes} {rest : List Name} : scan t follow cur cs ≠ .link d g rest := by
  induction cs generalizing cur with
  | nil => simp [scan]
  | cons c cs ih =>
      rw [scan]
      by_cases hcur : t.entry cur = some .dir
      · by_cases h1 : c = [] ∨ c = [46]
        · simpa [hcur, h1] using ih
        by_cases h2 : c = [46, 46]
        · simpa [hcur, h2] using ih
        simp only [hcur, h1, h2, if_true, if_false]
        cases h : t.entry (cur ++ [c]) with
        | none => by_cases hcs : cs = [] <;> simp [hcs]
        | some x =>
            cases x with
            | link g => exact absurd h (hl _ g)
            | dir => exact ih
            | file i => exact ih
            | special k => exact ih
      · simp [hcur]

/-- Without links a walk is one scan. -/
theorem walk_eq_scan {follow : Bool} (hl : t.NoLinks) (n : ℕ) (cur : Path) (cs : List Name) :
    (∃ p, scan t follow cur cs = .found p ∧ walk t follow n cur cs = .ok p) ∨
      ∃ e, scan t follow cur cs = .fail e ∧ walk t follow n cur cs = .error e := by
  unfold walk
  cases h : scan t follow cur cs with
  | found p => exact Or.inl ⟨p, rfl, rfl⟩
  | fail e => exact Or.inr ⟨e, rfl, rfl⟩
  | link d g rest => exact absurd h (scan_ne_link hl)

/-! ## Rendered texts lead to their paths -/

/-- **A rendered path leads to itself** when it lies in a directory and does not end in a
link that has to be followed. -/
theorem locate_render {follow : Bool} {p : Path} {n : Name} (hp : t.entry p = some .dir)
    (hn : Plain n) (hlink : follow = true → ∀ g, t.entry (p ++ [n]) ≠ some (.link g)) :
    locate t follow (render (p ++ [n])) = .ok (p ++ [n]) := by
  have hplain : ∀ m ∈ p ++ [n], Plain m := by
    intro m hm
    cases List.mem_append.mp hm with
    | inl h => exact t.plain_of_entry (by simp [hp]) m h
    | inr h => exact List.mem_singleton.mp h ▸ hn
  have hscan : scan t follow [] (p ++ [n]) = .found (p ++ [n]) := by
    rw [scan_through (by simpa using hp) [n] fun m hm => hplain m (by simp [hm])]
    exact scan_singleton (by simpa using hp) hn hlink
  unfold locate
  rw [cstr_of_zero_not_mem (zero_not_mem_render hplain), render]
  simp only
  rw [components_intercalate (by simp) fun m hm => (hplain m hm).2.2.2.1, walk, hscan]

theorem locate_render_nil {follow : Bool} : locate t follow (render []) = .ok [] := by
  have h : components [] = [[]] := rfl
  simp [locate, cstr, render, h, walk, scan, t.root_dir]

/-- Without links on the way a rendered path that does not lie in a directory leads nowhere. -/
theorem locate_render_error {follow : Bool} {p : Path} (hl : Direct t p) {n : Name}
    (hp : t.entry p ≠ some .dir) (hplain : ∀ m ∈ p ++ [n], Plain m) :
    ∃ e, locate t follow (render (p ++ [n])) = .error e := by
  have hscan := @scan_blocked t follow [] p [n] (fun r hr g => hl r hr g)
    (by simpa using hp) (by simp) fun m hm => hplain m (by simp [hm])
  obtain ⟨e, he⟩ := hscan
  refine ⟨e, ?_⟩
  unfold locate
  rw [cstr_of_zero_not_mem (zero_not_mem_render hplain), render]
  simp only
  rw [components_intercalate (by simp) fun m hm => (hplain m hm).2.2.2.1, walk, he]

/-- Without links the calls see exactly the entry of a rendered path. -/
theorem node_render {follow : Bool} (hl : t.NoLinks) {p : Path} (hplain : ∀ m ∈ p, Plain m) :
    (∀ x, t.entry p = some x → node t follow (render p) = .ok (p, x)) ∧
      (t.entry p = none → ∃ e, node t follow (render p) = .error e) := by
  cases List.eq_nil_or_concat p with
  | inl h =>
      subst h
      have hloc : locate t follow (render []) = .ok [] := locate_render_nil
      constructor
      · intro x hx
        rw [node, hloc]
        simp [hx]
      · intro hx
        rw [t.root_dir] at hx
        simp at hx
  | inr h =>
      obtain ⟨q, n, rfl⟩ := h
      rw [List.concat_eq_append] at *
      by_cases hq : t.entry q = some .dir
      · have hloc := @locate_render t follow _ _ hq (hplain n (by simp)) fun _ g => hl _ g
        refine ⟨fun x hx => by simp [node, hloc, hx], fun hx => ⟨.enoent, by simp [node, hloc, hx]⟩⟩
      · obtain ⟨e, he⟩ := @locate_render_error t follow _ (direct_of_noLinks hl _) _ hq hplain
        have hnone := t.entry_below_eq_none (q := [n]) (by simp) hq
        exact ⟨fun x hx => by simp [hnone] at hx, fun _ => ⟨e, by simp [node, he]⟩⟩

/-! ## Texts of any origin -/

/-- Without links a scan ends where it started, at a directory, or at its last component in
a directory. -/
theorem scan_found {follow : Bool} (hl : t.NoLinks) {cur : Path} {cs : List Name} {q : Path}
    (hcur : t.entry cur = some .dir) (h : scan t follow cur cs = .found q) :
    t.entry q = some .dir ∨ ∃ d n, q = d ++ [n] ∧ t.entry d = some .dir ∧ cs.getLast? = some n ∧
      ¬ (n = [] ∨ n = [46]) ∧ n ≠ [46, 46] := by
  induction cs generalizing cur with
  | nil =>
      simp only [scan, Stop.found.injEq] at h
      exact Or.inl (h ▸ hcur)
  | cons c cs ih =>
      have hlast : ∀ {n : Name}, cs.getLast? = some n → (c :: cs).getLast? = some n := by
        intro n hn
        cases cs with
        | nil => simp at hn
        | cons d ds => simpa using hn
      have lift : ∀ {cur' : Path}, t.entry cur' = some .dir → scan t follow cur' cs = .found q →
          t.entry q = some .dir ∨ ∃ d n, q = d ++ [n] ∧ t.entry d = some .dir ∧
            (c :: cs).getLast? = some n ∧ ¬ (n = [] ∨ n = [46]) ∧ n ≠ [46, 46] := by
        intro cur' hc' h'
        cases ih hc' h' with
        | inl h => exact Or.inl h
        | inr h =>
            obtain ⟨d, n, hq, hd, hn, h1, h2⟩ := h
            exact Or.inr ⟨d, n, hq, hd, hlast hn, h1, h2⟩
      rw [scan] at h
      by_cases h1 : c = [] ∨ c = [46]
      · simp only [hcur, h1, if_true] at h
        exact lift hcur h
      by_cases h2 : c = [46, 46]
      · simp only [hcur, h2, if_true, reduceCtorEq, List.cons.injEq, and_false, or_self,
          if_false] at h
        refine lift ?_ h
        cases List.eq_nil_or_concat cur with
        | inl h0 => simpa [h0] using t.root_dir
        | inr h0 =>
            obtain ⟨d, n, rfl⟩ := h0
            rw [List.concat_eq_append] at *
            simpa using t.closed d n (by simp [hcur])
      simp only [hcur, h1, h2, if_true, if_false] at h
      -- a node that is no directory must be the last component
      have stop : ∀ {x : Node}, t.entry (cur ++ [c]) = some x → x ≠ .dir →
          scan t follow (cur ++ [c]) cs = .found q →
          t.entry q = some .dir ∨ ∃ d n, q = d ++ [n] ∧ t.entry d = some .dir ∧
            (c :: cs).getLast? = some n ∧ ¬ (n = [] ∨ n = [46]) ∧ n ≠ [46, 46] := by
        intro x he hx h'
        cases cs with
        | nil =>
            simp only [scan, Stop.found.injEq] at h'
            exact Or.inr ⟨cur, c, h'.symm, hcur, by simp, h1, h2⟩
        | cons d ds => simp [scan, he, hx] at h'
      cases he : t.entry (cur ++ [c]) with
      | none =>
          rw [he] at h
          by_cases h3 : cs = []
          · simp only [h3, if_true, Stop.found.injEq] at h
            exact Or.inr ⟨cur, c, h.symm, hcur, by simp [h3], h1, h2⟩
          · simp [h3] at h
      | some x =>
          rw [he] at h
          cases x with
          | link g => exact absurd he (hl _ g)
          | dir => exact lift he h
          | file i => exact stop he (by simp) h
          | special k => exact stop he (by simp) h

/-- **Without links a text leads to a directory, or to its own last component in a
directory.** -/
theorem locate_last {follow : Bool} (hl : t.NoLinks) {s : Bytes} {q : Path}
    (h : locate t follow s = .ok q) :
    t.entry q = some .dir ∨ ∃ d n, q = d ++ [n] ∧ t.entry d = some .dir ∧ Plain n ∧
      (components (cstr s)).getLast? = some n := by
  unfold locate at h
  split at h
  next rest hs =>
    cases @walk_eq_scan t follow hl maxLinks [] (components rest) with
    | inr hw =>
        obtain ⟨e, -, he⟩ := hw
        simp [he] at h
    | inl hw =>
        obtain ⟨p, hscan, hp⟩ := hw
        rw [hp, Except.ok.injEq] at h
        subst h
        cases scan_found hl t.root_dir hscan with
        | inl h => exact Or.inl h
        | inr h =>
            obtain ⟨d, n, hq, hd, hn, h1, h2⟩ := h
            have hzero : 0 ∉ rest := fun h0 => zero_not_mem_cstr s (by simp [hs, h0])
            have hplain := plain_component hzero (List.mem_of_getLast? hn) h1 h2
            have hcomp : components (47 :: rest) = components [] ++ components rest :=
              components_append_slash [] rest
            refine Or.inr ⟨d, n, hq, hd, hplain, ?_⟩
            rw [hs, hcomp, List.getLast?_append_of_ne_nil _ (components_ne_nil rest)]
            exact hn
  next => simp at h

/-- A path that is occupied, and not by a link. -/
def Solid (t : FileTree) (p : Path) : Prop := ∃ x, t.entry p = some x ∧ ∀ g, x ≠ .link g

theorem solid_of_dir {p : Path} (h : t.entry p = some .dir) : Solid t p := ⟨.dir, h, by simp⟩

/-- A following scan stops at a link only inside the walk: the path it finds is no link,
and a link it meets lies in a directory. -/
theorem scan_follow {cur : Path} {cs : List Name} (hcur : Solid t cur) :
    (∀ q, scan t true cur cs = .found q → ∀ g, t.entry q ≠ some (.link g)) ∧
      ∀ d g rest, scan t true cur cs = .link d g rest → t.entry d = some .dir := by
  induction cs generalizing cur with
  | nil =>
      obtain ⟨x, hx, hg⟩ := hcur
      refine ⟨fun q h g => ?_, fun d g rest h => by simp [scan] at h⟩
      simp only [scan, Stop.found.injEq] at h
      simp [← h, hx, hg]
  | cons c cs ih =>
      rw [scan]
      by_cases hdir : t.entry cur = some .dir
      · by_cases h1 : c = [] ∨ c = [46]
        · simpa [hdir, h1] using ih hcur
        by_cases h2 : c = [46, 46]
        · have hup : Solid t cur.dropLast := by
            cases List.eq_nil_or_concat cur with
            | inl hc => exact solid_of_dir (by simp [hc, t.root_dir])
            | inr hc =>
                obtain ⟨d, n, rfl⟩ := hc
                rw [List.concat_eq_append] at *
                exact solid_of_dir (by simpa using t.closed d n (by simp [hdir]))
          simpa [hdir, h2] using ih hup
        simp only [hdir, h1, h2, if_true, if_false]
        cases he : t.entry (cur ++ [c]) with
        | none =>
            by_cases hcs : cs = []
            · simp [hcs, he]
            · simp [hcs]
        | some x =>
            cases x with
            | link g => simp [hdir]
            | dir => exact ih (solid_of_dir he)
            | file i => exact ih ⟨_, he, by simp⟩
            | special k => exact ih ⟨_, he, by simp⟩
      · simp [hdir]

/-- A following walk does not end at a link. -/
theorem walk_follow {n : ℕ} {cur : Path} {cs : List Name} (hcur : Solid t cur) {q : Path}
    (h : walk t true n cur cs = .ok q) : ∀ g, t.entry q ≠ some (.link g) := by
  induction n generalizing cur cs with
  | zero =>
      unfold walk at h
      cases hs : scan t true cur cs with
      | found p =>
          simp only [hs, Except.ok.injEq] at h
          exact h ▸ (scan_follow hcur).1 p hs
      | fail e => simp [hs] at h
      | link d g rest => simp [hs] at h
  | succ n ih =>
      unfold walk at h
      cases hs : scan t true cur cs with
      | found p =>
          simp only [hs, Except.ok.injEq] at h
          exact h ▸ (scan_follow hcur).1 p hs
      | fail e => simp [hs] at h
      | link d g rest =>
          have hd := solid_of_dir ((scan_follow hcur).2 d g rest hs)
          simp only [hs] at h
          split at h
          · exact ih (solid_of_dir t.root_dir) h
          · exact ih hd h

/-- **A followed text never ends at a link.** -/
theorem node_follow_not_link {s : Bytes} {p : Path} {x : Node} (h : node t true s = .ok (p, x)) :
    t.entry p = some x ∧ ∀ g, x ≠ .link g := by
  unfold node at h
  cases hloc : locate t true s with
  | error e => simp [hloc] at h
  | ok q =>
      cases he : t.entry q with
      | none => simp [hloc, he] at h
      | some y =>
          simp only [hloc, he, Except.ok.injEq, Prod.mk.injEq] at h
          obtain ⟨rfl, rfl⟩ := h
          refine ⟨he, fun g hg => ?_⟩
          unfold locate at hloc
          split at hloc
          · exact walk_follow (solid_of_dir t.root_dir) hloc g (hg ▸ he)
          · simp at hloc

end CloudStore.Library.Posix
