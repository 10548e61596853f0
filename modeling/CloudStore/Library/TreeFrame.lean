import CloudStore.Library.PathWalk
import Mathlib.Data.Set.Basic

/-!
# What file calls leave alone

`Keeps K N t t'` says that on the way from `t` to `t'` the entries at the paths of `K` and
the bytes of the files there are unchanged, that no directory has appeared at a path of
`N` and no link anywhere, and that inodes are not used again. Each call keeps `K` and `N`
if the path its text leads to stays clear of them.
-/

set_option autoImplicit false

namespace CloudStore.Library

/-- The step from `t` to `t'` leaves the paths of `K` alone and makes no directory at a
path of `N`. -/
structure Keeps (K N : Set Path) (t t' : FileTree) : Prop where
  links : t.NoLinks → t'.NoLinks
  fresh : t.fresh ≤ t'.fresh
  entry : ∀ p ∈ K, t'.entry p = t.entry p
  data : ∀ p ∈ K, ∀ i, t.entry p = some (.file i) → t'.data i = t.data i
  dirs : ∀ p ∈ N, t'.entry p = some .dir → t.entry p = some .dir

namespace Keeps

variable {K N : Set Path} {t t' t'' : FileTree}

theorem refl (t : FileTree) : Keeps K N t t :=
  ⟨id, Nat.le_refl _, fun _ _ => rfl, fun _ _ _ _ => rfl, fun _ _ h => h⟩

theorem trans (h : Keeps K N t t') (h' : Keeps K N t' t'') : Keeps K N t t'' where
  links := fun hl => h'.links (h.links hl)
  fresh := Nat.le_trans h.fresh h'.fresh
  entry := fun p hp => (h'.entry p hp).trans (h.entry p hp)
  data := fun p hp i hi =>
    (h'.data p hp i ((h.entry p hp).trans hi)).trans (h.data p hp i hi)
  dirs := fun p hp hdir => h.dirs p hp (h'.dirs p hp hdir)

theorem mono {L : Set Path} (h : Keeps K N t t') (hL : L ⊆ K) : Keeps L N t t' where
  links := h.links
  fresh := h.fresh
  entry := fun p hp => h.entry p (hL hp)
  data := fun p hp => h.data p (hL hp)
  dirs := h.dirs

/-- The files of `K` keep their bytes. -/
theorem fileAt (h : Keeps K N t t') {p : Path} (hp : p ∈ K) : t'.fileAt p = t.fileAt p := by
  unfold FileTree.fileAt
  rw [h.entry p hp]
  cases he : t.entry p with
  | none => rfl
  | some x =>
      cases x with
      | file i => simp [h.data p hp i he]
      | dir => rfl
      | link g => rfl
      | special k => rfl

theorem add {p : Path} {n : Name} {node : Node} (hdir hfree hplain hino)
    (hnode : ∀ g, node ≠ .link g) (hK : p ++ [n] ∉ K) (hN : node = .dir → p ++ [n] ∉ N) :
    Keeps K N t (t.add p n node hdir hfree hplain hino) where
  links := by
    intro hl q g hq
    by_cases hqp : q = p ++ [n]
    · subst hqp
      simp [hnode g] at hq
    · rw [FileTree.add_entry, Function.update_of_ne hqp] at hq
      exact hl q g hq
  fresh := Nat.le_succ _
  entry := by
    intro q hq
    have hne : q ≠ p ++ [n] := fun h => hK (h ▸ hq)
    rw [FileTree.add_entry, Function.update_of_ne hne]
  data := fun q _ i hi => t.add_data_of_lt hdir hfree hplain hino (t.ino_lt q i hi)
  dirs := by
    intro q hq hd
    by_cases hqp : q = p ++ [n]
    · subst hqp
      rw [FileTree.add_entry, Function.update_self, Option.some.injEq] at hd
      exact absurd hq (hN hd)
    · rwa [FileTree.add_entry, Function.update_of_ne hqp] at hd

theorem drop {p : Path} (hne hleaf) (hK : p ∉ K) : Keeps K N t (t.drop p hne hleaf) where
  links := by
    intro hl q g hq
    rw [FileTree.drop_entry] at hq
    by_cases hqp : q = p
    · simp [hqp] at hq
    · rw [Function.update_of_ne hqp] at hq
      exact hl q g hq
  fresh := Nat.le_refl _
  entry := by
    intro q hq
    have hne : q ≠ p := fun h => hK (h ▸ hq)
    rw [FileTree.drop_entry, Function.update_of_ne hne]
  data := fun _ _ _ _ => rfl
  dirs := by
    intro q _ hd
    rw [FileTree.drop_entry] at hd
    by_cases hqp : q = p
    · simp [hqp] at hd
    · rwa [Function.update_of_ne hqp] at hd

theorem move {p q : Path} {n : Name} (hdir hplain hout)
    (hp : ∀ r, r ∈ K ∨ r ∈ N → ¬ p <+: r) (hq : ∀ r, r ∈ K ∨ r ∈ N → ¬ (q ++ [n]) <+: r) :
    Keeps K N t (t.move p q n hdir hplain hout) where
  links := by
    intro hl r g hr
    rw [FileTree.move_entry, FileTree.moved] at hr
    split_ifs at hr
    · exact hl _ g hr
    · exact hl _ g hr
  fresh := Nat.le_refl _
  entry := fun r hr => t.moved_of_not_prefix (hq r (Or.inl hr)) (hp r (Or.inl hr))
  data := fun _ _ _ _ => rfl
  dirs := by
    intro r hr hd
    rwa [FileTree.move_entry, t.moved_of_not_prefix (hq r (Or.inr hr)) (hp r (Or.inr hr))] at hd

/-- Writing to an inode that no path of `K` names. -/
theorem write {i : ℕ} (bytes : Bytes) (hi : ∀ p ∈ K, t.entry p ≠ some (.file i)) :
    Keeps K N t (t.write i bytes) where
  links := id
  fresh := Nat.le_refl _
  entry := fun _ _ => rfl
  data := by
    intro p hp j hj
    have hne : j ≠ i := fun h => hi p hp (h ▸ hj)
    rw [FileTree.write_data, Function.update_of_ne hne]
  dirs := fun _ _ h => h

end Keeps

/-- The step from `t` to `t'` takes entries away and does nothing else. -/
structure Sheds (t t' : FileTree) : Prop where
  entry : ∀ p, t'.entry p = t.entry p ∨ t'.entry p = none
  data : t'.data = t.data
  fresh : t'.fresh = t.fresh

namespace Sheds

variable {t t' t'' : FileTree}

theorem refl (t : FileTree) : Sheds t t := ⟨fun _ => Or.inl rfl, rfl, rfl⟩

theorem trans (h : Sheds t t') (h' : Sheds t' t'') : Sheds t t'' where
  entry := by
    intro p
    cases h'.entry p with
    | inl h' => rw [h']; exact h.entry p
    | inr h' => exact Or.inr h'
  data := h'.data.trans h.data
  fresh := h'.fresh.trans h.fresh

theorem drop {p : Path} (hne hleaf) : Sheds t (t.drop p hne hleaf) where
  entry := by
    intro q
    rw [FileTree.drop_entry]
    by_cases hqp : q = p
    · exact Or.inr (by rw [hqp, Function.update_self])
    · exact Or.inl (Function.update_of_ne hqp _ _)
  data := rfl
  fresh := rfl

/-- A file that is still there has its bytes. -/
theorem fileAt (h : Sheds t t') {p : Path} {x : Bytes} (hx : t'.fileAt p = some x) :
    t.fileAt p = some x := by
  unfold FileTree.fileAt at *
  cases h.entry p with
  | inl he => rwa [he, h.data] at hx
  | inr he => simp [he] at hx

end Sheds

/-- Every file of `t'` is a file of `t`, and no bytes have changed. -/
structure Fewer (t t' : FileTree) : Prop where
  files : ∀ p x, t'.fileAt p = some x → t.fileAt p = some x
  data : ∀ i < t.fresh, t'.data i = t.data i
  fresh : t.fresh ≤ t'.fresh

namespace Fewer

variable {t t' t'' : FileTree}

theorem refl (t : FileTree) : Fewer t t := ⟨fun _ _ h => h, fun _ _ => rfl, Nat.le_refl _⟩

theorem trans (h : Fewer t t') (h' : Fewer t' t'') : Fewer t t'' where
  files := fun p x hx => h.files p x (h'.files p x hx)
  data := fun i hi => (h'.data i (Nat.lt_of_lt_of_le hi h.fresh)).trans (h.data i hi)
  fresh := Nat.le_trans h.fresh h'.fresh

end Fewer

theorem Sheds.fewer {t t' : FileTree} (h : Sheds t t') : Fewer t t' where
  files := fun _ _ => h.fileAt
  data := fun _ _ => by rw [h.data]
  fresh := h.fresh.ge

/-- The files of `t'` are those of `t`, and no bytes have changed. -/
structure SameFiles (t t' : FileTree) : Prop where
  files : ∀ p, t'.fileAt p = t.fileAt p
  data : ∀ i < t.fresh, t'.data i = t.data i
  fresh : t.fresh ≤ t'.fresh

namespace SameFiles

variable {t t' t'' : FileTree}

theorem refl (t : FileTree) : SameFiles t t := ⟨fun _ => rfl, fun _ _ => rfl, Nat.le_refl _⟩

theorem trans (h : SameFiles t t') (h' : SameFiles t' t'') : SameFiles t t'' where
  files := fun p => (h'.files p).trans (h.files p)
  data := fun i hi => (h'.data i (Nat.lt_of_lt_of_le hi h.fresh)).trans (h.data i hi)
  fresh := Nat.le_trans h.fresh h'.fresh

theorem fewer (h : SameFiles t t') : Fewer t t' where
  files := fun p _ hx => (h.files p).symm.trans hx
  data := h.data
  fresh := h.fresh

end SameFiles

/-- The files that are in use keep their bytes, unless they are among `O`, and get no new name,
and no link appears. -/
structure Tame (O : Set ℕ) (t t' : FileTree) : Prop where
  links : t.NoLinks → t'.NoLinks
  fresh : t.fresh ≤ t'.fresh
  data : ∀ i < t.fresh, i ∉ O → t'.data i = t.data i
  names : ∀ i < t.fresh, ∀ p, t'.entry p = some (.file i) → t.entry p = some (.file i)

namespace Tame

variable {O : Set ℕ} {t t' t'' : FileTree}

theorem refl (t : FileTree) : Tame O t t :=
  ⟨id, Nat.le_refl _, fun _ _ _ => rfl, fun _ _ _ h => h⟩

theorem trans (h : Tame O t t') (h' : Tame O t' t'') : Tame O t t'' where
  links := fun hl => h'.links (h.links hl)
  fresh := Nat.le_trans h.fresh h'.fresh
  data := fun i hi hO =>
    (h'.data i (Nat.lt_of_lt_of_le hi h.fresh) hO).trans (h.data i hi hO)
  names := fun i hi p hp => h.names i hi p (h'.names i (Nat.lt_of_lt_of_le hi h.fresh) p hp)

theorem mono {P : Set ℕ} (h : Tame O t t') (hP : O ⊆ P) : Tame P t t' where
  links := h.links
  fresh := h.fresh
  data := fun i hi hi' => h.data i hi fun hO => hi' (hP hO)
  names := h.names

theorem add {p : Path} {n : Name} {node : Node} (hdir hfree hplain hino)
    (hnode : ∀ g, node ≠ .link g) : Tame O t (t.add p n node hdir hfree hplain hino) where
  links := (Keeps.add hdir hfree hplain hino hnode (Set.notMem_empty _)
    fun _ => Set.notMem_empty _ : Keeps ∅ ∅ t _).links
  fresh := Nat.le_succ _
  data := fun i hi _ => t.add_data_of_lt hdir hfree hplain hino hi
  names := by
    intro i hi q hq
    by_cases hqp : q = p ++ [n]
    · subst hqp
      rw [FileTree.add_entry, Function.update_self, Option.some.injEq] at hq
      have := hino i hq
      omega
    · rwa [FileTree.add_entry, Function.update_of_ne hqp] at hq

theorem of_sheds (h : Sheds t t') : Tame O t t' where
  links := by
    intro hl p g hp
    cases h.entry p with
    | inl he => exact hl p g (he.symm.trans hp)
    | inr he => simp [he] at hp
  fresh := h.fresh.ge
  data := fun _ _ _ => by rw [h.data]
  names := by
    intro i _ p hp
    cases h.entry p with
    | inl he => exact he.symm.trans hp
    | inr he => simp [he] at hp

theorem write {i : ℕ} (bytes : Bytes) (hi : i ∈ O) : Tame O t (t.write i bytes) where
  links := id
  fresh := Nat.le_refl _
  data := by
    intro j _ hj
    have hne : j ≠ i := fun h => hj (h ▸ hi)
    rw [FileTree.write_data, Function.update_of_ne hne]
  names := fun _ _ _ hp => hp

end Tame

/-- The files under inodes from `f` on are shorter than `n`. -/
structure Sized (f n : ℕ) (t : FileTree) : Prop where
  fresh : f ≤ t.fresh
  data : ∀ i, f ≤ i → i < t.fresh → (t.data i).length < n

namespace Sized

variable {f n : ℕ} {t t' : FileTree}

theorem of_same (h : Sized f n t) (hfresh : t'.fresh = t.fresh) (hdata : t'.data = t.data) :
    Sized f n t' where
  fresh := hfresh ▸ h.fresh
  data := fun i hi hlt => by
    rw [hdata]
    exact h.data i hi (hfresh ▸ hlt)

theorem add (h : Sized f n t) (hn : 0 < n) {p : Path} {m : Name} {node : Node}
    (hdir hfree hplain hino) : Sized f n (t.add p m node hdir hfree hplain hino) where
  fresh := Nat.le_succ_of_le h.fresh
  data := by
    intro i hi hlt
    change (Function.update t.data t.fresh [] i).length < n
    by_cases hfresh : i = t.fresh
    · rw [hfresh, Function.update_self]
      exact hn
    · have hlt : i < t.fresh + 1 := hlt
      rw [Function.update_of_ne hfresh]
      exact h.data i hi (by omega)

theorem write (h : Sized f n t) {i : ℕ} {bytes : Bytes}
    (hbytes : (t.data i).length < n → bytes.length < n) : Sized f n (t.write i bytes) where
  fresh := h.fresh
  data := by
    intro j hj hlt
    rw [FileTree.write_data]
    by_cases hji : j = i
    · subst hji
      rw [Function.update_self]
      exact hbytes (h.data j hj hlt)
    · rw [Function.update_of_ne hji]
      exact h.data j hj hlt

end Sized

namespace Posix

variable {K N : Set Path} {O : Set ℕ} {t t' : FileTree} {s s' : Bytes}

theorem vacancy_ok {follow : Bool} {p : Path} {n : Name} (h : vacancy t follow s = .ok (p, n)) :
    locate t follow s = .ok (p ++ [n]) := by
  unfold vacancy at h
  cases hloc : locate t follow s with
  | error e => simp [hloc] at h
  | ok q =>
      cases hlast : q.getLast? with
      | none => simp [hloc, hlast] at h
      | some m =>
          simp only [hloc, hlast, Except.ok.injEq, Prod.mk.injEq] at h
          obtain ⟨rfl, rfl⟩ := h
          have hne : q ≠ [] := by
            rintro rfl
            simp at hlast
          rw [List.getLast?_eq_some_getLast hne, Option.some.injEq] at hlast
          rw [← hlast, List.dropLast_append_getLast]

theorem node_ok {follow : Bool} {p : Path} {x : Node} (h : node t follow s = .ok (p, x)) :
    locate t follow s = .ok p ∧ t.entry p = some x := by
  unfold node at h
  cases hloc : locate t follow s with
  | error e => simp [hloc] at h
  | ok q =>
      cases he : t.entry q with
      | none => simp [hloc, he] at h
      | some y =>
          simp only [hloc, he, Except.ok.injEq, Prod.mk.injEq] at h
          obtain ⟨rfl, rfl⟩ := h
          exact ⟨rfl, he⟩

theorem mkdir_keeps (h : mkdir t s = .ok t')
    (hK : ∀ q, locate t false s = .ok q → t.entry q = none → q ∉ K ∧ q ∉ N) :
    Keeps K N t t' := by
  unfold mkdir at h
  cases hv : vacancy t false s with
  | error e => simp [hv] at h
  | ok pn =>
      obtain ⟨p, n⟩ := pn
      simp only [hv] at h
      split_ifs at h with hfree hdir
      rw [Except.ok.injEq] at h
      subst h
      have hclear := hK _ (vacancy_ok hv) hfree
      exact Keeps.add _ _ _ _ (by simp) hclear.1 fun _ => hclear.2

/-- `mkdir` takes no entry away. -/
theorem mkdir_grows (h : mkdir t s = .ok t') {q : Path} {x : Node} (hq : t.entry q = some x) :
    t'.entry q = some x := by
  unfold mkdir at h
  cases hv : vacancy t false s with
  | error e => simp [hv] at h
  | ok pn =>
      obtain ⟨p, n⟩ := pn
      simp only [hv] at h
      split_ifs at h with hfree hdir
      rw [Except.ok.injEq] at h
      subst h
      have hne : q ≠ p ++ [n] := by
        rintro rfl
        rw [hfree] at hq
        simp at hq
      simpa [FileTree.add, Function.update_of_ne hne] using hq

/-- `mkdir` makes a directory, where there was nothing. -/
theorem mkdir_entry (h : mkdir t s = .ok t') (r : Path) :
    t'.entry r = t.entry r ∨ t'.entry r = some .dir := by
  unfold mkdir at h
  cases hv : vacancy t false s with
  | error e => simp [hv] at h
  | ok pn =>
      obtain ⟨p, n⟩ := pn
      simp only [hv] at h
      split_ifs at h with hfree hdir
      rw [Except.ok.injEq] at h
      subst h
      rw [FileTree.add_entry]
      by_cases hr : r = p ++ [n]
      · right
        rw [hr, Function.update_self]
      · left
        rw [Function.update_of_ne hr]

/-- `mkdir` makes no file. -/
theorem mkdir_sameFiles (h : mkdir t s = .ok t') : SameFiles t t' := by
  unfold mkdir at h
  cases hv : vacancy t false s with
  | error e => simp [hv] at h
  | ok pn =>
      obtain ⟨p, n⟩ := pn
      simp only [hv] at h
      split_ifs at h with hfree hdir
      rw [Except.ok.injEq] at h
      subst h
      refine ⟨fun q => ?_, fun i hi => t.add_data_of_lt _ _ _ _ hi, Nat.le_succ _⟩
      unfold FileTree.fileAt
      by_cases hqp : q = p ++ [n]
      · simp [hqp, hfree]
      · rw [FileTree.add_entry, Function.update_of_ne hqp]
        cases he : t.entry q with
        | none => rfl
        | some y =>
            cases y with
            | file i => simp only [t.add_data_of_lt _ _ _ _ (t.ino_lt q i he)]
            | dir => rfl
            | link g => rfl
            | special k => rfl

/-- `open` with `O_CREAT` on a free name makes a file under the fresh inode. -/
theorem openCreate_free {p : Path} {i : ℕ} (hloc : ∀ q, locate t true s = .ok q → q = p)
    (hfree : t.entry p = none) (h : openCreate t s = .ok (i, t')) :
    i = t.fresh ∧ t'.entry = Function.update t.entry p (some (.file i)) ∧
      t'.data = Function.update t.data i [] ∧ t'.fresh = t.fresh + 1 := by
  unfold openCreate at h
  cases hv : vacancy t true s with
  | error e => simp [hv] at h
  | ok qn =>
      obtain ⟨q, n⟩ := qn
      obtain rfl := hloc _ (vacancy_ok hv)
      simp only [hv] at h
      split at h
      next j he => simp [hfree] at he
      next => simp at h
      next => simp at h
      next he =>
        split_ifs at h with hdir
        simp only [Except.ok.injEq, Prod.mk.injEq] at h
        obtain ⟨rfl, rfl⟩ := h
        exact ⟨rfl, rfl, rfl, rfl⟩

/-- `open` with `O_CREAT` on a file that is there changes nothing. -/
theorem openCreate_there {p : Path} {i j : ℕ} (hloc : ∀ q, locate t true s = .ok q → q = p)
    (he : t.entry p = some (.file i)) (h : openCreate t s = .ok (j, t')) : j = i ∧ t' = t := by
  unfold openCreate at h
  cases hv : vacancy t true s with
  | error e => simp [hv] at h
  | ok qn =>
      obtain ⟨q, n⟩ := qn
      obtain rfl := hloc _ (vacancy_ok hv)
      simp only [hv] at h
      split at h
      next k hk =>
        rw [he, Option.some.injEq, Node.file.injEq] at hk
        simp only [Except.ok.injEq, Prod.mk.injEq] at h
        exact ⟨h.1.symm.trans hk.symm, h.2.symm⟩
      next => simp at h
      next => simp at h
      next hnone => simp [he] at hnone

/-- `open` with `O_CREAT` opens a file that is there, or one where there was nothing. -/
theorem openCreate_place {p : Path} {j : ℕ}
    (hloc : ∀ r, locate t true s = .ok r → r = p) (h : openCreate t s = .ok (j, t')) :
    (t.entry p = some (.file j) ∧ t' = t) ∨
      (t.entry p = none ∧ j = t.fresh ∧ t'.entry = Function.update t.entry p (some (.file j)) ∧
        t'.data = Function.update t.data j []) := by
  unfold openCreate at h
  cases hv : vacancy t true s with
  | error e => simp [hv] at h
  | ok qn =>
      obtain ⟨q, n⟩ := qn
      obtain rfl := hloc _ (vacancy_ok hv)
      simp only [hv] at h
      split at h
      next k hk =>
        simp only [Except.ok.injEq, Prod.mk.injEq] at h
        exact Or.inl ⟨h.1 ▸ hk, h.2.symm⟩
      next => simp at h
      next => simp at h
      next hnone =>
        split_ifs at h
        simp only [Except.ok.injEq, Prod.mk.injEq] at h
        obtain ⟨rfl, rfl⟩ := h
        exact Or.inr ⟨hnone, rfl, rfl, rfl⟩

/-- `open` with `O_CREAT` opens what is a file, or a free name in a directory. -/
theorem openCreate_opens {p : Path} {n : Name} (hloc : locate t true s = .ok (p ++ [n]))
    (hdir : t.entry p = some .dir) (hn : Plain n)
    (h : t.entry (p ++ [n]) = none ∨ ∃ i, t.entry (p ++ [n]) = some (.file i)) :
    ∃ it, openCreate t s = .ok it := by
  have hv : vacancy t true s = .ok (p, n) := by simp [vacancy, hloc]
  unfold openCreate
  simp only [hv]
  cases h with
  | inl hnone =>
      split
      next i he => simp [hnone] at he
      next he => simp [hnone] at he
      next x _ _ he => simp [hnone] at he
      next => exact ⟨_, dif_pos ⟨hdir, hn⟩⟩
  | inr hfile =>
      obtain ⟨i, hi⟩ := hfile
      split
      next => exact ⟨_, rfl⟩
      next he => simp [hi] at he
      next x h₁ _ he => exact absurd (Option.some.inj (he.symm.trans hi)) (h₁ i)
      next he => simp [hi] at he

theorem unlink_keeps (h : unlink t s = .ok t')
    (hK : ∀ q, locate t false s = .ok q → t.entry q ≠ some .dir → q ∉ K) : Keeps K N t t' := by
  unfold unlink at h
  cases hn : node t false s with
  | error e => simp [hn] at h
  | ok px =>
      obtain ⟨p, x⟩ := px
      have hp : x ≠ .dir → p ∉ K := fun hx =>
        hK p (node_ok hn).1 fun he => hx (Option.some.inj ((node_ok hn).2.symm.trans he))
      cases x <;> simp only [hn, reduceCtorEq] at h <;> split_ifs at h <;>
        · rw [Except.ok.injEq] at h
          subst h
          exact Keeps.drop _ _ (hp (by simp))

theorem unlink_sheds (h : unlink t s = .ok t') : Sheds t t' := by
  unfold unlink at h
  cases hn : node t false s with
  | error e => simp [hn] at h
  | ok px =>
      obtain ⟨p, x⟩ := px
      cases x <;> simp only [hn, reduceCtorEq] at h <;> split_ifs at h <;>
        · rw [Except.ok.injEq] at h
          subst h
          exact Sheds.drop _ _

/-- `unlink` on the text of anything but a directory removes it. -/
theorem unlink_entry {p : Path} {x : Node} (hloc : locate t false s = .ok p)
    (he : t.entry p = some x) (hx : x ≠ .dir) :
    ∃ t', unlink t s = .ok t' ∧ t'.entry = Function.update t.entry p none := by
  have hnode : node t false s = .ok (p, x) := by simp [node, hloc, he]
  have hne : p ≠ [] := by
    rintro rfl
    rw [t.root_dir, Option.some.injEq] at he
    exact hx he.symm
  have hleaf : t.children p = [] := by
    rw [List.eq_nil_iff_forall_not_mem]
    intro n hn
    have hdir := t.closed p n ((t.mem_children p n).mp hn)
    rw [he, Option.some.injEq] at hdir
    exact hx hdir
  unfold unlink
  simp only [hnode]
  cases x with
  | dir => exact absurd rfl hx
  | file i => exact ⟨_, dif_pos ⟨hne, hleaf⟩, rfl⟩
  | link g => exact ⟨_, dif_pos ⟨hne, hleaf⟩, rfl⟩
  | special k => exact ⟨_, dif_pos ⟨hne, hleaf⟩, rfl⟩

/-- `unlink` on the text of a file removes it. -/
theorem unlink_file {p : Path} {i : ℕ} (hloc : locate t false s = .ok p)
    (he : t.entry p = some (.file i)) :
    ∃ t', unlink t s = .ok t' ∧ t'.entry = Function.update t.entry p none :=
  unlink_entry hloc he (by simp)

/-- After `unlink` on the text of a path that is no directory, nothing is there. -/
theorem unlink_gone (hl : t.NoLinks) {p : Path} (hplain : ∀ n ∈ p, Plain n)
    (hp : t.entry p ≠ some .dir) :
    (∃ t', unlink t (render p) = .ok t' ∧ t'.entry p = none) ∨
      (∃ e, unlink t (render p) = .error e) ∧ t.entry p = none := by
  cases he : t.entry p with
  | none =>
      right
      obtain ⟨e, hnode⟩ := (@node_render t false hl _ hplain).2 he
      exact ⟨⟨e, by simp [unlink, hnode]⟩, rfl⟩
  | some x =>
      left
      have hnode := (@node_render t false hl _ hplain).1 x he
      have hx : x ≠ .dir := fun h => hp (h ▸ he)
      obtain ⟨t', ht, hentry⟩ := unlink_entry (node_ok hnode).1 he hx
      exact ⟨t', ht, by rw [hentry, Function.update_self]⟩

theorem rmdir_keeps (h : rmdir t s = .ok t') (hK : ∀ q, locate t false s = .ok q → q ∉ K) :
    Keeps K N t t' := by
  unfold rmdir at h
  cases hn : node t false s with
  | error e => simp [hn] at h
  | ok px =>
      obtain ⟨p, x⟩ := px
      have hp := hK p (node_ok hn).1
      cases x <;> simp only [hn, reduceCtorEq] at h
      split_ifs at h
      rw [Except.ok.injEq] at h
      subst h
      exact Keeps.drop _ _ hp

theorem rename_keeps (h : rename t s s' = .ok t')
    (hs : ∀ q, locate t false s = .ok q → ∀ r, r ∈ K ∨ r ∈ N → ¬ q <+: r)
    (hs' : ∀ q, locate t false s' = .ok q → ∀ r, r ∈ K ∨ r ∈ N → ¬ q <+: r) :
    Keeps K N t t' := by
  unfold rename at h
  cases hn : node t false s with
  | error e => simp [hn] at h
  | ok px =>
      obtain ⟨p, x⟩ := px
      cases hv : vacancy t false s' with
      | error e => simp [hn, hv] at h
      | ok qn =>
          obtain ⟨q, n⟩ := qn
          simp only [hn, hv] at h
          split_ifs at h
          rw [Except.ok.injEq] at h
          subst h
          exact Keeps.move _ _ _ (hs p (node_ok hn).1) (hs' _ (vacancy_ok hv))

/-- Opening a file for writing keeps `K`, and the inode is in use and named by no path of
`K`. -/
theorem openCreate_keeps {i : ℕ} (h : openCreate t s = .ok (i, t'))
    (hK : ∀ q, locate t true s = .ok q → t.entry q ≠ some .dir → q ∉ K) :
    Keeps K N t t' ∧ i < t'.fresh ∧ ∀ p ∈ K, t'.entry p ≠ some (.file i) := by
  unfold openCreate at h
  cases hv : vacancy t true s with
  | error e => simp [hv] at h
  | ok pn =>
      obtain ⟨p, n⟩ := pn
      have hq := hK _ (vacancy_ok hv)
      simp only [hv] at h
      split at h
      next j he =>
        have hq := hq (by simp [he])
        simp only [Except.ok.injEq, Prod.mk.injEq] at h
        obtain ⟨rfl, rfl⟩ := h
        refine ⟨Keeps.refl _, t.ino_lt _ _ he, fun r hr hri => hq ?_⟩
        rwa [t.ino_inj _ _ _ he hri]
      next => simp at h
      next => simp at h
      next he =>
        have hq := hq (by simp [he])
        split_ifs at h with hdir
        simp only [Except.ok.injEq, Prod.mk.injEq] at h
        obtain ⟨rfl, rfl⟩ := h
        refine ⟨Keeps.add _ _ _ _ (by simp) hq (by simp), Nat.lt_succ_self _, fun r hr hri => ?_⟩
        have hne : r ≠ p ++ [n] := fun heq => hq (heq ▸ hr)
        rw [FileTree.add_entry, Function.update_of_ne hne] at hri
        exact absurd (t.ino_lt _ _ hri) (Nat.lt_irrefl _)

/-! ## What the calls do to files that are in use -/

theorem mkdir_tame (h : mkdir t s = .ok t') : Tame O t t' := by
  unfold mkdir at h
  cases hv : vacancy t false s with
  | error e => simp [hv] at h
  | ok pn =>
      simp only [hv] at h
      split_ifs at h with hfree hdir
      rw [Except.ok.injEq] at h
      subst h
      exact Tame.add _ _ _ _ (by simp)

theorem rmdir_sheds (h : rmdir t s = .ok t') : Sheds t t' := by
  unfold rmdir at h
  cases hn : node t false s with
  | error e => simp [hn] at h
  | ok px =>
      obtain ⟨p, x⟩ := px
      cases x <;> simp only [hn, reduceCtorEq] at h
      split_ifs at h
      rw [Except.ok.injEq] at h
      subst h
      exact Sheds.drop _ _

/-- The inode that is opened is named by the path that the text leads to. -/
theorem openCreate_tame {i : ℕ} (h : openCreate t s = .ok (i, t')) :
    Tame O t t' ∧ ∃ p, locate t true s = .ok p ∧ t.entry p ≠ some .dir ∧
      t'.entry p = some (.file i) := by
  unfold openCreate at h
  cases hv : vacancy t true s with
  | error e => simp [hv] at h
  | ok pn =>
      obtain ⟨p, n⟩ := pn
      simp only [hv] at h
      split at h
      next j he =>
        simp only [Except.ok.injEq, Prod.mk.injEq] at h
        obtain ⟨rfl, rfl⟩ := h
        exact ⟨Tame.refl _, _, vacancy_ok hv, by simp [he], he⟩
      next => simp at h
      next => simp at h
      next he =>
        split_ifs at h with hdir
        simp only [Except.ok.injEq, Prod.mk.injEq] at h
        obtain ⟨rfl, rfl⟩ := h
        refine ⟨Tame.add _ _ _ _ (by simp), p ++ [n], vacancy_ok hv, by simp [he], ?_⟩
        rw [FileTree.add_entry, Function.update_self]

/-- A file that is moved keeps its bytes and had a name before. -/
theorem rename_files (h : rename t s s' = .ok t') :
    t'.fresh = t.fresh ∧ t'.data = t.data ∧
      ∀ i p, t'.entry p = some (.file i) → ∃ q, t.entry q = some (.file i) := by
  unfold rename at h
  cases hn : node t false s with
  | error e => simp [hn] at h
  | ok px =>
      obtain ⟨p, x⟩ := px
      cases hv : vacancy t false s' with
      | error e => simp [hn, hv] at h
      | ok qn =>
          obtain ⟨q, n⟩ := qn
          simp only [hn, hv] at h
          split_ifs at h
          rw [Except.ok.injEq] at h
          subst h
          refine ⟨rfl, rfl, fun i r hr => ?_⟩
          rw [FileTree.move_entry, FileTree.moved] at hr
          split_ifs at hr
          · exact ⟨_, hr⟩
          · exact ⟨_, hr⟩

/-! ## What the calls do to the lengths of files -/

theorem mkdir_sized {f n : ℕ} (hn : 0 < n) (ht : Sized f n t) (h : mkdir t s = .ok t') :
    Sized f n t' := by
  unfold mkdir at h
  cases hv : vacancy t false s with
  | error e => simp [hv] at h
  | ok pn =>
      simp only [hv] at h
      split_ifs at h
      rw [Except.ok.injEq] at h
      subst h
      exact ht.add hn _ _ _ _

theorem openCreate_sized {f n i : ℕ} (hn : 0 < n) (ht : Sized f n t)
    (h : openCreate t s = .ok (i, t')) : Sized f n t' := by
  unfold openCreate at h
  cases hv : vacancy t true s with
  | error e => simp [hv] at h
  | ok pn =>
      simp only [hv] at h
      split at h
      next =>
        simp only [Except.ok.injEq, Prod.mk.injEq] at h
        exact h.2 ▸ ht
      next => simp at h
      next => simp at h
      next =>
        split_ifs at h
        simp only [Except.ok.injEq, Prod.mk.injEq] at h
        obtain ⟨-, rfl⟩ := h
        exact ht.add hn _ _ _ _

/-! ## Where texts lead without links -/

/-- A rendered path with no link on the way leads nowhere but to itself. -/
theorem locate_direct {follow : Bool} {p q : Path} (hl : Direct t p) (hp : ∀ n ∈ p, Plain n)
    (h : locate t follow (render p) = .ok q) : q = p := by
  cases List.eq_nil_or_concat p with
  | inl h0 =>
      subst h0
      rw [locate_render_nil, Except.ok.injEq] at h
      exact h.symm
  | inr h0 =>
      obtain ⟨d, n, rfl⟩ := h0
      rw [List.concat_eq_append] at *
      by_cases hd : t.entry d = some .dir
      · rw [locate_render hd (hp n (by simp)) fun _ => hl _ (List.prefix_refl _),
          Except.ok.injEq] at h
        exact h.symm
      · have hdirect : Direct t d := fun r hr => hl r (hr.trans (List.prefix_append d [n]))
        obtain ⟨e, he⟩ := @locate_render_error _ follow _ hdirect _ hd hp
        rw [he] at h
        simp at h

/-- A rendered path leads nowhere but to itself. -/
theorem locate_plain (hl : t.NoLinks) {follow : Bool} {p q : Path} (hp : ∀ n ∈ p, Plain n)
    (h : locate t follow (render p) = .ok q) : q = p :=
  locate_direct (direct_of_noLinks hl p) hp h

/-- The last component after a slash does not depend on what stands before it. -/
theorem last_component (s s' : Bytes) :
    (components (s ++ 47 :: s')).getLast? = (components s').getLast? := by
  rw [components_append_slash, List.getLast?_append_of_ne_nil _ (components_ne_nil s')]

end Posix

end CloudStore.Library
