import Mathlib.Data.Finset.Card
import Mathlib.Logic.Function.Basic
import Mathlib.Tactic.Common

/-!
# Reference-counted content stores

A store that keeps each content once and counts who refers to it. Four records describe
the same thing: `row` maps a key to a directory or to a file given by the digest of its
content, `link` maps a key to a digest a second time, `refs` holds for each digest the
references to it, and `object` the content itself. Removing a reference removes the
object when no reference is left.

The operations are written in the order in which a program changes the records, without
any of them being right: what they keep is stated by the four invariants

* `Backed`: a file has its object, of its size, and is among the references,
* `Exact`: a reference belongs to a file, and an object has a reference,
* `Mirrored`: both maps from keys to digests agree on files,
* `Addressed`: the content of an object has the digest it is stored under,

each with one lemma for each operation, under the condition the operation needs.
-/

set_option autoImplicit false
set_option linter.unusedSectionVars false

namespace CloudStore.Library

/-- What a key is mapped to: a directory, or a file of a digest and a size. -/
inductive Entry (δ : Type) where
  | dir
  | file (digest : δ) (size : ℕ)
  deriving DecidableEq

/-- What is fixed for a store: the reference of a key, the digest that stands for none,
the digests that objects are stored under, and the size and digest of a content. -/
structure RefScheme (κ ρ δ β : Type) where
  ref : κ → ρ
  ref_injective : Function.Injective ref
  blank : δ
  stored : δ → Prop
  size : β → ℕ
  digest : β → δ

/-- The four records. -/
@[ext] structure RefStore (κ ρ δ β : Type) where
  row : κ → Option (Entry δ)
  link : κ → δ
  refs : δ → Finset ρ
  object : δ → Option β

namespace RefStore

variable {κ ρ δ β : Type} [DecidableEq κ] [DecidableEq ρ] [DecidableEq δ]
variable (c : RefScheme κ ρ δ β) (s : RefStore κ ρ δ β)

/-- The store that holds nothing. -/
def empty : RefStore κ ρ δ β where
  row _ := none
  link _ := c.blank
  refs _ := ∅
  object _ := none

/-! ## Operations -/

/-- The digest of the file at a key, if there is one. -/
def fileDigest (k : κ) : δ :=
  match s.row k with
  | some (.file d _) => d
  | _ => c.blank

/-- The digest that is given up when a key is detached: of the link, else of the row. -/
def released (k : κ) : δ := if s.link k = c.blank then s.fileDigest c k else s.link k

/-- Remove one reference, and the object with the last one. -/
def unref (k : κ) (d : δ) : RefStore κ ρ δ β :=
  if (s.refs d).erase (c.ref k) = ∅ then
    { s with refs := Function.update s.refs d ∅, object := Function.update s.object d none }
  else { s with refs := Function.update s.refs d ((s.refs d).erase (c.ref k)) }

/-- Remove both mappings of a key. -/
def clear (k : κ) : RefStore κ ρ δ β :=
  { s with row := Function.update s.row k none, link := Function.update s.link k c.blank }

/-- Remove a key with its reference. -/
def detach (k : κ) : RefStore κ ρ δ β :=
  if s.released c k = c.blank then s.clear c k else (s.unref c k (s.released c k)).clear c k

/-- Detach one key after the other. -/
def detachAll (ks : List κ) : RefStore κ ρ δ β := ks.foldl (fun s k => s.detach c k) s

/-- Map a key to a content, with its reference. -/
def attach (k : κ) (d : δ) (n : ℕ) : RefStore κ ρ δ β :=
  { s with refs := Function.update s.refs d (insert (c.ref k) (s.refs d))
           row := Function.update s.row k (some (.file d n))
           link := Function.update s.link k d }

/-- Store a content. -/
def publish (d : δ) (x : β) : RefStore κ ρ δ β :=
  { s with object := Function.update s.object d (some x) }

/-- Lose the content of a digest. -/
def lose (d : δ) : RefStore κ ρ δ β := { s with object := Function.update s.object d none }

/-- Map a key to a directory. -/
def mkdir (k : κ) : RefStore κ ρ δ β := { s with row := Function.update s.row k (some .dir) }

/-- Move a file from `k` to `k'`. -/
def moveFile (k k' : κ) (d : δ) (n : ℕ) : RefStore κ ρ δ β :=
  { s with
    refs := Function.update s.refs d (insert (c.ref k') ((s.refs d).erase (c.ref k)))
    row := Function.update (Function.update s.row k' (some (.file d n))) k none
    link := Function.update (Function.update s.link k c.blank) k' d }

/-- Move whatever else is at `k` to `k'`. -/
def moveOther (k k' : κ) (n : ℕ) : RefStore κ ρ δ β :=
  { s with
    row := Function.update (Function.update s.row k none) k' (some (.file (s.link k) n))
    link :=
      if s.link k = c.blank then Function.update s.link k c.blank
      else Function.update (Function.update s.link k c.blank) k' (s.link k) }

/-! ## Invariants -/

/-- A file under a stored digest has its object and its reference. -/
def Backed : Prop :=
  ∀ k d n, s.row k = some (.file d n) → c.stored d →
    (∃ x, s.object d = some x ∧ c.size x = n) ∧ c.ref k ∈ s.refs d

/-- A reference belongs to a file. -/
def Owned : Prop :=
  ∀ d r, r ∈ s.refs d → ∃ k n, c.ref k = r ∧ s.row k = some (.file d n)

/-- An object has a reference. -/
def Used : Prop := ∀ d, s.object d ≠ none → s.refs d ≠ ∅

/-- A link of a file leads to the digest of the file. -/
def Linked : Prop :=
  ∀ k d n, s.row k = some (.file d n) → d ≠ c.blank → s.link k = c.blank ∨ s.link k = d

/-- Nothing is kept that is not in use: every reference belongs to a file, and every
object has a reference. -/
def Exact : Prop := s.Owned c ∧ s.Used ∧ s.Linked c

/-- Links and rows agree on files. -/
def Mirrored : Prop :=
  ∀ k d, d ≠ c.blank → (s.link k = d ↔ ∃ n, s.row k = some (.file d n))

/-- Contents are stored under their digests. -/
def Addressed : Prop := ∀ d x, s.object d = some x → c.digest x = d

/-! ## What the operations keep -/

variable {c s}

theorem Backed.empty : (RefStore.empty c : RefStore κ ρ δ β).Backed c := by
  intro k d n hrow
  simp [RefStore.empty] at hrow

theorem Exact.empty : (RefStore.empty c : RefStore κ ρ δ β).Exact c :=
  ⟨by simp [Owned, RefStore.empty], by simp [Used, RefStore.empty], by simp [Linked, RefStore.empty]⟩

theorem Mirrored.empty : (RefStore.empty c : RefStore κ ρ δ β).Mirrored c := by
  intro k d hd
  simp [RefStore.empty, hd.symm]

theorem unref_row (k : κ) (d : δ) : (s.unref c k d).row = s.row := by
  unfold unref
  split <;> rfl

theorem unref_link (k : κ) (d : δ) : (s.unref c k d).link = s.link := by
  unfold unref
  split <;> rfl

/-- Removing a reference leaves all other references. -/
theorem unref_refs (k : κ) (d e : δ) :
    (s.unref c k d).refs e = if e = d then (s.refs d).erase (c.ref k) else s.refs e := by
  unfold unref
  by_cases he : e = d
  · subst he
    split
    next h => simp [h]
    next h => simp
  · split <;> simp [he]

/-- Removing a reference leaves the objects that others refer to. -/
theorem unref_object (k : κ) (d e : δ) :
    (s.unref c k d).object e =
      if e = d ∧ (s.refs d).erase (c.ref k) = ∅ then none else s.object e := by
  unfold unref
  by_cases he : e = d
  · subst he
    split <;> simp_all
  · split <;> simp [he]

section Detach

theorem detach_row (k k' : κ) :
    (s.detach c k).row k' = if k' = k then none else s.row k' := by
  unfold detach
  split <;> by_cases hk : k' = k <;> simp [clear, hk, unref_row]

theorem detach_link (k k' : κ) :
    (s.detach c k).link k' = if k' = k then c.blank else s.link k' := by
  unfold detach
  split <;> by_cases hk : k' = k <;> simp [clear, hk, unref_link]

/-- Detaching a key removes its reference from the digest it gives up. -/
theorem detach_refs (k : κ) (d : δ) :
    (s.detach c k).refs d =
      if d = s.released c k ∧ d ≠ c.blank then (s.refs d).erase (c.ref k) else s.refs d := by
  unfold detach
  by_cases hb : s.released c k = c.blank
  · rw [if_pos hb]
    by_cases hd : d = s.released c k
    · simp [clear, hd, hb]
    · simp [clear, hd]
  · rw [if_neg hb]
    by_cases hd : d = s.released c k
    · simp [clear, hd, hb, unref_refs]
    · simp [clear, hd, unref_refs]

theorem detach_object (k : κ) (d : δ) :
    (s.detach c k).object d =
      if d = s.released c k ∧ d ≠ c.blank ∧ (s.refs d).erase (c.ref k) = ∅ then none
      else s.object d := by
  unfold detach
  by_cases hb : s.released c k = c.blank
  · rw [if_pos hb]
    by_cases hd : d = s.released c k
    · simp [clear, hd, hb]
    · simp [clear, hd]
  · rw [if_neg hb]
    by_cases hd : d = s.released c k
    · subst hd
      simp [clear, hb, unref_object]
    · simp [clear, hd, unref_object]

/-- The digest of a file is given up if its link does not lead elsewhere. -/
theorem released_of_file {k : κ} {d : δ} {n : ℕ} (hrow : s.row k = some (.file d n))
    (hlink : s.link k = c.blank ∨ s.link k = d) : s.released c k = d := by
  have hfile : s.fileDigest c k = d := by simp [fileDigest, hrow]
  unfold released
  split
  · exact hfile
  next h => exact hlink.resolve_left h

theorem Backed.detach (h : s.Backed c) (k : κ) : (s.detach c k).Backed c := by
  intro k' d n hrow hst
  rw [detach_row] at hrow
  by_cases hk : k' = k
  · simp [hk] at hrow
  · rw [if_neg hk] at hrow
    obtain ⟨⟨x, hx, hn⟩, href⟩ := h k' d n hrow hst
    -- the reference of another key stays, so the object does too
    have hmem : c.ref k' ∈ (s.refs d).erase (c.ref k) :=
      Finset.mem_erase.mpr ⟨fun heq => hk (c.ref_injective heq), href⟩
    have hne : (s.refs d).erase (c.ref k) ≠ ∅ := Finset.ne_empty_of_mem hmem
    refine ⟨⟨x, by rw [detach_object]; simp [hne, hx], hn⟩, ?_⟩
    rw [detach_refs]
    split
    · exact hmem
    · exact href

theorem Addressed.detach (h : s.Addressed c) (k : κ) : (s.detach c k).Addressed c := by
  intro d x hx
  rw [detach_object] at hx
  split at hx
  · simp at hx
  · exact h d x hx

/-- Detaching leaks nothing, unless the key is a file of the blank digest that is counted. -/
theorem Exact.detach (h : s.Exact c) (k : κ)
    (hblank : ∀ n, s.row k = some (.file c.blank n) → c.ref k ∉ s.refs c.blank) :
    (s.detach c k).Exact c := by
  obtain ⟨howned, hused, hlinked⟩ := h
  refine ⟨?_, ?_, ?_⟩
  · intro d r hr
    have hr' : r ∈ s.refs d := by
      rw [detach_refs] at hr
      split at hr
      · exact Finset.mem_of_mem_erase hr
      · exact hr
    obtain ⟨k', n, hk', hrow⟩ := howned d r hr'
    refine ⟨k', n, hk', ?_⟩
    rw [detach_row]
    split
    next heq =>
      -- the key itself: its reference has just been removed
      subst heq
      exfalso
      by_cases hd : d = c.blank
      · subst hd
        exact hblank n hrow (hk' ▸ hr')
      · have hrel := released_of_file hrow (hlinked k' d n hrow hd)
        rw [detach_refs, if_pos ⟨hrel.symm, hd⟩, ← hk'] at hr
        simp at hr
    · exact hrow
  · intro d hobj
    rw [detach_object] at hobj
    rw [detach_refs]
    split at hobj
    · simp at hobj
    next hcond =>
      split
      next hd =>
        intro hempty
        exact hcond ⟨hd.1, hd.2, hempty⟩
      · exact hused d hobj
  · intro k' d n hrow hd
    rw [detach_row] at hrow
    rw [detach_link]
    split at hrow
    · simp at hrow
    next hk =>
      rw [if_neg hk]
      exact hlinked k' d n hrow hd

theorem Mirrored.detach (h : s.Mirrored c) (k : κ) : (s.detach c k).Mirrored c := by
  intro k' d hd
  rw [detach_link, detach_row]
  split
  · simp [hd.symm]
  · exact h k' d hd

end Detach

section Clear

theorem Backed.clear (h : s.Backed c) (k : κ) : (s.clear c k).Backed c := by
  intro k' d n hrow hst
  by_cases hk : k' = k
  · simp [RefStore.clear, hk] at hrow
  · simp only [RefStore.clear, Function.update_of_ne hk] at hrow
    exact h k' d n hrow hst

/-- Clearing a key leaks nothing if it is no file. -/
theorem Exact.clear (h : s.Exact c) {k : κ} (hrow : ∀ d n, s.row k ≠ some (.file d n)) :
    (s.clear c k).Exact c := by
  obtain ⟨howned, hused, hlinked⟩ := h
  refine ⟨?_, hused, ?_⟩
  · intro d r hr
    obtain ⟨k', n, hk', hrow'⟩ := howned d r hr
    have hne : k' ≠ k := fun heq => hrow d n (heq ▸ hrow')
    exact ⟨k', n, hk', by simp [RefStore.clear, hne, hrow']⟩
  · intro k' d n hrow' hd
    by_cases hk : k' = k
    · simp [RefStore.clear, hk] at hrow'
    · simp only [RefStore.clear, Function.update_of_ne hk] at hrow' ⊢
      exact hlinked k' d n hrow' hd

theorem Mirrored.clear (h : s.Mirrored c) (k : κ) : (s.clear c k).Mirrored c := by
  intro k' d hd
  by_cases hk : k' = k
  · simp [RefStore.clear, hk, hd.symm]
  · simpa [RefStore.clear, hk] using h k' d hd

end Clear

section DetachAll

/-- What every detachment keeps, detaching one key after the other keeps. -/
theorem detachAll_keeps {P : RefStore κ ρ δ β → Prop} (hstep : ∀ s k, P s → P (s.detach c k))
    (h : P s) (ks : List κ) : P (s.detachAll c ks) := by
  induction ks generalizing s with
  | nil => exact h
  | cons k ks ih => exact ih (hstep s k h)

/-- Detaching makes no file. -/
theorem detachAll_row (ks : List κ) {k : κ} (hrow : ∀ d n, s.row k ≠ some (.file d n)) :
    ∀ d n, (s.detachAll c ks).row k ≠ some (.file d n) := by
  refine detachAll_keeps (P := fun s => ∀ d n, s.row k ≠ some (.file d n)) ?_ hrow ks
  intro s k' h d n
  rw [detach_row]
  split
  · simp
  · exact h d n

/-- Detaching one key after the other leaks nothing, unless one of them is a file of the
blank digest that is counted. -/
theorem Exact.detachAll (h : s.Exact c) (ks : List κ)
    (hblank : ∀ k ∈ ks, ∀ n, s.row k = some (.file c.blank n) → c.ref k ∉ s.refs c.blank) :
    (s.detachAll c ks).Exact c := by
  induction ks generalizing s with
  | nil => exact h
  | cons k ks ih =>
      refine ih (h.detach k (hblank k List.mem_cons_self)) fun k' hk' n hrow => ?_
      rw [detach_row] at hrow
      split at hrow
      · simp at hrow
      · have hrefs : (s.detach c k).refs c.blank = s.refs c.blank := by simp [detach_refs]
        rw [hrefs]
        exact hblank k' (List.mem_cons_of_mem _ hk') n hrow

/-- Detaching does not add a reference. -/
theorem detachAll_refs_subset (ks : List κ) {r : ρ} {d : δ} (h : r ∉ s.refs d) :
    r ∉ (s.detachAll c ks).refs d := by
  refine detachAll_keeps (P := fun s => r ∉ s.refs d) ?_ h ks
  intro s k h
  rw [detach_refs]
  split
  · exact fun hr => h (Finset.mem_of_mem_erase hr)
  · exact h

/-- The reference of a linked key is gone if the key is among those detached. -/
theorem detachAll_refs (ks : List κ) {k : κ} {d : δ} (hd : d ≠ c.blank) (hlink : s.link k = d) :
    c.ref k ∈ (s.detachAll c ks).refs d ↔ c.ref k ∈ s.refs d ∧ k ∉ ks := by
  induction ks generalizing s with
  | nil => simp [detachAll]
  | cons k' ks ih =>
      by_cases hk : k = k'
      · subst hk
        have hreleased : s.released c k = d := by rw [released, hlink, if_neg hd]
        have hgone : c.ref k ∉ (s.detach c k).refs d := by
          rw [detach_refs, if_pos ⟨hreleased.symm, hd⟩]
          simp
        exact iff_of_false (detachAll_refs_subset ks hgone) (by simp)
      · have hlink' : (s.detach c k').link k = d := by rw [detach_link, if_neg hk, hlink]
        have hrefs : c.ref k ∈ (s.detach c k').refs d ↔ c.ref k ∈ s.refs d := by
          rw [detach_refs]
          split
          · simp [c.ref_injective.eq_iff, hk]
          · rfl
        refine (ih hlink').trans ?_
        simp [hrefs, hk]

end DetachAll

section Attach

/-- Attaching needs the object, of the size that is recorded. -/
theorem Backed.attach (h : s.Backed c) (k : κ) {d : δ} {n : ℕ}
    (hobj : c.stored d → ∃ x, s.object d = some x ∧ c.size x = n) :
    (s.attach c k d n).Backed c := by
  intro k' d' n' hrow hst
  by_cases hk : k' = k
  · subst hk
    simp only [RefStore.attach, Function.update_self, Option.some.injEq, Entry.file.injEq] at hrow
    obtain ⟨rfl, rfl⟩ := hrow
    exact ⟨hobj hst, by simp [RefStore.attach]⟩
  · simp only [RefStore.attach, Function.update_of_ne hk] at hrow
    obtain ⟨hx, href⟩ := h k' d' n' hrow hst
    refine ⟨hx, ?_⟩
    by_cases hd : d' = d
    · subst hd
      simp [RefStore.attach, href]
    · simp [RefStore.attach, hd, href]

theorem Addressed.attach (h : s.Addressed c) (k : κ) (d : δ) (n : ℕ) :
    (s.attach c k d n).Addressed c := h

/-- Attaching leaks nothing where no file was before. -/
theorem Exact.attach (h : s.Exact c) {k : κ} {d : δ} {n : ℕ}
    (hrow : ∀ d n, s.row k ≠ some (.file d n)) : (s.attach c k d n).Exact c := by
  obtain ⟨howned, hused, hlinked⟩ := h
  refine ⟨?_, ?_, ?_⟩
  · intro d' r hr
    have hcases : d' = d ∧ r = c.ref k ∨ r ∈ s.refs d' := by
      by_cases hd : d' = d
      · subst hd
        simp only [RefStore.attach, Function.update_self, Finset.mem_insert] at hr
        exact hr.imp_left fun h => ⟨rfl, h⟩
      · simp only [RefStore.attach, Function.update_of_ne hd] at hr
        exact Or.inr hr
    cases hcases with
    | inl h =>
        obtain ⟨rfl, rfl⟩ := h
        exact ⟨k, n, rfl, by simp [RefStore.attach]⟩
    | inr h =>
        obtain ⟨k', n', hk', hrow'⟩ := howned d' r h
        have hne : k' ≠ k := fun heq => hrow d' n' (heq ▸ hrow')
        exact ⟨k', n', hk', by simp [RefStore.attach, hne, hrow']⟩
  · intro d' hobj
    by_cases hd : d' = d
    · subst hd
      simp [RefStore.attach]
    · simpa [RefStore.attach, hd] using hused d' hobj
  · intro k' d' n' hrow' hd'
    by_cases hk : k' = k
    · subst hk
      simp only [RefStore.attach, Function.update_self, Option.some.injEq,
        Entry.file.injEq] at hrow' ⊢
      exact Or.inr hrow'.1
    · simp only [RefStore.attach, Function.update_of_ne hk] at hrow' ⊢
      exact hlinked k' d' n' hrow' hd'

theorem Mirrored.attach (h : s.Mirrored c) (k : κ) (d : δ) (n : ℕ) :
    (s.attach c k d n).Mirrored c := by
  intro k' d' hd'
  by_cases hk : k' = k
  · subst hk
    simp [RefStore.attach]
  · simpa [RefStore.attach, hk] using h k' d' hd'

end Attach

section Publish

/-- Publishing what is there changes nothing. -/
theorem publish_self {d : δ} {x : β} (h : s.object d = some x) : s.publish d x = s := by
  unfold RefStore.publish
  rw [← h, Function.update_eq_self]

/-- Publishing keeps the files backed if it does not replace a content by another. -/
theorem Backed.publish (h : s.Backed c) {d : δ} {x : β}
    (hsame : ∀ y, s.object d = some y → y = x) : (s.publish d x).Backed c := by
  intro k d' n hrow hst
  obtain ⟨⟨y, hy, hn⟩, href⟩ := h k d' n hrow hst
  refine ⟨?_, href⟩
  by_cases hd : d' = d
  · subst hd
    exact ⟨x, by simp [RefStore.publish], hsame y hy ▸ hn⟩
  · exact ⟨y, by simp [RefStore.publish, hd, hy], hn⟩

theorem Mirrored.publish (h : s.Mirrored c) (d : δ) (x : β) : (s.publish d x).Mirrored c := h

theorem Mirrored.lose (h : s.Mirrored c) (d : δ) : (s.lose d).Mirrored c := h

/-- What is lost is not left over. -/
theorem Exact.lose (h : s.Exact c) (d : δ) : (s.lose d).Exact c := by
  refine ⟨h.1, fun d' hobj => ?_, h.2.2⟩
  by_cases hd : d' = d
  · simp [RefStore.lose, hd] at hobj
  · simp only [RefStore.lose, Function.update_of_ne hd] at hobj
    exact h.2.1 d' hobj

theorem Addressed.publish (h : s.Addressed c) {d : δ} {x : β} (hx : c.digest x = d) :
    (s.publish d x).Addressed c := by
  intro d' y hy
  by_cases hd : d' = d
  · subst hd
    simp only [RefStore.publish, Function.update_self, Option.some.injEq] at hy
    exact hy ▸ hx
  · simp only [RefStore.publish, Function.update_of_ne hd] at hy
    exact h d' y hy

/-- A content that is published and attached is in use. -/
theorem Exact.publish_attach (h : s.Exact c) {k : κ} {d : δ} {n : ℕ} {x : β}
    (hrow : ∀ d n, s.row k ≠ some (.file d n)) : ((s.publish d x).attach c k d n).Exact c := by
  have hattach := Exact.attach (d := d) (n := n) h hrow
  obtain ⟨howned, hused, hlinked⟩ := hattach
  refine ⟨howned, ?_, hlinked⟩
  intro d' hobj
  by_cases hd : d' = d
  · subst hd
    simp [RefStore.attach, RefStore.publish]
  · have hobj' : (s.attach c k d n).object d' ≠ none := by
      simpa [RefStore.attach, RefStore.publish, hd] using hobj
    exact hused d' hobj'

end Publish

section Mkdir

theorem Backed.mkdir (h : s.Backed c) (k : κ) : (s.mkdir k).Backed c := by
  intro k' d n hrow hst
  by_cases hk : k' = k
  · simp [RefStore.mkdir, hk] at hrow
  · simp only [RefStore.mkdir, Function.update_of_ne hk] at hrow
    exact h k' d n hrow hst

/-- A directory leaks nothing where no counted file was before. -/
theorem Exact.mkdir (h : s.Exact c) {k : κ}
    (hrow : ∀ d n, s.row k = some (.file d n) → c.ref k ∉ s.refs d) : (s.mkdir k).Exact c := by
  obtain ⟨howned, hused, hlinked⟩ := h
  refine ⟨?_, hused, ?_⟩
  · intro d r hr
    obtain ⟨k', n, hk', hrow'⟩ := howned d r hr
    have hne : k' ≠ k := fun heq => hrow d n (heq ▸ hrow') (by rw [← heq, hk']; exact hr)
    exact ⟨k', n, hk', by simp [RefStore.mkdir, hne, hrow']⟩
  · intro k' d n hrow' hd
    by_cases hk : k' = k
    · simp [RefStore.mkdir, hk] at hrow'
    · simp only [RefStore.mkdir, Function.update_of_ne hk] at hrow'
      exact hlinked k' d n hrow' hd

/-- A directory keeps links and rows in step where no file with a digest was before. -/
theorem Mirrored.mkdir (h : s.Mirrored c) {k : κ}
    (hrow : ∀ d n, s.row k = some (.file d n) → d = c.blank) : (s.mkdir k).Mirrored c := by
  intro k' d hd
  by_cases hk : k' = k
  · subst hk
    have hlink := h k' d hd
    simp only [RefStore.mkdir, Function.update_self]
    constructor
    · intro h1
      obtain ⟨n, hn⟩ := hlink.mp h1
      exact absurd (hrow d n hn) hd
    · rintro ⟨n, hn⟩
      simp at hn
  · simpa [RefStore.mkdir, hk] using h k' d hd

end Mkdir

section MoveFile

variable {k k' : κ} {d : δ} {n : ℕ}

theorem Backed.moveFile (h : s.Backed c) (hrow : s.row k = some (.file d n)) :
    (s.moveFile c k k' d n).Backed c := by
  intro j d' n' hj hst
  by_cases hjk : j = k
  · simp [RefStore.moveFile, hjk] at hj
  · simp only [RefStore.moveFile, Function.update_of_ne hjk] at hj
    by_cases hjk' : j = k'
    · subst hjk'
      simp only [Function.update_self, Option.some.injEq, Entry.file.injEq] at hj
      obtain ⟨rfl, rfl⟩ := hj
      obtain ⟨hx, -⟩ := h k d n hrow hst
      exact ⟨hx, by simp [RefStore.moveFile]⟩
    · rw [Function.update_of_ne hjk'] at hj
      obtain ⟨hx, href⟩ := h j d' n' hj hst
      refine ⟨hx, ?_⟩
      by_cases hd : d' = d
      · subst hd
        have hne : c.ref j ≠ c.ref k := fun heq => hjk (c.ref_injective heq)
        simp [RefStore.moveFile, hne, href]
      · simp [RefStore.moveFile, hd, href]

/-- Moving a file leaks nothing if the new key is another one and no file of another
digest is counted there. -/
theorem Exact.moveFile (h : s.Exact c) (hrow : s.row k = some (.file d n)) (hne : k ≠ k')
    (hdest : ∀ d' n', s.row k' = some (.file d' n') → c.ref k' ∈ s.refs d' → d' = d) :
    (s.moveFile c k k' d n).Exact c := by
  obtain ⟨howned, hused, hlinked⟩ := h
  have hnewrow : (s.moveFile c k k' d n).row k' = some (.file d n) := by
    simp [RefStore.moveFile, hne.symm]
  have hother : ∀ {d' r}, r ∈ s.refs d' → r ≠ c.ref k ∨ d' ≠ d →
      ∃ j n', c.ref j = r ∧ (s.moveFile c k k' d n).row j = some (.file d' n') := by
    intro d' r hr hcond
    obtain ⟨j, n', hj, hjrow⟩ := howned d' r hr
    have hjk : j ≠ k := by
      rintro rfl
      rw [hrow, Option.some.injEq, Entry.file.injEq] at hjrow
      cases hcond with
      | inl h => exact h hj.symm
      | inr h => exact h hjrow.1.symm
    by_cases hjk' : j = k'
    · subst hjk'
      have hdd := hdest d' n' hjrow (hj ▸ hr)
      exact ⟨j, n, hj, hdd ▸ hnewrow⟩
    · exact ⟨j, n', hj, by simp [RefStore.moveFile, hjk, hjk', hjrow]⟩
  refine ⟨?_, ?_, ?_⟩
  · intro d' r hr
    by_cases hd : d' = d
    · subst hd
      simp only [RefStore.moveFile, Function.update_self, Finset.mem_insert,
        Finset.mem_erase] at hr
      cases hr with
      | inl h => exact ⟨k', n, h.symm, hnewrow⟩
      | inr h => exact hother h.2 (Or.inl h.1)
    · simp only [RefStore.moveFile, Function.update_of_ne hd] at hr
      exact hother hr (Or.inr hd)
  · intro d' hobj
    by_cases hd : d' = d
    · subst hd
      simp [RefStore.moveFile]
    · simpa [RefStore.moveFile, hd] using hused d' hobj
  · intro j d' n' hj hd'
    by_cases hjk : j = k
    · simp [RefStore.moveFile, hjk] at hj
    · by_cases hjk' : j = k'
      · subst hjk'
        rw [hnewrow, Option.some.injEq, Entry.file.injEq] at hj
        right
        simp [RefStore.moveFile, hj.1]
      · simp only [RefStore.moveFile, Function.update_of_ne hjk, Function.update_of_ne hjk'] at hj ⊢
        exact hlinked j d' n' hj hd'

/-- Moving a file keeps links and rows in step if the new key is another one, or there is
no digest to link. -/
theorem Mirrored.moveFile (h : s.Mirrored c) (hrow : s.row k = some (.file d n))
    (hne : k ≠ k' ∨ d = c.blank) : (s.moveFile c k k' d n).Mirrored c := by
  intro j e he
  by_cases hjk : j = k
  · subst hjk
    by_cases hk' : j = k'
    · subst hk'
      have hd : d = c.blank := hne.resolve_left (by simp)
      simp [RefStore.moveFile, hd, he.symm]
    · simp [RefStore.moveFile, hk', he.symm]
  · by_cases hjk' : j = k'
    · subst hjk'
      simp [RefStore.moveFile, hjk]
    · simpa [RefStore.moveFile, hjk, hjk'] using h j e he

end MoveFile

section MoveOther

variable {k k' : κ} {n : ℕ}

/-- Moving something else keeps the files backed if no stored digest is linked to it. -/
theorem Backed.moveOther (h : s.Backed c) (hlink : ¬ c.stored (s.link k)) :
    (s.moveOther c k k' n).Backed c := by
  intro j d n' hj hst
  by_cases hjk' : j = k'
  · subst hjk'
    simp only [RefStore.moveOther, Function.update_self, Option.some.injEq, Entry.file.injEq] at hj
    exact absurd (hj.1 ▸ hst) hlink
  · by_cases hjk : j = k
    · subst hjk
      simp [RefStore.moveOther, hjk'] at hj
    · simp only [RefStore.moveOther, Function.update_of_ne hjk, Function.update_of_ne hjk'] at hj
      exact h j d n' hj hst

/-- Moving something else leaks nothing if no file of another digest is counted at the new
key. -/
theorem Exact.moveOther (h : s.Exact c) (hrow : ∀ d n, s.row k ≠ some (.file d n))
    (hdest : ∀ d n', s.row k' = some (.file d n') → c.ref k' ∈ s.refs d → d = s.link k) :
    (s.moveOther c k k' n).Exact c := by
  obtain ⟨howned, hused, hlinked⟩ := h
  refine ⟨?_, hused, ?_⟩
  · intro d r hr
    obtain ⟨j, n', hj, hjrow⟩ := howned d r hr
    have hjk : j ≠ k := fun heq => hrow d n' (heq ▸ hjrow)
    by_cases hjk' : j = k'
    · subst hjk'
      have hd := hdest d n' hjrow (hj ▸ hr)
      exact ⟨j, n, hj, by simp [RefStore.moveOther, hd]⟩
    · exact ⟨j, n', hj, by simp [RefStore.moveOther, hjk, hjk', hjrow]⟩
  · intro j d n' hj hd
    by_cases hjk' : j = k'
    · subst hjk'
      simp only [RefStore.moveOther, Function.update_self, Option.some.injEq,
        Entry.file.injEq] at hj
      have hne : s.link k ≠ c.blank := fun h0 => hd (hj.1 ▸ h0)
      right
      simp [RefStore.moveOther, hj.1, hd]
    · by_cases hjk : j = k
      · subst hjk
        simp [RefStore.moveOther, hjk'] at hj
      · simp only [RefStore.moveOther, Function.update_of_ne hjk, Function.update_of_ne hjk'] at hj
        have := hlinked j d n' hj hd
        simp only [RefStore.moveOther]
        split <;> simpa [hjk, hjk'] using this

/-- Moving something else keeps links and rows in step if no file with a digest was at
either key. -/
theorem Mirrored.moveOther (h : s.Mirrored c) (hrow : ∀ d n, s.row k ≠ some (.file d n))
    (hdest : ∀ d n', s.row k' = some (.file d n') → d = c.blank) :
    (s.moveOther c k k' n).Mirrored c := by
  have hlink : s.link k = c.blank := by
    by_contra hne
    obtain ⟨m, hm⟩ := (h k _ hne).mp rfl
    exact hrow _ m hm
  intro j d hd
  by_cases hjk' : j = k'
  · subst hjk'
    simp only [RefStore.moveOther, hlink, if_true, Function.update_self, Option.some.injEq,
      Entry.file.injEq]
    constructor
    · intro hj
      exfalso
      by_cases hjk : j = k
      · simp only [hjk, Function.update_self] at hj
        exact hd hj.symm
      · rw [Function.update_of_ne hjk] at hj
        obtain ⟨m, hm⟩ := (h j d hd).mp hj
        exact hd (hdest d m hm)
    · rintro ⟨m, hm, -⟩
      exact absurd hm.symm hd
  · by_cases hjk : j = k
    · subst hjk
      simp [RefStore.moveOther, hlink, hjk', hd.symm]
    · simpa [RefStore.moveOther, hlink, hjk, hjk'] using h j d hd

end MoveOther

section Coherent

variable (c s) in
/-- Everything agrees: the files have stored digests, and all invariants hold. -/
structure Coherent : Prop where
  stored : ∀ k d n, s.row k = some (.file d n) → c.stored d
  backed : s.Backed c
  exact : s.Exact c
  mirrored : s.Mirrored c
  addressed : s.Addressed c

variable {k k' : κ} {d : δ} {n : ℕ} {x : β}

theorem Coherent.empty : (RefStore.empty c : RefStore κ ρ δ β).Coherent c where
  stored := by simp [RefStore.empty]
  backed := Backed.empty
  exact := Exact.empty
  mirrored := Mirrored.empty
  addressed := by simp [Addressed, RefStore.empty]

/-- The references are those of the files. -/
theorem Coherent.refs_iff (h : s.Coherent c) :
    c.ref k ∈ s.refs d ↔ ∃ n, s.row k = some (.file d n) := by
  constructor
  · intro href
    obtain ⟨k', n, hk, hrow⟩ := h.exact.1 d _ href
    rw [c.ref_injective hk] at hrow
    exact ⟨n, hrow⟩
  · rintro ⟨n, hrow⟩
    exact (h.backed k d n hrow (h.stored k d n hrow)).2

/-- The objects are those that files refer to. -/
theorem Coherent.object_iff (h : s.Coherent c) :
    s.object d ≠ none ↔ ∃ k n, s.row k = some (.file d n) := by
  constructor
  · intro hobj
    obtain ⟨r, hr⟩ := Finset.nonempty_iff_ne_empty.mpr (h.exact.2.1 d hobj)
    obtain ⟨k, n, -, hrow⟩ := h.exact.1 d r hr
    exact ⟨k, n, hrow⟩
  · rintro ⟨k, n, hrow⟩
    obtain ⟨⟨x, hx, -⟩, -⟩ := h.backed k d n hrow (h.stored k d n hrow)
    simp [hx]

theorem Coherent.released_eq (h : s.Coherent c) (hblank : ¬ c.stored c.blank)
    (hrow : s.row k = some (.file d n)) : s.released c k = d ∧ d ≠ c.blank := by
  have hd : d ≠ c.blank := by
    rintro rfl
    exact hblank (h.stored k _ n hrow)
  exact ⟨released_of_file hrow (h.exact.2.2 k d n hrow hd), hd⟩

/-- A link leads to the digest of the file, or there is neither. -/
theorem Coherent.link_eq (h : s.Coherent c) (hblank : ¬ c.stored c.blank) (k : κ) :
    s.link k = s.fileDigest c k := by
  by_cases hlink : s.link k = c.blank
  · rw [hlink]
    unfold fileDigest
    split
    next d n hrow =>
      have hd : d ≠ c.blank := by
        rintro rfl
        exact hblank (h.stored k _ n hrow)
      rw [← hlink]
      exact (h.mirrored k d hd).mpr ⟨n, hrow⟩
    · rfl
  · obtain ⟨n, hrow⟩ := (h.mirrored k _ hlink).mp rfl
    simp [fileDigest, hrow]

theorem Coherent.detach (h : s.Coherent c) (hblank : ¬ c.stored c.blank) (k : κ) :
    (s.detach c k).Coherent c where
  stored := by
    intro k' d n hrow
    rw [detach_row] at hrow
    split at hrow
    · simp at hrow
    · exact h.stored k' d n hrow
  backed := h.backed.detach k
  exact := h.exact.detach k fun n hrow => absurd (h.stored k _ n hrow) hblank
  mirrored := h.mirrored.detach k
  addressed := h.addressed.detach k

theorem Coherent.detachAll (h : s.Coherent c) (hblank : ¬ c.stored c.blank) (ks : List κ) :
    (s.detachAll c ks).Coherent c :=
  detachAll_keeps (P := fun s => s.Coherent c) (fun _ k h => h.detach hblank k) h ks

/-- The object of a file that is detached is gone if and only if no other file has it. -/
theorem Coherent.detach_object (h : s.Coherent c) (hblank : ¬ c.stored c.blank) :
    (s.detach c k).object d = none ↔ ∀ k', k' ≠ k → ∀ n', s.row k' ≠ some (.file d n') := by
  constructor
  · intro hnone k' hk n' hrow'
    have hrow'' : (s.detach c k).row k' = some (.file d n') := by rw [detach_row, if_neg hk, hrow']
    exact (h.detach hblank k).object_iff.mpr ⟨k', n', hrow''⟩ hnone
  · intro hothers
    by_contra hobj
    obtain ⟨k', n', hrow'⟩ := (h.detach hblank k).object_iff.mp hobj
    rw [detach_row] at hrow'
    split at hrow'
    · simp at hrow'
    next hk => exact hothers k' hk n' hrow'

theorem Coherent.clear (h : s.Coherent c) (hrow : ∀ d n, s.row k ≠ some (.file d n)) :
    (s.clear c k).Coherent c where
  stored := by
    intro k' d n hrow'
    by_cases hk : k' = k
    · simp [RefStore.clear, hk] at hrow'
    · simp only [RefStore.clear, Function.update_of_ne hk] at hrow'
      exact h.stored k' d n hrow'
  backed := h.backed.clear k
  exact := h.exact.clear hrow
  mirrored := h.mirrored.clear k
  addressed := h.addressed

/-- A key that is no file is mapped to an object of the store. -/
theorem Coherent.attach (h : s.Coherent c) (hrow : ∀ d n, s.row k ≠ some (.file d n))
    (hd : c.stored d) (hobj : s.object d = some x) (hn : c.size x = n) :
    (s.attach c k d n).Coherent c where
  stored := by
    intro k' d' n' hrow'
    by_cases hk : k' = k
    · subst hk
      simp only [RefStore.attach, Function.update_self, Option.some.injEq, Entry.file.injEq] at hrow'
      exact hrow'.1 ▸ hd
    · simp only [RefStore.attach, Function.update_of_ne hk] at hrow'
      exact h.stored k' d' n' hrow'
  backed := h.backed.attach k fun _ => ⟨x, hobj, hn⟩
  exact := h.exact.attach hrow
  mirrored := h.mirrored.attach k d n
  addressed := h.addressed

/-- A key that is no file is mapped to a content that is published for it. -/
theorem Coherent.publish_attach (h : s.Coherent c) (hrow : ∀ d n, s.row k ≠ some (.file d n))
    (hd : c.stored d) (hdigest : c.digest x = d) (hsame : ∀ y, s.object d = some y → y = x)
    (hn : c.size x = n) : ((s.publish d x).attach c k d n).Coherent c where
  stored := by
    intro k' d' n' hrow'
    by_cases hk : k' = k
    · subst hk
      simp only [RefStore.attach, Function.update_self, Option.some.injEq, Entry.file.injEq] at hrow'
      exact hrow'.1 ▸ hd
    · simp only [RefStore.attach, Function.update_of_ne hk] at hrow'
      exact h.stored k' d' n' hrow'
  backed := (h.backed.publish hsame).attach k fun _ => ⟨x, by simp [RefStore.publish], hn⟩
  exact := h.exact.publish_attach hrow
  mirrored := (h.mirrored.publish d x).attach k d n
  addressed := h.addressed.publish hdigest

theorem Coherent.mkdir (h : s.Coherent c) (hrow : ∀ d n, s.row k ≠ some (.file d n)) :
    (s.mkdir k).Coherent c where
  stored := by
    intro k' d n hrow'
    by_cases hk : k' = k
    · simp [RefStore.mkdir, hk] at hrow'
    · simp only [RefStore.mkdir, Function.update_of_ne hk] at hrow'
      exact h.stored k' d n hrow'
  backed := h.backed.mkdir k
  exact := h.exact.mkdir fun d n hk => absurd hk (hrow d n)
  mirrored := h.mirrored.mkdir fun d n hk => absurd hk (hrow d n)
  addressed := h.addressed

/-- A file is moved to a key that is no file. -/
theorem Coherent.moveFile (h : s.Coherent c) (hrow : s.row k = some (.file d n))
    (hdest : ∀ d n, s.row k' ≠ some (.file d n)) : (s.moveFile c k k' d n).Coherent c := by
  have hne : k ≠ k' := by
    rintro rfl
    exact hdest d n hrow
  refine ⟨?_, h.backed.moveFile hrow, ?_, h.mirrored.moveFile hrow (Or.inl hne), h.addressed⟩
  · intro j d' n' hj
    by_cases hjk : j = k
    · simp [RefStore.moveFile, hjk] at hj
    · by_cases hjk' : j = k'
      · subst hjk'
        simp only [RefStore.moveFile, Function.update_of_ne hjk, Function.update_self,
          Option.some.injEq, Entry.file.injEq] at hj
        exact hj.1 ▸ h.stored k d n hrow
      · simp only [RefStore.moveFile, Function.update_of_ne hjk, Function.update_of_ne hjk'] at hj
        exact h.stored j d' n' hj
  · exact h.exact.moveFile hrow hne fun d' n' hk' => absurd hk' (hdest d' n')

end Coherent

end RefStore

end CloudStore.Library
