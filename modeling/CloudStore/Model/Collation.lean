import CloudStore.Model.World
import Mathlib.Data.List.TakeWhile

/-!
# The shipped schema

The dialect of Redis and of MySQL under `sql/init.sql`, on ASCII texts. Under
`utf8mb4_unicode_ci` two texts are equal up to the case of letters and the blanks at their
ends; the unique key of `file_index` takes the first 255 characters of a path; `md5` is a
column of 32 characters. Bytes beyond ASCII are compared as they are.
-/

set_option autoImplicit false

namespace CloudStore.Model

open CloudStore.Library (Bytes)

/-- A letter in lower case. -/
def lowerCase (c : UInt8) : UInt8 := if 65 ≤ c && c ≤ 90 then c + 32 else c

/-- Texts that are equal under the collation have the same fold. -/
def foldText (s : Bytes) : Bytes := (trimEnd s).map lowerCase

namespace Dialect

theorem isNameChar_lowerCase {c : UInt8} (h : isNameChar c = true) :
    isNameChar (lowerCase c) = true := by
  simp only [isNameChar, Bool.or_eq_true, Bool.and_eq_true, decide_eq_true_eq, beq_iff_eq,
    UInt8.le_iff_toNat_le, ← UInt8.toNat_inj] at h ⊢
  unfold lowerCase
  split
  next hupper =>
    simp only [Bool.and_eq_true, decide_eq_true_eq, UInt8.le_iff_toNat_le] at hupper
    have hsum : (c + 32).toNat = c.toNat + 32 := by
      have h90 : c.toNat ≤ 90 := hupper.2
      rw [UInt8.toNat_add]
      simp only [UInt8.reduceToNat]
      omega
    have h65 : 65 ≤ c.toNat := hupper.1
    have h90 : c.toNat ≤ 90 := hupper.2
    rw [hsum]
    simp only [UInt8.reduceToNat]
    omega
  · exact h

theorem mem_trimEnd {s : Bytes} {c : UInt8} (h : c ∈ s) (hc : c ≠ 32) : c ∈ trimEnd s := by
  unfold trimEnd
  rw [List.mem_reverse]
  have hsplit := List.takeWhile_append_dropWhile (p := (· = (32 : UInt8))) (l := s.reverse)
  have hmem : c ∈ s.reverse.takeWhile (· = 32) ++ s.reverse.dropWhile (· = 32) := by
    rw [hsplit]
    exact List.mem_reverse.mpr h
  cases List.mem_append.mp hmem with
  | inl htake =>
      have hblank := List.mem_takeWhile_imp htake
      exact absurd (by simpa using hblank) hc
  | inr hdrop => exact hdrop

/-- A text that folds like a valid username is made of the same kinds of characters, and of
blanks. -/
theorem fold_plain {name username : Bytes} (h : foldText name = foldText username)
    (hvalid : validUsername username = true) : 46 ∉ name ∧ 47 ∉ name ∧ 0 ∉ name := by
  have hchars : ∀ c ∈ username, isNameChar c = true := by
    simp only [validUsername, Bool.and_eq_true, decide_eq_true_eq, List.all_eq_true] at hvalid
    exact hvalid.2
  have key : ∀ c ∈ name, c ≠ 46 ∧ c ≠ 47 ∧ c ≠ 0 := by
    intro c hc
    by_cases hblank : c = 32
    · subst hblank
      decide
    · have hmem : lowerCase c ∈ foldText username := by
        rw [← h]
        exact List.mem_map_of_mem (mem_trimEnd hc hblank)
      obtain ⟨c', hc', heq⟩ := List.mem_map.mp hmem
      unfold trimEnd at hc'
      rw [List.mem_reverse] at hc'
      have hname := hchars c' (List.mem_reverse.mp ((List.dropWhile_sublist _).subset hc'))
      have hlower : isNameChar (lowerCase c) = true := heq ▸ isNameChar_lowerCase hname
      refine ⟨?_, ?_, ?_⟩ <;> rintro rfl <;> exact absurd hlower (by decide)
  exact ⟨fun h46 => (key _ h46).1 rfl, fun h47 => (key _ h47).2.1 rfl, fun h0 => (key _ h0).2.2 rfl⟩

/-- The dialect of the shipped servers. -/
def shipped : Dialect where
  cStrings := true
  samePath a b := foldText a == foldText b
  sameKey a b := foldText (a.take 255) == foldText (b.take 255)
  like text pattern := sqlLike (pattern.map lowerCase) (text.map lowerCase)
  sameName a b := foldText a == foldText b
  md5Column m := if charLength (trimEnd m) ≤ 32 then some (trimEnd m) else none
  sameName_plain := by
    intro name username h hvalid
    exact fold_plain (by simpa using h) hvalid
  md5_short := by
    intro _ m kept h
    split_ifs at h with hlen
    obtain rfl := Option.some.inj h
    exact ⟨rfl, hlen⟩
  md5_exact := by simp

end Dialect

end CloudStore.Model
