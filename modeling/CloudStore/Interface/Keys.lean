import CloudStore.Library.PathWalk
import CloudStore.Model.World
import Mathlib.Data.Nat.Digits.Lemmas

/-!
# Keys

The keys and members of Redis are unambiguous: a decimal number ends at the separator that
follows it, and each kind of key has its own start. What Redis receives of a key is the
key of what it receives of the part that a client chooses.
-/

set_option autoImplicit false

namespace CloudStore.Interface

open CloudStore.Library (Bytes)
open CloudStore.Library.Posix
open CloudStore.Model
open CloudStore.Model.RedisStore

/-! ## Decimal numbers -/

theorem toDecimal_digit {n : ℕ} {c : UInt8} (h : c ∈ toDecimal n) : isDigit c = true := by
  have key : ∀ d < 10, isDigit (48 + UInt8.ofNat d) = true := by decide
  unfold toDecimal at h
  split_ifs at h with hn
  · rw [List.mem_singleton.mp h]
    decide
  · rw [List.mem_map] at h
    obtain ⟨d, hd, rfl⟩ := h
    exact key d (Nat.digits_lt_base (by decide) (List.mem_reverse.mp hd))

/-- Digits read back as the number that they make, most significant digit first. -/
theorem decimalValue_digits {ds : List ℕ} (h : ∀ d ∈ ds, d < 10) :
    decimalValue (ds.reverse.map fun d => 48 + UInt8.ofNat d) = Nat.ofDigits 10 ds := by
  have hdigit : ∀ d < 10, ((48 : UInt8) + UInt8.ofNat d).toNat - 48 = d := by decide
  induction ds with
  | nil => rfl
  | cons d ds ih =>
      have hd := hdigit d (h d List.mem_cons_self)
      have hds := ih fun e he => h e (List.mem_cons_of_mem d he)
      unfold decimalValue at hds ⊢
      rw [List.reverse_cons, List.map_append, List.foldl_append, hds, Nat.ofDigits_cons]
      simp only [List.map_cons, List.map_nil, List.foldl_cons, List.foldl_nil, hd]
      omega

theorem decimalValue_toDecimal (n : ℕ) : decimalValue (toDecimal n) = n := by
  unfold toDecimal
  split_ifs with hn
  · rw [hn]
    rfl
  · rw [decimalValue_digits fun d hd => Nat.digits_lt_base (by decide) hd, Nat.ofDigits_digits]

theorem toDecimal_injective {a b : ℕ} (h : toDecimal a = toDecimal b) : a = b := by
  rw [← decimalValue_toDecimal a, h, decimalValue_toDecimal]

theorem toDecimal_ne_nil (n : ℕ) : toDecimal n ≠ [] := by
  unfold toDecimal
  split_ifs with hn
  · simp
  · simp [Nat.digits_ne_nil_iff_ne_zero.mpr hn]

/-- A number of 64 bits reads back from its text. -/
theorem stoull_toDecimal {n : ℕ} (h : n < 2 ^ 64) : stoull (toDecimal n) = .ok n := by
  have hdigits : (toDecimal n).takeWhile isDigit = toDecimal n := by
    apply List.takeWhile_eq_self_iff.mpr
    intro c
    exact toDecimal_digit
  unfold stoull
  rw [hdigits]
  dsimp only
  rw [decimalValue_toDecimal, if_neg (toDecimal_ne_nil n), if_pos h]

theorem toDecimalInt_char {i : ℤ} {c : UInt8} (h : c ∈ toDecimalInt i) :
    c = 45 ∨ isDigit c = true := by
  unfold toDecimalInt at h
  split_ifs at h
  · cases List.mem_cons.mp h with
    | inl h => exact Or.inl h
    | inr h => exact Or.inr (toDecimal_digit h)
  · exact Or.inr (toDecimal_digit h)

theorem toDecimalInt_injective {a b : ℤ} (h : toDecimalInt a = toDecimalInt b) : a = b := by
  have hminus : ∀ n, 45 ∉ toDecimal n := fun n hn => absurd (toDecimal_digit hn) (by decide)
  unfold toDecimalInt at h
  split_ifs at h with ha hb hb
  · have := toDecimal_injective (List.cons.inj h).2
    omega
  · exact absurd (h ▸ List.mem_cons_self) (hminus b.natAbs)
  · exact absurd (h ▸ List.mem_cons_self) (hminus a.natAbs)
  · have := toDecimal_injective h
    omega

/-- The separators do not occur in decimal numbers. -/
theorem not_mem_toDecimalInt (i : ℤ) :
    58 ∉ toDecimalInt i ∧ 124 ∉ toDecimalInt i ∧ 0 ∉ toDecimalInt i := by
  have key : ∀ c : UInt8, c ∈ toDecimalInt i → c ≠ 58 ∧ c ≠ 124 ∧ c ≠ 0 := by
    intro c hc
    cases toDecimalInt_char hc with
    | inl h => exact h ▸ by decide
    | inr h => refine ⟨?_, ?_, ?_⟩ <;> rintro rfl <;> exact absurd h (by decide)
  exact ⟨fun h => (key _ h).1 rfl, fun h => (key _ h).2.1 rfl, fun h => (key _ h).2.2 rfl⟩

/-- A part that ends at its first separator is determined. -/
theorem cut_at {a b : Bytes} {c : UInt8} {x y : Bytes} (ha : c ∉ a) (hb : c ∉ b)
    (h : a ++ c :: x = b ++ c :: y) : a = b ∧ x = y := by
  induction a generalizing b with
  | nil =>
      cases b with
      | nil => exact ⟨rfl, by simpa using h⟩
      | cons d b =>
          simp only [List.nil_append, List.cons_append, List.cons.injEq] at h
          exact absurd (by simp [h.1]) hb
  | cons d a ih =>
      cases b with
      | nil =>
          simp only [List.nil_append, List.cons_append, List.cons.injEq] at h
          exact absurd (by simp [h.1]) ha
      | cons e b =>
          simp only [List.cons_append, List.cons.injEq] at h
          have := ih (fun hm => ha (by simp [hm])) (fun hm => hb (by simp [hm])) h.2
          exact ⟨by rw [h.1, this.1], this.2⟩

theorem str_colon : str ":" = [58] := by decide

theorem str_bar : str "|" = [124] := by decide

theorem pathKey_injective {u v : ℤ} {p q : Bytes} (h : pathKey u p = pathKey v q) :
    u = v ∧ p = q := by
  simp only [pathKey, List.append_assoc, str_colon, List.singleton_append] at h
  have h' := cut_at (not_mem_toDecimalInt u).1 (not_mem_toDecimalInt v).1
    (List.append_cancel_left h)
  exact ⟨toDecimalInt_injective h'.1, h'.2⟩

theorem refMember_injective {u v : ℤ} {p q : Bytes} (h : refMember u p = refMember v q) :
    u = v ∧ p = q := by
  simp only [refMember, List.append_assoc, str_bar, List.singleton_append] at h
  have h' := cut_at (not_mem_toDecimalInt u).2.1 (not_mem_toDecimalInt v).2.1 h
  exact ⟨toDecimalInt_injective h'.1, h'.2⟩

theorem refsKey_injective {m m' : Bytes} (h : refsKey m = refsKey m') : m = m' :=
  List.append_cancel_left h

theorem objKey_injective {m m' : Bytes} (h : objKey m = objKey m') : m = m' :=
  List.append_cancel_left h

theorem sessionKey_injective {t t' : Bytes} (h : sessionKey t = sessionKey t') : t = t' :=
  List.append_cancel_left h

theorem chalKey_injective {t t' m m' : Bytes} (ht : 58 ∉ t) (ht' : 58 ∉ t')
    (h : chalKey t m = chalKey t' m') : t = t' ∧ m = m' := by
  simp only [chalKey, List.append_assoc, str_colon, List.singleton_append] at h
  exact cut_at ht ht' (List.append_cancel_left h)

/-! ## Kinds of keys -/

/-- Two texts that differ within their starts differ. -/
theorem ne_of_take_ne {a b : Bytes} (n : ℕ) (h : a.take n ≠ b.take n) : a ≠ b :=
  fun heq => h (heq ▸ rfl)

theorem start_take {a : Bytes} {n : ℕ} (h : n ≤ a.length) (b : Bytes) :
    (a ++ b).take n = a.take n := by
  rw [List.take_append_of_le_length h]

theorem objKey_ne_pathKey (m : Bytes) (u : ℤ) (p : Bytes) : objKey m ≠ pathKey u p := by
  refine ne_of_take_ne 4 ?_
  simp only [objKey, pathKey, List.append_assoc]
  rw [start_take (by decide), start_take (by decide)]
  decide

theorem objKey_ne_objsizeKey (m m' : Bytes) : objKey m ≠ objsizeKey m' := by
  refine ne_of_take_ne 7 ?_
  simp only [objKey, objsizeKey]
  rw [start_take (by decide), start_take (by decide)]
  decide

theorem objKey_ne_refsKey (m m' : Bytes) : objKey m ≠ refsKey m' := by
  refine ne_of_take_ne 4 ?_
  simp only [objKey, refsKey]
  rw [start_take (by decide), start_take (by decide)]
  decide

theorem objKey_ne_chalKey (m t m' : Bytes) : objKey m ≠ chalKey t m' := by
  refine ne_of_take_ne 4 ?_
  simp only [objKey, chalKey, List.append_assoc]
  rw [start_take (by decide), start_take (by decide)]
  decide

theorem pathKey_ne_objsizeKey (u : ℤ) (p m : Bytes) : pathKey u p ≠ objsizeKey m := by
  refine ne_of_take_ne 4 ?_
  simp only [objsizeKey, pathKey, List.append_assoc]
  rw [start_take (by decide), start_take (by decide)]
  decide

theorem pathKey_ne_refsKey (u : ℤ) (p m : Bytes) : pathKey u p ≠ refsKey m := by
  refine ne_of_take_ne 4 ?_
  simp only [refsKey, pathKey, List.append_assoc]
  rw [start_take (by decide), start_take (by decide)]
  decide

theorem pathKey_ne_chalKey (u : ℤ) (p t m : Bytes) : pathKey u p ≠ chalKey t m := by
  refine ne_of_take_ne 4 ?_
  simp only [chalKey, pathKey, List.append_assoc]
  rw [start_take (by decide), start_take (by decide)]
  decide

theorem chalKey_ne_objsizeKey (t m m' : Bytes) : chalKey t m ≠ objsizeKey m' := by
  refine ne_of_take_ne 4 ?_
  simp only [objsizeKey, chalKey, List.append_assoc]
  rw [start_take (by decide), start_take (by decide)]
  decide

theorem chalKey_ne_refsKey (t m m' : Bytes) : chalKey t m ≠ refsKey m' := by
  refine ne_of_take_ne 4 ?_
  simp only [refsKey, chalKey, List.append_assoc]
  rw [start_take (by decide), start_take (by decide)]
  decide

theorem refsKey_ne_objsizeKey (m m' : Bytes) : refsKey m ≠ objsizeKey m' := by
  refine ne_of_take_ne 4 ?_
  simp only [objsizeKey, refsKey]
  rw [start_take (by decide), start_take (by decide)]
  decide

/-! ## What Redis receives -/

variable (d : Dialect)

theorem arg_append {s : Bytes} (hs : 0 ∉ s) (s' : Bytes) : d.arg (s ++ s') = s ++ d.arg s' := by
  unfold Dialect.arg
  split
  · exact cstr_append hs s'
  · rfl

theorem arg_arg (s : Bytes) : d.arg (d.arg s) = d.arg s := by
  unfold Dialect.arg
  split
  · exact cstr_of_zero_not_mem (zero_not_mem_cstr s)
  · rfl

theorem arg_of_zero_not_mem {s : Bytes} (hs : 0 ∉ s) : d.arg s = s := by
  unfold Dialect.arg
  split
  · exact cstr_of_zero_not_mem hs
  · rfl

theorem arg_objKey (m : Bytes) : d.arg (objKey m) = objKey (d.arg m) := arg_append d (by decide) m

theorem arg_objsizeKey (m : Bytes) : d.arg (objsizeKey m) = objsizeKey (d.arg m) :=
  arg_append d (by decide) m

theorem arg_refsKey (m : Bytes) : d.arg (refsKey m) = refsKey (d.arg m) :=
  arg_append d (by decide) m

theorem arg_sessionKey (t : Bytes) : d.arg (sessionKey t) = sessionKey (d.arg t) :=
  arg_append d (by decide) t

theorem arg_pathKey (u : ℤ) (p : Bytes) : d.arg (pathKey u p) = pathKey u (d.arg p) := by
  have hzero : 0 ∉ str "cs:path:" ++ toDecimalInt u ++ str ":" := by
    simp only [List.mem_append, not_or]
    exact ⟨⟨by decide, (not_mem_toDecimalInt u).2.2⟩, by decide⟩
  exact arg_append d hzero p

theorem arg_refMember (u : ℤ) (p : Bytes) : d.arg (refMember u p) = refMember u (d.arg p) := by
  have hzero : 0 ∉ toDecimalInt u ++ str "|" := by
    simp only [List.mem_append, not_or]
    exact ⟨(not_mem_toDecimalInt u).2.2, by decide⟩
  exact arg_append d hzero p

/-- A challenge key stays of its kind, and is unchanged where Redis takes keys exactly. -/
theorem arg_chalKey (t m : Bytes) :
    ∃ rest, d.arg (chalKey t m) = str "cs:chal:" ++ rest ∧
      (d.cStrings = false → d.arg (chalKey t m) = chalKey t m) := by
  refine ⟨d.arg (t ++ str ":" ++ m), ?_, ?_⟩
  · rw [chalKey, List.append_assoc, List.append_assoc, List.append_assoc]
    exact arg_append d (by decide) _
  · intro h
    simp [Dialect.arg, h]

end CloudStore.Interface
