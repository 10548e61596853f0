import CloudStore.Model.Transfer

/-!
# The window of a challenge

`queryInstant` takes its seed modulo the number of bytes in front of the last window, which is
one less than the number of windows. So the last byte of an object that is longer than the
window is never asked for. Every other byte can be, and no window leaves the object.
-/

set_option autoImplicit false

namespace CloudStore.Analysis

open CloudStore.Model.TransferService

/-- A window, given by offset and length, has a byte. -/
def Covers (window : ℕ × ℕ) (i : ℕ) : Prop := window.1 ≤ i ∧ i < window.1 + window.2

/-- The number of bytes that `queryInstant` asks for, if there are as many. -/
def windowLength (challengeBytes : ℕ) : ℕ := if challengeBytes = 0 then 4096 else challengeBytes

theorem windowLength_pos (challengeBytes : ℕ) : 0 < windowLength challengeBytes := by
  unfold windowLength
  split <;> omega

/-- An object that is not longer than the window is asked for as a whole. -/
theorem challengeWindow_short {challengeBytes size : ℕ} (hpos : 0 < size)
    (h : size ≤ windowLength challengeBytes) (seed : ℕ) :
    challengeWindow challengeBytes size seed = (0, size) := by
  have hlen : (if windowLength challengeBytes > size then size else windowLength challengeBytes) =
      size := by
    split <;> omega
  unfold challengeWindow
  rw [if_neg (by omega)]
  dsimp only
  rw [show (if challengeBytes = 0 then 4096 else challengeBytes) = windowLength challengeBytes
    from rfl, hlen]
  simp

/-- The windows of a longer object start in front of the last one. -/
theorem challengeWindow_long {challengeBytes size : ℕ} (h : windowLength challengeBytes < size)
    (seed : ℕ) : challengeWindow challengeBytes size seed =
      (seed % (size - windowLength challengeBytes), windowLength challengeBytes) := by
  have hlen : (if windowLength challengeBytes > size then size else windowLength challengeBytes) =
      windowLength challengeBytes := if_neg (by omega)
  have hspan : (if size > windowLength challengeBytes then size - windowLength challengeBytes
      else 0) = size - windowLength challengeBytes := if_pos h
  unfold challengeWindow
  rw [if_neg (by omega)]
  dsimp only
  rw [show (if challengeBytes = 0 then 4096 else challengeBytes) = windowLength challengeBytes
    from rfl, hlen, hspan, if_pos (by omega)]

/-- No window leaves the object. -/
theorem challengeWindow_inside {size : ℕ} (hpos : 0 < size) (challengeBytes seed : ℕ) :
    (challengeWindow challengeBytes size seed).1 + (challengeWindow challengeBytes size seed).2 ≤
      size := by
  by_cases h : size ≤ windowLength challengeBytes
  · rw [challengeWindow_short hpos h]
    simp
  · rw [challengeWindow_long (by omega)]
    have hlt := Nat.mod_lt seed (show 0 < size - windowLength challengeBytes by omega)
    dsimp only
    omega

/-- **Which bytes a challenge can ask for**: all but the last byte of an object that is longer
than the window. -/
theorem challenge_covers_iff {size i : ℕ} (hi : i < size) (hrange : size < 2 ^ 64)
    (challengeBytes : ℕ) :
    ((∃ seed < 2 ^ 64, Covers (challengeWindow challengeBytes size seed) i) ∧
      ∀ seed < 2 ^ 64, (challengeWindow challengeBytes size seed).1 +
        (challengeWindow challengeBytes size seed).2 ≤ size) ↔
      i + 1 < size ∨ size ≤ windowLength challengeBytes := by
  have hpos : 0 < size := by omega
  have hwindow := windowLength_pos challengeBytes
  rw [and_iff_left fun seed _ => challengeWindow_inside hpos challengeBytes seed]
  unfold Covers
  by_cases h : size ≤ windowLength challengeBytes
  · refine iff_of_true ⟨0, by omega, ?_⟩ (Or.inr h)
    rw [challengeWindow_short hpos h]
    exact ⟨Nat.zero_le i, by simpa using hi⟩
  · simp only [challengeWindow_long (show windowLength challengeBytes < size by omega)]
    constructor
    · rintro ⟨seed, -, -, hlast⟩
      have hlt := Nat.mod_lt seed (show 0 < size - windowLength challengeBytes by omega)
      omega
    · intro hlast
      -- the window that starts at the byte, or the last one there is
      by_cases hstart : i < size - windowLength challengeBytes
      · refine ⟨i, by omega, ?_⟩
        rw [Nat.mod_eq_of_lt hstart]
        omega
      · refine ⟨size - windowLength challengeBytes - 1, by omega, ?_⟩
        rw [Nat.mod_eq_of_lt (by omega)]
        omega

/-- The first byte of three is covered by a window of two. -/
theorem challenge_covers_first : (∃ seed < 2 ^ 64, Covers (challengeWindow 2 3 seed) 0) ∧
    ∀ seed < 2 ^ 64, (challengeWindow 2 3 seed).1 + (challengeWindow 2 3 seed).2 ≤ 3 :=
  (challenge_covers_iff (by decide) (by decide) 2).mpr (Or.inl (by decide))

/-- Under the default setting no seed asks for the last byte of 4097. -/
theorem last_byte_uncovered : ¬ ∃ seed < 2 ^ 64, Covers (challengeWindow 4096 4097 seed) 4096 := by
  rintro ⟨seed, -, -, hlast⟩
  rw [challengeWindow_long (show windowLength 4096 < 4097 by decide)] at hlast
  have hlt := Nat.mod_lt seed (show 0 < 4097 - windowLength 4096 by decide)
  rw [show windowLength 4096 = 4096 from rfl] at hlast hlt
  dsimp only at hlast
  omega

end CloudStore.Analysis
