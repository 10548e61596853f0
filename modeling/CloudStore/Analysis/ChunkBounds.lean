import CloudStore.Interface.PartFile
import CloudStore.Interface.Playback
import Mathlib.Data.List.GetD

/-!
# The size of an upload bounds its chunks

The bound that `writeChunk` checks is a sum on 64 bits. Where the sum wraps, the offset is negative
for `pwrite`, which refuses it; so no chunk gets past the announced size, and what is counted as
received only grows.
-/

set_option autoImplicit false

namespace CloudStore.Analysis

open CloudStore.Library (Bytes Machine Action)
open CloudStore.Library.Action (bind_ok)
open CloudStore.Library.Posix (splice)
open CloudStore.Model
open CloudStore.Model.TransferService
open CloudStore.Model.World (files backend written)
open CloudStore.Interface

/-! ## Bytes -/

/-- The byte of a file at a position; there are zeros in its gaps and behind its end. -/
def byteAt (x : Bytes) (k : ℕ) : UInt8 := x.getD k 0

/-- The bytes of `data` stand at the offset, and all others are as they were. -/
structure Replaced (old new : Bytes) (offset : ℕ) (data : Bytes) : Prop where
  length : new.length = if data = [] then old.length else max old.length (offset + data.length)
  inside : ∀ k, k < data.length → byteAt new (offset + k) = byteAt data k
  outside : ∀ k, k < offset ∨ offset + data.length ≤ k → byteAt new k = byteAt old k

theorem splice_replaced (old : Bytes) (offset : ℕ) {data : Bytes} (hdata : data ≠ []) :
    Replaced old (splice old offset data) offset data := by
  have hstart : ((old ++ List.replicate (offset - old.length) 0).take offset).length = offset := by
    rw [List.length_take, List.length_append, List.length_replicate]
    omega
  have hpos : 0 < data.length := List.length_pos_of_ne_nil hdata
  refine ⟨?_, ?_, ?_⟩
  · unfold splice
    rw [List.length_append, List.length_append, hstart, List.length_drop, if_neg hdata]
    omega
  · intro k hk
    unfold byteAt splice
    rw [List.getD_append _ _ _ _ (by rw [List.length_append, hstart]; omega),
      List.getD_append_right _ _ _ _ (by rw [hstart]; omega), hstart, Nat.add_sub_cancel_left]
  · intro k hk
    unfold byteAt splice
    cases hk with
    | inl hk =>
        rw [List.getD_append _ _ _ _ (by rw [List.length_append, hstart]; omega),
          List.getD_append _ _ _ _ (by rw [hstart]; exact hk), List.getD_eq_getElem?_getD,
          List.getElem?_take_of_lt hk, ← List.getD_eq_getElem?_getD]
        by_cases hold : k < old.length
        · rw [List.getD_append _ _ _ _ hold]
        · rw [List.getD_append_right _ _ _ _ (by omega), List.getD_replicate _ (by omega),
            List.getD_eq_default _ _ (by omega)]
    | inr hk =>
        rw [List.getD_append_right _ _ _ _ (by rw [List.length_append, hstart]; omega),
          List.length_append, hstart, List.getD_eq_getElem?_getD, List.getElem?_drop,
          ← List.getD_eq_getElem?_getD]
        congr 1
        omega

theorem written_replaced (old : Bytes) (offset : ℕ) (data : Bytes) :
    Replaced old (written old offset data) offset data := by
  unfold written
  split
  next hdata =>
    subst hdata
    exact ⟨by simp, by simp, fun _ _ => rfl⟩
  next hdata => exact splice_replaced old offset hdata

/-! ## One chunk -/

variable {env : Env} {w : World} {st : UploadSession} {fd offset : ℕ} {data : Bytes}

/-- `pwrite` refuses an offset that is negative as `off_t`; from others on it writes a part. -/
theorem pwrite_signed (i off : ℕ) (bytes : Bytes) (w : World) :
    (off < 2 ^ 63 ∧ ∃ part, part <+: bytes ∧
      (files env).pwrite i off bytes w = (.ok (.ok part.length),
        { w with fs := w.fs.write i (written (w.fs.data i) off part) })) ∨
      ∃ e, (files env).pwrite i off bytes w = (.ok (.error e), w) := by
  by_cases hfits : off + bytes.length < 2 ^ 63
  · rcases @pwrite_cases env i off bytes w with ⟨part, hpart, -, h⟩ | h
    · exact Or.inl ⟨by omega, part, hpart, h⟩
    · exact Or.inr h
  · right
    refine ⟨.einval, ?_⟩
    simp only [files, Action.move_apply, if_pos hfits]

/-- What becomes of a chunk: it is refused, and nothing has changed; a part of it is written, and
it is refused; or it is written, which counts as received. -/
theorem writeChunk_cases (hfd : st.fd = some fd) (hreceived : st.received ≤ st.totalSize)
    (hlength : data.length < 2 ^ 32) :
    (∃ e, writeChunk (backend env) offset data (w, st) = (.error e, w, st)) ∨
      offset + data.length ≤ st.totalSize ∧ ∃ part n, part <+: data ∧
        st.received ≤ n ∧ n ≤ st.totalSize ∧ ∃ r, writeChunk (backend env) offset data (w, st) =
          (r, { w with fs := w.fs.write fd (written (w.fs.data fd) offset part) },
            { st with received := n }) ∧ (r = .ok () → part = data) := by
  obtain ⟨f, hf⟩ : ∃ f : ℕ → UploadSession, ∀ n, f n = { st with received := n } := ⟨_, fun _ => rfl⟩
  have hself : st = f st.received := by rw [hf]
  simp only [← hf]
  unfold writeChunk
  rw [bind_ok (Action.look_apply Prod.snd (w, st))]
  simp only [hfd, World.backend_files]
  by_cases hstop : (offset + data.length) % 2 ^ 64 > st.totalSize
  · rw [if_pos hstop]
    exact Or.inl ⟨_, rfl⟩
  · rw [if_neg hstop]
    rcases @pwrite_signed env fd offset data w with ⟨hsigned, part, hpart, h⟩ | ⟨e, h⟩
    · right
      -- an offset below `2 ^ 63` and a length below `2 ^ 32` have a sum that does not wrap
      have hsum : (offset + data.length) % 2 ^ 64 = offset + data.length := Nat.mod_eq_of_lt (by omega)
      rw [hsum] at hstop ⊢
      refine ⟨by omega, part, ?_⟩
      have hwrite : onSystem ((files env).pwrite fd offset data) (w, st) =
          (.ok (.ok part.length), ({ w with
            fs := w.fs.write fd (written (w.fs.data fd) offset part) }, st)) := by
        simp only [onSystem, Action.zoom_apply, h]
      rw [bind_ok hwrite]
      dsimp only
      split
      next hshort =>
        refine ⟨st.received, hpart, le_refl _, hreceived,
          .error (.cloud .internal (str "pwrite failed")), ?_, by simp⟩
        rw [← hself]
        rfl
      next hall =>
        have hwhole : part = data := hpart.eq_of_length (not_not.mp hall)
        split
        next hmore =>
          refine ⟨offset + data.length, hpart, by omega, by omega, .ok (), ?_, fun _ => hwhole⟩
          rw [hf]
          rfl
        next hless =>
          refine ⟨st.received, hpart, le_refl _, hreceived, .ok (), ?_, fun _ => hwhole⟩
          rw [← hself]
          rfl
    · left
      have hwrite : onSystem ((files env).pwrite fd offset data) (w, st) =
          (.ok (.error e), (w, st)) := by
        simp only [onSystem, Action.zoom_apply, h]
      rw [bind_ok hwrite]
      exact ⟨_, rfl⟩

/-! ## Any number of chunks -/

/-- What happens to an open upload: a chunk that a client has sent, or anything else in the
stores. -/
inductive UploadEvent where
  | chunk (offset : ℕ) (data : Bytes)
  | elsewhere (change : World → World)

/-- The stores and an upload as a machine. -/
def chunkMachine (env : Env) : Machine (World × UploadSession) UploadEvent (Except Exn Unit) where
  step := fun s e =>
    match e with
    | .chunk offset data =>
      let r := writeChunk (backend env) offset data s
      (r.2, r.1)
    | .elsewhere change => ((change s.1, s.2), .ok ())

/-- An open upload that has received no more than its size. -/
def OpenWithin (fd : ℕ) (s : World × UploadSession) : Prop :=
  s.2.fd = some fd ∧ s.2.received ≤ s.2.totalSize

/-- Offsets have 64 bits, lengths 32. -/
def MachineSized : UploadEvent → Prop
  | .chunk offset data => offset < 2 ^ 64 ∧ data.length < 2 ^ 32
  | .elsewhere _ => True

/-- A chunk that reaches past the size is refused and changes nothing; one that is accepted has
replaced the bytes of its range, and no others of any file. -/
structure Respected (env : Env) (fd : ℕ) (s : World × UploadSession) (offset : ℕ) (data : Bytes) :
    Prop where
  beyond : s.2.totalSize < offset + data.length →
    ∃ e, writeChunk (backend env) offset data s = (.error e, s)
  accepted : (writeChunk (backend env) offset data s).1 = .ok () →
    Replaced (s.1.fs.data fd) ((writeChunk (backend env) offset data s).2.1.fs.data fd) offset data ∧
      ∀ i, i ≠ fd → (writeChunk (backend env) offset data s).2.1.fs.data i = s.1.fs.data i

theorem writeChunk_respected {s : World × UploadSession} (h : OpenWithin fd s)
    (hlength : data.length < 2 ^ 32) :
    Respected env fd s offset data := by
  obtain ⟨w, st⟩ := s
  obtain ⟨hfd, hreceived⟩ := h
  constructor
  · intro hbeyond
    rcases @writeChunk_cases env w st fd offset data hfd hreceived hlength with h | h
    · exact h
    · exact absurd h.1 (not_le.mpr hbeyond)
  · intro hok
    rcases @writeChunk_cases env w st fd offset data hfd hreceived hlength with
      ⟨e, h⟩ | ⟨-, part, n, -, -, -, r, h, hwhole⟩
    · rw [h] at hok
      cases hok
    · rw [h] at hok ⊢
      obtain rfl := hwhole hok
      constructor
      · simpa using written_replaced (w.fs.data fd) offset part
      · intro i hi
        simp [Function.update_of_ne hi]

theorem chunk_step {s : World × UploadSession} (h : OpenWithin fd s) {e : UploadEvent}
    (he : MachineSized e) : OpenWithin fd ((chunkMachine env).step s e).1 ∧
      s.2.received ≤ ((chunkMachine env).step s e).1.2.received := by
  obtain ⟨w, st⟩ := s
  cases e with
  | elsewhere change => exact ⟨h, le_refl _⟩
  | chunk offset data =>
      obtain ⟨hfd, hreceived⟩ := h
      rcases @writeChunk_cases env w st fd offset data hfd hreceived he.2 with
        ⟨e, h⟩ | ⟨-, part, n, -, hless, hbound, r, h, -⟩
      · simp only [chunkMachine, h]
        exact ⟨⟨hfd, hreceived⟩, le_refl _⟩
      · simp only [chunkMachine, h]
        exact ⟨⟨hfd, hbound⟩, hless⟩

/-- **The size of an upload bounds its chunks.** Over any sequence of calls, each chunk is refused
or stays in its range, and what is counted as received does not exceed the size and never
decreases. -/
theorem chunks_respect_size
    {hist : List (Machine.Record (World × UploadSession) UploadEvent (Except Exn Unit))}
    {s : World × UploadSession}
    (run : (chunkMachine env).Run (OpenWithin fd) (fun _ => MachineSized) hist s) :
    s.2.received ≤ s.2.totalSize ∧ (∀ r ∈ hist, r.before.2.received ≤ s.2.received) ∧
      ∀ r ∈ hist, ∀ offset data, r.event = .chunk offset data →
        Respected env fd r.before offset data := by
  have hinv : OpenWithin fd s ∧ (∀ r ∈ hist, r.before.2.received ≤ s.2.received) ∧
      ∀ r ∈ hist, ∀ offset data, r.event = .chunk offset data →
        Respected env fd r.before offset data := by
    induction run with
    | start h => exact ⟨h, by simp, by simp⟩
    | @step hist s run e he ih =>
        obtain ⟨hopen, hgrown, hrespected⟩ := ih
        obtain ⟨hopen', hmore⟩ := chunk_step hopen he
        refine ⟨hopen', fun r hr => ?_, fun r hr offset data hevent => ?_⟩
        · cases List.mem_cons.mp hr with
          | inl heq =>
              subst heq
              exact hmore
          | inr hr => exact (hgrown r hr).trans hmore
        · cases List.mem_cons.mp hr with
          | inl heq =>
              subst heq
              have hevent : e = .chunk offset data := hevent
              subst hevent
              exact writeChunk_respected hopen he.2
          | inr hr => exact hrespected r hr offset data hevent
  exact ⟨hinv.1.2, hinv.2⟩

/-- A chunk whose end wraps to zero, in an upload of one byte. -/
theorem chunks_respect_size_wrapped : ∃ w : World,
    Respected Sample.env 0 (w, { fd := some 0, totalSize := 1 }) (2 ^ 64 - 1) (str "a") := by
  have hstart : OpenWithin 0 ((Sample.after []).world, { fd := some 0, totalSize := 1 }) :=
    ⟨rfl, Nat.zero_le 1⟩
  generalize (Sample.after []).world = w at hstart
  have hsized : MachineSized (.chunk (2 ^ 64 - 1) (str "a")) := ⟨by norm_num, by decide⟩
  have hrun : (chunkMachine Sample.env).Run (OpenWithin 0) (fun _ => MachineSized) _ _ :=
    .step (.start hstart) _ hsized
  exact ⟨w, (chunks_respect_size hrun).2.2 _ List.mem_cons_self _ _ rfl⟩

end CloudStore.Analysis
