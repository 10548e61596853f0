import Mathlib.Data.List.Induction

/-!
# Frames in a stream

A reader gathers the pieces of a stream in a buffer and takes frames off its front as long
as a whole one is there. `Framing` states what the reader relies on: a frame is recognised
in front of anything, and a proper start of a frame is waited on. Then the frames come out
as they were sent, however the stream was cut (`Framing.feed_all`).
-/

set_option autoImplicit false

namespace CloudStore.Library

/-- What a reader makes of its buffer. -/
inductive Next (α F : Type) where
  | wait
  | bad
  | frame (f : F) (rest : List α)

/-- A reader with a state: the buffer, and whether it has given up. -/
structure Reader (α σ : Type) where
  state : σ
  input : List α := []
  closed : Bool := false

/-- An encoding of frames and a test for a frame in front of a buffer that fit together. -/
structure Framing (α F : Type) where
  encode : F → List α
  next : List α → Next α F
  Ok : F → Prop
  encode_ne : ∀ f, encode f ≠ []
  next_nil : next [] = .wait
  next_encode : ∀ f rest, Ok f → next (encode f ++ rest) = .frame f rest
  next_start : ∀ f p q, Ok f → q ≠ [] → p ++ q = encode f → next p = .wait

namespace Framing

variable {α F σ : Type} (fr : Framing α F) (handle : σ → F → σ)

/-- Take frames off the buffer and handle them, for at most so many rounds. -/
def pump : ℕ → Reader α σ → Reader α σ
  | 0, r => r
  | n + 1, r =>
    match fr.next r.input with
    | .wait => r
    | .bad => { r with closed := true }
    | .frame f rest => pump n { r with state := handle r.state f, input := rest }

/-- A piece of the stream arrives. -/
def feed (r : Reader α σ) (piece : List α) : Reader α σ :=
  if r.closed then r
  else fr.pump handle ((r.input ++ piece).length + 1) { r with input := r.input ++ piece }

/-- The stream of a list of frames. -/
def stream (fs : List F) : List α := fs.flatMap fr.encode

/-- The buffer is empty or a proper start of the next frame. -/
def Pending (todo : List F) (b : List α) : Prop :=
  b = [] ∨ ∃ f q, f ∈ todo.head? ∧ q ≠ [] ∧ b ++ q = fr.encode f

variable {fr}

/-- **Pumping a part of a stream**: the frames that are there as a whole are handled, and what
remains is a start of the next one. Induction on the frames to come. -/
theorem pump_stream {fs : List F} (hok : ∀ f ∈ fs, fr.Ok f) {b later : List α}
    (hb : b ++ later = fr.stream fs) {n : ℕ} (hn : b.length < n) (s : σ) :
    ∃ done todo b', fs = done ++ todo ∧ b' ++ later = fr.stream todo ∧ fr.Pending todo b' ∧
      fr.pump handle n { state := s, input := b } =
        { state := done.foldl handle s, input := b' } := by
  induction fs generalizing b n s with
  | nil =>
      obtain ⟨rfl, rfl⟩ := List.append_eq_nil_iff.mp hb
      refine ⟨[], [], [], rfl, rfl, Or.inl rfl, ?_⟩
      cases n with
      | zero => rfl
      | succ n => simp [pump, fr.next_nil]
  | cons f fs ih =>
      cases n with
      | zero => omega
      | succ n =>
          have hf := hok f List.mem_cons_self
          have hsplit : b ++ later = fr.encode f ++ fr.stream fs := hb
          rcases List.append_eq_append_iff.mp hsplit with ⟨q, hq, hlater⟩ | ⟨b', hb', hrest⟩
          · by_cases hne : q = []
            · -- the buffer is the frame
              subst hne
              rw [List.append_nil] at hq
              simp only [List.nil_append] at hlater
              obtain ⟨done, todo, b', hfs, hb', hstart, hpump⟩ :=
                ih (fun g hg => hok g (List.mem_cons_of_mem _ hg)) (b := []) hlater (n := n)
                  (by have := List.length_pos_iff.mpr (fr.encode_ne f); simp [← hq] at hn ⊢; omega)
                  (handle s f)
              refine ⟨f :: done, todo, b', by rw [hfs]; rfl, hb', hstart, ?_⟩
              have hnext := fr.next_encode f [] hf
              rw [List.append_nil, hq] at hnext
              simp only [pump, hnext]
              exact hpump
            · -- the buffer is a proper start of the frame
              refine ⟨[], f :: fs, b, rfl, hb, Or.inr ⟨f, q, rfl, hne, hq.symm⟩, ?_⟩
              simp [pump, fr.next_start f b q hf hne hq.symm]
          · obtain ⟨done, todo, b'', hfs, hb'', hstart, hpump⟩ :=
              ih (fun g hg => hok g (List.mem_cons_of_mem _ hg)) hrest.symm (n := n)
                (by have := List.length_pos_iff.mpr (fr.encode_ne f); simp [hb'] at hn; omega)
                (handle s f)
            refine ⟨f :: done, todo, b'', by rw [hfs]; rfl, hb'', hstart, ?_⟩
            simp only [pump, hb', fr.next_encode f b' hf]
            exact hpump

/-- **However a stream is cut**, after the pieces of a start of it the frames that are there as a
whole have been handled, in order, and the buffer holds the start of the next one. Induction on
the pieces. -/
theorem feed_start {fs : List F} (hok : ∀ f ∈ fs, fr.Ok f) {pieces : List (List α)} {later : List α}
    (h : pieces.flatten ++ later = fr.stream fs) (s : σ) :
    ∃ done todo b, fs = done ++ todo ∧ b ++ later = fr.stream todo ∧ fr.Pending todo b ∧
      pieces.foldl (fr.feed handle) { state := s } =
        { state := done.foldl handle s, input := b } := by
  induction pieces using List.reverseRecOn generalizing later with
  | nil => exact ⟨[], fs, [], rfl, h, Or.inl rfl, rfl⟩
  | append_singleton pieces piece ih =>
      rw [List.flatten_append, List.flatten_singleton, List.append_assoc] at h
      obtain ⟨done, todo, b, rfl, hb, -, hfeed⟩ := ih h
      rw [← List.append_assoc] at hb
      obtain ⟨done', todo', b', rfl, hb', hpending, hpump⟩ := pump_stream handle
        (fun f hf => hok f (List.mem_append_right _ hf)) hb (Nat.lt_succ_self _) (done.foldl handle s)
      refine ⟨done ++ done', todo', b', by rw [List.append_assoc], hb', hpending, ?_⟩
      rw [List.foldl_append, hfeed, List.foldl_append]
      simpa [feed] using hpump

/-- **Frames come out as they were sent.** -/
theorem feed_all {fs : List F} (hok : ∀ f ∈ fs, fr.Ok f) {pieces : List (List α)}
    (h : pieces.flatten = fr.stream fs) (s : σ) :
    pieces.foldl (fr.feed handle) { state := s } = { state := fs.foldl handle s } := by
  obtain ⟨done, todo, b, rfl, hb, hpending, hfeed⟩ := feed_start handle hok
    (show pieces.flatten ++ [] = fr.stream fs by rw [List.append_nil, h]) s
  rw [List.append_nil] at hb
  have hdone : todo = [] := by
    cases todo with
    | nil => rfl
    | cons f todo =>
        have hlen := congrArg List.length hb
        have hpos := List.length_pos_iff.mpr (fr.encode_ne f)
        simp only [stream, List.flatMap_cons, List.length_append] at hlen
        rcases hpending with rfl | ⟨g, q, hg, hq, hstart⟩
        · simp at hlen
          omega
        · obtain rfl : f = g := by simpa using hg
          have hshort := congrArg List.length hstart
          have hqpos := List.length_pos_iff.mpr hq
          rw [List.length_append] at hshort
          omega
  subst hdone
  rw [hfeed, hb]
  simp [stream]

/-! ## Any stream -/

/-- Nothing is a frame that is not written as it was read, and a bad start stays bad. -/
structure Exact (fr : Framing α F) : Prop where
  next_frame : ∀ {b rest f}, fr.next b = .frame f rest → fr.Ok f ∧ b = fr.encode f ++ rest
  next_bad : ∀ {b}, fr.next b = .bad → ∀ c, fr.next (b ++ c) = .bad

/-- The buffer is waited on, or it is given up on. -/
def Rests (fr : Framing α F) (r : Reader α σ) : Prop :=
  fr.next r.input = if r.closed then .bad else .wait

/-- A reader has handled the frames and is left with the buffer. -/
def Ends (fr : Framing α F) (handle : σ → F → σ) (s : σ) (b : List α) (done : List F)
    (r : Reader α σ) : Prop :=
  (∀ f ∈ done, fr.Ok f) ∧ b = fr.stream done ++ r.input ∧ r.state = done.foldl handle s ∧
    fr.Rests r

/-- **Pumping any buffer**: it is cut into frames, which are handled, and a rest. Induction on the
rounds; a frame that is taken off shortens the buffer. -/
theorem pump_ends (hex : fr.Exact) {b : List α} {n : ℕ} (hn : b.length < n) (s : σ) :
    ∃ done, fr.Ends handle s b done (fr.pump handle n { state := s, input := b }) := by
  induction n generalizing b s with
  | zero => omega
  | succ n ih =>
      unfold pump
      cases hnext : fr.next b with
      | wait => exact ⟨[], by simp, rfl, rfl, hnext⟩
      | bad => exact ⟨[], by simp, rfl, rfl, hnext⟩
      | frame f rest =>
          obtain ⟨hok, hb⟩ := hex.next_frame hnext
          have hpos := List.length_pos_iff.mpr (fr.encode_ne f)
          have hlen : rest.length < n := by
            rw [hb, List.length_append] at hn
            omega
          obtain ⟨done, hdone, hrest, hstate, hends⟩ := ih hlen (handle s f)
          refine ⟨f :: done, ?_, ?_, hstate, hends⟩
          · intro g hg
            rcases List.mem_cons.mp hg with rfl | hg
            · exact hok
            · exact hdone g hg
          · rw [hb]
            exact (congrArg (fr.encode f ++ ·) hrest).trans (List.append_assoc _ _ _).symm

/-- A stream is cut into frames in one way only. Induction on the frames of one cut. -/
theorem stream_inj {done done' : List F} {b b' : List α} (hok : ∀ f ∈ done, fr.Ok f)
    (hok' : ∀ f ∈ done', fr.Ok f) (hb : ∀ f rest, fr.next b ≠ .frame f rest)
    (hb' : ∀ f rest, fr.next b' ≠ .frame f rest)
    (h : fr.stream done ++ b = fr.stream done' ++ b') : done = done' ∧ b = b' := by
  induction done generalizing done' with
  | nil =>
      cases done' with
      | nil => exact ⟨rfl, h⟩
      | cons f done' =>
          have hnext := fr.next_encode f (fr.stream done' ++ b') (hok' f List.mem_cons_self)
          rw [← List.append_assoc] at hnext
          exact absurd ((congrArg fr.next h).trans hnext) (hb _ _)
  | cons f done ih =>
      have hnext := fr.next_encode f (fr.stream done ++ b) (hok f List.mem_cons_self)
      rw [← List.append_assoc] at hnext
      have hsame : fr.next (fr.stream done' ++ b') = .frame f (fr.stream done ++ b) :=
        (congrArg fr.next h).symm.trans hnext
      cases done' with
      | nil => exact absurd hsame (hb' _ _)
      | cons g done' =>
          have hnext' := fr.next_encode g (fr.stream done' ++ b') (hok' g List.mem_cons_self)
          rw [← List.append_assoc] at hnext'
          obtain ⟨rfl, hrest⟩ := Next.frame.inj (hsame.symm.trans hnext')
          obtain ⟨rfl, rfl⟩ := ih (fun f hf => hok f (List.mem_cons_of_mem _ hf))
            (fun f hf => hok' f (List.mem_cons_of_mem _ hf)) hrest
          exact ⟨rfl, rfl⟩

/-- A rest is no frame. -/
theorem Rests.no_frame {r : Reader α σ} (h : fr.Rests r) (f : F) (rest : List α) :
    fr.next r.input ≠ .frame f rest := by
  unfold Rests at h
  rw [h]
  split <;> simp

/-- Where a piece is added to a reader that is open. -/
theorem feed_ends (hex : fr.Exact) {r : Reader α σ} (hopen : r.closed = false) (piece : List α) :
    ∃ done, fr.Ends handle r.state (r.input ++ piece) done (fr.feed handle r piece) := by
  unfold feed
  rw [hopen]
  exact pump_ends handle hex (Nat.lt_succ_self _) r.state

/-- A reader that has given up ignores what comes. -/
theorem feed_closed {r : Reader α σ} (hclosed : r.closed = true) (piece : List α) :
    fr.feed handle r piece = r := by
  unfold feed
  rw [hclosed]
  rfl

/-- A reader has handled the frames of a stream; what came after it gave up is left. -/
structure Cut (fr : Framing α F) (handle : σ → F → σ) (s : σ) (b : List α) (r : Reader α σ)
    (done : List F) (later : List α) : Prop where
  ok : ∀ f ∈ done, fr.Ok f
  stream : b = fr.stream done ++ (r.input ++ later)
  state : r.state = done.foldl handle s
  rests : fr.Rests r
  open_later : r.closed = false → later = []

/-- What remains of a stream is waited on or given up on as a whole. -/
theorem Cut.next_rest (hex : fr.Exact) {s : σ} {b later : List α} {r : Reader α σ} {done : List F}
    (h : fr.Cut handle s b r done later) :
    fr.next (r.input ++ later) = if r.closed then .bad else .wait := by
  have hrests := h.rests
  unfold Rests at hrests
  cases hc : r.closed with
  | false =>
      rw [hc] at hrests
      rw [h.open_later hc, List.append_nil]
      exact hrests
  | true =>
      rw [hc] at hrests
      exact hex.next_bad hrests later

/-- **After the pieces of any stream**, its frames have been handled up to a bad start. Induction on
the pieces. -/
theorem feed_cut (hex : fr.Exact) {r : Reader α σ} (hr : fr.Rests r)
    (pieces : List (List α)) :
    ∃ done later, fr.Cut handle r.state (r.input ++ pieces.flatten)
      (pieces.foldl (fr.feed handle) r) done later := by
  induction pieces using List.reverseRecOn with
  | nil => exact ⟨[], [], by simp, by simp [stream], rfl, hr, fun _ => rfl⟩
  | append_singleton pieces piece ih =>
      obtain ⟨done, later, hcut⟩ := ih
      rw [List.foldl_append, List.foldl_cons, List.foldl_nil, List.flatten_append,
        List.flatten_singleton, ← List.append_assoc, hcut.stream]
      cases hc : (pieces.foldl (fr.feed handle) r).closed with
      | true =>
          rw [feed_closed handle hc]
          refine ⟨done, later ++ piece, hcut.ok, by simp, hcut.state, hcut.rests, ?_⟩
          intro hfalse
          simp [hc] at hfalse
      | false =>
          obtain ⟨done', hok', hstream', hstate', hrests'⟩ := feed_ends handle hex hc piece
          refine ⟨done ++ done', [], ?_, ?_, ?_, hrests', fun _ => rfl⟩
          · intro f hf
            exact (List.mem_append.mp hf).elim (hcut.ok f) (hok' f)
          · rw [hcut.open_later hc, List.append_nil, List.append_nil, List.append_assoc, hstream']
            simp [stream]
          · rw [hstate', hcut.state, List.foldl_append]

/-- **The cut of a stream into pieces does not matter**: the same frames are handled, and the same
streams are given up on. -/
theorem feed_flatten (hex : fr.Exact) {r : Reader α σ} (hr : fr.Rests r) {pieces pieces' : List (List α)} (h : pieces.flatten = pieces'.flatten) :
    (pieces.foldl (fr.feed handle) r).state = (pieces'.foldl (fr.feed handle) r).state ∧
    (pieces.foldl (fr.feed handle) r).closed = (pieces'.foldl (fr.feed handle) r).closed ∧
    ((pieces.foldl (fr.feed handle) r).closed = false →
      (pieces.foldl (fr.feed handle) r).input = (pieces'.foldl (fr.feed handle) r).input) := by
  obtain ⟨done, later, hcut⟩ := feed_cut handle hex hr pieces
  obtain ⟨done', later', hcut'⟩ := feed_cut handle hex hr pieces'
  have hnext := hcut.next_rest handle hex
  have hnext' := hcut'.next_rest handle hex
  have hsame : fr.stream done ++ _ = fr.stream done' ++ _ :=
    hcut.stream.symm.trans ((congrArg (r.input ++ ·) h).trans hcut'.stream)
  obtain ⟨rfl, hrest⟩ := stream_inj hcut.ok hcut'.ok
    (fun f rest => by rw [hnext]; split <;> simp) (fun f rest => by rw [hnext']; split <;> simp) hsame
  rw [hrest, hnext'] at hnext
  refine ⟨hcut.state.trans hcut'.state.symm, ?_, ?_⟩
  · cases hc : (pieces.foldl (fr.feed handle) r).closed <;>
      cases hc' : (pieces'.foldl (fr.feed handle) r).closed <;> simp_all
  · intro hc
    rw [hc] at hnext
    have hc' : (pieces'.foldl (fr.feed handle) r).closed = false := by
      cases hc' : (pieces'.foldl (fr.feed handle) r).closed with
      | false => rfl
      | true => simp [hc'] at hnext
    rw [hcut.open_later hc, hcut'.open_later hc', List.append_nil, List.append_nil] at hrest
    exact hrest

end Framing

end CloudStore.Library
