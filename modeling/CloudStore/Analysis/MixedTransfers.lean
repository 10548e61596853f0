import CloudStore.Model.GuiTransfers

/-!
# Transfers of cloud_gui that mix files

All uploads of a process share one temporary file, and so do all downloads; it is written before
and read behind the section under `state.mu`. Transfers do not mix files as long as no upload
overwrites the bytes that another one is still to send, and no download overwrites or removes the
bytes that another one is still to read. Each step that does so may be followed by a wrong answer.
-/

set_option autoImplicit false

namespace CloudStore.Analysis

open CloudStore.Library (Bytes Machine)
open CloudStore.Model CloudStore.Model.GuiProcess

variable {ι : Type} [DecidableEq ι] {env : GuiEnv} {requests : ι → Transfer} {s : GuiProcess ι}
  {e : GuiStep ι}

/-- Each upload that answered has stored its own bytes, and each download that answered has
answered with the content of its remote path. -/
structure Unmixed (requests : ι → Transfer) (s : GuiProcess ι) : Prop where
  upload : ∀ i content path x, requests i = .upload content path → s.phase i = .uploaded x →
    x = content
  download : ∀ i path x y, requests i = .download path → s.phase i = .downloaded x y → y = x

/-- The step does not change what another handler is still to take from its temporary file. -/
structure LeavesFiles (requests : ι → Transfer) (s : GuiProcess ι) (e : GuiStep ι) : Prop where
  write : ∀ content path, requests e.who = .upload content path → s.phase e.who = .start →
    ∀ j content' path', requests j = .upload content' path' → s.phase j = .written →
      content' = content
  fetch : ∀ path y, requests e.who = .download path → s.phase e.who = .start →
    fetch (s.remote path) e.outcome = some y →
      ∀ j path' x, requests j = .download path' → s.phase j = .fetched x → x = y
  remove : ∀ path x y, requests e.who = .download path → s.phase e.who = .read x y →
    ∀ j path' x', requests j = .download path' → s.phase j = .fetched x' → x' = []

/-! ## Undisturbed steps -/

/-- The two temporary files are different ones. -/
theorem upPath_ne_downPath (env : GuiEnv) : upPath env ≠ downPath env := by
  have hjoin : ∃ pre : Bytes, ∀ stem rest, stem = str "cloudstore_up_" ∨
      stem = str "cloudstore_dl_" → joinPath env.tempDir (stem ++ rest) = pre ++ (stem ++ rest) := by
    by_cases hempty : env.tempDir = []
    · refine ⟨[], fun stem rest _ => ?_⟩
      rw [hempty]
      rfl
    · refine ⟨if env.tempDir.getLast? = some 47 then env.tempDir else env.tempDir ++ str "/", ?_⟩
      rintro stem rest hstem
      have hhead : (stem ++ rest).head? = some 99 := by
        rcases hstem with rfl | rfl
        · rfl
        · rfl
      have hne : stem ++ rest ≠ [] := by
        intro hnil
        rw [hnil] at hhead
        simp at hhead
      unfold joinPath
      rw [if_neg hempty, if_neg hne, hhead]
      by_cases hlast : env.tempDir.getLast? = some 47
      · rw [if_neg (by simp), if_neg (by simp [hlast]), if_pos hlast]
      · rw [if_neg (by simp), if_pos (by simp [hlast]), if_neg hlast]
  obtain ⟨pre, hpre⟩ := hjoin
  unfold upPath downPath Gui.tempPath
  rw [hpre _ _ (.inl rfl), hpre _ _ (.inr rfl)]
  intro h
  have hstems : str "cloudstore_up_" = str "cloudstore_dl_" :=
    List.append_inj_left (List.append_cancel_left h) (by decide)
  revert hstems
  decide

/-- What a handler relies on, as far as it is. -/
inductive InOrder (env : GuiEnv) (files : Bytes → Option Bytes) : Transfer → TransferPhase → Prop
  | start (r : Transfer) : InOrder env files r .start
  | written {content : Bytes} (path : Bytes)
    (h : files (upPath env) = none ∨ files (upPath env) = some content) :
    InOrder env files (.upload content path) .written
  | stored (content path : Bytes) : InOrder env files (.upload content path) (.stored content)
  | uploaded (content path : Bytes) : InOrder env files (.upload content path) (.uploaded content)
  | fetched (path : Bytes) {x : Bytes} (h : (files (downPath env)).getD [] = x) :
    InOrder env files (.download path) (.fetched x)
  | read (path x : Bytes) : InOrder env files (.download path) (.read x x)
  | downloaded (path x : Bytes) : InOrder env files (.download path) (.downloaded x x)
  | failed (r : Transfer) : InOrder env files r .failed

namespace InOrder

variable {files : Bytes → Option Bytes} {r : Transfer} {p : TransferPhase} {x : Option Bytes}

/-- A change of the file for uploads that those can bear that wait for it. -/
theorem setUp (h : InOrder env files r p)
    (hx : ∀ content path, r = .upload content path → p = .written → x = none ∨ x = some content) :
    InOrder env (Function.update files (upPath env) x) r p := by
  cases h with
  | start => exact .start _
  | written path h =>
      apply InOrder.written
      rw [Function.update_self]
      exact hx _ path rfl rfl
  | stored content path => exact .stored _ _
  | uploaded content path => exact .uploaded _ _
  | fetched path h =>
      apply InOrder.fetched
      rw [Function.update_of_ne (upPath_ne_downPath env).symm]
      exact h
  | read path x => exact .read _ _
  | downloaded path x => exact .downloaded _ _
  | failed => exact .failed _

/-- A change of the file for downloads that those can bear that wait for it. -/
theorem setDown (h : InOrder env files r p)
    (hx : ∀ path y, r = .download path → p = .fetched y → x.getD [] = y) :
    InOrder env (Function.update files (downPath env) x) r p := by
  cases h with
  | start => exact .start _
  | written path h =>
      apply InOrder.written
      rw [Function.update_of_ne (upPath_ne_downPath env)]
      exact h
  | stored content path => exact .stored _ _
  | uploaded content path => exact .uploaded _ _
  | fetched path h =>
      apply InOrder.fetched
      rw [Function.update_self]
      exact hx path _ rfl rfl
  | read path x => exact .read _ _
  | downloaded path x => exact .downloaded _ _
  | failed => exact .failed _

end InOrder

/-- Every handler has what it relies on. -/
def AllInOrder (env : GuiEnv) (requests : ι → Transfer) (s : GuiProcess ι) : Prop :=
  ∀ i, InOrder env s.files (requests i) (s.phase i)

/-- A handler goes on, and has what it relies on then. -/
theorem AllInOrder.goTo (h : AllInOrder env requests s) {i : ι} {p : TransferPhase}
    (hp : InOrder env s.files (requests i) p) : AllInOrder env requests (s.goTo i p) := by
  intro j
  show InOrder env s.files (requests j) (Function.update s.phase i p j)
  by_cases hj : j = i
  · subst hj
    rw [Function.update_self]
    exact hp
  · rw [Function.update_of_ne hj]
    exact h j

/-- **An undisturbed step** leaves everything in order. -/
theorem AllInOrder.advance (h : AllInOrder env requests s) (hu : LeavesFiles requests s e) :
    AllInOrder env requests (advance env requests s e) := by
  have hwho := h e.who
  unfold GuiProcess.advance
  generalize hr : requests e.who = r at hwho
  generalize hp : s.phase e.who = p at hwho
  cases hwho with
  | start r =>
      cases r with
      | upload content path =>
          have hset : AllInOrder env requests (s.setFile (upPath env) (some content)) := by
            intro j
            apply (h j).setUp
            intro content' path' hj hwritten
            rw [hu.write content path hr hp j content' path' hj hwritten]
            exact .inr rfl
          apply hset.goTo
          rw [hr]
          apply InOrder.written
          right
          exact Function.update_self _ _ _
      | download path =>
          show AllInOrder env requests (getStep env s e.who path e.outcome)
          unfold getStep
          rcases hfetch : fetch (s.remote path) e.outcome with _ | y
          · exact h.goTo (.failed _)
          · have hset : AllInOrder env requests (s.setFile (downPath env) (some y)) := by
              intro j
              apply (h j).setDown
              intro path' x hj hfetched
              exact (hu.fetch path y hr hp hfetch j path' x hj hfetched).symm
            apply hset.goTo
            split_ifs
            · rw [hr]
              apply InOrder.fetched
              show ((Function.update s.files (downPath env) (some y)) (downPath env)).getD [] = y
              rw [Function.update_self]
              rfl
            · exact .failed _
  | @written content path hfile =>
      show AllInOrder env requests (putStep env s e.who path e.outcome)
      unfold putStep
      rcases hup : s.files (upPath env) with _ | y
      · exact h.goTo (.failed _)
      · obtain rfl : y = content := by
          rw [hup] at hfile
          simpa using hfile
        have hset : AllInOrder env requests (s.setRemote path y) := h
        cases e.outcome with
        | returns =>
            apply hset.goTo
            rw [hr]
            exact .stored y path
        | refused => exact h.goTo (.failed _)
        | breaks n => exact hset.goTo (.failed _)
  | stored content path =>
      have hset : AllInOrder env requests (s.setFile (upPath env) none) := by
        intro j
        exact (h j).setUp fun _ _ _ _ => .inl rfl
      apply hset.goTo
      rw [hr]
      exact .uploaded content path
  | uploaded content path => exact h
  | fetched path hfile =>
      apply h.goTo
      rw [hr, hfile]
      exact .read path _
  | read path x =>
      have hset : AllInOrder env requests (s.setFile (downPath env) none) := by
        intro j
        apply (h j).setDown
        intro path' y hj hfetched
        exact (hu.remove path x x hr hp j path' y hj hfetched).symm
      apply hset.goTo
      rw [hr]
      exact .downloaded path x
  | downloaded path x => exact h
  | failed r =>
      cases r with
      | upload content path => exact h
      | download path => exact h

omit [DecidableEq ι] in
/-- What is in order is not mixed. -/
theorem AllInOrder.unmixed (h : AllInOrder env requests s) : Unmixed requests s := by
  constructor
  · intro i content path x hr hp
    have hi := h i
    rw [hr, hp] at hi
    cases hi
    rfl
  · intro i path x y hr hp
    have hi := h i
    rw [hr, hp] at hi
    cases hi
    rfl

/-- **Runs of undisturbed steps** do not mix files. -/
theorem unmixed_of_undisturbed {hist : List (Machine.Record (GuiProcess ι) (GuiStep ι) Unit)}
    (run : (machine env requests).Run NoneBegun (LeavesFiles requests) hist s) :
    Unmixed requests s := by
  have horder : AllInOrder env requests s := by
    apply run.invariant
    · intro s₀ hfresh i
      rw [hfresh i]
      exact .start _
    · exact fun _ _ h hu => h.advance hu
  exact horder.unmixed

/-! ## Steps that disturb -/

/-- The state after some steps. -/
def after (env : GuiEnv) (requests : ι → Transfer) (s : GuiProcess ι) (es : List (GuiStep ι)) :
    GuiProcess ι :=
  es.foldl (advance env requests) s

/-- An upload whose temporary file holds other bytes sends these, and answers that all is well. -/
theorem mixed_of_written {j : ι} {content path x : Bytes} (hr : requests j = .upload content path)
    (hp : s.phase j = .written) (hfile : s.files (upPath env) = some x) (hx : content ≠ x) :
    ¬ Unmixed requests (after env requests s [⟨j, .returns⟩, ⟨j, .returns⟩]) := by
  have hput : advance env requests s ⟨j, .returns⟩ = (s.setRemote path x).goTo j (.stored x) := by
    simp only [advance, hr, hp, putStep, hfile]
  have hremove : advance env requests ((s.setRemote path x).goTo j (.stored x)) ⟨j, .returns⟩ =
      (((s.setRemote path x).goTo j (.stored x)).setFile (upPath env) none).goTo j
        (.uploaded x) := by
    have hstored : ((s.setRemote path x).goTo j (.stored x)).phase j = .stored x :=
      Function.update_self _ _ _
    simp only [advance, hr, hstored]
  intro hunmixed
  apply hx
  symm
  apply hunmixed.upload j content path x hr
  show (advance env requests (advance env requests s ⟨j, .returns⟩) ⟨j, .returns⟩).phase j = _
  rw [hput, hremove]
  exact Function.update_self _ _ _

/-- A download whose temporary file holds other bytes answers with these. -/
theorem mixed_of_fetched {j : ι} {path x : Bytes} (hr : requests j = .download path)
    (hp : s.phase j = .fetched x) (hx : x ≠ (s.files (downPath env)).getD []) :
    ¬ Unmixed requests (after env requests s [⟨j, .returns⟩, ⟨j, .returns⟩]) := by
  generalize hy : (s.files (downPath env)).getD [] = y at hx
  have hread : advance env requests s ⟨j, .returns⟩ = s.goTo j (.read x y) := by
    simp only [advance, hr, hp, hy]
  have hremove : advance env requests (s.goTo j (.read x y)) ⟨j, .returns⟩ =
      ((s.goTo j (.read x y)).setFile (downPath env) none).goTo j (.downloaded x y) := by
    have hphase : (s.goTo j (.read x y)).phase j = .read x y := Function.update_self _ _ _
    simp only [advance, hr, hphase]
  intro hunmixed
  apply hx
  symm
  apply hunmixed.download j path x y hr
  show (advance env requests (advance env requests s ⟨j, .returns⟩) ⟨j, .returns⟩).phase j = _
  rw [hread, hremove]
  exact Function.update_self _ _ _

/-- A handler that is not the one that goes on stays where it is. -/
theorem phase_goTo_of_ne (s : GuiProcess ι) {i j : ι} {p q : TransferPhase} (hi : s.phase i = p)
    (hj : s.phase j = q) (hpq : q ≠ p) (p' : TransferPhase) : (s.goTo i p').phase j = q := by
  have hne : j ≠ i := by
    rintro rfl
    exact hpq (hj.symm.trans hi)
  show Function.update s.phase i p' j = q
  rw [Function.update_of_ne hne, hj]

/-- A step is followed by wrong answers if the state behind it is. -/
theorem mixed_of_advance {s' : GuiProcess ι} {es : List (GuiStep ι)}
    (hstep : advance env requests s e = s') (h : ¬ Unmixed requests (after env requests s' es)) :
    ∃ es, ¬ Unmixed requests (after env requests s (e :: es)) := by
  subst hstep
  exact ⟨es, h⟩

/-- **A step that disturbs** another handler may be followed by a wrong answer of it. -/
theorem mixed_of_disturbed (h : ¬ LeavesFiles requests s e) :
    ∃ es, ¬ Unmixed requests (after env requests s (e :: es)) := by
  by_contra hnone
  apply h
  constructor
  · intro content path hr hp j content' path' hj hwritten
    by_contra hne
    have hstep : advance env requests s e =
        (s.setFile (upPath env) (some content)).goTo e.who .written := by
      simp only [advance, hr, hp]
    apply hnone
    apply mixed_of_advance hstep
    apply mixed_of_written (x := content) hj _ _ hne
    · exact phase_goTo_of_ne _ hp hwritten (by simp) _
    · exact Function.update_self _ _ _
  · intro path y hr hp hfetch j path' x hj hfetched
    by_contra hne
    have hstep : advance env requests s e =
        (s.setFile (downPath env) (some y)).goTo e.who
          (if e.outcome = .returns then .fetched y else .failed) := by
      simp only [advance, hr, hp, getStep, hfetch]
    apply hnone
    apply mixed_of_advance hstep
    apply mixed_of_fetched (x := x) hj
    · exact phase_goTo_of_ne _ hp hfetched (by simp) _
    · show x ≠ ((Function.update s.files (downPath env) (some y)) (downPath env)).getD []
      rw [Function.update_self]
      exact hne
  · intro path x y hr hp j path' x' hj hfetched
    by_contra hne
    have hstep : advance env requests s e =
        (s.setFile (downPath env) none).goTo e.who (.downloaded x y) := by
      simp only [advance, hr, hp]
    apply hnone
    apply mixed_of_advance hstep
    apply mixed_of_fetched (x := x') hj
    · exact phase_goTo_of_ne _ hp hfetched (by simp) _
    · show x' ≠ ((Function.update s.files (downPath env) none) (downPath env)).getD []
      rw [Function.update_self]
      exact hne

/-- **Transfers side by side** do not mix files in runs whose steps leave alone what other handlers
are still to take from their temporary file; and each step that does not may be followed by a
wrong answer. -/
theorem transfers_unmixed (env : GuiEnv) (requests : ι → Transfer) :
    (∀ hist s, (machine env requests).Run NoneBegun (LeavesFiles requests) hist s →
        Unmixed requests s) ∧
      ∀ s e, ¬ LeavesFiles requests s e →
        ∃ es, ¬ Unmixed requests (after env requests s (e :: es)) :=
  ⟨fun _ _ run => unmixed_of_undisturbed run, fun _ _ h => mixed_of_disturbed h⟩

/-! ## Two uploads -/

/-- A step does not disturb the only other handler where that waits for no file. -/
theorem undisturbed_of_other {requests : Bool → Transfer} {s : GuiProcess Bool} {i : Bool}
    {p : TransferPhase} (hp : s.phase (!i) = p) (hwritten : p ≠ .written)
    (hfetched : ∀ x, p ≠ .fetched x) : LeavesFiles requests s ⟨i, .returns⟩ := by
  have hother : ∀ {j q}, s.phase j = q → s.phase i ≠ q → p = q := by
    intro j q hj hi
    have hne : j = !i := by
      rw [Bool.eq_not_iff]
      rintro rfl
      exact hi hj
    rw [← hp, ← hne, hj]
  constructor
  · intro content path _ hstart j content' path' _ hj
    exact absurd (hother hj (by simp [hstart])) hwritten
  · intro path y _ hstart _ j path' x _ hj
    exact absurd (hother hj (by simp [hstart])) (hfetched x)
  · intro path x y _ hread j path' x' _ hj
    exact absurd (hother hj (by simp [hread])) (hfetched x')

namespace Sample

/-- Two uploads of a byte each. -/
def pair : Bool → Transfer
  | false => .upload [97] (str "/a")
  | true => .upload [98] (str "/b")

/-- Neither of them has begun. -/
def idle : GuiProcess Bool := ⟨fun _ => none, fun _ => none, fun _ => .start⟩

end Sample

/-- The handlers take steps in this order, from the start on. -/
def Sample.taken (order : List Bool) : GuiProcess Bool :=
  ((machine {} Sample.pair).replay [] Sample.idle (order.map fun i => ⟨i, .returns⟩)).2

/-- Two uploads one after the other. -/
theorem transfers_unmixed_in_turn :
    (Sample.taken [false, false, false, true, true, true]).phase false = .uploaded [97] ∧
      (Sample.taken [false, false, false, true, true, true]).phase true = .uploaded [98] ∧
      Unmixed Sample.pair (Sample.taken [false, false, false, true, true, true]) := by
  refine ⟨by decide +kernel, by decide +kernel, ?_⟩
  apply (transfers_unmixed {} Sample.pair).1
  apply Machine.Run.replay (.start fun _ => rfl)
  refine ⟨?_, ?_, ?_, ?_, ?_, ?_, trivial⟩
  · exact undisturbed_of_other (p := .start) (by decide +kernel) (by decide) (by simp)
  · exact undisturbed_of_other (p := .start) (by decide +kernel) (by decide) (by simp)
  · exact undisturbed_of_other (p := .start) (by decide +kernel) (by decide) (by simp)
  · exact undisturbed_of_other (p := .uploaded [97]) (by decide +kernel) (by decide) (by simp)
  · exact undisturbed_of_other (p := .uploaded [97]) (by decide +kernel) (by decide) (by simp)
  · exact undisturbed_of_other (p := .uploaded [97]) (by decide +kernel) (by decide) (by simp)

/-- The second upload writes the temporary file before the first one has sent it. -/
theorem uploads_mixed :
    ¬ ∀ hist s, (machine {} Sample.pair).Run NoneBegun (fun _ _ => True) hist s →
      Unmixed Sample.pair s := by
  intro h
  have hmixed := h _ (Sample.taken [false, true, false, false])
    (Machine.Run.replay (.start fun _ => rfl) ⟨trivial, trivial, trivial, trivial, trivial⟩)
  have hphase : (Sample.taken [false, true, false, false]).phase false = .uploaded [98] := by
    decide +kernel
  have hcontent := hmixed.upload false [97] (str "/a") [98] rfl hphase
  simp at hcontent

end CloudStore.Analysis
