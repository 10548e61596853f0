import Mathlib.Logic.Basic

/-!
# Machines and their runs

A machine has a step function from a state and an event to the next state and an
output. A run is a history: the states passed through, with the event handled there and
its output, newest first. A run may be restricted by a condition on the state and the
event of each step; what one step under the condition preserves, every such run
preserves (`Machine.Run.invariant`).
-/

set_option autoImplicit false

namespace CloudStore.Library

/-- A deterministic machine with outputs. -/
structure Machine (S E O : Type) where
  step : S → E → S × O

namespace Machine

/-- One entry of a history: the state before the step, the event and the output. -/
structure Record (S E O : Type) where
  before : S
  event : E
  output : O

variable {S E O : Type} (M : Machine S E O)

/-- The entry that handling `e` in `s` writes. -/
def record (s : S) (e : E) : Record S E O := ⟨s, e, (M.step s e).2⟩

/-- Runs from a state of `init` whose steps all meet `ok`; the history is newest first. -/
inductive Run (init : S → Prop) (ok : S → E → Prop) : List (Record S E O) → S → Prop
  | start {s : S} (h : init s) : Run init ok [] s
  | step {hist : List (Record S E O)} {s : S} (run : Run init ok hist s) (e : E) (h : ok s e) :
      Run init ok (M.record s e :: hist) (M.step s e).1

/-- A state that some run reaches. -/
def Reachable (init : S → Prop) (ok : S → E → Prop) (s : S) : Prop :=
  ∃ hist, M.Run init ok hist s

variable {M} {init : S → Prop} {ok : S → E → Prop}

/-- **The invariant rule.** What holds at the start and is kept by each step under the
condition holds in every state reached. -/
theorem Run.invariant {I : S → Prop} (hinit : ∀ s, init s → I s)
    (hstep : ∀ s e, I s → ok s e → I (M.step s e).1) {hist : List (Record S E O)} {s : S}
    (run : M.Run init ok hist s) : I s := by
  induction run with
  | start h => exact hinit _ h
  | step _ e h ih => exact hstep _ e ih h

/-- The invariant rule for a property of the history and the state. -/
theorem Run.invariant_history {I : List (Record S E O) → S → Prop}
    (hinit : ∀ s, init s → I [] s)
    (hstep : ∀ hist s e, M.Run init ok hist s → I hist s → ok s e →
      I (M.record s e :: hist) (M.step s e).1)
    {hist : List (Record S E O)} {s : S} (run : M.Run init ok hist s) : I hist s := by
  induction run with
  | start h => exact hinit _ h
  | step run e h ih => exact hstep _ _ e run ih h

/-- What holds before an entry of the history and is kept by every step holds at the end. -/
theorem Run.since {I : S → Prop}
    (hstep : ∀ hist s e, M.Run init ok hist s → I s → ok s e → I (M.step s e).1)
    {hist newer older : List (Record S E O)} {r : Record S E O} {s : S}
    (run : M.Run init ok hist s) (hhist : hist = newer ++ r :: older) (hr : I r.before) : I s := by
  induction run generalizing newer with
  | start h => simp at hhist
  | step run e he ih =>
      cases newer with
      | nil =>
          obtain ⟨rfl, -⟩ := List.cons.inj hhist
          exact hstep _ _ e run hr he
      | cons r' newer =>
          obtain ⟨-, hrest⟩ := List.cons.inj hhist
          exact hstep _ _ e run (ih hrest) he

/-- A weaker condition allows more runs. -/
theorem Run.mono {Q : S → E → Prop} (h : ∀ s e, ok s e → Q s e)
    {hist : List (Record S E O)} {s : S} (run : M.Run init ok hist s) :
    M.Run init Q hist s := by
  induction run with
  | start hs => exact .start hs
  | step _ e he ih => exact .step ih e (h _ e he)

/-- Handle events one after the other, on top of a history. -/
def replay (M : Machine S E O) : List (Record S E O) → S → List E → List (Record S E O) × S
  | hist, s, [] => (hist, s)
  | hist, s, e :: es => replay M (M.record s e :: hist) (M.step s e).1 es

/-- The condition holds at each of the events, handled one after the other. -/
def Allows (M : Machine S E O) (ok : S → E → Prop) : S → List E → Prop
  | _, [] => True
  | s, e :: es => ok s e ∧ Allows M ok (M.step s e).1 es

instance decidableAllows [∀ s e, Decidable (ok s e)] :
    ∀ s es, Decidable (M.Allows ok s es)
  | _, [] => inferInstanceAs (Decidable True)
  | s, e :: es =>
    have := decidableAllows (M.step s e).1 es
    inferInstanceAs (Decidable (ok s e ∧ M.Allows ok (M.step s e).1 es))

/-- A condition on the events alone holds at each of them. -/
theorem Allows.of_forall {P : E → Prop} {s : S} {es : List E} (h : ∀ e ∈ es, P e) :
    M.Allows (fun _ e => P e) s es := by
  induction es generalizing s with
  | nil => trivial
  | cons e es ih => exact ⟨h e (by simp), ih fun e' he' => h e' (by simp [he'])⟩

/-- A run goes on with events that meet the condition. -/
theorem Run.replay {hist : List (Record S E O)} {s : S} (run : M.Run init ok hist s)
    {es : List E} (h : M.Allows ok s es) :
    M.Run init ok (M.replay hist s es).1 (M.replay hist s es).2 := by
  induction es generalizing hist s with
  | nil => exact run
  | cons e es ih => exact ih (run.step e h.1) h.2

/-- Every entry of a run was written by the machine in a state of the run. -/
theorem Run.mem_history {hist : List (Record S E O)} {s : S} (run : M.Run init ok hist s)
    {r : Record S E O} (hr : r ∈ hist) :
    M.Reachable init ok r.before ∧ ok r.before r.event ∧
      r.output = (M.step r.before r.event).2 := by
  induction run with
  | start => simp at hr
  | step run e h ih =>
      rcases List.mem_cons.mp hr with rfl | hr
      · exact ⟨⟨_, run⟩, h, rfl⟩
      · exact ih hr

/-! ## Refinement -/

/-- What the entries of a history show, in their order. -/
def observed {α : Type} (obs : Record S E O → List α) (hist : List (Record S E O)) : List α :=
  hist.reverse.flatMap obs

theorem observed_append {α : Type} (obs : Record S E O → List α) (newer older : List (Record S E O)) :
    observed obs (newer ++ older) = observed obs older ++ observed obs newer := by
  simp [observed]

theorem replay_append (hist : List (Record S E O)) (s : S) (es : List E) :
    M.replay hist s es = ((M.replay [] s es).1 ++ hist, (M.replay [] s es).2) := by
  induction es generalizing hist s with
  | nil => rfl
  | cons e es ih =>
      rw [replay, ih, replay, ih [M.record s e]]
      simp

theorem replay_concat (hist : List (Record S E O)) (s : S) (es es' : List E) :
    M.replay hist s (es ++ es') = M.replay (M.replay hist s es).1 (M.replay hist s es).2 es' := by
  induction es generalizing hist s with
  | nil => rfl
  | cons e es ih => exact ih _ _

/-- **The refinement rule.** Where each step of `N` is, under `f`, a sequence of steps of `M` that
shows the same, each run of `N` is a run of `M` that shows the same. Induction on the run; the
invariant is what the steps may rely on. -/
theorem Run.refine {S' E' O' α : Type} {N : Machine S' E' O'} {init' : S' → Prop}
    {ok' : S' → E' → Prop} {I : S' → Prop} {f : S' → S} {obs : Record S E O → List α}
    {obs' : Record S' E' O' → List α} (hinit : ∀ s, init' s → I s ∧ init (f s))
    (hstep : ∀ s e, I s → I (N.step s e).1 ∧ ∃ es, (M.replay [] (f s) es).2 = f (N.step s e).1 ∧
      observed obs (M.replay [] (f s) es).1 = obs' (N.record s e))
    {hist' : List (Record S' E' O')} {s : S'} (run : N.Run init' ok' hist' s) :
    I s ∧ ∃ hist, M.Run init (fun _ _ => True) hist (f s) ∧ observed obs hist = observed obs' hist' := by
  induction run with
  | start h => exact ⟨(hinit _ h).1, [], .start (hinit _ h).2, rfl⟩
  | @step hist' s _ e _ ih =>
      obtain ⟨hI, hist, hrun, hshown⟩ := ih
      obtain ⟨hkept, es, hend, hobs⟩ := hstep s e hI
      refine ⟨hkept, (M.replay [] (f s) es).1 ++ hist, ?_, ?_⟩
      · have hallows : M.Allows (fun _ _ => True) (f s) es :=
          Allows.of_forall (P := fun _ => True) fun _ _ => trivial
        have hreplay := hrun.replay hallows
        rw [replay_append] at hreplay
        rw [← hend]
        exact hreplay
      · rw [observed_append, hshown, hobs]
        simp [observed]

end Machine

end CloudStore.Library
