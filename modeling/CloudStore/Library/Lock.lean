import CloudStore.Library.Action

/-!
# A lock that its owner must not take twice

What a thread does with a lock is written down as it happens. `Disciplined` says that the
thread never takes the lock while it holds it, and `guarded` runs a program under the lock and
gives it back on both ways out, as a scoped lock does.
-/

set_option autoImplicit false

namespace CloudStore.Library

/-- What happens to a lock. -/
inductive LockEvent where
  | acquire
  | release
  deriving DecidableEq

namespace Lock

variable {ε σ α : Type}

/-- After these events, the last first, the lock is held. -/
def held : List LockEvent → Bool
  | .acquire :: _ => true
  | _ => false

/-- The lock is never acquired while it is held. -/
inductive Disciplined : List LockEvent → Prop
  | nil : Disciplined []
  | acquire {es : List LockEvent} (hfree : held es = false) (h : Disciplined es) :
    Disciplined (.acquire :: es)
  | release {es : List LockEvent} (h : Disciplined es) : Disciplined (.release :: es)

/-- A lock taken twice stays taken twice, whatever comes. -/
theorem Disciplined.of_suffix {es es' : List LockEvent} (h : Disciplined es') (hes : es <:+ es') :
    Disciplined es := by
  induction h with
  | nil =>
      rw [List.eq_nil_of_suffix_nil hes]
      exact .nil
  | acquire hfree h ih =>
      rcases List.suffix_cons_iff.mp hes with rfl | htail
      · exact .acquire hfree h
      · exact ih htail
  | release h ih =>
      rcases List.suffix_cons_iff.mp hes with rfl | htail
      · exact .release h
      · exact ih htail

theorem not_disciplined_of_again {es : List LockEvent} (h : held es = true) :
    ¬ Disciplined (.acquire :: es) := by
  rintro (_ | ⟨hfree, -⟩)
  rw [hfree] at h
  exact Bool.false_ne_true h

/-- Run `a` under the lock; an exception gives the lock back as well. -/
def guarded (record : LockEvent → Action ε σ Unit) (a : Action ε σ α) : Action ε σ α := do
  record .acquire
  let x ← tryCatch a fun e => do
    record .release
    throw e
  record .release
  return x

/-- `record` writes an event into the log of the state. -/
def Records (record : LockEvent → Action ε σ Unit) (log : σ → List LockEvent) : Prop :=
  ∀ e s, ∃ s', record e s = (.ok (), s') ∧ log s' = e :: log s

variable {record : LockEvent → Action ε σ Unit} {log : σ → List LockEvent}

/-- What is in the log after a program under the lock. -/
theorem guarded_log (hrecord : Records record log) (a : Action ε σ α) (s : σ) :
    ∃ s₁, record .acquire s = (.ok (), s₁) ∧ log s₁ = .acquire :: log s ∧
      log (guarded record a s).2 = .release :: log (a s₁).2 := by
  obtain ⟨s₁, hacquire, hlog⟩ := hrecord .acquire s
  refine ⟨s₁, hacquire, hlog, ?_⟩
  unfold guarded
  rw [Action.bind_ok hacquire]
  rcases ha : a s₁ with ⟨e | x, s₂⟩
  · obtain ⟨s₃, hrelease, hlog₃⟩ := hrecord .release s₂
    have hcaught : tryCatch a (fun e => do record .release; throw e) s₁ = (.error e, s₃) := by
      rw [Action.tryCatch_apply, ha]
      dsimp only
      rw [Action.bind_ok hrelease]
      rfl
    rw [Action.bind_error hcaught]
    exact hlog₃
  · obtain ⟨s₃, hrelease, hlog₃⟩ := hrecord .release s₂
    have hcaught : tryCatch a (fun e => do record .release; throw e) s₁ = (.ok x, s₂) := by
      rw [Action.tryCatch_apply, ha]
    rw [Action.bind_ok hcaught, Action.bind_ok hrelease]
    exact hlog₃

/-- A program that leaves the lock alone may run under it. -/
theorem guarded_disciplined (hrecord : Records record log) {a : Action ε σ α}
    (ha : Action.Moves (fun s t => log t = log s) a) {s : σ} (hfree : held (log s) = false)
    (hs : Disciplined (log s)) :
    log (guarded record a s).2 = .release :: .acquire :: log s ∧
      Disciplined (log (guarded record a s).2) := by
  obtain ⟨s₁, -, hlog, hend⟩ := guarded_log hrecord a s
  rw [hend, ha s₁, hlog]
  exact ⟨rfl, .release (.acquire hfree hs)⟩

end Lock

end CloudStore.Library
