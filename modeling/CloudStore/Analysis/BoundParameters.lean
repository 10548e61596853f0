import CloudStore.Interface.Bindings

/-!
# Parameters as bound

A later call of the same kind may move what an earlier call has bound. So the values arrive if
and only if no later call of the same kind has an index past the capacity that the vector had.
Where an empty vector gets no more than the size it is asked for, these are the statements that
bind at most one value of each kind.
-/

set_option autoImplicit false

namespace CloudStore.Analysis

open CloudStore.Library (Growth VectorShape)
open CloudStore.Model
open CloudStore.Model.MysqlStmt
open CloudStore.Interface

/-- `execute()` passes every value to the driver that was bound to a parameter. -/
def ArriveBound (g : Growth) (count : ℕ) (calls : List (ℕ × SqlValue)) : Prop :=
  ∃ s, binds g (prepared count) calls = .ok s ∧
    ∀ c ∈ calls, s.executed[c.1 - 1]? = some (some c.2)

/-- No call has an index past the capacity that the vector of its kind had at an earlier call of
that kind. -/
def Steady (g : Growth) (calls : List (ℕ × SqlValue)) : Prop :=
  ∀ pre c post, calls = pre ++ c :: post → ∀ index ∈ indexes c.2.kind post,
    index ≤ (VectorShape.covers g (indexes c.2.kind (pre ++ [c]))).cap

/-- Where an empty vector gets no more than the size it is asked for, every second call of a
kind moves the value of the first. -/
theorem steady_iff_once {g : Growth} (hfirst : ∀ n, g.capacity 0 n = n) {count : ℕ}
    {calls : List (ℕ × SqlValue)} (h : Ascending count calls) :
    Steady g calls ↔ ∀ kind, (indexes kind calls).length ≤ 1 := by
  constructor
  · intro hsteady kind
    rcases hcalls : calls.filter (fun c => decide (c.2.kind = kind)) with _ | ⟨c, rest⟩
    · unfold indexes
      rw [hcalls]
      exact Nat.zero_le 1
    · obtain ⟨pre, post, hsplit, hpre, hkind, hrest⟩ := List.filter_eq_cons_iff.mp hcalls
      obtain rfl : c.2.kind = kind := of_decide_eq_true hkind
      have hempty : indexes c.2.kind pre = [] := by
        unfold indexes
        rw [List.filter_eq_nil_iff.mpr hpre, List.map_nil]
      have hpos : 1 ≤ c.1 := (h.within c (by simp [hsplit])).1
      have hcap : (VectorShape.covers g (indexes c.2.kind (pre ++ [c]))).cap = c.1 := by
        rw [indexes_append, hempty, indexes_cons, if_pos rfl]
        show (VectorShape.cover g {} c.1).cap = c.1
        unfold VectorShape.cover
        rw [if_neg (by dsimp only; omega), if_neg (by dsimp only; omega)]
        exact hfirst c.1
      have hlater : ∀ d ∈ post, c.1 < d.1 := by
        have hordered := h.ascending
        rw [hsplit] at hordered
        exact fun d hd => List.rel_of_pairwise_cons (List.pairwise_append.mp hordered).2.1 hd
      rcases rest with _ | ⟨d, rest⟩
      · unfold indexes
        rw [hcalls]
        exact Nat.le_refl 1
      · have hd : d ∈ post.filter fun c' => decide (c'.2.kind = c.2.kind) := by
          rw [hrest]
          exact List.mem_cons_self
        have hle := hsteady pre c post hsplit d.1 (List.mem_map_of_mem hd)
        have hlt := hlater d (List.mem_filter.mp hd).1
        omega
  · intro honce pre c post hsplit index hindex
    have hlength := honce c.2.kind
    rw [hsplit, indexes_append, indexes_cons, if_pos rfl, List.length_append,
      List.length_cons] at hlength
    have hnone := List.length_pos_of_mem hindex
    omega

/-- **Parameters arrive as bound** if and only if the calls are steady. -/
theorem parameters_arrive_iff (g : Growth) (count : ℕ) (calls : List (ℕ × SqlValue))
    (h : Ascending count calls) : ArriveBound g count calls ↔ Steady g calls := by
  obtain ⟨s, hrun, -⟩ := @binds_run g (prepared count) calls rfl
    ((show (prepared count).paramBinds.length = count from List.length_replicate).symm ▸ h)
  constructor
  · rintro ⟨s', hrun', harrive⟩ pre c post hsplit
    exact (delivered_iff h hrun' hsplit).mp (harrive c (by simp [hsplit]))
  · intro hsteady
    refine ⟨s, hrun, ?_⟩
    intro c hc
    obtain ⟨pre, post, hsplit⟩ := List.append_of_mem hc
    exact (delivered_iff h hrun hsplit).mpr (hsteady pre c post hsplit)

/-- The calls of `unindex`. -/
def unindexing : List (ℕ × SqlValue) := [(1, .int 1), (2, .string (str "/a"))]

theorem parameters_arrive_unindexing : ArriveBound Growth.doubling 2 unindexing := by
  have hascending : Ascending 2 unindexing := ⟨by decide, by decide⟩
  apply (parameters_arrive_iff Growth.doubling 2 unindexing hascending).mpr
  apply (steady_iff_once (fun n => Nat.max_eq_right (Nat.zero_le n)) hascending).mpr
  intro kind
  cases kind <;> decide

/-- The calls of `indexFile`. -/
def indexing : List (ℕ × SqlValue) :=
  [(1, .int 1), (2, .string (str "/a")), (3, .string (str "0cc175b9c0f1b6a831c399e269772661")),
    (4, .uint64 1), (5, .int 0), (6, .string (str "ready"))]

/-- The path that `indexFile` binds lies in a block that the md5 has moved it out of. -/
theorem indexing_moved : Ascending 6 indexing ∧ ¬ ArriveBound Growth.doubling 6 indexing := by
  have hascending : Ascending 6 indexing := ⟨by decide, by decide⟩
  refine ⟨hascending, ?_⟩
  rintro ⟨s, hrun, harrive⟩
  have hpath := (@delivered_iff Growth.doubling 6 indexing hascending s hrun [(1, .int 1)] _
    (2, .string (str "/a")) rfl).mp (harrive _ (by simp [indexing]))
  exact absurd (hpath 3 (by decide)) (by decide)

end CloudStore.Analysis
