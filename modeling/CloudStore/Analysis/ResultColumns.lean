import CloudStore.Interface.Columns

/-!
# Columns as selected

The driver writes a number, and the length of a string, to the cell that its column was bound
to. A later column of the same kind may have moved the vector, and then the variable keeps the
zero that was moved, or the empty string.
-/

set_option autoImplicit false

namespace CloudStore.Analysis

open CloudStore.Library (Growth VectorShape)
open CloudStore.Model
open CloudStore.Model.MysqlStmt
open CloudStore.Interface

/-- `fetch()` puts every column of a row into the variable that is bound to it, the columns being
bound in their order. -/
def ArriveFetched (g : Growth) (count : ℕ) (row : List SqlValue) : Prop :=
  ∀ pre v post, row = pre ++ v :: post →
    fetched (fetchRow (bindResults g (prepared count) 1 (row.map SqlValue.kind)) row)
      pre.length v.kind = some (delivered v)

/-- Every column is zero or empty, or no later column of its kind has an index past the capacity
that the vector had when it was bound. -/
def SteadyColumns (g : Growth) (row : List SqlValue) : Prop :=
  ∀ pre v post, row = pre ++ v :: post →
    v = blankValue v.kind ∨ ∀ i ∈ columns v.kind (pre.length + 2) post,
      i ≤ (VectorShape.covers g (columns v.kind 1 (pre ++ [v]))).cap

/-- **Columns arrive as selected** if and only if they are steady. -/
theorem columns_arrive_iff (g : Growth) (count : ℕ) (row : List SqlValue)
    (hshort : ∀ chars, SqlValue.string chars ∈ row → chars.length ≤ 4096) :
    ArriveFetched g count row ↔ SteadyColumns g row := by
  have hcolumn : ∀ pre v post, row = pre ++ v :: post → ∀ chars, v = .string chars →
      chars.length ≤ 4096 := by
    intro pre v post hrow chars hv
    apply hshort chars
    rw [hrow, hv]
    simp
  constructor
  · intro harrive pre v post hrow
    exact (column_iff count hrow (hcolumn pre v post hrow)).mp (harrive pre v post hrow)
  · intro hsteady pre v post hrow
    exact (column_iff count hrow (hcolumn pre v post hrow)).mpr (hsteady pre v post hrow)

/-- A row that `releaseIndexedUnderPrefix` selects: one string. -/
theorem columns_arrive_path : ArriveFetched Growth.doubling 2 [.string (str "/a/b")] := by
  apply (columns_arrive_iff Growth.doubling 2 [.string (str "/a/b")] (by
    intro chars hchars
    obtain rfl := SqlValue.string.inj (List.mem_singleton.mp hchars)
    decide)).mpr
  intro pre v post hrow
  right
  rcases pre with _ | ⟨u, pre⟩
  · obtain ⟨-, rfl⟩ := List.cons_eq_cons.mp hrow
    intro i hi
    exact absurd hi (by simp [columns])
  · simp at hrow

/-- A row that `login` selects: the salt has moved the length of the hash. -/
def account : List SqlValue :=
  [.int 1, .string (str "5e884898da28"), .string (str "a1b2c3d4"), .string (str "/srv/alice")]

theorem account_hash_lost : ¬ ArriveFetched Growth.doubling 1 account := by
  intro harrive
  have hhash := (@column_iff Growth.doubling 1 account [.int 1] _ _ rfl (by
    intro chars hv
    cases hv
    decide)).mp (harrive [.int 1] _ _ rfl)
  rcases hhash with hempty | hsteady
  · exact absurd hempty (by simp [blankValue, SqlValue.kind, str])
  · exact absurd (hsteady 3 (by decide)) (by decide)

end CloudStore.Analysis
