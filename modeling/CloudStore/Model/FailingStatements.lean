import CloudStore.Model.Beside

/-!
# A backend whose SQL statements may fail

The preparations and the executions of SQL statements are counted together, and a pattern
says which of them throw. What throws may have had its effect before.
-/

set_option autoImplicit false

namespace CloudStore.Model

open CloudStore.Library (Bytes Action)

variable {σ : Type}

/-- One call for a statement, the `n`-th where the count is at `n`. If it fails, the pattern
says whether it was executed. -/
def stating (fails : ℕ → Option Bool) (what : Bytes) {α : Type} (a : Act σ α) :
    Act (σ × ℕ) α := fun st =>
  match fails st.2 with
  | none => ((a st.1).1, ((a st.1).2, st.2 + 1))
  | some executed =>
    (.error (.std (what ++ str ": Lost connection")),
      (if executed then (a st.1).2 else st.1, st.2 + 1))

/-- A backend where SQL statements fail in a pattern. -/
def failingStatements (fails : ℕ → Option Bool) (b : Backend σ) : Backend (σ × ℕ) :=
  let execute : ∀ {α : Type}, Act σ α → Act (σ × ℕ) α := stating fails (str "mysql_stmt_execute")
  { b.beside fun a => a with
    sql :=
      { withConn := fun a => a
        prepare := fun s => stating fails (str "mysql_stmt_prepare") (b.sql.prepare s)
        selectUser := fun name => execute (b.sql.selectUser name)
        countUsers := execute b.sql.countUsers
        insertUser := fun name hash salt root => execute (b.sql.insertUser name hash salt root)
        insertLoginLog := fun u ip ok => execute (b.sql.insertLoginLog u ip ok)
        upsertFile := fun row => execute (b.sql.upsertFile row)
        deleteFile := fun u p => execute (b.sql.deleteFile u p)
        selectFile := fun u p => execute (b.sql.selectFile u p)
        selectPathsLike := fun u pattern => execute (b.sql.selectPathsLike u pattern)
        selectListing := fun u p pattern => execute (b.sql.selectListing u p pattern) } }

end CloudStore.Model
