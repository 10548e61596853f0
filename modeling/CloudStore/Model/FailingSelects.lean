import CloudStore.Model.Beside

/-!
# A backend whose SELECT statements may fail

The executions of SELECT statements are counted, and a pattern says which of them fail. A
failing one changes nothing and throws what `MysqlStmt::execute` throws.
-/

set_option autoImplicit false

namespace CloudStore.Model

open CloudStore.Library (Bytes Action)

variable {σ : Type}

/-- One execution of a SELECT statement, the `n`-th where the count is at `n`. -/
def selecting (fails : ℕ → Bool) {α : Type} (a : Act σ α) : Act (σ × ℕ) α := fun st =>
  if fails st.2 then (.error (.std (str "mysql_stmt_execute: Lost connection")), (st.1, st.2 + 1))
  else ((a st.1).1, ((a st.1).2, st.2 + 1))

/-- A backend where SELECT statements fail in a pattern. -/
def failingSelects (fails : ℕ → Bool) (b : Backend σ) : Backend (σ × ℕ) where
  cfg := b.cfg
  files := b.files.beside ℕ
  redis := b.redis.beside ℕ
  sql :=
    { b.sql.beside fun a => a with
      selectUser := fun name => selecting fails (b.sql.selectUser name)
      countUsers := selecting fails b.sql.countUsers
      selectFile := fun u p => selecting fails (b.sql.selectFile u p)
      selectPathsLike := fun u pattern => selecting fails (b.sql.selectPathsLike u pattern)
      selectListing := fun u p pattern => selecting fails (b.sql.selectListing u p pattern) }
  md5Hex := b.md5Hex
  sha256Hex := b.sha256Hex
  randomBytes n := Action.beside (b.randomBytes n)

end CloudStore.Model
