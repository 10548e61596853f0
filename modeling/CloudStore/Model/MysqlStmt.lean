import CloudStore.Library.GrowingVector
import CloudStore.Model.Common

/-!
# MysqlStmt

`src/mysql_stmt.cpp` over the cells that its vectors are kept in. A `MYSQL_BIND` records the
cells of a value and of its length; the driver reads the parameters through them when the
statement is executed, and writes the columns of a row through them when it is fetched. A cell
that a vector has moved its elements out of is read as nothing, and what is written to it is
lost. A variable that a result is bound to is known by its kind and its column.
-/

set_option autoImplicit false

namespace CloudStore.Model

open CloudStore.Library (Bytes Growth GrowingVector)

/-- A `std::string` that is an element of a vector. At most 15 bytes are inside the element, more
of them in a heap cell that stays where it is when the element moves. -/
structure StdString where
  chars : Bytes := []
  cap : ℕ := 15
  /-- The number of heap cells it has had. -/
  heaps : ℕ := 0

/-- `s = value`. -/
def StdString.assign (g : Growth) (s : StdString) (value : Bytes) : StdString :=
  if value.length ≤ s.cap then { s with chars := value }
  else { chars := value, cap := g.capacity s.cap value.length, heaps := s.heaps + 1 }

/-- A cell that `MYSQL_BIND::buffer` points to: an element of a block of a vector, or the `k`-th
heap cell of a string. -/
inductive Cell where
  | int (block i : ℕ)
  | int64 (block i : ℕ)
  | uint64 (block i : ℕ)
  | inside (block i : ℕ)
  | heap (i k : ℕ)

/-- `s.data()` of the string at `i`. -/
def StdString.data (s : StdString) (block i : ℕ) : Cell :=
  if s.heaps = 0 then .inside block i else .heap i s.heaps

/-- `enum_field_types`, as far as it is used. -/
inductive FieldType where
  | long | longlong | string
  deriving DecidableEq

/-- `MYSQL_BIND`; the length is a cell of the vector of lengths. -/
structure MysqlBind where
  bufferType : FieldType
  buffer : Cell
  bufferLength : ℕ := 0
  length : Option (ℕ × ℕ) := none
  isUnsigned : Bool := false

/-- The kinds of values. -/
inductive SqlKind where
  | int | int64 | uint64 | string
  deriving DecidableEq

/-- A value of a parameter or of a column. -/
inductive SqlValue where
  | int (v : Int32)
  | int64 (v : Int64)
  | uint64 (v : UInt64)
  | string (v : Bytes)

def SqlValue.kind : SqlValue → SqlKind
  | .int _ => .int
  | .int64 _ => .int64
  | .uint64 _ => .uint64
  | .string _ => .string

/-- The vectors of `MysqlStmt`. A bind that is all zero is `none`; of the pointers to variables
only whether they are null is kept. -/
structure MysqlStmt where
  paramBinds : List (Option MysqlBind) := []
  resultBinds : List (Option MysqlBind) := []
  stringParamStorage : GrowingVector StdString := {}
  stringParamLengths : GrowingVector ℕ := {}
  int64ParamStorage : GrowingVector Int64 := {}
  intParamStorage : GrowingVector Int32 := {}
  uint64ParamStorage : GrowingVector UInt64 := {}
  stringResultStorage : GrowingVector StdString := {}
  stringResultLengths : GrowingVector ℕ := {}
  int64ResultStorage : GrowingVector Int64 := {}
  intResultStorage : GrowingVector Int32 := {}
  uint64ResultStorage : GrowingVector UInt64 := {}
  resultStringOut : List Bool := []
  resultIntOut : List Bool := []
  resultInt64Out : List Bool := []
  resultUInt64Out : List Bool := []

namespace MysqlStmt

/-- The constructor, for a statement with `count` parameters. -/
def prepared (count : ℕ) : MysqlStmt := { paramBinds := List.replicate count none }

/-! ## Parameters -/

/-- `bindParam(index, type, buffer, length, isUnsigned)`. -/
def bindParam (s : MysqlStmt) (index : ℕ) (type : FieldType) (buffer : Cell) (length : ℕ)
    (isUnsigned : Bool) : Except Exn MysqlStmt :=
  if index = 0 ∨ index > s.paramBinds.length then
    .error (.std (str "bind param index out of range"))
  else
    let b : MysqlBind := { bufferType := type, buffer := buffer, isUnsigned := isUnsigned }
    if type = .string then
      .ok { s with
        paramBinds := s.paramBinds.set (index - 1)
          (some { b with length := some (s.stringParamLengths.block, index - 1) })
        stringParamLengths := s.stringParamLengths.modify (index - 1) fun _ => length }
    else .ok { s with paramBinds := s.paramBinds.set (index - 1) (some b) }

variable (g : Growth)

/-- `bindInt(index, value)`. -/
def bindInt (s : MysqlStmt) (index : ℕ) (value : Int32) : Except Exn MysqlStmt :=
  let storage := (s.intParamStorage.cover g index 0).modify (index - 1) fun _ => value
  bindParam { s with intParamStorage := storage } index .long (.int storage.block (index - 1)) 0
    false

/-- `bindInt64(index, value)`. -/
def bindInt64 (s : MysqlStmt) (index : ℕ) (value : Int64) : Except Exn MysqlStmt :=
  let storage := (s.int64ParamStorage.cover g index 0).modify (index - 1) fun _ => value
  bindParam { s with int64ParamStorage := storage } index .longlong
    (.int64 storage.block (index - 1)) 0 false

/-- `bindUInt64(index, value)`. -/
def bindUInt64 (s : MysqlStmt) (index : ℕ) (value : UInt64) : Except Exn MysqlStmt :=
  let storage := (s.uint64ParamStorage.cover g index 0).modify (index - 1) fun _ => value
  bindParam { s with uint64ParamStorage := storage } index .longlong
    (.uint64 storage.block (index - 1)) 0 true

/-- `bindString(index, value)`. -/
def bindString (s : MysqlStmt) (index : ℕ) (value : Bytes) : Except Exn MysqlStmt :=
  let grown := s.stringParamStorage.items.length < index
  let storage := (s.stringParamStorage.cover g index {}).modify (index - 1) fun x =>
    x.assign g value
  let lengths := if grown then s.stringParamLengths.resize g index 0 else s.stringParamLengths
  let element := storage.items.getD (index - 1) {}
  bindParam
    { s with stringParamStorage := storage
             stringParamLengths := lengths.modify (index - 1) fun _ => value.length }
    index .string (element.data storage.block (index - 1)) value.length false

/-- Bind a value with the call for its kind. -/
def bind (s : MysqlStmt) (index : ℕ) : SqlValue → Except Exn MysqlStmt
  | .int v => bindInt g s index v
  | .int64 v => bindInt64 g s index v
  | .uint64 v => bindUInt64 g s index v
  | .string v => bindString g s index v

/-- Bind several values. -/
def binds (s : MysqlStmt) : List (ℕ × SqlValue) → Except Exn MysqlStmt
  | [] => .ok s
  | c :: calls => do binds (← bind g s c.1 c.2) calls

/-- What the driver reads through a bind at `execute()`. -/
def read (s : MysqlStmt) (b : MysqlBind) : Option SqlValue :=
  match b.bufferType, b.isUnsigned, b.buffer with
  | .long, _, .int block i => (s.intParamStorage.cell block i).map .int
  | .longlong, false, .int64 block i => (s.int64ParamStorage.cell block i).map .int64
  | .longlong, true, .uint64 block i => (s.uint64ParamStorage.cell block i).map .uint64
  | .string, _, .inside block i => do
    let element ← s.stringParamStorage.cell block i
    let length ← b.length
    let n ← s.stringParamLengths.cell length.1 length.2
    if element.heaps = 0 then some (.string (element.chars.take n)) else none
  | .string, _, .heap i k => do
    let element ← s.stringParamStorage.items[i]?
    let length ← b.length
    let n ← s.stringParamLengths.cell length.1 length.2
    if element.heaps = k then some (.string (element.chars.take n)) else none
  | _, _, _ => none

/-- The values that `execute()` passes to the driver, by parameter. -/
def executed (s : MysqlStmt) : List (Option SqlValue) := s.paramBinds.map fun b => b.bind s.read

/-! ## Results -/

/-- `v.resize(n, x)` of a vector that nothing points into. -/
def resized {α : Type} (v : List α) (n : ℕ) (x : α) : List α :=
  v.take n ++ List.replicate (n - v.length) x

/-- `bindResultString(index, out, length)`. -/
def bindResultString (s : MysqlStmt) (index : ℕ) : MysqlStmt :=
  let s :=
    if s.stringResultStorage.items.length < index then
      { s with
        stringResultStorage := s.stringResultStorage.resize g index {}
        stringResultLengths := s.stringResultLengths.resize g index 0
        resultBinds := resized s.resultBinds index none
        resultStringOut := resized s.resultStringOut index false }
    else s
  let storage := s.stringResultStorage.modify (index - 1) fun x =>
    x.assign g (List.replicate 4096 0)
  let lengths := s.stringResultLengths.modify (index - 1) fun _ => 0
  let element := storage.items.getD (index - 1) {}
  { s with
    stringResultStorage := storage
    stringResultLengths := lengths
    resultBinds := s.resultBinds.set (index - 1) (some
      { bufferType := .string, buffer := element.data storage.block (index - 1)
        bufferLength := element.chars.length, length := some (lengths.block, index - 1) })
    resultStringOut := s.resultStringOut.set (index - 1) true }

/-- `bindResultInt(index, out)`. -/
def bindResultInt (s : MysqlStmt) (index : ℕ) : MysqlStmt :=
  let s :=
    if s.intResultStorage.items.length < index then
      { s with
        intResultStorage := s.intResultStorage.resize g index 0
        resultBinds := resized s.resultBinds index none
        resultIntOut := resized s.resultIntOut index false }
    else s
  { s with
    resultBinds := s.resultBinds.set (index - 1) (some
      { bufferType := .long, buffer := .int s.intResultStorage.block (index - 1) })
    resultIntOut := s.resultIntOut.set (index - 1) true }

/-- `bindResultInt64(index, out)`. -/
def bindResultInt64 (s : MysqlStmt) (index : ℕ) : MysqlStmt :=
  let s :=
    if s.int64ResultStorage.items.length < index then
      { s with
        int64ResultStorage := s.int64ResultStorage.resize g index 0
        resultBinds := resized s.resultBinds index none
        resultInt64Out := resized s.resultInt64Out index false }
    else s
  { s with
    resultBinds := s.resultBinds.set (index - 1) (some
      { bufferType := .longlong, buffer := .int64 s.int64ResultStorage.block (index - 1) })
    resultInt64Out := s.resultInt64Out.set (index - 1) true }

/-- `bindResultUInt64(index, out)`. -/
def bindResultUInt64 (s : MysqlStmt) (index : ℕ) : MysqlStmt :=
  let s :=
    if s.uint64ResultStorage.items.length < index then
      { s with
        uint64ResultStorage := s.uint64ResultStorage.resize g index 0
        resultBinds := resized s.resultBinds index none
        resultUInt64Out := resized s.resultUInt64Out index false }
    else s
  { s with
    resultBinds := s.resultBinds.set (index - 1) (some
      { bufferType := .longlong, buffer := .uint64 s.uint64ResultStorage.block (index - 1)
        isUnsigned := true })
    resultUInt64Out := s.resultUInt64Out.set (index - 1) true }

/-- Bind a variable of a kind to a column. -/
def bindResult (s : MysqlStmt) (index : ℕ) : SqlKind → MysqlStmt
  | .int => bindResultInt g s index
  | .int64 => bindResultInt64 g s index
  | .uint64 => bindResultUInt64 g s index
  | .string => bindResultString g s index

/-- Bind variables to the columns from `index` on. -/
def bindResults (s : MysqlStmt) (index : ℕ) : List SqlKind → MysqlStmt
  | [] => s
  | kind :: kinds => bindResults (bindResult g s index kind) (index + 1) kinds

/-- What the driver writes of a column through its bind. -/
def write (s : MysqlStmt) (b : MysqlBind) (value : SqlValue) : MysqlStmt :=
  match b.bufferType, b.isUnsigned, b.buffer, value with
  | .long, _, .int block i, .int v =>
    { s with intResultStorage := s.intResultStorage.store block i v }
  | .longlong, false, .int64 block i, .int64 v =>
    { s with int64ResultStorage := s.int64ResultStorage.store block i v }
  | .longlong, true, .uint64 block i, .uint64 v =>
    { s with uint64ResultStorage := s.uint64ResultStorage.store block i v }
  | .string, _, .heap i k, .string v =>
    let part := v.take b.bufferLength
    let fill := fun x : StdString =>
      if x.heaps = k then { x with chars := part ++ x.chars.drop part.length } else x
    let s := { s with stringResultStorage := s.stringResultStorage.modify i fill }
    match b.length with
    | some (block, j) =>
      { s with stringResultLengths := s.stringResultLengths.store block j v.length }
    | none => s
  | _, _, _, _ => s

/-- The driver writes a row. -/
def writeRow (s : MysqlStmt) : List (Option MysqlBind × SqlValue) → MysqlStmt
  | [] => s
  | (some b, v) :: cols => writeRow (write s b v) cols
  | (none, _) :: cols => writeRow s cols

/-- `mysql_stmt_fetch` with a row. -/
def fetchRow (s : MysqlStmt) (row : List SqlValue) : MysqlStmt :=
  writeRow s (s.resultBinds.zip row)

/-- What `fetch()` puts into the variable of a kind that is bound to a column, counted from
0; the length of a string goes into a variable of its own. -/
def fetched (s : MysqlStmt) (i : ℕ) : SqlKind → Option (SqlValue × Option ℕ)
  | .string =>
    if s.resultStringOut.getD i false then do
      let element ← s.stringResultStorage.items[i]?
      let length ← s.stringResultLengths.items[i]?
      some (.string (element.chars.take length), some length)
    else none
  | .int =>
    if s.resultIntOut.getD i false then
      s.intResultStorage.items[i]?.map fun v => (.int v, none)
    else none
  | .int64 =>
    if s.resultInt64Out.getD i false then
      s.int64ResultStorage.items[i]?.map fun v => (.int64 v, none)
    else none
  | .uint64 =>
    if s.resultUInt64Out.getD i false then
      s.uint64ResultStorage.items[i]?.map fun v => (.uint64 v, none)
    else none

end MysqlStmt

end CloudStore.Model
