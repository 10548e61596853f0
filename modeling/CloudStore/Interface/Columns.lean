import CloudStore.Model.MysqlStmt

/-!
# Bound columns

Every column is bound to a cell of the block that the vector of its kind has then. The driver
writes a number to that cell, and of a string the length; a string's own heap cell stays where
it is.
-/

set_option autoImplicit false

namespace CloudStore.Interface

open CloudStore.Library (Bytes Growth GrowingVector VectorShape)
open CloudStore.Library.GrowingVector
open CloudStore.Model
open CloudStore.Model.MysqlStmt

variable {g : Growth} {s : MysqlStmt}

/-- The columns of a kind, for columns that are counted from `first`. -/
def columns (kind : SqlKind) (first : ℕ) (row : List SqlValue) : List ℕ :=
  ((row.zipIdx first).filter fun c => c.1.kind = kind).map Prod.snd

theorem columns_append (kind : SqlKind) (first : ℕ) (row more : List SqlValue) :
    columns kind first (row ++ more) =
      columns kind first row ++ columns kind (first + row.length) more := by
  unfold columns
  rw [List.zipIdx_append, List.filter_append, List.map_append]

theorem columns_singleton (kind : SqlKind) (first : ℕ) (v : SqlValue) :
    columns kind first [v] = if kind = v.kind then [first] else [] := by
  unfold columns
  by_cases hkind : v.kind = kind
  · rw [if_pos hkind.symm, List.zipIdx_singleton, List.filter_cons_of_pos (by simpa using hkind)]
    rfl
  · rw [if_neg (Ne.symm hkind), List.zipIdx_singleton,
      List.filter_cons_of_neg (by simpa using hkind)]
    rfl

theorem le_of_mem_columns {kind : SqlKind} {row : List SqlValue} {i : ℕ}
    (h : i ∈ columns kind 1 row) : i ≤ row.length := by
  obtain ⟨c, hc, rfl⟩ := List.mem_map.mp h
  have hlt := List.snd_lt_add_of_mem_zipIdx (List.mem_filter.mp hc).1
  omega

/-- The shape of the vector of a kind of columns. -/
def resultShape (s : MysqlStmt) : SqlKind → VectorShape
  | .int => s.intResultStorage.shape
  | .int64 => s.int64ResultStorage.shape
  | .uint64 => s.uint64ResultStorage.shape
  | .string => s.stringResultStorage.shape

/-- Which variables of a kind are bound. -/
def resultOut (s : MysqlStmt) : SqlKind → List Bool
  | .int => s.resultIntOut
  | .int64 => s.resultInt64Out
  | .uint64 => s.resultUInt64Out
  | .string => s.resultStringOut

/-- What a bound column of a kind records. -/
def columnBind (block i : ℕ) : SqlKind → MysqlBind
  | .int => { bufferType := .long, buffer := .int block i }
  | .int64 => { bufferType := .longlong, buffer := .int64 block i }
  | .uint64 => { bufferType := .longlong, buffer := .uint64 block i, isUnsigned := true }
  | .string =>
    { bufferType := .string, buffer := .heap i 1, bufferLength := 4096, length := some (block, i) }

/-- The buffer of a string column. -/
def columnBuffer (g : Growth) : StdString := ({} : StdString).assign g (List.replicate 4096 0)

/-- A column that is bound and not written: the cells hold zeros. -/
def Blank (g : Growth) (s : MysqlStmt) (i : ℕ) : SqlKind → Prop
  | .int => s.intResultStorage.items[i]? = some 0
  | .int64 => s.int64ResultStorage.items[i]? = some 0
  | .uint64 => s.uint64ResultStorage.items[i]? = some 0
  | .string => s.stringResultStorage.items[i]? = some (columnBuffer g) ∧
      s.stringResultLengths.items[i]? = some 0

theorem columnBuffer_eq : columnBuffer g =
    { chars := List.replicate 4096 0, cap := g.capacity 15 4096, heaps := 1 } := by
  unfold columnBuffer StdString.assign
  rw [List.length_replicate, if_neg (by decide)]

/-- The buffer is a heap cell. -/
theorem columnBuffer_data (block i : ℕ) : (columnBuffer g).data block i = .heap i 1 := by
  unfold StdString.data
  rw [columnBuffer_eq, if_neg Nat.one_ne_zero]

theorem columnBuffer_length : (columnBuffer g).chars.length = 4096 := by
  rw [columnBuffer_eq]
  exact List.length_replicate

/-! ## Binding -/

/-- The columns that are bound so far, with the blocks that their vectors had then. -/
structure ColumnsBound (g : Growth) (s : MysqlStmt) (row : List SqlValue) : Prop where
  count : s.resultBinds.length = row.length
  outs : ∀ kind, (resultOut s kind).length ≤ row.length
  shape : ∀ kind, resultShape s kind = VectorShape.covers g (columns kind 1 row)
  parallel : s.stringResultLengths.shape = s.stringResultStorage.shape
  recorded : ∀ pre v post, row = pre ++ v :: post →
    s.resultBinds[pre.length]? = some (some (columnBind
      (VectorShape.covers g (columns v.kind 1 (pre ++ [v]))).block pre.length v.kind)) ∧
    (resultOut s v.kind)[pre.length]? = some true ∧ Blank g s pre.length v.kind

/-- What binding a column does. -/
structure BindsColumn (g : Growth) (s s' : MysqlStmt) (i : ℕ) (kind : SqlKind) : Prop where
  binds : s'.resultBinds =
    s.resultBinds ++ [some (columnBind ((resultShape s kind).cover g (i + 1)).block i kind)]
  outs : ∀ kind', (resultOut s' kind').length ≤ i + 1
  out : (resultOut s' kind)[i]? = some true
  shape : ∀ kind', resultShape s' kind' =
    if kind' = kind then (resultShape s kind').cover g (i + 1) else resultShape s kind'
  parallel : s'.stringResultLengths.shape = s'.stringResultStorage.shape
  blank : Blank g s' i kind
  earlier : ∀ j kind', j < i → (resultOut s kind')[j]? = some true → Blank g s j kind' →
    (resultOut s' kind')[j]? = some true ∧ Blank g s' j kind'

theorem resize_eq_cover {α : Type} {v : GrowingVector α} {n : ℕ} (h : v.items.length < n) (x : α) :
    v.resize g n x = v.cover g n x := by
  unfold cover
  rw [if_pos h]

theorem resized_length {α : Type} {v : List α} {n : ℕ} (h : v.length ≤ n) (x : α) :
    (resized v n x).length = n := by
  unfold resized
  rw [List.length_append, List.length_take, List.length_replicate]
  omega

/-- The entry of a fresh column in a list of binds or of variables. -/
theorem resized_set_self {α : Type} {v : List α} {i : ℕ} (h : v.length ≤ i) (x y : α) :
    ((resized v (i + 1) x).set i y)[i]? = some y := by
  rw [List.getElem?_set_self]
  rw [resized_length (by omega)]
  omega

theorem resized_set_earlier {α : Type} {v : List α} {i j : ℕ} (h : v.length ≤ i) (x y : α) {z : α}
    (hz : v[j]? = some z) : ((resized v (i + 1) x).set i y)[j]? = some z := by
  have hj : j < v.length := (List.getElem?_eq_some_iff.mp hz).1
  unfold resized
  rw [List.getElem?_set_ne (by omega), List.take_of_length_le (by omega),
    List.getElem?_append_left hj, hz]

theorem resized_set_append {α : Type} {v : List α} {i : ℕ} (h : v.length = i) (x y : α) :
    (resized v (i + 1) x).set i y = v ++ [y] := by
  subst h
  unfold resized
  rw [List.take_of_length_le (by omega), show v.length + 1 - v.length = 1 by omega]
  simp

theorem resized_set_length {α : Type} {v : List α} {i : ℕ} (h : v.length ≤ i) (x y : α) :
    ((resized v (i + 1) x).set i y).length ≤ i + 1 := by
  rw [List.length_set, resized_length (by omega)]

/-- Cells in front stay when a vector covers a fresh column. -/
theorem covered_front {α : Type} {v : GrowingVector α} {n j : ℕ} (x : α) {y : α}
    (h : v.items[j]? = some y) : (v.cover g n x).items[j]? = some y :=
  (cover_getElem? (List.getElem?_eq_some_iff.mp h).1).trans h

/-- **One call** that binds the next column. -/
theorem bindResult_binds {i : ℕ} (hcount : s.resultBinds.length = i)
    (houts : ∀ kind, (resultOut s kind).length ≤ i)
    (hsizes : ∀ kind, (resultShape s kind).size ≤ i)
    (hparallel : s.stringResultLengths.shape = s.stringResultStorage.shape) (kind : SqlKind) :
    BindsColumn g s (bindResult g s (i + 1) kind) i kind := by
  have hsize := hsizes kind
  have hout := houts kind
  have hwiden : ∀ kind', (resultOut s kind').length ≤ i + 1 :=
    fun kind' => Nat.le_succ_of_le (houts kind')
  cases kind with
  | int =>
      have hgrown : s.intResultStorage.items.length < i + 1 := Nat.lt_succ_of_le hsize
      unfold bindResult bindResultInt
      rw [if_pos hgrown, resize_eq_cover hgrown]
      constructor
      · show _ = _ ++ [some (columnBind (s.intResultStorage.shape.cover g (i + 1)).block i .int)]
        rw [← @cover_shape _ g s.intResultStorage (i + 1) 0]
        exact resized_set_append hcount _ _
      · intro kind'
        cases kind' with
        | int => exact resized_set_length hout _ _
        | int64 => exact hwiden .int64
        | uint64 => exact hwiden .uint64
        | string => exact hwiden .string
      · exact resized_set_self hout _ _
      · intro kind'
        cases kind' with
        | int => exact cover_shape
        | _ => rfl
      · exact hparallel
      · exact cover_default hsize (Nat.lt_succ_self i)
      · intro j kind' hj hbound hblank
        cases kind' with
        | int => exact ⟨resized_set_earlier hout _ _ hbound, covered_front _ hblank⟩
        | _ => exact ⟨hbound, hblank⟩
  | int64 =>
      have hgrown : s.int64ResultStorage.items.length < i + 1 := Nat.lt_succ_of_le hsize
      unfold bindResult bindResultInt64
      rw [if_pos hgrown, resize_eq_cover hgrown]
      constructor
      · show _ = _ ++ [some (columnBind (s.int64ResultStorage.shape.cover g (i + 1)).block i .int64)]
        rw [← @cover_shape _ g s.int64ResultStorage (i + 1) 0]
        exact resized_set_append hcount _ _
      · intro kind'
        cases kind' with
        | int => exact hwiden .int
        | int64 => exact resized_set_length hout _ _
        | uint64 => exact hwiden .uint64
        | string => exact hwiden .string
      · exact resized_set_self hout _ _
      · intro kind'
        cases kind' with
        | int64 => exact cover_shape
        | _ => rfl
      · exact hparallel
      · exact cover_default hsize (Nat.lt_succ_self i)
      · intro j kind' hj hbound hblank
        cases kind' with
        | int64 => exact ⟨resized_set_earlier hout _ _ hbound, covered_front _ hblank⟩
        | _ => exact ⟨hbound, hblank⟩
  | uint64 =>
      have hgrown : s.uint64ResultStorage.items.length < i + 1 := Nat.lt_succ_of_le hsize
      unfold bindResult bindResultUInt64
      rw [if_pos hgrown, resize_eq_cover hgrown]
      constructor
      · show _ = _ ++ [some (columnBind (s.uint64ResultStorage.shape.cover g (i + 1)).block i .uint64)]
        rw [← @cover_shape _ g s.uint64ResultStorage (i + 1) 0]
        exact resized_set_append hcount _ _
      · intro kind'
        cases kind' with
        | int => exact hwiden .int
        | int64 => exact hwiden .int64
        | uint64 => exact resized_set_length hout _ _
        | string => exact hwiden .string
      · exact resized_set_self hout _ _
      · intro kind'
        cases kind' with
        | uint64 => exact cover_shape
        | _ => rfl
      · exact hparallel
      · exact cover_default hsize (Nat.lt_succ_self i)
      · intro j kind' hj hbound hblank
        cases kind' with
        | uint64 => exact ⟨resized_set_earlier hout _ _ hbound, covered_front _ hblank⟩
        | _ => exact ⟨hbound, hblank⟩
  | string =>
      have hgrown : s.stringResultStorage.items.length < i + 1 := Nat.lt_succ_of_le hsize
      have hlengths : s.stringResultLengths.items.length ≤ i :=
        (congrArg VectorShape.size hparallel).trans_le hsize
      have hitem : (s.stringResultStorage.cover g (i + 1) {}).items[i]? = some {} :=
        cover_default hsize (Nat.lt_succ_self i)
      have hlength : (s.stringResultLengths.cover g (i + 1) 0).items[i]? = some 0 :=
        cover_default hlengths (Nat.lt_succ_self i)
      let storage := (s.stringResultStorage.cover g (i + 1) {}).modify i fun x =>
        x.assign g (List.replicate 4096 0)
      let lengths := (s.stringResultLengths.cover g (i + 1) 0).modify i fun _ => 0
      have hbuffer : storage.items[i]? = some (columnBuffer g) := by
        rw [modify_getElem?, hitem]
        rfl
      have helement : storage.items.getD i {} = columnBuffer g := by
        rw [List.getD_eq_getElem?_getD, hbuffer, Option.getD_some]
      have hshape : lengths.shape = storage.shape := by
        rw [modify_shape, modify_shape, cover_shape, cover_shape, hparallel]
      have hblock : lengths.block = (s.stringResultStorage.shape.cover g (i + 1)).block := by
        rw [← @cover_shape _ g s.stringResultStorage (i + 1) {}]
        exact congrArg VectorShape.block hshape
      have hrun : bindResult g s (i + 1) .string =
          { s with
            stringResultStorage := storage
            stringResultLengths := lengths
            resultBinds := s.resultBinds ++ [some (columnBind
              (s.stringResultStorage.shape.cover g (i + 1)).block i .string)]
            resultStringOut := (resized s.resultStringOut (i + 1) false).set i true } := by
        unfold bindResult bindResultString
        rw [if_pos hgrown, resize_eq_cover hgrown,
          resize_eq_cover (Nat.lt_succ_of_le hlengths)]
        show { s with
          stringResultStorage := storage
          stringResultLengths := lengths
          resultBinds := (resized s.resultBinds (i + 1) none).set i (some
            { bufferType := .string, buffer := (storage.items.getD i {}).data storage.block i
              bufferLength := (storage.items.getD i {}).chars.length
              length := some (lengths.block, i) })
          resultStringOut := (resized s.resultStringOut (i + 1) false).set i true } = _
        rw [helement, columnBuffer_data, columnBuffer_length, resized_set_append hcount, hblock]
        rfl
      rw [hrun]
      constructor
      · rfl
      · intro kind'
        cases kind' with
        | int => exact hwiden .int
        | int64 => exact hwiden .int64
        | uint64 => exact hwiden .uint64
        | string => exact resized_set_length hout _ _
      · exact resized_set_self hout _ _
      · intro kind'
        cases kind' with
        | string => exact (modify_shape _).trans cover_shape
        | _ => rfl
      · exact hshape
      · refine ⟨hbuffer, ?_⟩
        rw [modify_getElem?, hlength]
        rfl
      · intro j kind' hj hbound hblank
        cases kind' with
        | string =>
            refine ⟨resized_set_earlier hout _ _ hbound, ?_, ?_⟩
            · rw [modify_getElem?_ne _ (by omega)]
              exact covered_front _ hblank.1
            · rw [modify_getElem?_ne _ (by omega)]
              exact covered_front _ hblank.2
        | _ => exact ⟨hbound, hblank⟩

theorem ColumnsBound.sizes {row : List SqlValue} (h : ColumnsBound g s row) (kind : SqlKind) :
    (resultShape s kind).size ≤ row.length := by
  rw [h.shape kind]
  exact VectorShape.covers_size_le fun i hi => le_of_mem_columns hi

theorem ColumnsBound.bind {row : List SqlValue} (h : ColumnsBound g s row) (v : SqlValue) :
    ColumnsBound g (bindResult g s (row.length + 1) v.kind) (row ++ [v]) := by
  have hbinds := @bindResult_binds g s row.length h.count h.outs h.sizes h.parallel v.kind
  have hlast : ∀ kind, VectorShape.covers g (columns kind 1 (row ++ [v])) =
      if kind = v.kind then (resultShape s kind).cover g (row.length + 1)
      else resultShape s kind := by
    intro kind
    rw [columns_append, columns_singleton, VectorShape.covers_append, ← h.shape kind,
      Nat.add_comm 1]
    split <;> rfl
  constructor
  · rw [hbinds.binds, List.length_append, h.count, List.length_append]
    rfl
  · intro kind
    rw [List.length_append]
    exact hbinds.outs kind
  · intro kind
    rw [hbinds.shape kind, hlast kind]
  · exact hbinds.parallel
  · intro pre u post hrow
    rcases List.eq_nil_or_concat post with rfl | ⟨post, w, rfl⟩
    · obtain ⟨rfl, hu⟩ := List.append_inj' hrow rfl
      obtain rfl : v = u := (List.cons_eq_cons.mp hu).1
      rw [hlast, if_pos rfl, hbinds.binds]
      refine ⟨?_, hbinds.out, hbinds.blank⟩
      rw [← h.count, List.getElem?_concat_length]
    · have hrow' : row ++ [v] = (pre ++ u :: post) ++ [w] := by
        rw [hrow, List.concat_eq_append, List.append_assoc, List.cons_append]
      obtain ⟨hfront, -⟩ := List.append_inj' hrow' rfl
      obtain ⟨hbind, hout, hblank⟩ := h.recorded pre u post hfront
      have hlt : pre.length < row.length := by
        rw [hfront, List.length_append, List.length_cons]
        omega
      refine ⟨?_, hbinds.earlier _ _ hlt hout hblank⟩
      rw [hbinds.binds, List.getElem?_append_left (by rw [h.count]; exact hlt), hbind]

theorem ColumnsBound.prepared (count : ℕ) : ColumnsBound g (prepared count) [] where
  count := rfl
  outs kind := by cases kind <;> exact Nat.le_refl 0
  shape kind := by cases kind <;> rfl
  parallel := rfl
  recorded pre v post heq := by simp at heq

/-- **A run of calls** that bind columns, by induction on the columns to come. -/
theorem ColumnsBound.run (rest : List SqlValue) {row : List SqlValue} (h : ColumnsBound g s row) :
    ColumnsBound g (bindResults g s (row.length + 1) (rest.map SqlValue.kind)) (row ++ rest) := by
  induction rest generalizing s row with
  | nil =>
      rw [List.append_nil]
      exact h
  | cons v rest ih =>
      have hrest := ih (h.bind v)
      rw [List.length_append, List.append_assoc] at hrest
      exact hrest

/-! ## Writing a row -/

/-- Two states have the same cells of a column, in the same blocks. -/
structure SameColumn (i : ℕ) (s s' : MysqlStmt) : Prop where
  int : s'.intResultStorage.items[i]? = s.intResultStorage.items[i]?
  int64 : s'.int64ResultStorage.items[i]? = s.int64ResultStorage.items[i]?
  uint64 : s'.uint64ResultStorage.items[i]? = s.uint64ResultStorage.items[i]?
  string : s'.stringResultStorage.items[i]? = s.stringResultStorage.items[i]?
  length : s'.stringResultLengths.items[i]? = s.stringResultLengths.items[i]?
  shape : ∀ kind, resultShape s' kind = resultShape s kind
  lengths : s'.stringResultLengths.shape = s.stringResultLengths.shape
  outs : ∀ kind, resultOut s' kind = resultOut s kind

theorem SameColumn.refl (i : ℕ) (s : MysqlStmt) : SameColumn i s s :=
  ⟨rfl, rfl, rfl, rfl, rfl, fun _ => rfl, rfl, fun _ => rfl⟩

theorem SameColumn.trans {i : ℕ} {s₁ s₂ s₃ : MysqlStmt} (h : SameColumn i s₁ s₂)
    (h' : SameColumn i s₂ s₃) : SameColumn i s₁ s₃ where
  int := h'.int.trans h.int
  int64 := h'.int64.trans h.int64
  uint64 := h'.uint64.trans h.uint64
  string := h'.string.trans h.string
  length := h'.length.trans h.length
  shape kind := (h'.shape kind).trans (h.shape kind)
  lengths := h'.lengths.trans h.lengths
  outs kind := (h'.outs kind).trans (h.outs kind)

theorem store_getElem?_ne {α : Type} {v : GrowingVector α} {i j block : ℕ} (x : α) (h : i ≠ j) :
    (v.store block i x).items[j]? = v.items[j]? := by
  unfold store
  split
  · exact List.getElem?_set_ne h
  · rfl

/-- A column is written through its own bind; the others stay. -/
theorem write_other {i j block : ℕ} (h : i ≠ j) (kind : SqlKind) (v : SqlValue) :
    SameColumn j s (write s (columnBind block i kind) v) := by
  cases kind with
  | int =>
      cases v with
      | int v =>
          refine { SameColumn.refl j s with int := store_getElem?_ne v h, shape := ?_ }
          intro kind
          cases kind with
          | int => exact store_shape block
          | _ => rfl
      | _ => exact SameColumn.refl j s
  | int64 =>
      cases v with
      | int64 v =>
          refine { SameColumn.refl j s with int64 := store_getElem?_ne v h, shape := ?_ }
          intro kind
          cases kind with
          | int64 => exact store_shape block
          | _ => rfl
      | _ => exact SameColumn.refl j s
  | uint64 =>
      cases v with
      | uint64 v =>
          refine { SameColumn.refl j s with uint64 := store_getElem?_ne v h, shape := ?_ }
          intro kind
          cases kind with
          | uint64 => exact store_shape block
          | _ => rfl
      | _ => exact SameColumn.refl j s
  | string =>
      cases v with
      | string v =>
          refine { SameColumn.refl j s with
            string := modify_getElem?_ne _ h
            length := store_getElem?_ne _ h
            shape := ?_
            lengths := store_shape block }
          intro kind
          cases kind with
          | string => exact modify_shape _
          | _ => rfl
      | _ => exact SameColumn.refl j s

theorem writeRow_append (front back : List (Option MysqlBind × SqlValue)) :
    writeRow s (front ++ back) = writeRow (writeRow s front) back := by
  induction front generalizing s with
  | nil => rfl
  | cons c front ih =>
      obtain ⟨b, v⟩ := c
      cases b with
      | none => exact ih
      | some b => exact ih

/-- Columns other than `j` are written, and `j` stays. -/
theorem writeRow_others {j : ℕ} {cols : List (Option MysqlBind × SqlValue)}
    (h : ∀ b v, (some b, v) ∈ cols → ∃ block i kind, i ≠ j ∧ b = columnBind block i kind) :
    SameColumn j s (writeRow s cols) := by
  induction cols generalizing s with
  | nil => exact SameColumn.refl j s
  | cons c cols ih =>
      have hrest := fun b v hb => h b v (List.mem_cons_of_mem c hb)
      obtain ⟨b, v⟩ := c
      cases b with
      | none => exact ih hrest
      | some b =>
          obtain ⟨block, i, kind, hne, rfl⟩ := h b v List.mem_cons_self
          exact (write_other hne kind v).trans (ih hrest)

/-! ## Fetching -/

/-- The value that a column has as long as nothing is written. -/
def blankValue : SqlKind → SqlValue
  | .int => .int 0
  | .int64 => .int64 0
  | .uint64 => .uint64 0
  | .string => .string []

/-- What `fetch()` puts out for a value: the value, and the length of a string. -/
def delivered : SqlValue → SqlValue × Option ℕ
  | .string v => (.string v, some v.length)
  | v => (v, none)

theorem fetched_congr {i : ℕ} {s' : MysqlStmt} (h : SameColumn i s s') (kind : SqlKind) :
    fetched s' i kind = fetched s i kind := by
  unfold fetched
  cases kind with
  | int => rw [h.int, show s'.resultIntOut = s.resultIntOut from h.outs .int]
  | int64 => rw [h.int64, show s'.resultInt64Out = s.resultInt64Out from h.outs .int64]
  | uint64 => rw [h.uint64, show s'.resultUInt64Out = s.resultUInt64Out from h.outs .uint64]
  | string =>
      rw [h.string, h.length, show s'.resultStringOut = s.resultStringOut from h.outs .string]

/-- What the driver writes to a number's cell arrives if the cell is one of the present block. -/
theorem store_blank {α : Type} {v : GrowingVector α} {block i : ℕ} {x : α}
    (h : v.items[i]? = some x) (y : α) :
    (v.store block i y).items[i]? = some (if block = v.shape.block then y else x) := by
  have hi : i < v.items.length := (List.getElem?_eq_some_iff.mp h).1
  unfold store
  rw [show v.shape.block = v.block from rfl]
  by_cases hblock : block = v.block
  · rw [if_pos hblock, if_pos hblock]
    exact List.getElem?_set_self hi
  · rw [if_neg hblock, if_neg hblock, h]

/-- **What arrives of a column**: its value, if the vector of its kind is in the block of then. -/
theorem write_own {i block : ℕ} {v : SqlValue} (hout : (resultOut s v.kind)[i]? = some true)
    (hblank : Blank g s i v.kind)
    (hparallel : s.stringResultLengths.shape = s.stringResultStorage.shape)
    (hshort : ∀ chars, v = .string chars → chars.length ≤ 4096) :
    fetched (write s (columnBind block i v.kind) v) i v.kind = some (delivered
      (if block = (resultShape s v.kind).block then v else blankValue v.kind)) := by
  have hbound : ∀ outs : List Bool, outs[i]? = some true → outs.getD i false = true := by
    intro outs h
    rw [List.getD_eq_getElem?_getD, h]
    rfl
  cases v with
  | int v =>
      refine (if_pos (hbound _ hout)).trans ?_
      show (s.intResultStorage.store block i v).items[i]?.map _ = _
      rw [store_blank hblank v]
      show some _ = some (delivered (if block = s.intResultStorage.shape.block then _ else _))
      split <;> rfl
  | int64 v =>
      refine (if_pos (hbound _ hout)).trans ?_
      show (s.int64ResultStorage.store block i v).items[i]?.map _ = _
      rw [store_blank hblank v]
      show some _ = some (delivered (if block = s.int64ResultStorage.shape.block then _ else _))
      split <;> rfl
  | uint64 v =>
      refine (if_pos (hbound _ hout)).trans ?_
      show (s.uint64ResultStorage.store block i v).items[i]?.map _ = _
      rw [store_blank hblank v]
      show some _ = some (delivered (if block = s.uint64ResultStorage.shape.block then _ else _))
      split <;> rfl
  | string chars =>
      obtain ⟨hitem, hlength⟩ := hblank
      have hpart : chars.take 4096 = chars := List.take_of_length_le (hshort chars rfl)
      refine (if_pos (hbound _ hout)).trans ?_
      show ((s.stringResultStorage.modify i _).items[i]? >>= fun element =>
        (s.stringResultLengths.store block i chars.length).items[i]? >>= fun length => _) = _
      rw [modify_getElem?, hitem, store_blank hlength, hparallel]
      show some (SqlValue.string (((if (columnBuffer g).heaps = 1 then
          { columnBuffer g with
            chars := chars.take 4096 ++ (columnBuffer g).chars.drop (chars.take 4096).length }
        else columnBuffer g).chars).take _), some _) =
        some (delivered (if block = s.stringResultStorage.shape.block then _ else _))
      rw [if_pos (congrArg StdString.heaps columnBuffer_eq), hpart]
      by_cases hblock : block = s.stringResultStorage.shape.block
      · rw [if_pos hblock, if_pos hblock, List.take_left]
        rfl
      · rw [if_neg hblock, if_neg hblock, List.take_zero]
        rfl

/-- The binds of the columns in a row's cut are binds of these columns. -/
theorem ColumnsBound.at_column {row : List SqlValue} (h : ColumnsBound g s row) {j : ℕ}
    {b : MysqlBind} (hb : s.resultBinds[j]? = some (some b)) :
    ∃ block kind, b = columnBind block j kind := by
  have hj : j < row.length := by
    rw [← h.count]
    exact (List.getElem?_eq_some_iff.mp hb).1
  have hsplit : row = row.take j ++ row.get ⟨j, hj⟩ :: row.drop (j + 1) := by
    rw [List.get_eq_getElem, ← List.drop_eq_getElem_cons, List.take_append_drop]
  obtain ⟨hrecorded, -⟩ := h.recorded _ _ _ hsplit
  rw [List.length_take_of_le hj.le, hb] at hrecorded
  exact ⟨_, _, Option.some.inj (Option.some.inj hrecorded)⟩

theorem mem_zip_getElem? {α β : Type} {xs : List α} {ys : List β} {c : α × β} (h : c ∈ xs.zip ys) :
    ∃ k, xs[k]? = some c.1 ∧ k < ys.length := by
  obtain ⟨k, hk⟩ := List.mem_iff_getElem?.mp h
  obtain ⟨hx, hy⟩ := List.getElem?_zip_eq_some.mp hk
  exact ⟨k, hx, (List.getElem?_eq_some_iff.mp hy).1⟩

/-- **What a fetch puts out for a column** of a row. -/
theorem ColumnsBound.fetched {row : List SqlValue} (h : ColumnsBound g s row)
    {pre post : List SqlValue} {v : SqlValue} (hrow : row = pre ++ v :: post)
    (hshort : ∀ chars, v = .string chars → chars.length ≤ 4096) :
    fetched (fetchRow s row) pre.length v.kind = some (delivered
      (if (VectorShape.covers g (columns v.kind 1 (pre ++ [v]))).block =
        (VectorShape.covers g (columns v.kind 1 row)).block then v else blankValue v.kind)) := by
  obtain ⟨hbind, hout, hblank⟩ := h.recorded pre v post hrow
  have hlength : pre.length < s.resultBinds.length := (List.getElem?_eq_some_iff.mp hbind).1
  have hget : s.resultBinds.get ⟨pre.length, hlength⟩ = some (columnBind
      (VectorShape.covers g (columns v.kind 1 (pre ++ [v]))).block pre.length v.kind) :=
    (List.getElem?_eq_some_iff.mp hbind).2
  have hbinds : s.resultBinds = s.resultBinds.take pre.length ++
      some (columnBind (VectorShape.covers g (columns v.kind 1 (pre ++ [v]))).block pre.length
        v.kind) :: s.resultBinds.drop (pre.length + 1) := by
    rw [← hget, List.get_eq_getElem, ← List.drop_eq_getElem_cons, List.take_append_drop]
  have hfront : (s.resultBinds.take pre.length).length = pre.length :=
    List.length_take_of_le hlength.le
  have hzip : s.resultBinds.zip row = (s.resultBinds.take pre.length).zip pre ++
      (some (columnBind (VectorShape.covers g (columns v.kind 1 (pre ++ [v]))).block pre.length
        v.kind), v) :: (s.resultBinds.drop (pre.length + 1)).zip post := by
    conv_lhs => rw [hbinds, hrow]
    rw [List.zip_append hfront, List.zip_cons_cons]
  have hbefore := @writeRow_others s pre.length ((s.resultBinds.take pre.length).zip pre) (by
    intro b u hmem
    obtain ⟨k, hk, hlt⟩ := mem_zip_getElem? hmem
    rw [List.getElem?_take_of_lt hlt] at hk
    obtain ⟨block, kind, hb⟩ := h.at_column hk
    exact ⟨block, k, kind, by omega, hb⟩)
  have hafter : ∀ s' : MysqlStmt, SameColumn pre.length s'
      (writeRow s' ((s.resultBinds.drop (pre.length + 1)).zip post)) := by
    intro s'
    apply writeRow_others
    intro b u hmem
    obtain ⟨k, hk, -⟩ := mem_zip_getElem? hmem
    rw [List.getElem?_drop] at hk
    obtain ⟨block, kind, hb⟩ := h.at_column hk
    exact ⟨block, _, kind, by omega, hb⟩
  unfold fetchRow
  rw [hzip, writeRow_append]
  refine (fetched_congr (hafter _) v.kind).trans ?_
  have hstill : Blank g (writeRow s ((s.resultBinds.take pre.length).zip pre)) pre.length v.kind := by
    revert hblank
    unfold Blank
    cases v.kind with
    | int => exact hbefore.int.trans
    | int64 => exact hbefore.int64.trans
    | uint64 => exact hbefore.uint64.trans
    | string => exact fun hboth => ⟨hbefore.string.trans hboth.1, hbefore.length.trans hboth.2⟩
  have hparallel : (writeRow s ((s.resultBinds.take pre.length).zip pre)).stringResultLengths.shape =
      (writeRow s ((s.resultBinds.take pre.length).zip pre)).stringResultStorage.shape :=
    hbefore.lengths.trans (h.parallel.trans (hbefore.shape .string).symm)
  rw [write_own ((congrArg (·[pre.length]?) (hbefore.outs v.kind)).trans hout) hstill hparallel
    hshort, hbefore.shape, h.shape]

/-- **When a column arrives**: it is zero or empty, or no later column of its kind has an index
past the capacity that its vector had when it was bound. -/
theorem column_iff (count : ℕ) {row pre post : List SqlValue} {v : SqlValue}
    (hrow : row = pre ++ v :: post) (hshort : ∀ chars, v = .string chars → chars.length ≤ 4096) :
    MysqlStmt.fetched (fetchRow (bindResults g (prepared count) 1 (row.map SqlValue.kind)) row)
        pre.length v.kind = some (delivered v) ↔
      v = blankValue v.kind ∨ ∀ i ∈ columns v.kind (pre.length + 2) post,
        i ≤ (VectorShape.covers g (columns v.kind 1 (pre ++ [v]))).cap := by
  have hbound := @ColumnsBound.run g _ row [] (ColumnsBound.prepared count)
  rw [List.nil_append] at hbound
  have hfetched := hbound.fetched hrow hshort
  rw [show ([] : List SqlValue).length + 1 = 1 from rfl] at hfetched
  have hsplit : columns v.kind 1 row =
      columns v.kind 1 (pre ++ [v]) ++ columns v.kind (pre.length + 2) post := by
    rw [hrow, show pre ++ v :: post = (pre ++ [v]) ++ post by simp, columns_append,
      List.length_append, List.length_singleton, show 1 + (pre.length + 1) = pre.length + 2 by omega]
  rw [hfetched, hsplit, VectorShape.covers_append,
    ← VectorShape.block_eq_iff (VectorShape.covers_fits (columns v.kind 1 (pre ++ [v])))]
  split
  next hblock => exact iff_of_true rfl (Or.inr hblock.symm)
  next hblock =>
    constructor
    · intro heq
      have hvalue : blankValue v.kind = v := by
        have hfst := congrArg Prod.fst (Option.some.inj heq)
        have hdelivered : ∀ u : SqlValue, (delivered u).1 = u := by
          intro u
          cases u <;> rfl
        rwa [hdelivered, hdelivered] at hfst
      exact Or.inl hvalue.symm
    · rintro (hblank | hsame)
      · rw [← hblank]
      · exact absurd hsame.symm hblock

end CloudStore.Interface
