import CloudStore.Model.MysqlStmt

/-!
# Bound cells

Every call binds a cell of the block that the vector of its kind has then. The cell is read as
long as the vector stays in that block.
-/

set_option autoImplicit false

namespace CloudStore.Interface

open CloudStore.Library (Bytes Growth GrowingVector VectorShape)
open CloudStore.Library.GrowingVector
open CloudStore.Model
open CloudStore.Model.MysqlStmt

variable {g : Growth} {s : MysqlStmt}

/-! ## Parameters -/

/-- The shape of the vector of a kind of parameters. -/
def paramShape (s : MysqlStmt) : SqlKind → VectorShape
  | .int => s.intParamStorage.shape
  | .int64 => s.int64ParamStorage.shape
  | .uint64 => s.uint64ParamStorage.shape
  | .string => s.stringParamStorage.shape

/-- The indexes of the calls of a kind. -/
def indexes (kind : SqlKind) (calls : List (ℕ × SqlValue)) : List ℕ :=
  (calls.filter fun c => c.2.kind = kind).map Prod.fst

/-- A call has recorded cells of a block, and its value is in its vector. -/
def Recorded (s : MysqlStmt) (block : ℕ) (index : ℕ) : SqlValue → Prop
  | .int v =>
    s.paramBinds[index - 1]? =
        some (some { bufferType := .long, buffer := .int block (index - 1) }) ∧
      s.intParamStorage.items[index - 1]? = some v
  | .int64 v =>
    s.paramBinds[index - 1]? =
        some (some { bufferType := .longlong, buffer := .int64 block (index - 1) }) ∧
      s.int64ParamStorage.items[index - 1]? = some v
  | .uint64 v =>
    s.paramBinds[index - 1]? =
        some (some { bufferType := .longlong, buffer := .uint64 block (index - 1)
                     isUnsigned := true }) ∧
      s.uint64ParamStorage.items[index - 1]? = some v
  | .string v => ∃ element : StdString,
    s.paramBinds[index - 1]? =
        some (some { bufferType := .string, buffer := element.data block (index - 1)
                     length := some (block, index - 1) }) ∧
      s.stringParamStorage.items[index - 1]? = some element ∧ element.chars = v ∧
      s.stringParamLengths.items[index - 1]? = some v.length

/-- The vectors of strings and of lengths have the same shape. -/
def Parallel (s : MysqlStmt) : Prop := s.stringParamLengths.shape = s.stringParamStorage.shape

theorem cell_eq_some {α : Type} {v : GrowingVector α} {block i : ℕ} {x : α}
    (h : v.items[i]? = some x) : v.cell block i = some x ↔ block = v.shape.block := by
  unfold cell
  by_cases hblock : block = v.block
  · rw [if_pos hblock, h]
    exact iff_of_true rfl hblock
  · rw [if_neg hblock]
    exact iff_of_false (by simp) hblock

/-- **What is read of a call**: its value, if the vector of its kind is in the block of then. -/
theorem Recorded.read_iff {block index : ℕ} {value : SqlValue} (h : Recorded s block index value)
    (hparallel : Parallel s) : s.executed[index - 1]? = some (some value) ↔
      block = (paramShape s value.kind).block := by
  unfold executed
  rw [List.getElem?_map]
  cases value with
  | int v =>
      obtain ⟨hbind, hitem⟩ := h
      rw [hbind, show (paramShape s (SqlValue.int v).kind).block = s.intParamStorage.shape.block
        from rfl, ← cell_eq_some hitem]
      simp [MysqlStmt.read]
  | int64 v =>
      obtain ⟨hbind, hitem⟩ := h
      rw [hbind, show (paramShape s (SqlValue.int64 v).kind).block = s.int64ParamStorage.shape.block
        from rfl, ← cell_eq_some hitem]
      simp [MysqlStmt.read]
  | uint64 v =>
      obtain ⟨hbind, hitem⟩ := h
      rw [hbind, show (paramShape s (SqlValue.uint64 v).kind).block =
        s.uint64ParamStorage.shape.block from rfl, ← cell_eq_some hitem]
      simp [MysqlStmt.read]
  | string v =>
      obtain ⟨element, hbind, hitem, rfl, hlength⟩ := h
      rw [hbind, show (paramShape s (SqlValue.string element.chars).kind).block =
        s.stringParamLengths.shape.block from (congrArg VectorShape.block hparallel).symm]
      have hblock : s.stringParamStorage.block = s.stringParamLengths.block :=
        (congrArg VectorShape.block hparallel).symm
      change _ ↔ block = s.stringParamLengths.block
      by_cases hsame : block = s.stringParamLengths.block
      · refine iff_of_true ?_ hsame
        unfold StdString.data
        by_cases hinside : element.heaps = 0
        · simp [hinside, MysqlStmt.read, cell, hsame, hblock, hitem, hlength]
        · simp [hinside, MysqlStmt.read, cell, hsame, hitem, hlength]
      · refine iff_of_false ?_ hsame
        unfold StdString.data
        by_cases hinside : element.heaps = 0
        · simp [hinside, MysqlStmt.read, cell, hsame, hblock]
        · simp [hinside, MysqlStmt.read, cell, hsame, hitem]

/-- What a call of `bind` does to a statement: a cell of the vector of its kind is recorded, and
calls with smaller indexes stay recorded. -/
structure Binds (g : Growth) (s s' : MysqlStmt) (index : ℕ) (value : SqlValue) : Prop where
  count : s'.paramBinds.length = s.paramBinds.length
  parallel : Parallel s'
  shape : ∀ kind, paramShape s' kind =
    if kind = value.kind then (paramShape s kind).cover g index else paramShape s kind
  recorded : Recorded s' (paramShape s' value.kind).block index value
  earlier : ∀ block index' value', 1 ≤ index' → index' < index → Recorded s block index' value' →
    Recorded s' block index' value'

/-- What `bindParam` records of a number. -/
theorem bindParam_number {index : ℕ} (hpos : 1 ≤ index) (hcount : index ≤ s.paramBinds.length)
    {type : FieldType} (htype : type ≠ .string) (buffer : Cell) (length : ℕ) (isUnsigned : Bool) :
    bindParam s index type buffer length isUnsigned = .ok
      { s with
        paramBinds := s.paramBinds.set (index - 1)
          (some { bufferType := type, buffer := buffer, isUnsigned := isUnsigned }) } := by
  unfold bindParam
  rw [if_neg (by omega)]
  exact if_neg htype

/-- What `bindParam` records of a string. -/
theorem bindParam_string {index : ℕ} (hpos : 1 ≤ index) (hcount : index ≤ s.paramBinds.length)
    (buffer : Cell) (length : ℕ) :
    bindParam s index .string buffer length false = .ok
      { s with
        paramBinds := s.paramBinds.set (index - 1)
          (some { bufferType := .string, buffer := buffer
                  length := some (s.stringParamLengths.block, index - 1) })
        stringParamLengths := s.stringParamLengths.modify (index - 1) fun _ => length } := by
  unfold bindParam
  rw [if_neg (by omega)]
  rfl

/-- An element of a vector that covers its index. -/
theorem covered_getElem? {α : Type} {v : GrowingVector α} {index : ℕ} (hpos : 1 ≤ index) (x : α) :
    ∃ y, (v.cover g index x).items[index - 1]? = some y := by
  have hsize : index - 1 < (v.cover g index x).items.length := by
    rw [cover_items, List.length_append, List.length_replicate]
    omega
  exact ⟨_, List.getElem?_eq_getElem hsize⟩

/-- Elements in front stay when a vector covers an index and its element is changed. -/
theorem covered_earlier {α : Type} {v : GrowingVector α} {index index' : ℕ} (hpos : 1 ≤ index')
    (hlt : index' < index) (x : α) (f : α → α) {y : α} (h : v.items[index' - 1]? = some y) :
    ((v.cover g index x).modify (index - 1) f).items[index' - 1]? = some y := by
  have hsize : index' - 1 < v.items.length := (List.getElem?_eq_some_iff.mp h).1
  rw [modify_getElem?_ne f (by omega), cover_getElem? hsize, h]

/-- The element that a call has assigned. -/
theorem covered_assigned {α : Type} {v : GrowingVector α} {index : ℕ} (hpos : 1 ≤ index) (x y : α) :
    ((v.cover g index x).modify (index - 1) fun _ => y).items[index - 1]? = some y := by
  obtain ⟨z, hz⟩ := @covered_getElem? g α v index hpos x
  rw [modify_getElem?, hz]
  rfl

/-- Recorded calls stay recorded when a later call records its own bind and leaves what is in
front in the vectors. -/
theorem Recorded.later {s' : MysqlStmt} {index : ℕ} {b : MysqlBind}
    (hbinds : s'.paramBinds = s.paramBinds.set (index - 1) (some b))
    {block index' : ℕ} {value : SqlValue} (hpos : 1 ≤ index') (hlt : index' < index)
    (hint : ∀ v, s.intParamStorage.items[index' - 1]? = some v →
      s'.intParamStorage.items[index' - 1]? = some v)
    (hint64 : ∀ v, s.int64ParamStorage.items[index' - 1]? = some v →
      s'.int64ParamStorage.items[index' - 1]? = some v)
    (huint64 : ∀ v, s.uint64ParamStorage.items[index' - 1]? = some v →
      s'.uint64ParamStorage.items[index' - 1]? = some v)
    (hstring : ∀ v, s.stringParamStorage.items[index' - 1]? = some v →
      s'.stringParamStorage.items[index' - 1]? = some v)
    (hlength : ∀ v, s.stringParamLengths.items[index' - 1]? = some v →
      s'.stringParamLengths.items[index' - 1]? = some v)
    (h : Recorded s block index' value) : Recorded s' block index' value := by
  have hbind : s'.paramBinds[index' - 1]? = s.paramBinds[index' - 1]? := by
    rw [hbinds, List.getElem?_set_ne (by omega)]
  cases value with
  | int v => exact ⟨hbind.trans h.1, hint v h.2⟩
  | int64 v => exact ⟨hbind.trans h.1, hint64 v h.2⟩
  | uint64 v => exact ⟨hbind.trans h.1, huint64 v h.2⟩
  | string v =>
      obtain ⟨element, hrecorded, hitem, hchars, hlen⟩ := h
      exact ⟨element, hbind.trans hrecorded, hstring _ hitem, hchars, hlength _ hlen⟩

/-- **One call** of `bind` within the parameters. -/
theorem bind_binds (hparallel : Parallel s) {index : ℕ} (hpos : 1 ≤ index)
    (hcount : index ≤ s.paramBinds.length) (value : SqlValue) :
    ∃ s', MysqlStmt.bind g s index value = .ok s' ∧ Binds g s s' index value := by
  have hset : ∀ b : Option MysqlBind, (s.paramBinds.set (index - 1) b)[index - 1]? = some b := by
    intro b
    rw [List.getElem?_set_self (by omega)]
  cases value with
  | int v =>
      let storage := (s.intParamStorage.cover g index 0).modify (index - 1) fun _ => v
      have hbind := @bindParam_number { s with intParamStorage := storage } index hpos hcount .long
        (by decide) (.int storage.block (index - 1)) 0 false
      refine ⟨_, hbind, List.length_set, hparallel, ?_, ⟨hset _, covered_assigned hpos _ v⟩, ?_⟩
      · intro kind
        cases kind with
        | int => exact (modify_shape _).trans cover_shape
        | _ => rfl
      · intro block index' value' hpos' hlt
        apply Recorded.later rfl hpos' hlt
        · intro v' hitem
          exact covered_earlier hpos' hlt _ _ hitem
        · exact fun _ hitem => hitem
        · exact fun _ hitem => hitem
        · exact fun _ hitem => hitem
        · exact fun _ hitem => hitem
  | int64 v =>
      let storage := (s.int64ParamStorage.cover g index 0).modify (index - 1) fun _ => v
      have hbind := @bindParam_number { s with int64ParamStorage := storage } index hpos hcount .longlong
        (by decide) (.int64 storage.block (index - 1)) 0 false
      refine ⟨_, hbind, List.length_set, hparallel, ?_, ⟨hset _, covered_assigned hpos _ v⟩, ?_⟩
      · intro kind
        cases kind with
        | int64 => exact (modify_shape _).trans cover_shape
        | _ => rfl
      · intro block index' value' hpos' hlt
        apply Recorded.later rfl hpos' hlt
        · exact fun _ hitem => hitem
        · intro v' hitem
          exact covered_earlier hpos' hlt _ _ hitem
        · exact fun _ hitem => hitem
        · exact fun _ hitem => hitem
        · exact fun _ hitem => hitem
  | uint64 v =>
      let storage := (s.uint64ParamStorage.cover g index 0).modify (index - 1) fun _ => v
      have hbind := @bindParam_number { s with uint64ParamStorage := storage } index hpos hcount .longlong
        (by decide) (.uint64 storage.block (index - 1)) 0 true
      refine ⟨_, hbind, List.length_set, hparallel, ?_, ⟨hset _, covered_assigned hpos _ v⟩, ?_⟩
      · intro kind
        cases kind with
        | uint64 => exact (modify_shape _).trans cover_shape
        | _ => rfl
      · intro block index' value' hpos' hlt
        apply Recorded.later rfl hpos' hlt
        · exact fun _ hitem => hitem
        · exact fun _ hitem => hitem
        · intro v' hitem
          exact covered_earlier hpos' hlt _ _ hitem
        · exact fun _ hitem => hitem
        · exact fun _ hitem => hitem
  | string v =>
      have hsize : s.stringParamLengths.items.length = s.stringParamStorage.items.length :=
        congrArg VectorShape.size hparallel
      have hlengths : (if s.stringParamStorage.items.length < index then
          s.stringParamLengths.resize g index 0 else s.stringParamLengths) =
          s.stringParamLengths.cover g index 0 := by
        unfold cover
        rw [hsize]
      let storage := (s.stringParamStorage.cover g index {}).modify (index - 1) fun x =>
        x.assign g v
      let lengths := (s.stringParamLengths.cover g index 0).modify (index - 1) fun _ => v.length
      let element := storage.items.getD (index - 1) {}
      have hbind := @bindParam_string
        { s with stringParamStorage := storage, stringParamLengths := lengths } index hpos hcount
        (element.data storage.block (index - 1)) v.length
      obtain ⟨y, hy⟩ := @covered_getElem? g _ s.stringParamStorage index hpos {}
      have hitem : storage.items[index - 1]? = some (y.assign g v) := by
        rw [modify_getElem?, hy]
        rfl
      have helement : element = y.assign g v := by
        rw [show element = storage.items.getD (index - 1) {} from rfl, List.getD_eq_getElem?_getD,
          hitem]
        rfl
      have hshape : lengths.shape = storage.shape := by
        rw [modify_shape, modify_shape, cover_shape, cover_shape, hparallel]
      have hrun : MysqlStmt.bind g s index (.string v) = bindParam
          { s with stringParamStorage := storage, stringParamLengths := lengths } index .string
          (element.data storage.block (index - 1)) v.length false := by
        unfold MysqlStmt.bind bindString
        dsimp only
        rw [hlengths]
      refine ⟨_, hrun.trans hbind, List.length_set, ?_, ?_, ⟨element, ?_, ?_, ?_, ?_⟩, ?_⟩
      · exact (modify_shape _).trans hshape
      · intro kind
        cases kind with
        | string => exact (modify_shape _).trans cover_shape
        | _ => rfl
      · rw [show lengths.block = storage.block from congrArg VectorShape.block hshape]
        exact hset _
      · exact hitem.trans (congrArg some helement.symm)
      · rw [helement]
        unfold StdString.assign
        split <;> rfl
      · rw [modify_getElem?, covered_assigned hpos]
        rfl
      · intro block index' value' hpos' hlt
        apply Recorded.later rfl hpos' hlt
        · exact fun _ hitem => hitem
        · exact fun _ hitem => hitem
        · exact fun _ hitem => hitem
        · intro v' hitem
          exact covered_earlier hpos' hlt _ _ hitem
        · intro v' hitem
          rw [modify_getElem?_ne _ (by omega)]
          exact covered_earlier hpos' hlt _ _ hitem

/-- The calls that bind a statement with `count` parameters, in the order of their indexes. -/
structure Ascending (count : ℕ) (calls : List (ℕ × SqlValue)) : Prop where
  within : ∀ c ∈ calls, 1 ≤ c.1 ∧ c.1 ≤ count
  ascending : calls.Pairwise fun c d => c.1 < d.1

theorem Ascending.tail {count : ℕ} {c : ℕ × SqlValue} {calls : List (ℕ × SqlValue)}
    (h : Ascending count (c :: calls)) : Ascending count calls where
  within d hd := h.within d (List.mem_cons_of_mem c hd)
  ascending := h.ascending.of_cons

theorem indexes_cons (kind : SqlKind) (c : ℕ × SqlValue) (calls : List (ℕ × SqlValue)) :
    indexes kind (c :: calls) = if kind = c.2.kind then c.1 :: indexes kind calls
      else indexes kind calls := by
  unfold indexes
  by_cases hkind : c.2.kind = kind
  · rw [if_pos hkind.symm, List.filter_cons_of_pos (by simpa using hkind), List.map_cons]
  · rw [if_neg (Ne.symm hkind), List.filter_cons_of_neg (by simpa using hkind)]

theorem indexes_append (kind : SqlKind) (calls more : List (ℕ × SqlValue)) :
    indexes kind (calls ++ more) = indexes kind calls ++ indexes kind more := by
  unfold indexes
  rw [List.filter_append, List.map_append]

/-- What calls in ascending order do: each has recorded a cell of the block that its vector had
then. -/
structure BindsAll (g : Growth) (s s' : MysqlStmt) (calls : List (ℕ × SqlValue)) : Prop where
  parallel : Parallel s'
  shape : ∀ kind, paramShape s' kind =
    (indexes kind calls).foldl (VectorShape.cover g) (paramShape s kind)
  recorded : ∀ pre c post, calls = pre ++ c :: post → Recorded s'
    ((indexes c.2.kind (pre ++ [c])).foldl (VectorShape.cover g) (paramShape s c.2.kind)).block
    c.1 c.2
  earlier : ∀ block index value, 1 ≤ index → (∀ c ∈ calls, index < c.1) →
    Recorded s block index value → Recorded s' block index value

/-- **A run of calls**, by induction on them. -/
theorem binds_run {calls : List (ℕ × SqlValue)} (hparallel : Parallel s)
    (h : Ascending s.paramBinds.length calls) :
    ∃ s', binds g s calls = .ok s' ∧ BindsAll g s s' calls := by
  induction calls generalizing s with
  | nil =>
      refine ⟨s, rfl, hparallel, fun kind => rfl, ?_, fun block index value _ _ hrec => hrec⟩
      intro pre c post heq
      simp at heq
  | cons c calls ih =>
      obtain ⟨hpos, hcount⟩ := h.within c List.mem_cons_self
      obtain ⟨s₁, hbind, hbinds⟩ := bind_binds (g := g) hparallel hpos hcount c.2
      obtain ⟨s', hrun, hall⟩ := ih hbinds.parallel (hbinds.count.symm ▸ h.tail)
      have hlater : ∀ d ∈ calls, c.1 < d.1 := fun _ hd => List.rel_of_pairwise_cons h.ascending hd
      have hshape : ∀ kind rest, (indexes kind (c :: rest)).foldl (VectorShape.cover g)
          (paramShape s kind) =
          (indexes kind rest).foldl (VectorShape.cover g) (paramShape s₁ kind) := by
        intro kind rest
        rw [indexes_cons, hbinds.shape kind]
        by_cases hkind : kind = c.2.kind
        · rw [if_pos hkind, if_pos hkind, List.foldl_cons]
        · rw [if_neg hkind, if_neg hkind]
      refine ⟨s', ?_, hall.parallel, ?_, ?_, ?_⟩
      · show (MysqlStmt.bind g s c.1 c.2 >>= fun s => binds g s calls) = .ok s'
        rw [hbind]
        exact hrun
      · intro kind
        rw [hall.shape kind, hshape]
      · intro pre d post heq
        cases pre with
        | nil =>
            obtain ⟨rfl, rfl⟩ := List.cons_eq_cons.mp heq
            have hrec := hall.earlier _ _ _ hpos hlater hbinds.recorded
            rw [List.nil_append, hshape]
            exact hrec
        | cons e pre =>
            obtain ⟨rfl, hrest⟩ := List.cons_eq_cons.mp heq
            rw [List.cons_append, hshape]
            exact hall.recorded pre d post hrest
      · intro block index value hindex hbefore hrec
        apply hall.earlier block index value hindex
        · intro d hd
          exact hbefore d (List.mem_cons_of_mem c hd)
        · exact hbinds.earlier block index value hindex (hbefore c List.mem_cons_self) hrec

/-- **When a call is delivered**: no later call of its kind has an index past the capacity that
its vector had then. -/
theorem delivered_iff {count : ℕ} {calls : List (ℕ × SqlValue)} (h : Ascending count calls)
    {s : MysqlStmt} (hrun : binds g (prepared count) calls = .ok s)
    {pre post : List (ℕ × SqlValue)} {c : ℕ × SqlValue} (hcalls : calls = pre ++ c :: post) :
    s.executed[c.1 - 1]? = some (some c.2) ↔
      ∀ index ∈ indexes c.2.kind post,
        index ≤ (VectorShape.covers g (indexes c.2.kind (pre ++ [c]))).cap := by
  have hempty : ∀ kind, paramShape (prepared count) kind = {} := by
    intro kind
    cases kind <;> rfl
  have hcount : (prepared count).paramBinds.length = count := List.length_replicate
  obtain ⟨s', hrun', hall⟩ := binds_run (g := g) (show Parallel (prepared count) from rfl)
    (hcount.symm ▸ h)
  obtain rfl : s' = s := Except.ok.inj (hrun'.symm.trans hrun)
  have hrecorded := hall.recorded pre c post hcalls
  have hsplit : indexes c.2.kind calls =
      indexes c.2.kind (pre ++ [c]) ++ indexes c.2.kind post := by
    rw [hcalls, ← indexes_append, List.append_assoc, List.singleton_append]
  rw [hrecorded.read_iff hall.parallel, hall.shape, hempty, hsplit, List.foldl_append, eq_comm]
  exact VectorShape.block_eq_iff (VectorShape.covers_fits (indexes c.2.kind (pre ++ [c]))) _

end CloudStore.Interface
