import CloudStore.Model.ConfigFile
import Mathlib.Data.List.TakeWhile

/-!
# Numbers of the configuration

`Config::load` reads a number with a parser that stops at the first character that does not fit,
and narrows it with a cast. So it keeps every number exactly if each of them is written out as the
whole value and lies in the range of its field, or if some value stops it.
-/

set_option autoImplicit false

namespace CloudStore.Analysis

open CloudStore.Library (Bytes)
open CloudStore.Model hiding Config
open CloudStore.Model.ConfigFile

/-! ## What is written -/

/-- The value of a line for a key. -/
def valueFor (key line : Bytes) : Option Bytes :=
  (entry line).bind fun kv => if kv.1 = key then some kv.2 else none

/-- The value of the last line that has the key. -/
def writtenValue (text key : Bytes) : Option Bytes := (split text 10).reverse.findSome? (valueFor key)

/-- A text of a sign, which may be missing, and digits, and the number it stands for. -/
def Decimal (v : Bytes) (n : ℤ) : Prop :=
  ∃ digits : Bytes, digits ≠ [] ∧ (∀ c ∈ digits, isDigit c = true) ∧
    ((v = digits ∨ v = 43 :: digits) ∧ n = decimalValue digits ∨
      v = 45 :: digits ∧ n = -(decimalValue digits : ℤ))

/-- A field of `struct Config` that is a number, with its key and its type. -/
structure NumberField where
  key : String
  type : NumberType
  value : Config → ℤ

/-- A field that is a string. -/
structure TextField where
  key : String
  value : Config → Bytes

def numberFields : List NumberField :=
  [⟨"listen_port", .uint16, Config.listenPort⟩, ⟨"mysql_port", .uint16, Config.mysqlPort⟩,
    ⟨"mysql_pool_size", .int32, Config.mysqlPoolSize⟩, ⟨"redis_port", .uint16, Config.redisPort⟩,
    ⟨"redis_db", .int32, Config.redisDb⟩, ⟨"chunk_size", .uint32, Config.chunkSize⟩,
    ⟨"max_connections", .int32, Config.maxConnections⟩,
    ⟨"session_ttl_sec", .int32, Config.sessionTtlSec⟩,
    ⟨"conn_idle_timeout_sec", .int32, Config.connIdleTimeoutSec⟩,
    ⟨"max_upload_bytes", .uint64, Config.maxUploadBytes⟩,
    ⟨"challenge_bytes", .uint32, Config.challengeBytes⟩,
    ⟨"copy_workers", .int32, Config.copyWorkers⟩, ⟨"copy_sleep_us", .int32, Config.copySleepUs⟩]

def textFields : List TextField :=
  [⟨"listen_ip", Config.listenIp⟩, ⟨"storage_root", Config.storageRoot⟩,
    ⟨"log_file", Config.logFile⟩, ⟨"mysql_host", Config.mysqlHost⟩, ⟨"mysql_user", Config.mysqlUser⟩,
    ⟨"mysql_password", Config.mysqlPassword⟩, ⟨"mysql_db", Config.mysqlDb⟩,
    ⟨"redis_host", Config.redisHost⟩, ⟨"redis_password", Config.redisPassword⟩]

/-- Every field whose key occurs has what is written for it. -/
structure AsWritten (text : Bytes) (c : Config) : Prop where
  numbers : ∀ f ∈ numberFields, ∀ v, writtenValue text (str f.key) = some v →
    ∃ n, Decimal v n ∧ f.value c = n
  texts : ∀ f ∈ textFields, ∀ v, writtenValue text (str f.key) = some v → f.value c = v

/-! ## The lines -/

/-- The map of the loop has the last value of each key. Induction on the lines from the last one
on. -/
theorem keyValues_eq (text key : Bytes) : keyValues text key = writtenValue text key := by
  unfold keyValues writtenValue
  induction split text 10 using List.reverseRecOn with
  | nil => rfl
  | append_singleton lines line ih =>
      rw [List.foldl_append, List.reverse_append, List.foldl_cons, List.foldl_nil,
        List.reverse_singleton, List.singleton_append, List.findSome?_cons]
      unfold valueFor at ih ⊢
      cases hentry : entry line with
      | none => exact ih
      | some kv =>
          obtain ⟨k, v⟩ := kv
          dsimp only [Option.bind_some]
          by_cases hk : k = key
          · subst hk
            simp
          · rw [Function.update_of_ne (Ne.symm hk), if_neg hk]
            exact ih

/-! ## Numbers -/

theorem isDigit_bounds {c : UInt8} (h : isDigit c = true) : isSpace c = false ∧ c ≠ 43 ∧ c ≠ 45 := by
  have hb : 48 ≤ c.toNat ∧ c.toNat ≤ 57 := by
    simp only [isDigit, Bool.and_eq_true, decide_eq_true_eq, UInt8.le_iff_toNat_le] at h
    exact h
  have hne : ∀ d : UInt8, d.toNat < 48 → c ≠ d := by
    rintro d hd rfl
    omega
  refine ⟨?_, hne 43 (by decide), hne 45 (by decide)⟩
  simp only [isSpace, Bool.or_eq_false_iff, decide_eq_false_iff_not, Bool.and_eq_false_iff,
    UInt8.le_iff_toNat_le]
  refine ⟨hne 32 (by decide), Or.inr ?_⟩
  have h13 : (13 : UInt8).toNat = 13 := by decide
  omega

theorem takeWhile_digits {digits : Bytes} (h : ∀ c ∈ digits, isDigit c = true) :
    digits.takeWhile isDigit = digits := List.takeWhile_eq_self_iff.mpr h

/-- A number that is written out is read, if it is a `long long`. -/
theorem stoll_decimal {v : Bytes} {n : ℤ} (h : Decimal v n) :
    stoll v = if -2 ^ 63 ≤ n ∧ n < 2 ^ 63 then .ok n else .error (.std (str "stoll")) := by
  obtain ⟨digits, hne, hdigits, hcase⟩ := h
  have htake := takeWhile_digits hdigits
  have hkeep : ∀ (c : UInt8) (rest : Bytes), isSpace c = false →
      (c :: rest).dropWhile isSpace = c :: rest := by
    intro c rest hc
    rw [List.dropWhile_cons, hc]
    rfl
  unfold stoll
  rcases hcase with ⟨rfl | rfl, rfl⟩ | ⟨rfl, rfl⟩
  · cases v with
    | nil => exact absurd rfl hne
    | cons c rest =>
        obtain ⟨hspace, hplus, hminus⟩ := isDigit_bounds (hdigits c List.mem_cons_self)
        simp only [hkeep c rest hspace, List.head?_cons, Option.some.injEq, hplus, hminus, false_or,
          if_false, htake]
        simp
  · have hspace : isSpace 43 = false := by decide
    have h45 : ¬ (43 : UInt8) = 45 := by decide
    simp only [hkeep 43 digits hspace, List.head?_cons, Option.some.injEq, h45, false_or, if_true,
      List.drop_succ_cons, List.drop_zero, htake, if_neg hne, if_false]
  · have hspace : isSpace 45 = false := by decide
    simp only [hkeep 45 digits hspace, List.head?_cons, true_or, if_true, List.drop_succ_cons,
      List.drop_zero, htake, if_neg hne]

/-- A cast keeps the numbers in the range of its type. -/
theorem cast_eq_iff (t : NumberType) (n : ℤ) : t.cast n = n ↔ t.least ≤ n ∧ n < t.bound := by
  have hpos : 0 < t.bound - t.least := by cases t <;> decide
  unfold NumberType.cast
  constructor
  · intro h
    have h0 := Int.emod_nonneg (n - t.least) hpos.ne'
    have h1 := Int.emod_lt_of_pos (n - t.least) hpos
    omega
  · rintro ⟨h0, h1⟩
    rw [Int.emod_eq_of_lt (by omega) (by omega)]
    omega

/-! ## The fields -/

theorem except_bind_ok {ε α β : Type} {x : Except ε α} {f : α → Except ε β} {y : β}
    (h : (x >>= f) = .ok y) : ∃ a, x = .ok a ∧ f a = .ok y := by
  cases x with
  | error e => cases h
  | ok a => exact ⟨a, rfl, h⟩

/-- What a configuration that is returned has in its fields. -/
theorem load_fields {path text : Bytes} {c : Config} (h : load path (some text) = .ok c) :
    (∀ f ∈ numberFields, ∃ d n, geti (keyValues text) f.key d = .ok n ∧ f.value c = f.type.cast n) ∧
      ∀ f ∈ textFields, ∃ d, f.value c = ConfigFile.get (keyValues text) f.key d := by
  unfold load at h
  obtain ⟨listenPort, h₁, h⟩ := except_bind_ok h
  obtain ⟨mysqlPort, h₂, h⟩ := except_bind_ok h
  obtain ⟨mysqlPoolSize, h₃, h⟩ := except_bind_ok h
  obtain ⟨redisPort, h₄, h⟩ := except_bind_ok h
  obtain ⟨redisDb, h₅, h⟩ := except_bind_ok h
  obtain ⟨chunkSize, h₆, h⟩ := except_bind_ok h
  obtain ⟨maxConnections, h₇, h⟩ := except_bind_ok h
  obtain ⟨sessionTtlSec, h₈, h⟩ := except_bind_ok h
  obtain ⟨connIdleTimeoutSec, h₉, h⟩ := except_bind_ok h
  obtain ⟨maxUploadBytes, h₁₀, h⟩ := except_bind_ok h
  obtain ⟨challengeBytes, h₁₁, h⟩ := except_bind_ok h
  obtain ⟨copyWorkers, h₁₂, h⟩ := except_bind_ok h
  obtain ⟨copySleepUs, h₁₃, h⟩ := except_bind_ok h
  obtain rfl := Except.ok.inj h
  constructor
  · simp only [numberFields, List.forall_mem_cons]
    exact ⟨⟨_, _, h₁, rfl⟩, ⟨_, _, h₂, rfl⟩, ⟨_, _, h₃, rfl⟩, ⟨_, _, h₄, rfl⟩, ⟨_, _, h₅, rfl⟩,
      ⟨_, _, h₆, rfl⟩, ⟨_, _, h₇, rfl⟩, ⟨_, _, h₈, rfl⟩, ⟨_, _, h₉, rfl⟩, ⟨_, _, h₁₀, rfl⟩,
      ⟨_, _, h₁₁, rfl⟩, ⟨_, _, h₁₂, rfl⟩, ⟨_, _, h₁₃, rfl⟩, by simp⟩
  · simp only [textFields, List.forall_mem_cons]
    exact ⟨⟨_, rfl⟩, ⟨_, rfl⟩, ⟨_, rfl⟩, ⟨_, rfl⟩, ⟨_, rfl⟩, ⟨_, rfl⟩, ⟨_, rfl⟩, ⟨_, rfl⟩,
      ⟨_, rfl⟩, by simp⟩

/-- A configuration is returned if all its numbers can be read. -/
theorem load_returns (path : Bytes) {text : Bytes}
    (h : ∀ f ∈ numberFields, ∀ d, ∃ n, geti (keyValues text) f.key d = .ok n) :
    ∃ c, load path (some text) = .ok c := by
  simp only [numberFields, List.forall_mem_cons] at h
  obtain ⟨h₁, h₂, h₃, h₄, h₅, h₆, h₇, h₈, h₉, h₁₀, h₁₁, h₁₂, h₁₃, -⟩ := h
  obtain ⟨n₁, h₁⟩ := h₁ ({} : Config).listenPort
  obtain ⟨n₂, h₂⟩ := h₂ ({} : Config).mysqlPort
  obtain ⟨n₃, h₃⟩ := h₃ ({} : Config).mysqlPoolSize
  obtain ⟨n₄, h₄⟩ := h₄ ({} : Config).redisPort
  obtain ⟨n₅, h₅⟩ := h₅ ({} : Config).redisDb
  obtain ⟨n₆, h₆⟩ := h₆ ({} : Config).chunkSize
  obtain ⟨n₇, h₇⟩ := h₇ ({} : Config).maxConnections
  obtain ⟨n₈, h₈⟩ := h₈ ({} : Config).sessionTtlSec
  obtain ⟨n₉, h₉⟩ := h₉ ({} : Config).connIdleTimeoutSec
  obtain ⟨n₁₀, h₁₀⟩ := h₁₀ ({} : Config).maxUploadBytes
  obtain ⟨n₁₁, h₁₁⟩ := h₁₁ ({} : Config).challengeBytes
  obtain ⟨n₁₂, h₁₂⟩ := h₁₂ ({} : Config).copyWorkers
  obtain ⟨n₁₃, h₁₃⟩ := h₁₃ ({} : Config).copySleepUs
  unfold load
  dsimp only
  rw [h₁, h₂, h₃, h₄, h₅, h₆, h₇, h₈, h₉, h₁₀, h₁₁, h₁₂, h₁₃]
  exact ⟨_, rfl⟩

/-- **Numbers of the configuration.** `load` throws or keeps everything that is written, exactly if
some number cannot be read, or each of them is written out and in the range of its field. -/
theorem load_as_written_iff (path text : Bytes) :
    (∀ c, load path (some text) = .ok c → AsWritten text c) ↔
      (∃ f ∈ numberFields, ∃ v, writtenValue text (str f.key) = some v ∧ ∃ e, stoll v = .error e) ∨
        ∀ f ∈ numberFields, ∀ v, writtenValue text (str f.key) = some v →
          ∃ n, Decimal v n ∧ f.type.least ≤ n ∧ n < f.type.bound := by
  have hgeti : ∀ (f : NumberField) (d : ℤ), geti (keyValues text) f.key d =
      (writtenValue text (str f.key)).elim (.ok d) stoll := by
    intro f d
    cases hv : writtenValue text (str f.key) with
    | none => simp only [geti, keyValues_eq, hv, Option.elim]
    | some v => simp only [geti, keyValues_eq, hv, Option.elim]
  by_cases hunread : ∃ f ∈ numberFields, ∃ v, writtenValue text (str f.key) = some v ∧
      ∃ e, stoll v = .error e
  · refine iff_of_true (fun c hc => ?_) (Or.inl hunread)
    obtain ⟨f, hf, v, hv, e, he⟩ := hunread
    obtain ⟨d, n, hn, -⟩ := (load_fields hc).1 f hf
    rw [hgeti, hv, Option.elim_some, he] at hn
    cases hn
  · have hread : ∀ f ∈ numberFields, ∀ v, writtenValue text (str f.key) = some v →
        ∃ n, stoll v = .ok n := by
      intro f hf v hv
      cases hstoll : stoll v with
      | ok n => exact ⟨n, rfl⟩
      | error e => exact absurd ⟨f, hf, v, hv, e, hstoll⟩ hunread
    have hreturns : ∃ c, load path (some text) = .ok c := by
      apply load_returns path
      intro f hf d
      rw [hgeti]
      cases hv : writtenValue text (str f.key) with
      | none => exact ⟨d, rfl⟩
      | some v => exact hread f hf v hv
    obtain ⟨c, hc⟩ := hreturns
    obtain ⟨hnumbers, htexts⟩ := load_fields hc
    have hvalue : ∀ f ∈ numberFields, ∀ v n, writtenValue text (str f.key) = some v → Decimal v n →
        f.value c = f.type.cast n := by
      intro f hf v n hv hdecimal
      obtain ⟨m, hm⟩ := hread f hf v hv
      obtain ⟨d, n', hn', hcast⟩ := hnumbers f hf
      rw [hgeti, hv, Option.elim_some, stoll_decimal hdecimal] at hn'
      rw [stoll_decimal hdecimal] at hm
      split at hn'
      · rw [hcast, Except.ok.inj hn']
      · cases hn'
    constructor
    · intro h
      right
      intro f hf v hv
      obtain ⟨n, hdecimal, hn⟩ := (h c hc).numbers f hf v hv
      refine ⟨n, hdecimal, (cast_eq_iff f.type n).mp ?_⟩
      rw [← hvalue f hf v n hv hdecimal, hn]
    · intro h c' hc'
      obtain rfl := Except.ok.inj (hc.symm.trans hc')
      have hall := h.resolve_left hunread
      constructor
      · intro f hf v hv
        obtain ⟨n, hdecimal, hrange⟩ := hall f hf v hv
        refine ⟨n, hdecimal, ?_⟩
        rw [hvalue f hf v n hv hdecimal, (cast_eq_iff f.type n).mpr hrange]
      · intro f hf v hv
        obtain ⟨d, hd⟩ := htexts f hf
        rw [hd, ConfigFile.get, keyValues_eq, hv]
        rfl

/-- A port that is too large is narrowed without an error. -/
theorem port_narrowed : ∃ (text : Bytes) (c : Config), load [] (some text) = .ok c ∧
    ¬ AsWritten text c := by
  have hload : load [] (some (str "listen_port=70000")) = .ok { listenPort := 4464 } := by
    decide +kernel
  have hwritten : writtenValue (str "listen_port=70000") (str "listen_port") = some (str "70000") := by
    decide +kernel
  have hstoll : stoll (str "70000") = .ok 70000 := by decide +kernel
  refine ⟨_, _, hload, fun h => ?_⟩
  obtain ⟨n, hdecimal, hn⟩ := h.numbers ⟨"listen_port", .uint16, Config.listenPort⟩
    (by simp [numberFields]) _ hwritten
  have hn : (4464 : ℤ) = n := hn
  rw [stoll_decimal hdecimal, ← hn, if_pos (by omega)] at hstoll
  simp at hstoll

end CloudStore.Analysis
