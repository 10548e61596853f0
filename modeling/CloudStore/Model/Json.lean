import CloudStore.Model.Utils

/-!
# JSON values

The `Json::Value` operations that the server and the client use. A JSON text is
represented by what `parseJson` makes of it, an error message or a value, and `dumpText`
is the text that `dumpJson` writes, of which only the length is ever looked at.
-/

set_option autoImplicit false

namespace CloudStore.Model

open CloudStore.Library (Bytes)

/-- `Json::Value`. A real number is kept as its text, its integer part and whether it is
zero, which is all that the conversions below look at. -/
inductive Json where
  | null
  | bool (b : Bool)
  | int (i : ℤ)
  | real (text : Bytes) (whole : ℤ) (isZero : Bool)
  | str (s : Bytes)
  | arr (xs : List Json)
  | obj (members : List (Bytes × Json))

/-- A JSON text, by the answer of `parseJson`. -/
abbrev JsonText : Type := Except Bytes Json

namespace Json

/-- `Value::find`. -/
def find (v : Json) (key : Bytes) : Except Exn (Option Json) :=
  match v with
  | .null => .ok none
  | .obj ms => .ok (ms.lookup key)
  | _ => .error (.std (Model.str
      "in Json::Value::find(begin, end): requires objectValue or nullValue"))

/-- `Value::get(key, defaultValue)`. -/
def get (v : Json) (key : Bytes) (dflt : Json) : Except Exn Json :=
  (v.find key).map fun r => r.getD dflt

/-- `value[key]` on a constant value. -/
def item (v : Json) (key : Bytes) : Except Exn Json := v.get key .null

/-- `Value::isMember(key)`. -/
def isMember (v : Json) (key : Bytes) : Except Exn Bool := (v.find key).map Option.isSome

/-- `Value::asString()`. -/
def asString : Json → Except Exn Bytes
  | .null => .ok []
  | .str s => .ok s
  | .bool b => .ok (if b then Model.str "true" else Model.str "false")
  | .int i => .ok (toDecimalInt i)
  | .real text _ _ => .ok text
  | _ => .error (.std (Model.str "Type is not convertible to string"))

/-- The integer conversions, for a range. -/
def asIntegral (lo hi : ℤ) (range kind : String) : Json → Except Exn ℤ
  | .null => .ok 0
  | .bool b => .ok (if b then 1 else 0)
  | .int i => if lo ≤ i ∧ i ≤ hi then .ok i else .error (.std (Model.str range))
  | .real _ i _ => if lo ≤ i ∧ i ≤ hi then .ok i else .error (.std (Model.str range))
  | _ => .error (.std (Model.str kind))

/-- `Value::asUInt64()`. -/
def asUInt64 (v : Json) : Except Exn ℕ :=
  (v.asIntegral 0 (2 ^ 64 - 1) "LargestInt out of UInt64 range"
    "Value is not convertible to UInt64.").map Int.toNat

/-- `Value::asUInt()`. -/
def asUInt (v : Json) : Except Exn ℕ :=
  (v.asIntegral 0 (2 ^ 32 - 1) "LargestInt out of UInt range"
    "Value is not convertible to UInt.").map Int.toNat

/-- `Value::asInt()`. -/
def asInt (v : Json) : Except Exn ℤ :=
  v.asIntegral (-2 ^ 31) (2 ^ 31 - 1) "LargestInt out of Int range"
    "Value is not convertible to Int."

/-- `Value::asBool()`. -/
def asBool : Json → Except Exn Bool
  | .null => .ok false
  | .bool b => .ok b
  | .int i => .ok (i ≠ 0)
  | .real _ _ isZero => .ok (!isZero)
  | _ => .error (.std (Model.str "Value is not convertible to bool."))

/-- The bytes that a character of a string is written as. -/
def escape (c : UInt8) : Bytes :=
  if c = 34 ∨ c = 92 then [92, c]
  else if c = 8 then Model.str "\\b"
  else if c = 12 then Model.str "\\f"
  else if c = 10 then Model.str "\\n"
  else if c = 13 then Model.str "\\r"
  else if c = 9 then Model.str "\\t"
  else if c < 32 then Model.str "\\u" ++ Model.str "00" ++ toHex [c]
  else [c]

/-- A string in quotes. -/
def quote (s : Bytes) : Bytes := 34 :: s.flatMap escape ++ [34]

mutual

/-- The text of a value, without indentation. -/
def dumpText : Json → Bytes
  | .null => Model.str "null"
  | .bool b => if b then Model.str "true" else Model.str "false"
  | .int i => toDecimalInt i
  | .real text _ _ => text
  | .str s => quote s
  | .arr xs => 91 :: dumpItems xs ++ [93]
  | .obj ms => 123 :: dumpMembers ms ++ [125]

def dumpItems : List Json → Bytes
  | [] => []
  | [x] => dumpText x
  | x :: xs => dumpText x ++ 44 :: dumpItems xs

def dumpMembers : List (Bytes × Json) → Bytes
  | [] => []
  | [(k, v)] => quote k ++ 58 :: dumpText v
  | (k, v) :: ms => quote k ++ 58 :: dumpText v ++ 44 :: dumpMembers ms

end

end Json

/-- `dumpJson`, as a text that `parseJson` reads back. -/
def dumpJson (v : Json) : JsonText := .ok v

/-- `makeReply(seq, code, msg, data)`. -/
def makeReply (seq : ℕ) (code : ℤ) (msg : Bytes) (data : Json) : Json :=
  .obj [(str "code", .int code), (str "data", data), (str "msg", .str msg), (str "seq", .int seq)]

end CloudStore.Model
