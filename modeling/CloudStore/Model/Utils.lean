import CloudStore.Model.Common

/-!
# String and number helpers

The parts of `src/utils.cpp` that the server uses on paths and digests, and the
conversions of the standard library between numbers and decimal texts.
-/

set_option autoImplicit false

namespace CloudStore.Model

open CloudStore.Library (Bytes)

/-- The loop of `split`: `cur` is the part being read. -/
def splitLoop (delim : UInt8) (cur : Bytes) : Bytes → List Bytes
  | [] => [cur]
  | c :: s => if c = delim then cur :: splitLoop delim [] s else splitLoop delim (cur ++ [c]) s

/-- `split(s, delim)`. -/
def split (s : Bytes) (delim : UInt8) : List Bytes := splitLoop delim [] s

/-- `joinPath(a, b)`. -/
def joinPath (a b : Bytes) : Bytes :=
  if a = [] then b
  else if b = [] then a
  else if a.getLast? = some 47 ∧ b.head? = some 47 then a ++ b.drop 1
  else if a.getLast? ≠ some 47 ∧ b.head? ≠ some 47 then a ++ str "/" ++ b
  else a ++ b

/-- `startsWithPath(path, root)`. -/
def startsWithPath (path root : Bytes) : Bool :=
  if path = root then true
  else
    let pre := if root.getLast? = some 47 then root else root ++ str "/"
    pre.isPrefixOf path

/-- The digit that `toHex` writes for a nibble. -/
def hexDigit (n : ℕ) : UInt8 := if n < 10 then UInt8.ofNat (48 + n) else UInt8.ofNat (87 + n)

/-- `toHex(data, len)`. -/
def toHex (data : Bytes) : Bytes :=
  data.flatMap fun b => [hexDigit (b.toNat / 16 % 16), hexDigit (b.toNat % 16)]

/-- `parentDir(path)`. -/
def parentDir (path : Bytes) : Bytes :=
  match (path.reverse.dropWhile (· ≠ 47)).reverse with
  | [] => str "."
  | [_] => str "/"
  | cut => cut.dropLast

/-- `baseName(path)`. -/
def baseName (path : Bytes) : Bytes := (path.reverse.takeWhile (· ≠ 47)).reverse

/-- `std::to_string` of an unsigned number. -/
def toDecimal (n : ℕ) : Bytes :=
  if n = 0 then [48] else (Nat.digits 10 n).reverse.map fun d => 48 + UInt8.ofNat d

/-- `std::to_string` of a signed number. -/
def toDecimalInt (i : ℤ) : Bytes :=
  if i < 0 then 45 :: toDecimal i.natAbs else toDecimal i.natAbs

/-- A decimal digit. -/
def isDigit (c : UInt8) : Bool := 48 ≤ c && c ≤ 57

/-- The value of a text of decimal digits. -/
def decimalValue (s : Bytes) : ℕ := s.foldl (fun n c => 10 * n + (c.toNat - 48)) 0

/-- `std::stoull` of a text that starts with its digits. -/
def stoull (s : Bytes) : Except Exn ℕ :=
  let digits := s.takeWhile isDigit
  if digits = [] then .error (.std (str "stoull"))
  else if decimalValue digits < 2 ^ 64 then .ok (decimalValue digits)
  else .error (.std (str "stoull"))

end CloudStore.Model
