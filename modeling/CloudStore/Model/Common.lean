import CloudStore.Library.Action
import CloudStore.Library.Posix
import Mathlib.Data.Nat.Digits.Defs

/-!
# Common types

`include/common.h` and the fields of `include/config.h` that the server reads while it
serves requests. Strings are byte lists. An exception is a `CloudError` with its code or
any other `std::exception`.
-/

set_option autoImplicit false

namespace CloudStore.Model

open CloudStore.Library (Bytes Action)

/-- The bytes of an ASCII literal. -/
def str (s : String) : Bytes := s.toList.map fun c => UInt8.ofNat c.toNat

/-- `enum class ErrorCode`. -/
inductive ErrorCode where
  | ok | badRequest | unauthorized | forbidden | notFound | conflict | payloadTooLarge
  | unprocessable | internal | unavailable
  deriving DecidableEq, Repr

/-- `static_cast<int>(code)`. -/
def ErrorCode.toInt : ErrorCode → ℤ
  | .ok => 0
  | .badRequest => 400
  | .unauthorized => 401
  | .forbidden => 403
  | .notFound => 404
  | .conflict => 409
  | .payloadTooLarge => 413
  | .unprocessable => 422
  | .internal => 500
  | .unavailable => 503

/-- What the program throws. -/
inductive Exn where
  | cloud (code : ErrorCode) (msg : Bytes)
  | std (what : Bytes)
  deriving DecidableEq, Repr

/-- `e.what()`. -/
def Exn.what : Exn → Bytes
  | .cloud _ msg => msg
  | .std what => what

/-- A program over `σ` that may throw. -/
abbrev Act (σ α : Type) : Type := Action Exn σ α

/-- `throw CloudError(code, msg)`. -/
def fail {σ α : Type} (code : ErrorCode) (msg : Bytes) : Act σ α := throw (.cloud code msg)

/-- `struct UserSession`. -/
structure UserSession where
  userId : ℤ := 0
  username : Bytes := []
  rootDir : Bytes := []
  token : Bytes := []
  deriving DecidableEq, Repr

/-- `kMaxFrameSize`. -/
def kMaxFrameSize : ℕ := 2 * 1024 * 1024

/-- The fields of `struct Config` that are read while requests are served. -/
structure Config where
  storageRoot : Bytes := str "/var/cloudstore/data"
  chunkSize : ℕ := 65536
  sessionTtlSec : ℤ := 3600
  maxUploadBytes : ℕ := 8 * 1024 * 1024 * 1024
  challengeBytes : ℕ := 4096

namespace Config

def usersRoot (cfg : Config) : Bytes := cfg.storageRoot ++ str "/users"

def objectsRoot (cfg : Config) : Bytes := cfg.storageRoot ++ str "/objects"

def tmpRoot (cfg : Config) : Bytes := cfg.storageRoot ++ str "/tmp"

end Config

end CloudStore.Model
