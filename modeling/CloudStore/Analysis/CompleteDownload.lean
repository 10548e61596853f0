import CloudStore.Interface.ClientRuns

/-!
# Complete downloads

`CloudClient::get` writes the chunks in the order they arrive. It compares neither their file ids
nor their offsets with those it asks for, and at an early `eof` it does not compare the number of
bytes with the size. The local file is what it should be exactly where the chunks come one behind
the other and are together as long as announced.
-/

set_option autoImplicit false

namespace CloudStore.Analysis

open CloudStore.Library (Bytes Action)
open CloudStore.Library.Action
open CloudStore.Model CloudStore.Interface

/-- The frame with a chunk of zeros. -/
def blank : Option Received → Option Received
  | some (.other x) => some (.other (x.take 40 ++ List.replicate (x.length - 40) 0))
  | r => r

namespace Sample

/-- The reply to `download_begin` for a file of two bytes. -/
def begun : Json :=
  .obj [(str "code", .int 0), (str "data", .obj [(str "chunk_size", .int 65536),
    (str "file_id", .str (List.replicate 32 97)), (str "size", .int 2)])]

/-- The reply to `download_chunk` at the end of a file. -/
def ended : Json :=
  .obj [(str "code", .int 0), (str "data", .obj [(str "eof", .bool true), (str "offset", .int 0)])]

/-- A client that is to receive the announcement of two bytes, and then the end of the file. -/
def cut : Desk := { replies := [some (.json true begun), some (.json true ended)] }

end Sample

end CloudStore.Analysis
