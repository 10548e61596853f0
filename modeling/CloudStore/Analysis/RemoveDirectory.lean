import CloudStore.Interface.Listing
import CloudStore.Interface.Playback
import CloudStore.Interface.Removal

/-!
# Removing a directory

What `rm` takes from the index for a directory are the files that match its path as a pattern,
and the row of the path itself. So it takes the rows of directories below it for none, and files
beside it for files below it where the path has a percent sign or an underscore. A directory
whose path is an indexed file too is removed as a file.
-/

set_option autoImplicit false

namespace CloudStore.Analysis

open CloudStore.Library (Bytes Path RefStore)
open CloudStore.Library.Posix (render)
open CloudStore.Model
open CloudStore.Model.RedisStore
open CloudStore.Model.TransferService
open CloudStore.Model.World (backend)
open CloudStore.Interface

variable {env : Env} {w w' : World} {u : ℤ} {d : Bytes} {c : Connection} {session : UserSession}
  {phys : Bytes}

end CloudStore.Analysis
