import CloudStore.Analysis.Authentication
import CloudStore.Analysis.Errands
import CloudStore.Interface.Startup

/-!
# A server that has just been set up

Where the store is empty and the disk holds no files, a user registers; the server then waits for
any file that the user sends.
-/

set_option autoImplicit false

namespace CloudStore.Analysis

open CloudStore.Library
open CloudStore.Library.Action
open CloudStore.Model
open CloudStore.Model.World (files backend usersDir objectsDir tmpDir)
open CloudStore.Interface

variable {env : Env} {e : Errand} {w w' : World}

/-- The world in which a server was set up on a disk without anything. -/
def setUp (env : Env) (dirSize : ℕ) (entropy : ℕ → UInt8) : World :=
  (Server.makeRoots env { fs := FileTree.bare dirSize, entropy := entropy }).2

end CloudStore.Analysis
