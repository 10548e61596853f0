import CloudStore.Model.Backend

/-!
# FileManager

`src/file_manager.cpp`. The two recursive functions take the depth of the tree as the
bound of their recursion.
-/

set_option autoImplicit false

namespace CloudStore.Model

open CloudStore.Library (Bytes Node)

/-- `struct FileEntry`, without the mode bits, which nothing reads. -/
structure FileEntry where
  name : Bytes
  path : Bytes
  type : Bytes
  size : ℕ
  mtime : ℤ
  deriving DecidableEq

namespace FileManager

variable {σ : Type} (files : FileCalls σ)

/-- `fileTypeFromMode(mode)`. -/
def fileTypeFromMode : Node → Bytes
  | .file _ => str "file"
  | .dir => str "dir"
  | .link _ => str "symlink"
  | .special .fifo => str "fifo"
  | .special .socket => str "socket"
  | .special .chr => str "chr"
  | .special .blk => str "blk"

/-- `S_ISREG(st.st_mode) ? st.st_size : 0`. -/
def regularSize (st : FileStat) : ℕ :=
  match st.node with
  | .file _ => st.size
  | _ => 0

/-- `FileManager::statPath(physical)`. -/
def statPath (physical : Bytes) : Act σ FileEntry := do
  match ← files.lstat physical with
  | .error _ => fail .notFound (str "stat failed: " ++ physical)
  | .ok st =>
    return { name := baseName physical, path := physical, type := fileTypeFromMode st.node
             size := regularSize st, mtime := st.mtime }

/-- The `readdir` loop of `listDirRecursive`; `descend` is the recursive call. -/
def listNames (descend : Bytes → Bytes → Act σ (List FileEntry)) (recursive : Bool)
    (physical logicalPrefix : Bytes) : List Bytes → Act σ (List FileEntry)
  | [] => return []
  | name :: names =>
    if name = str "." ∨ name = str ".." then
      listNames descend recursive physical logicalPrefix names
    else do
      let child := joinPath physical name
      match ← files.lstat child with
      | .error _ => listNames descend recursive physical logicalPrefix names
      | .ok st =>
        let path :=
          if logicalPrefix = [] then str "/" ++ name else logicalPrefix ++ str "/" ++ name
        let e : FileEntry :=
          { name := name, path := path, type := fileTypeFromMode st.node
            size := regularSize st, mtime := st.mtime }
        let below ← if recursive = true ∧ st.node = .dir then descend child path else pure []
        return e :: below ++ (← listNames descend recursive physical logicalPrefix names)

/-- `listDirRecursive(physical, logicalPrefix, out, recursive)`; the answer is what is
appended to `out`. -/
def listDirRecursive (recursive : Bool) : ℕ → Bytes → Bytes → Act σ (List FileEntry)
  | 0, _, _ => throw (.std (str "recursion bound"))
  | depth + 1, physical, logicalPrefix => do
    match ← files.opendir physical with
    | .error _ => fail .notFound (str "opendir failed: " ++ physical)
    | .ok names =>
      let out ← listNames files (listDirRecursive recursive depth) recursive physical
        logicalPrefix names
      files.closedir
      return out

/-- `FileManager::listDir(physical, recursive)`. -/
def listDir (physical : Bytes) (recursive : Bool) : Act σ (List FileEntry) := do
  listDirRecursive files recursive (← files.depth) physical []

/-- `FileManager::makeDir(physical)`. -/
def makeDir (physical : Bytes) : Act σ Unit := do
  match ← files.mkdir physical with
  | .ok _ => return ()
  | .error e =>
    if e = .eexist then fail .conflict (str "directory exists")
    else fail .internal (str "mkdir failed: " ++ strerror e)

/-- The `readdir` loop of `removeRecursive`; `remove` is the recursive call. -/
def removeNames (remove : Bytes → Act σ Unit) (physical : Bytes) : List Bytes → Act σ Unit
  | [] => return ()
  | name :: names =>
    if name = str "." ∨ name = str ".." then removeNames remove physical names
    else do
      remove (joinPath physical name)
      removeNames remove physical names

/-- `removeRecursive(physical)`. -/
def removeRecursive : ℕ → Bytes → Act σ Unit
  | 0, _ => throw (.std (str "recursion bound"))
  | depth + 1, physical => do
    match ← files.lstat physical with
    | .error _ => fail .notFound (str "remove target missing")
    | .ok st =>
      if st.node = .dir then
        match ← files.opendir physical with
        | .error _ => fail .internal (str "opendir failed during rm")
        | .ok names =>
          removeNames (removeRecursive depth) physical names
          files.closedir
          match ← files.rmdir physical with
          | .ok _ => return ()
          | .error e => fail .internal (str "rmdir failed: " ++ strerror e)
      else
        match ← files.unlink physical with
        | .ok _ => return ()
        | .error e => fail .internal (str "unlink failed: " ++ strerror e)

/-- `FileManager::removePath(physical)`. -/
def removePath (physical : Bytes) : Act σ Unit := do
  removeRecursive files (← files.depth) physical

/-- `FileManager::renamePath(from, to)`. -/
def renamePath (source dest : Bytes) : Act σ Unit := do
  if ← fileExists files dest then fail .conflict (str "destination exists")
  else
    match ← files.rename source dest with
    | .ok _ => return ()
    | .error e => fail .internal (str "rename failed: " ++ strerror e)

end FileManager

end CloudStore.Model
