import CloudStore.Model.Backend

/-!
# PathGuard

`src/path_guard.cpp`: the logical path of a client is brought to its normal form and then
followed below the user's root, one `lstat` for each component.
-/

set_option autoImplicit false

namespace CloudStore.Model.PathGuard

open CloudStore.Library (Bytes)

/-- `hasNul(s)`. -/
def hasNul (s : Bytes) : Bool := s.contains 0

/-- The loop of `normalizeLogical` over the parts, with its stack `st`. -/
def normalizeLoop (st : List Bytes) : List Bytes → Except Exn (List Bytes)
  | [] => .ok st
  | c :: parts =>
    if c = [] ∨ c = str "." then normalizeLoop st parts
    else if c = str ".." then
      if st = [] then .error (.cloud .forbidden (str "path traversal denied"))
      else normalizeLoop st.dropLast parts
    else if c = str "~" ∨ c.contains 92 then
      .error (.cloud .forbidden (str "illegal path component"))
    else normalizeLoop (st ++ [c]) parts

/-- The loop of `normalizeLogical` that joins the stack with slashes. -/
def joinStack : List Bytes → Bytes
  | [] => []
  | [c] => c
  | c :: st => c ++ str "/" ++ joinStack st

/-- `PathGuard::normalizeLogical(logical)`. -/
def normalizeLogical (logical : Bytes) : Except Exn Bytes :=
  if hasNul logical then .error (.cloud .forbidden (str "invalid path"))
  else (normalizeLoop [] (split logical 47)).map joinStack

/-- `PathGuard::isInside(path, root)`. -/
def isInside (path root : Bytes) : Bool := startsWithPath path root

variable {σ : Type} (files : Model.FileCalls σ)

/-- `mustRealpath(path)`. -/
def mustRealpath (path : Bytes) : Act σ Bytes := do
  match ← files.realpath path with
  | .ok real => return real
  | .error _ => fail .notFound (str "path not found")

/-- The loop of `resolve` over the parts of the normal form. -/
def resolveLoop (root norm : Bytes) (mustExist : Bool) (cur : Bytes) : List Bytes → Act σ Bytes
  | [] =>
    if isInside cur root then return cur
    else fail .forbidden (str "path escaped user root")
  | name :: parts =>
    if name = [] then resolveLoop root norm mustExist cur parts
    else do
      let next := joinPath cur name
      match ← files.lstat next with
      | .error _ =>
        if parts = [] ∧ mustExist = false then
          if isInside cur root then return next
          else fail .forbidden (str "path escaped user root")
        else fail .notFound (str "path not found: /" ++ norm)
      | .ok st =>
        match st.node with
        | .link _ =>
          let real ← mustRealpath files next
          if isInside real root then resolveLoop root norm mustExist real parts
          else fail .forbidden (str "symlink escapes user root")
        | .special _ => resolveLoop root norm mustExist next parts
        | _ =>
          if isInside next root || next == root then
            resolveLoop root norm mustExist next parts
          else fail .forbidden (str "path escaped user root")

/-- `PathGuard::resolve(userRoot, logical, mustExist)`. -/
def resolve (userRoot logical : Bytes) (mustExist : Bool) : Act σ Bytes := do
  if userRoot = [] ∨ userRoot.head? ≠ some 47 then
    fail .internal (str "user root is not absolute")
  else
    let root ← mustRealpath files userRoot
    let norm ← normalizeLogical logical
    if norm = [] then return root
    else resolveLoop files root norm mustExist root (split norm 47)

end CloudStore.Model.PathGuard
