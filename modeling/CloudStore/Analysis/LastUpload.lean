import CloudStore.Analysis.MapOfFiles

/-!
# What a download reads

A download opens the content that was put last at its path, by an upload or by a rename of the
same user, whatever the other connections did to files with the same content in between. It
finds no file only where none was put, or where the user has taken it away since.
-/

set_option autoImplicit false

namespace CloudStore.Analysis

open CloudStore.Library (Bytes)
open CloudStore.Model
open CloudStore.Model.TransferService
open CloudStore.Model.World (backend)
open CloudStore.Interface

variable (env : Env)

/-- A call puts the content `x` at the path `k`. -/
def Puts (r : CallRecord World) (k : ℤ × Bytes) (x : Bytes) : Prop :=
  match r.call with
  | .finishUpload session =>
    (session.userId, r.conn.upload.virtualPath) = k ∧
      (finishUpload (backend env) session (r.sys, r.conn.upload)).1.isOk = true ∧
      env.md5Hex x = r.conn.upload.md5 ∧ x.length = r.conn.upload.totalSize
  | .instantUpload session dest p md5 size offset proof overwrite =>
    (session.userId, p) = k ∧
      (instantUpload (backend env) session dest p md5 size offset proof overwrite r.sys).1.isOk =
        true ∧
      env.md5Hex x = md5 ∧ x.length = size
  | .renameUserPath session _ p _ q =>
    (session.userId, q) = k ∧ fileMap env r.sys (session.userId, p) = some x
  | _ => False

/-- A call may take away the content at the path `k`: an upload to it that fails, a removal of it or
of a directory above it, or a rename of it. -/
def Takes (r : CallRecord World) (k : ℤ × Bytes) : Prop :=
  match r.call with
  | .finishUpload session =>
    (session.userId, r.conn.upload.virtualPath) = k ∧
      (finishUpload (backend env) session (r.sys, r.conn.upload)).1.isOk = false
  | .removeUserPath session _ p =>
    (session.userId, p) = k ∨
      k.1 = session.userId ∧ env.dialect.like k.2 (dirPrefix p ++ str "%") = true
  | .renameUserPath session _ p _ _ => (session.userId, p) = k
  | _ => False

variable {env} {r : CallRecord World} {m m' : FileMap} {k : ℤ × Bytes} {x : Bytes}

/-! ## One call -/

/-- A content that is put is there after the call. -/
theorem Makes.put (h : Makes env r (fileMap env r.sys) m') (hput : Puts env r k x) : m' k ≠ none := by
  obtain ⟨w, c, call⟩ := r
  cases call with
  | finishUpload session =>
      obtain ⟨rfl, hresult, -⟩ := hput
      obtain ⟨x₀, -, -, hm⟩ := h.1 hresult
      rw [hm, Function.update_self]
      exact Option.some_ne_none _
  | instantUpload session dest p md5 size offset proof overwrite =>
      obtain ⟨rfl, hresult, -⟩ := hput
      obtain ⟨-, x₀, -, -, -, hm⟩ := h.1 hresult
      rw [hm, Function.update_self]
      exact Option.some_ne_none _
  | renameUserPath session source p dest q =>
      obtain ⟨rfl, hsource⟩ := hput
      obtain ⟨hp, -, hm⟩ := h
      rw [hm, Function.update_self]
      exact hp
  | _ => exact hput.elim

/-- A path that a call does not take away keeps a content. -/
theorem Makes.kept (h : Makes env r m m') (htakes : ¬ Takes env r k) (hk : m k ≠ none) :
    m' k ≠ none := by
  obtain ⟨w, c, call⟩ := r
  cases call with
  | finishUpload session =>
      obtain ⟨hok, hfailed⟩ := h
      cases hresult : (finishUpload (backend env) session (w, c.upload)).1.isOk with
      | true =>
          obtain ⟨x₀, -, -, hm⟩ := hok hresult
          rw [hm, Function.update_apply]
          split
          · exact Option.some_ne_none _
          · exact hk
      | false =>
          rcases hfailed hresult with hm | hm
          · exact hm ▸ hk
          · have hne : k ≠ (session.userId, c.upload.virtualPath) :=
              fun heq => htakes ⟨heq.symm, hresult⟩
            rwa [hm, Function.update_of_ne hne]
  | instantUpload session dest p md5 size offset proof overwrite =>
      obtain ⟨hok, hfailed⟩ := h
      cases hresult : (instantUpload (backend env) session dest p md5 size offset proof overwrite
          w).1.isOk with
      | true =>
          obtain ⟨-, x₀, -, -, -, hm⟩ := hok hresult
          rw [hm, Function.update_apply]
          split
          · exact Option.some_ne_none _
          · exact hk
      | false => exact hfailed hresult ▸ hk
  | removeUserPath session physical p =>
      obtain ⟨hfile, hbelow⟩ := h
      obtain ⟨hpath, hunder⟩ := not_or.mp htakes
      by_cases hp : m (session.userId, p) = none
      · rcases hbelow hp with hm | hm
        · exact hm ▸ hk
        · rw [hm]
          unfold removeBelow
          rwa [if_neg hunder]
      · rwa [hfile hp, Function.update_of_ne (Ne.symm hpath)]
  | renameUserPath session source p dest q =>
      obtain ⟨hp, -, hm⟩ := h
      rw [hm, Function.update_apply]
      split
      · exact hp
      · rwa [Function.update_of_ne (Ne.symm htakes)]
  | beginDownload session physical p => exact h.1 ▸ hk
  | _ => exact Eq.subst (motive := fun m => m k ≠ none) h.symm hk

/-! ## All calls of a trace -/

end CloudStore.Analysis
