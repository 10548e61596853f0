import CloudStore.Interface.Calls

/-!
# Requests of a user

What a handler does with the arguments of a request, up to the call of a service: the argument
is read, and the path is resolved below the root of the user.
-/

set_option autoImplicit false

namespace CloudStore.Interface

open CloudStore.Library (Bytes Action)
open CloudStore.Library.Action (bind_apply bind_ok bind_error bind_eq_ok)
open CloudStore.Model
open CloudStore.Model.Connection
open CloudStore.Model.World (backend files)

/-- The request has a path for its argument; `dflt` stands for a missing one. -/
def AsksFor (root : Json) (dflt : String) (path : Bytes) : Prop :=
  ∃ data, root.item (str "data") = .ok data ∧ stringArg data "path" dflt = .ok path

variable {env : Env} {α : Type} {t : Turn World} {root : Json} {dflt : String} {path : Bytes}

theorem requireLogin_run (hauthed : t.conn.authed = true) :
    (requireLogin : Act (Turn World) Unit) t = (.ok (), t) := by
  simp [requireLogin, bind_apply, fields, hauthed]

/-- A computation that has its value beforehand. -/
theorem lifted_run {β : Type} {x : Except Exn β} {y : β} (h : x = .ok y)
    (k : β → Act (Turn World) α) : ((liftM x : Act (Turn World) β) >>= k) t = k y t := by
  subst h
  rfl

theorem fields_run (k : Connection → Act (Turn World) α) : (fields >>= k) t = k t.conn t := rfl

/-- A part that answers needs no handler. -/
theorem caught_run {β : Type} {a : Act (Turn World) β} {x : β} {t' : Turn World}
    (ha : a t = (.ok x, t')) (f : Exn → Act (Turn World) β) (k : β → Act (Turn World) α) :
    (tryCatch a f >>= k) t = k x t' := by
  apply bind_ok
  rw [Action.tryCatch_apply, ha]

/-- The login and the argument of a handler. -/
theorem asked_run (hauthed : t.conn.authed = true) (hroot : AsksFor root dflt path)
    (k : Bytes → Act (Turn World) α) :
    (requireLogin >>= fun _ => (liftM (root.item (str "data")) : Act (Turn World) Json) >>=
      fun data => (liftM (stringArg data "path" dflt) : Act (Turn World) Bytes) >>= k) t =
      k path t := by
  obtain ⟨data, hdata, hpath⟩ := hroot
  rw [bind_ok (requireLogin_run hauthed), lifted_run hdata, lifted_run hpath]

theorem resolveUserPath_run (hauthed : t.conn.authed = true) (mustExist : Bool) :
    resolveUserPath (backend env) path mustExist t =
      ((PathGuard.resolve (files env) t.conn.session.rootDir path mustExist t.sys).1, t) := by
  unfold resolveUserPath
  rw [bind_ok (requireLogin_run hauthed)]
  exact Prod.ext rfl (system_reads (resolve_reads _ _ _) t)

/-- A path that is resolved has a normal form. -/
theorem resolve_normal {userRoot phys : Bytes} {mustExist : Bool} {w w' : World}
    (h : PathGuard.resolve (files env) userRoot path mustExist w = (.ok phys, w')) :
    ∃ norm, PathGuard.normalizeLogical path = .ok norm := by
  unfold PathGuard.resolve at h
  split_ifs at h
  · simp [fail] at h
  · obtain ⟨real, w₁, -, hrest⟩ := bind_eq_ok h
    obtain ⟨norm, w₂, hnorm, -⟩ := bind_eq_ok hrest
    exact ⟨norm, congrArg Prod.fst hnorm⟩

/-- The path that a handler has resolved. -/
theorem resolved_run (hauthed : t.conn.authed = true) {mustExist : Bool} {phys : Bytes}
    (h : PathGuard.resolve (files env) t.conn.session.rootDir path mustExist t.sys =
      (.ok phys, t.sys)) (k : Bytes → Act (Turn World) α) :
    (resolveUserPath (backend env) path mustExist >>= k) t = k phys t := by
  apply bind_ok
  rw [resolveUserPath_run hauthed, h]

/-- A path that a handler cannot resolve. -/
theorem unresolved_run (hauthed : t.conn.authed = true) {mustExist : Bool} {e : Exn}
    (h : PathGuard.resolve (files env) t.conn.session.rootDir path mustExist t.sys =
      (.error e, t.sys)) (k : Bytes → Act (Turn World) α) :
    (resolveUserPath (backend env) path mustExist >>= k) t = (.error e, t) := by
  apply bind_error
  rw [resolveUserPath_run hauthed, h]

variable {β : Type} {call : Call} {a : Act World β} {w : World}

/-- A call that answers. -/
theorem called_ok {x : β} (h : a t.sys = (.ok x, w)) (k : β → Act (Turn World) α) :
    (record call >>= fun _ => system a >>= k) t =
      k x { t with sys := w, calls := ⟨t.sys, t.conn, call⟩ :: t.calls } := by
  simp [bind_apply, record, system, h]

/-- A call that throws. -/
theorem called_error {e : Exn} (h : a t.sys = (.error e, w)) (k : β → Act (Turn World) α) :
    (record call >>= fun _ => system a >>= k) t =
      (.error e, { t with sys := w, calls := ⟨t.sys, t.conn, call⟩ :: t.calls }) := by
  simp [bind_apply, record, system, h]

theorem sendOk_sys (seq : ℕ) (data : Json) : (sendOk seq data t).2.sys = t.sys := by
  unfold sendOk sendJson
  rw [bind_apply]
  cases hencode : Protocol.encode (makeReply seq 0 (str "ok") data).dumpText.length with
  | ok _ => rfl
  | error e => rfl

end CloudStore.Interface
