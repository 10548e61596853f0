import CloudStore.Analysis.FreshServer
import CloudStore.Analysis.RoundTrip
import CloudStore.Library.Tries

/-!
# Transfers that are resumed

A user connects, logs in and sends a file; where the connection breaks down, the user does so
again, from any machine that has the file, and the server goes on with what it has received. When
the connections have delivered enough frames, the file is stored, and a client that connects, logs
in and fetches it gets the same bytes.
-/

set_option autoImplicit false

namespace CloudStore.Analysis

open CloudStore.Library
open CloudStore.Library.Action
open CloudStore.Model
open CloudStore.Model.CloudClient
open CloudStore.Model.World (files backend)
open CloudStore.Interface

namespace Errand

variable {σ : Type} (calls : ClientCalls σ) (e : Errand) (host : Bytes) (port : ℕ)

/-- The client connects, logs in and sends the file. -/
def send : Prog σ Json := do
  connectTo calls host port
  let _ ← login calls e.username e.password
  put calls e.localPath e.remotePath e.overwrite

/-- The client connects, logs in and fetches the file to a local path. -/
def fetch (path : Bytes) : Prog σ Json := do
  connectTo calls host port
  let _ ← login calls e.username e.password
  CloudClient.get calls e.remotePath path

end Errand

/-- A new client of the server. -/
def newClient (w : World) (ip : Bytes) (desk : Desk) : Link World Desk × CloudClient :=
  ({ sys := w, conn := { peerIp := ip }, desk := desk }, {})

variable {env : Env} {e : Errand} {limit : Option ℕ} {most rounds : ℕ} {desk : Desk} {w : World}
  {host ip : Bytes} {port : ℕ}

theorem loginData_length_le (username password : Bytes) :
    (loginData username password).dumpText.length ≤ 6 * (username.length + password.length) + 1000 := by
  have hkeys : (str "password").length = 8 ∧ (str "username").length = 8 := by decide +kernel
  have htexts := And.intro (str_length_le username) (str_length_le password)
  apply (obj_length_le _).trans
  simp only [membersBound, List.map_cons, List.map_nil, List.sum_cons, List.sum_nil]
  omega

theorem loginReply_length_le {s : UserSession} (huser : 0 ≤ s.userId ∧ s.userId < 2 ^ 63)
    (htoken : s.token.length = 64) :
    (loginReply s).dumpText.length ≤ 6 * s.username.length + 1000 := by
  have hkeys : (str "root").length = 4 ∧ (str "token").length = 5 ∧ (str "user_id").length = 7 ∧
      (str "username").length = 8 ∧ (str "/").length = 1 := by
    decide +kernel
  have htexts := And.intro (str_length_le (str "/"))
    (And.intro (str_length_le s.token) (str_length_le s.username))
  have hnumber : (Json.dumpText (.int s.userId)).length ≤ 20 := by
    rw [← Int.toNat_of_nonneg huser.1]
    exact nat_length_le (by omega)
  apply (obj_length_le _).trans
  simp only [membersBound, List.map_cons, List.map_nil, List.sum_cons, List.sum_nil]
  omega

/-- **A new client** that connects and logs in is one of the user, or its connection breaks down. -/
theorem session_linked (hexact : env.dialect = Dialect.exact) (hv : e.Valid env)
    (hconnects : desk.refuses host port = none) (hw : Coherent env w) (haccount : e.Admits env w)
    (hparent : w.fs.entry (e.parent env) = some .dir)
    {k : Prog (Link World Desk) Json} {Q : Json → Link World Desk × CloudClient → Prop}
    {E : Exn → Link World Desk × CloudClient → Prop}
    (hQ : ∀ w' conn token st, Errand.Unchanged env w w' → LoggedIn env e conn → token.length ≤ 64 →
      st.1.handled.length = 1 → Stands st w' conn desk token → Meets k st Q E)
    (hE : ∀ ex st, Down limit st.1 → st.1.sys = w → st.1.handled = [] → E ex st) :
    Meets (do
      connectTo (linked env limit rounds) host port
      let _ ← login (linked env limit rounds) e.username e.password
      k) (newClient w ip desk) Q E := by
  obtain ⟨s, w', hrun, hsame, howner, htoken⟩ := haccount.login hexact hv hw hparent ip
  have htexts := hv.texts
  unfold newClient
  rw [meets_bind]
  apply connectTo_linked hconnects rfl
  intro st₁ hlink h₁
  have hempty : st₁.1.handled = [] := by rw [hlink]
  have hdata := loginData_length_le e.username e.password
  have hreply := loginReply_length_le (s := s) (howner.user ▸ hv.user) htoken
  rw [meets_bind]
  apply login_linked w' { session := s, authed := true, peerIp := ip } s h₁
  · intro seq hseq
    exact requestRoot_sendable hseq (by decide) hdata (by simp only [List.length_nil]; omega)
  · intro _ seq hseq
    apply login_answered rfl hseq hrun
    rw [howner.name] at hreply
    omega
  · intro _ st₂ _ hcount h₂
    rw [hempty] at hcount
    exact hQ _ _ _ _ hsame ⟨rfl, howner⟩ htoken.le hcount h₂
  · intro ex st₂ hdown hlink₂ h₂
    refine hE ex st₂ (hlink₂ ▸ hdown) h₂.sys ?_
    rw [hlink₂, hempty]

/-- A client that sends the file stores it, or the connection broke down and the server still waits
for the file. -/
theorem send_linked (hexact : env.dialect = Dialect.exact) (hv : e.Valid env)
    (hconnects : desk.refuses host port = none) (hfile : desk.files e.localPath = some e.content)
    (ha : e.Awaits env w) (hbudget : Budgeted env e most 3 w) :
    Meets (e.send (linked env limit rounds) host port) (newClient w ip desk)
      (fun _ st => e.Stored env st.1.sys)
      (fun _ st => Down limit st.1 ∧ e.Awaits env st.1.sys ∧
        Budgeted env e most st.1.handled.length st.1.sys) := by
  unfold Errand.send
  apply session_linked hexact hv hconnects ha.coherent ha.account ha.parent
  · intro w' conn token st hsame hc htoken hcount h
    have hbudget' : Budgeted env e most (st.1.handled.length + 2) w' := by
      rw [hcount]
      exact hbudget.congr hsame.received
    refine (put_linked hexact hv htoken hfile h hc (ha.underway hv (hsame.underway ha)) hbudget').mono
      ?_ ?_
    · rintro _ st' ⟨w₁, conn₁, h₁, -, hstored⟩
      rw [h₁.sys]
      exact hstored
    · rintro _ st' ⟨hdown, w₁, conn₁, h₁, -, ha₁, hbudget₁⟩
      rw [h₁.sys]
      exact ⟨hdown, ha₁, hbudget₁⟩
  · intro ex st hdown hsys hempty
    rw [hsys, hempty]
    exact ⟨hdown, ha, hbudget.mono (Nat.zero_le _)⟩

/-- A connection of a user: from which machine, how many frames it delivers, and the keys of the
server whose life has ended before. -/
structure Attempt where
  desk : Desk
  ip : Bytes
  limit : Option ℕ
  expired : List Bytes := []

namespace Attempt

/-- The server before the connection is made. -/
def before (a : Attempt) (w : World) : World := a.expired.foldl Server.expireKey w

/-- The file is sent: whether it was, and the server afterwards. -/
def send (env : Env) (e : Errand) (host : Bytes) (port rounds : ℕ) (a : Attempt) (w : World) :
    Bool × World :=
  let r := e.send (linked env a.limit rounds) host port (newClient (a.before w) a.ip a.desk)
  (r.1.isOk, r.2.1.sys)

end Attempt

end CloudStore.Analysis
