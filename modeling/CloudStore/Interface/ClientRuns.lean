import CloudStore.Model.Desk

/-!
# Runs of the client

What a run of `CloudClient::get` makes of the frames that the server sends: `arrivals` are the
chunks that it writes, if it comes to an end without an exception.
-/

set_option autoImplicit false

namespace CloudStore.Interface

open CloudStore.Library (Bytes Action)
open CloudStore.Library.Action
open CloudStore.Model
open CloudStore.Model.CloudClient

variable {σ : Type} {calls : ClientCalls σ} {desk : σ → Desk} {put : Desk → σ → σ}
  {md5Hex : Bytes → Bytes} {d : Desk} {c : CloudClient}

/-- Frames are sent without a fault and received from the desk that is a part of the state. -/
structure Wired (calls : ClientCalls σ) (desk : σ → Desk) (put : Desk → σ → σ) : Prop where
  send : ∀ frame, calls.send frame = Pure.pure ()
  recv : calls.recv = Action.zoom desk put Desk.recv
  put_self : ∀ s, put (desk s) s = s

/-- The next sequence number. -/
def seqAfter (seq : ℕ) : ℕ := (seq + 1) % 2 ^ 64

/-- The text of a request fits into a frame. -/
def Sendable (root : Json) : Prop := Protocol.encode root.dumpText.length = .ok ()

instance (root : Json) : Decidable (Sendable root) :=
  decidable_of_iff (root.dumpText.length ≤ kMaxFrameSize) (by
    unfold Sendable Protocol.encode
    split_ifs with h
    · simp only [iff_false]
      omega
    · simp only [iff_true]
      omega)

/-- A value computed beforehand is read off, an exception is the answer. -/
theorem meets_liftM {σ α : Type} {x : Except Exn α} {s : σ} {Q : α → σ → Prop}
    {E : Exn → σ → Prop} (hok : ∀ y, x = .ok y → Q y s) (herr : ∀ e, x = .error e → E e s) :
    Meets (liftM x : Act σ α) s Q E :=
  meets_lift.mpr ⟨hok, herr⟩

/-! ## Requests -/

/-- What `request` takes for the reply, if the frame is accepted. -/
def acceptedReply : Option Received → Option Json
  | some (.json true v) =>
    match (v.get (str "code") (.int 500)).bind Json.asInt with
    | .ok code => if code = 0 then some v else none
    | .error _ => none
  | _ => none

/-- The answer of a request, and the frames that are left. -/
def answered (c : CloudClient) (cmd : String) (data : Json) (replies : List (Option Received)) :
    Option (Json × List (Option Received)) :=
  if c.connected = true ∧ Sendable (requestRoot cmd data (seqAfter c.seq) c.token) then
    match replies with
    | [] => none
    | r :: rest => (acceptedReply r).map fun v => (v, rest)
  else none

theorem answered_connected {cmd : String} {data v : Json} {replies rest : List (Option Received)}
    (h : answered c cmd data replies = some (v, rest)) : c.connected = true := by
  unfold answered at h
  split_ifs at h with hc
  exact hc.1

section Calls

variable {s : σ × CloudClient}

/-- A frame is sent over an open connection, if its text fits. -/
theorem sendJson_meets (hw : Wired calls desk put) {root : Json} {Q : Unit → σ × CloudClient → Prop}
    {E : Exn → σ × CloudClient → Prop} (hsent : s.2.connected = true → Sendable root → Q () s)
    (hfails : ¬ (s.2.connected = true ∧ Sendable root) → ∀ e, E e s) :
    Meets (sendJson calls root) s Q E := by
  unfold sendJson
  rw [meets_bind]
  apply meets_liftM
  · intro _ hencode
    have hsend : Sendable root := hencode
    unfold writeAll
    rw [meets_bind, meets_look]
    by_cases hc : s.2.connected = true
    · rw [if_pos hc, hw.send]
      exact hsent hc hsend
    · rw [if_neg hc]
      exact hfails (fun h => hc h.1) _
  · intro e hencode
    apply hfails
    rintro ⟨-, hsend⟩
    rw [show Protocol.encode root.dumpText.length = .ok () from hsend] at hencode
    simp at hencode

/-- The next frame is received over an open connection. -/
theorem recvFrame_meets (hw : Wired calls desk put) {Q : Received → σ × CloudClient → Prop}
    {E : Exn → σ × CloudClient → Prop} (hc : s.2.connected = true)
    (hcomes : ∀ r rest, (desk s.1).replies = some r :: rest →
      Q r (put { desk s.1 with replies := rest } s.1, s.2))
    (hfails : (∀ r rest, (desk s.1).replies ≠ some r :: rest) →
      ∀ e d, E e (put d s.1, s.2)) :
    Meets (recvFrame calls) s Q E := by
  unfold recvFrame
  rw [meets_bind, meets_look, if_pos hc, hw.recv]
  unfold Meets
  rcases s with ⟨s, c⟩
  rw [beside_apply, zoom_apply]
  unfold Desk.recv
  dsimp only at hcomes hfails ⊢
  rcases hreplies : (desk s).replies with _ | ⟨_ | r, rest⟩
  · exact hfails (by simp [hreplies]) _ _
  · exact hfails (by simp [hreplies]) _ _
  · exact hcomes r rest hreplies

/-- The reply is accepted, or its message is thrown. -/
theorem checkReply_meets (cmd : String) (v : Json) (s : σ × CloudClient) :
    Meets
      (do
        let code ← (← v.get (str "code") (.int 500)).asInt
        if code ≠ 0 then
          throw (.std (str cmd ++ str " failed: " ++
            (← (← v.get (str "msg") (.str (str "error"))).asString)))
        else return v : Prog σ Json) s
      (fun y st => acceptedReply (some (.json true v)) = some y ∧ st = s)
      fun _ st => acceptedReply (some (.json true v)) = none ∧ st = s := by
  have haccepted : acceptedReply (some (.json true v)) =
      match (v.get (str "code") (.int 500)).bind Json.asInt with
      | .ok code => if code = 0 then some v else none
      | .error _ => none := rfl
  rw [haccepted]
  apply meets_bind.mpr
  apply meets_liftM
  · intro x hget
    rw [hget]
    apply meets_bind.mpr
    apply meets_liftM
    · intro code hint
      simp only [Except.bind, hint]
      by_cases hzero : code = 0
      · rw [if_neg (not_not.mpr hzero), if_pos hzero]
        exact ⟨rfl, rfl⟩
      · rw [if_pos hzero, if_neg hzero]
        apply meets_bind.mpr
        apply meets_liftM
        · intro y _
          apply meets_bind.mpr
          exact meets_liftM (fun _ _ => ⟨rfl, rfl⟩) fun _ _ => ⟨rfl, rfl⟩
        · exact fun _ _ => ⟨rfl, rfl⟩
    · intro e hint
      simp only [Except.bind, hint]
      exact ⟨trivial, trivial⟩
  · intro e hget
    rw [hget]
    exact ⟨rfl, rfl⟩

/-- **A request** ends with the reply that answers it, or with an exception. -/
theorem request_meets (hw : Wired calls desk put) (cmd : String) (data : Json) :
    Meets (request calls cmd data) s
      (fun v st => ∃ rest, answered s.2 cmd data (desk s.1).replies = some (v, rest) ∧
        st = (put { desk s.1 with replies := rest } s.1, { s.2 with seq := seqAfter s.2.seq }))
      fun _ st => answered s.2 cmd data (desk s.1).replies = none ∧ ∃ d, st.1 = put d s.1 := by
  unfold request nextSeq
  rw [meets_bind, meets_move, meets_bind, meets_look, meets_bind]
  apply sendJson_meets hw
  · intro hc hsend
    have hif : answered s.2 cmd data (desk s.1).replies = match (desk s.1).replies with
        | [] => none
        | r :: rest => (acceptedReply r).map fun v => (v, rest) := if_pos ⟨hc, hsend⟩
    rw [hif]
    unfold recvJson
    rw [meets_bind, meets_bind]
    apply recvFrame_meets hw hc
    · intro r rest hreplies
      dsimp only at hreplies
      rw [hreplies]
      cases r with
      | other payload => exact ⟨rfl, _, rfl⟩
      | json parses v =>
          cases parses with
          | false => exact ⟨rfl, _, rfl⟩
          | true =>
              simp only [if_true, meets_pure]
              apply (checkReply_meets cmd v _).mono
              · rintro y st ⟨haccepted, rfl⟩
                rw [haccepted]
                exact ⟨rest, rfl, rfl⟩
              · rintro e st ⟨haccepted, rfl⟩
                rw [haccepted]
                exact ⟨rfl, _, rfl⟩
    · intro hnone e d
      dsimp only at hnone
      refine ⟨?_, d, rfl⟩
      rcases hreplies : (desk s.1).replies with _ | ⟨_ | r, rest⟩
      · rfl
      · rfl
      · exact absurd hreplies (hnone r rest)
  · intro hnot e
    exact ⟨if_neg hnot, desk s.1, (hw.put_self s.1).symm⟩

end Calls

/-! ## `get` -/

section Arrivals

variable {fileId token : Bytes} {size chunk got seq : ℕ} {rest : List (Option Received)}

end Arrivals

/-- The data of `download_begin`. -/
abbrev beginData (remotePath : Bytes) : Json := .obj [(str "path", .str remotePath)]

/-- Two frames that differ at most in the bytes that a chunk carries. -/
inductive SameHead : Option Received → Option Received → Prop
  | closed : SameHead none none
  | json (parses : Bool) (v : Json) : SameHead (some (.json parses v)) (some (.json parses v))
  | chunk {x y : Bytes} (hlength : x.length = y.length) (hhead : x.take 40 = y.take 40) :
    SameHead (some (.other x)) (some (.other y))

/-- Two sequences of frames that differ at most in the bytes that the chunks carry. -/
abbrev SameHeads : List (Option Received) → List (Option Received) → Prop :=
  List.Forall₂ SameHead

/-- How many bytes chunks with these heads have. -/
def total (heads : List (Bytes × ℕ × ℕ)) : ℕ := (heads.map fun h => h.2.2).sum

theorem SameHead.refl (r : Option Received) : SameHead r r := by
  rcases r with _ | ⟨parses, v⟩ | x
  · exact .closed
  · exact .json parses v
  · exact .chunk rfl rfl

theorem SameHeads.refl (rs : List (Option Received)) : SameHeads rs rs :=
  List.forall₂_same.mpr fun r _ => SameHead.refl r

section Heads

variable {fileId token : Bytes} {size chunk got seq : ℕ} {rs rs' : List (Option Received)}

end Heads

end CloudStore.Interface
