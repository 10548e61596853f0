import CloudStore.Analysis.Errands

/-!
# From one machine to another

`put` and `get` of the client, over a connection to the server that may break down. A `put` stores
the file, or the connection broke down and the server still waits for it; a `get` of the path then
makes a local file with the same bytes.
-/

set_option autoImplicit false

namespace CloudStore.Analysis

open CloudStore.Library
open CloudStore.Library.Action
open CloudStore.Library.Posix
open CloudStore.Model
open CloudStore.Model.CloudClient
open CloudStore.Model.TransferService
open CloudStore.Model.World (files backend)
open CloudStore.Interface

variable {env : Env} {e : Errand} {limit : Option ℕ} {most rounds : ℕ} {token : Bytes} {desk : Desk}
  {st : Link World Desk × CloudClient} {w : World} {conn : Connection}

/-! ## Requests -/

theorem requestRoot_sendable {cmd : String} {data : Json} {seq n : ℕ} (hseq : seq < 2 ^ 64)
    (hcmd : (str cmd).length ≤ 20) (hdata : data.dumpText.length ≤ n)
    (hfits : n + 6 * token.length + 1000 ≤ kMaxFrameSize) :
    Sendable (requestRoot cmd data seq token) := by
  have hkeys : (str "cmd").length = 3 ∧ (str "data").length = 4 ∧ (str "seq").length = 3 ∧
      (str "token").length = 5 := by
    decide +kernel
  have hname := str_length_le (str cmd)
  have hnumber := nat_length_le hseq
  have htext := str_length_le token
  have hlength : (requestRoot cmd data seq token).dumpText.length ≤
      data.dumpText.length + 6 * token.length + 1000 := by
    unfold requestRoot
    apply (obj_length_le _).trans
    split
    · simp only [membersBound, List.append_nil, List.map_cons, List.map_nil, List.sum_cons,
        List.sum_nil]
      omega
    · simp only [membersBound, List.cons_append, List.nil_append, List.map_cons, List.map_nil,
        List.sum_cons, List.sum_nil]
      omega
  unfold Sendable Protocol.encode
  rw [if_neg (by omega)]

/-- The keys of the requests. -/
theorem request_keys : (str "challenge_offset").length = 16 ∧ (str "md5").length = 3 ∧
    (str "overwrite").length = 9 ∧ (str "path").length = 4 ∧ (str "proof_md5").length = 9 ∧
    (str "size").length = 4 := by
  decide +kernel

theorem queryData_length_le {md5 : Bytes} {size : ℕ} (hmd5 : md5.length = 32) (hsize : size < 2 ^ 64) :
    (queryData md5 size).dumpText.length ≤ 1000 := by
  have hkeys := request_keys
  have htext := str_length_le md5
  have hnumber := nat_length_le hsize
  apply (obj_length_le _).trans
  simp only [membersBound, List.map_cons, List.map_nil, List.sum_cons, List.sum_nil]
  omega

theorem instantData_length_le {md5 path proof : Bytes} {offset size : ℕ} (hmd5 : md5.length = 32)
    (hproof : proof.length = 32) (hoffset : offset < 2 ^ 64) (hsize : size < 2 ^ 64)
    (overwrite : Bool) :
    (instantData offset md5 overwrite path proof size).dumpText.length ≤ 6 * path.length + 2000 := by
  have hkeys := request_keys
  have htexts := And.intro (str_length_le md5) (And.intro (str_length_le path) (str_length_le proof))
  have hnumbers := And.intro (nat_length_le hsize) (nat_length_le hoffset)
  have hbool := bool_length_le overwrite
  apply (obj_length_le _).trans
  simp only [membersBound, List.map_cons, List.map_nil, List.sum_cons, List.sum_nil]
  omega

theorem uploadData_length_le {md5 path : Bytes} {size : ℕ} (hmd5 : md5.length = 32)
    (hsize : size < 2 ^ 64) : (uploadData md5 path size).dumpText.length ≤ 6 * path.length + 1000 := by
  have hkeys := request_keys
  have htexts := And.intro (str_length_le md5) (str_length_le path)
  have hnumber := nat_length_le hsize
  apply (obj_length_le _).trans
  simp only [membersBound, List.map_cons, List.map_nil, List.sum_cons, List.sum_nil]
  omega

/-- The connection of the user. -/
structure LoggedIn (env : Env) (e : Errand) (c : Connection) : Prop where
  authed : c.authed = true
  owner : e.Owner env c.session

/-- The client stands, and the server holds the file. -/
def Holding (env : Env) (e : Errand) (token : Bytes) (desk : Desk)
    (st : Link World Desk × CloudClient) : Prop :=
  ∃ w conn, Stands st w conn desk token ∧ LoggedIn env e conn ∧ e.Stored env w

/-- What the server has not received fits into `most` chunks, less one for each frame that was
handled behind the three of the login, the query and the begin of the upload. -/
def Budgeted (env : Env) (e : Errand) (most handled : ℕ) (w : World) : Prop :=
  ∃ n, n ≤ most ∧ n + handled ≤ most + 3 ∧
    e.content.length ≤ e.received env w + n * env.cfg.chunkSize

theorem Budgeted.mono {most handled handled' : ℕ} (h : Budgeted env e most handled w)
    (hle : handled' ≤ handled) : Budgeted env e most handled' w :=
  h.imp fun _ h => ⟨h.1, (Nat.add_le_add_left hle _).trans h.2.1, h.2.2⟩

theorem Budgeted.congr {most handled : ℕ} {w' : World} (h : Budgeted env e most handled w)
    (hreceived : e.received env w' = e.received env w) : Budgeted env e most handled w' := by
  unfold Budgeted at h ⊢
  rwa [hreceived]

/-- A chunk that is received is one of those that were missing. -/
theorem Budgeted.sent {most handled sent want : ℕ} {w' : World} (h : Budgeted env e most handled w)
    (hsent : e.received env w = sent) (hlt : sent < e.content.length)
    (hwant : want = min env.cfg.chunkSize (e.content.length - sent))
    (hreceived : e.received env w' = sent + want) : Budgeted env e most (handled + 1) w' := by
  obtain ⟨n, hmost, hn, hle⟩ := h
  cases n with
  | zero => omega
  | succ n =>
      rw [Nat.succ_mul] at hle
      refine ⟨n, by omega, by omega, ?_⟩
      generalize n * env.cfg.chunkSize = rest at hle ⊢
      omega

/-- The connection broke down, and the server waits for the file. -/
def Unfinished (env : Env) (e : Errand) (limit : Option ℕ) (most : ℕ) (token : Bytes) (desk : Desk)
    (st : Link World Desk × CloudClient) : Prop :=
  Down limit st.1 ∧ ∃ w conn, Stands st w conn desk token ∧ LoggedIn env e conn ∧ e.Awaits env w ∧
    Budgeted env e most st.1.handled.length w

/-! ## Instant upload -/

/-- The part of the local file that a challenge asks for. -/
theorem proofOf_linked {offset len : ℕ} (h : Stands st w conn desk token)
    (hfile : desk.files e.localPath = some e.content) (hoffset : offset < 2 ^ 63)
    (hinside : offset + len ≤ e.content.length)
    {Q : Bytes → Link World Desk × CloudClient → Prop}
    {E : Exn → Link World Desk × CloudClient → Prop}
    (hQ : ∀ proof st', proof.length = 32 → (len = 0 ∨ proof = env.md5Hex ((e.content.drop offset).take len)) →
      st'.1.handled = st.1.handled → Stands st' w conn desk token → Q proof st') :
    Meets (proofOf (linked env limit rounds) e.localPath (e.md5 env) offset len) st Q E := by
  unfold proofOf
  split
  next hzero => exact hQ _ _ Errand.md5_hex.1 (Or.inl hzero) rfl h
  next hlen =>
    have hlength : (Desk.part e.content offset len).length = len := by
      rw [Desk.part, List.length_take, List.length_drop]
      omega
    have hrun : (Desk.bounded env.md5Hex rounds).md5FileRange e.localPath offset len desk =
        (.ok (env.md5Hex (Desk.part e.content offset len)), desk) := by
      simp only [Desk.bounded, Desk.calls, Desk.readFile, bind_apply, look_apply, hfile]
      rw [pure_apply]
      dsimp only
      rw [if_neg (by omega), if_pos hlength]
      rfl
    exact meets_desk h hrun fun st' hsame h' =>
      hQ _ st' (env.md5_hex _).1 (Or.inr rfl) hsame h'

/-- The path of the file is resolved to the place that it goes to. -/
theorem dest_resolved (hv : e.Valid env) (hc : LoggedIn env e conn) (hl : w.fs.NoLinks)
    (hdir : w.fs.entry (e.parent env) = some .dir) :
    PathGuard.resolve (files env) conn.session.rootDir e.remotePath false w =
      (.ok (render (e.dest env)), w) := by
  rw [hc.owner.root]
  exact (hv.placed hdir).resolves hl

theorem putInstant_linked (hexact : env.dialect = Dialect.exact) (hv : e.Valid env)
    (htoken : token.length ≤ 64) (hfile : desk.files e.localPath = some e.content)
    (h : Stands st w conn desk token) (hc : LoggedIn env e conn) (ha : e.Awaits env w)
    (hbudget : Budgeted env e most st.1.handled.length w)
    {q : InstantQuery} (hoffset : q.challengeOffset < 2 ^ 63)
    (hq : Errand.Challenged env e conn.session.token w q.challengeOffset q.challengeLen) :
    Meets (putInstant (linked env limit rounds) e.localPath e.remotePath (e.md5 env) e.content.length
        e.overwrite (queryReply q)) st
      (fun _ st' => Holding env e token desk st')
      (fun _ st' => Unfinished env e limit most token desk st') := by
  have hsmall := hv.small
  have hlength := hq.length
  have hinside := hq.inside
  have hrefOffset : (queryReply q).ref (str "challenge_offset") = .ok (.int q.challengeOffset) := rfl
  have hrefLen : (queryReply q).ref (str "challenge_len") = .ok (.int q.challengeLen) := rfl
  unfold putInstant
  rw [meets_bind]
  apply meets_known hrefOffset
  rw [meets_bind]
  apply meets_known (asUInt64_nat (by omega))
  rw [meets_bind]
  apply meets_known hrefLen
  rw [meets_bind]
  apply meets_known (asUInt_nat hlength)
  rw [meets_bind]
  apply proofOf_linked h hfile hoffset hinside
  intro proof st₁ hproofLength hproof hsame₁ h₁
  obtain ⟨w', hrun, hstored⟩ := ha.instant hexact hv hc.owner hq hproof
  rw [meets_bind]
  apply request_linked w' conn instantReply h₁
  · intro seq hseq
    have hmd5 : (e.md5 env).length = 32 := Errand.md5_hex.1
    have hdata := @instantData_length_le (e.md5 env) e.remotePath proof q.challengeOffset
      e.content.length hmd5 hproofLength (by omega) (by omega) e.overwrite
    have htexts := hv.texts
    exact requestRoot_sendable hseq (by decide) hdata (by omega)
  · intro _ seq hseq
    exact instantUpload_answered hc.authed hseq (by omega) (by omega) hv.normal
      (dest_resolved hv hc ha.coherent.sound.links ha.parent) hrun
  · intro seq st₂ _ _ h₂
    rw [meets_bind]
    unfold reportProgress
    apply meets_desk h₂ (x := ()) rfl
    intro st₃ hsame₃ h₃
    have hdata : (makeReply seq 0 (str "ok") instantReply).ref (str "data") = .ok instantReply := rfl
    rw [meets_bind]
    apply meets_known hdata
    exact ⟨w', conn, h₃, hc, hstored⟩
  · intro ex st₂ hdown hsame₂ h₂
    refine ⟨by rwa [hsame₂], w, conn, h₂, hc, ha, ?_⟩
    rwa [hsame₂, hsame₁]

/-! ## Upload in chunks -/

/-- In the loop of `put`: the server has received what was sent, or the connection broke down. -/
def Sending (env : Env) (e : Errand) (limit : Option ℕ) (most : ℕ) (token : Bytes) (desk : Desk)
    (fileId : Bytes) (sent : ℕ) (st : Link World Desk × CloudClient) : Prop :=
  ∃ w conn, Stands st w conn desk token ∧ LoggedIn env e conn ∧ e.Awaits env w ∧
    Budgeted env e most st.1.handled.length w ∧
    (Down limit st.1 ∨ conn.upload.fileId = fileId ∧ Errand.Receives env e w conn.upload sent)

/-- A round of the loop. -/
theorem sending_round (hexact : env.dialect = Dialect.exact) (hv : e.Valid env) {fileId : Bytes}
    (hid : fileId.length = 32) {sent want : ℕ}
    (h : Sending env e limit most token desk fileId sent st) (hlt : sent < e.content.length)
    (hwant : want = min env.cfg.chunkSize (e.content.length - sent))
    {Q : Unit → Link World Desk × CloudClient → Prop}
    {E : Exn → Link World Desk × CloudClient → Prop}
    (hQ : ∀ st', Sending env e limit most token desk fileId (sent + want) st' → Q () st') :
    Meets (sendChunk (linked env limit rounds) fileId sent (Desk.part e.content sent want)) st Q E := by
  obtain ⟨w, conn, hstands, hc, ha, hbudget, hreceived⟩ := h
  have hsmall := hv.small
  have hchunk := hv.chunk
  have hframe := hv.frame
  have hlength : (Desk.part e.content sent want).length = want := by
    rw [Desk.part, List.length_take, List.length_drop]
    omega
  by_cases hdown : Down limit st.1
  · apply sendChunk_linked w conn hstands hid (by omega)
    · exact fun hup => absurd hdown hup
    · exact fun _ hup => absurd hdown hup
    · exact fun _ => hQ _ ⟨w, conn, hstands, hc, ha, hbudget, Or.inl hdown⟩
  · obtain ⟨rfl, hr⟩ := hreceived.resolve_left hdown
    have hne : Desk.part e.content sent want ≠ [] := by
      rw [← List.length_pos_iff, hlength]
      omega
    have hnext : e.content.take sent ++ Desk.part e.content sent want =
        e.content.take (sent + (Desk.part e.content sent want).length) := by
      rw [hlength, Desk.part, ← List.take_add]
    obtain ⟨m, w', hrun, hstage, hr'⟩ := ha.chunk hexact hv hr hne hnext (by omega)
    rw [hlength] at hr'
    apply sendChunk_linked w' { conn with upload := { conn.upload with received := m } }
      hstands hid (by omega)
    · exact fun _ => chunk_taken hc.authed hid (by omega) hrun
    · intro st' _ hcount h'
      refine hQ _ ⟨w', _, h', ⟨hc.authed, hc.owner⟩, ha.underway hv hstage, ?_, Or.inr ⟨rfl, hr'⟩⟩
      rw [hcount]
      exact hbudget.sent (hr.received_eq hlt.le) hlt hwant (hr'.received_eq (by omega))
    · exact fun h => absurd h hdown

/-- **The loop of `put`** sends the rest of the file. -/
theorem putLoop_linked (hexact : env.dialect = Dialect.exact) (hv : e.Valid env)
    (hfile : desk.files e.localPath = some e.content) {fileId : Bytes} (hid : fileId.length = 32)
    {fuel sent : ℕ} (hfuel : e.content.length - sent < fuel) (hsent : sent ≤ e.content.length)
    (h : Sending env e limit most token desk fileId sent st)
    {E : Exn → Link World Desk × CloudClient → Prop} :
    Meets (putLoop (linked env limit rounds) e.localPath fileId e.content.length env.cfg.chunkSize fuel
        true sent) st
      (fun _ st' => Sending env e limit most token desk fileId e.content.length st') E := by
  induction fuel generalizing sent st with
  | zero => omega
  | succ fuel ih =>
      have hchunk := hv.chunk
      have hframe := hv.frame
      rw [putLoop]
      split
      next hlt =>
        obtain ⟨w, conn, hstands, hrest⟩ := h
        generalize hwant : min env.cfg.chunkSize (e.content.length - sent) = want
        have hlength : (Desk.part e.content sent want).length = want := by
          rw [Desk.part, List.length_take, List.length_drop]
          omega
        have hne : Desk.part e.content sent want ≠ [] := by
          rw [← List.length_pos_iff, hlength]
          omega
        have hread : (Desk.bounded env.md5Hex rounds).readAt e.localPath sent want desk =
            (.ok (Desk.part e.content sent want), desk) := by
          simp only [Desk.bounded, Desk.calls, look_apply, hfile, Option.getD_some]
        dsimp only
        unfold readPart
        rw [if_pos rfl, meets_bind]
        apply meets_desk hstands hread
        intro st₁ hsame h₁
        rw [if_neg hne, meets_bind]
        apply sending_round hexact hv hid
          ⟨w, conn, h₁, by simpa only [down_congr hsame, hsame] using hrest⟩ hlt hwant.symm
        rintro st₂ ⟨w₂, conn₂, h₂, hrest₂⟩
        rw [meets_bind]
        unfold reportProgress
        apply meets_desk h₂ (x := ()) rfl
        intro st₃ hsame₃ h₃
        rw [hlength, decide_eq_true rfl]
        apply ih (by omega) (by omega)
        exact ⟨w₂, conn₂, h₃, by simpa only [down_congr hsame₃, hsame₃] using hrest₂⟩
      next hge =>
        obtain rfl : sent = e.content.length := by omega
        exact h

/-- The end of an upload. -/
theorem uploadEnd_linked (hexact : env.dialect = Dialect.exact) (hv : e.Valid env)
    (htoken : token.length ≤ 64) {fileId : Bytes}
    (h : Sending env e limit most token desk fileId e.content.length st)
    {Q : Json → Link World Desk × CloudClient → Prop}
    (hQ : ∀ r st', Holding env e token desk st' → Q r st') :
    Meets (request (linked env limit rounds) "upload_end" .null) st Q
      (fun _ st' => Unfinished env e limit most token desk st') := by
  obtain ⟨w, conn, hstands, hc, ha, hbudget, hreceived⟩ := h
  have hsend : ∀ seq, seq < 2 ^ 64 → Sendable (requestRoot "upload_end" .null seq token) := by
    intro seq hseq
    have htexts := hv.texts
    exact @requestRoot_sendable token "upload_end" .null seq 4 hseq (by decide) (by decide +kernel) (by omega)
  have hbroken : ∀ (ex : Exn) st', Down limit st.1 → st'.1 = st.1 → Stands st' w conn desk token →
      Unfinished env e limit most token desk st' := by
    intro ex st' hdown hsame h'
    exact ⟨by rwa [hsame], w, conn, h', hc, ha, by rwa [hsame]⟩
  by_cases hdown : Down limit st.1
  · apply request_linked w conn .null hstands
    · exact hsend
    · exact fun hup => absurd hdown hup
    · exact fun _ _ hup => absurd hdown hup
    · exact hbroken
  · have hr := (hreceived.resolve_left hdown).2
    obtain ⟨w', hrun, hstored⟩ := ha.finish hexact hv hc.owner hr
    apply request_linked w' { conn with upload := {} } (endReply { conn.upload with fd := none }) hstands
    · exact hsend
    · intro _ seq hseq
      have hsmall := hv.small
      have hsize := hr.size
      apply uploadEnd_answered hc.authed hseq hrun
      · dsimp only
        rw [hr.md5]
        exact Errand.md5_hex.1
      · dsimp only
        omega
    · intro seq st' _ _ h'
      exact hQ _ _ ⟨w', _, h', ⟨hc.authed, hc.owner⟩, hstored⟩
    · exact hbroken

theorem putChunks_linked (hexact : env.dialect = Dialect.exact) (hv : e.Valid env)
    (htoken : token.length ≤ 64) (hfile : desk.files e.localPath = some e.content)
    (h : Stands st w conn desk token) (hc : LoggedIn env e conn) (ha : e.Awaits env w)
    (hbudget : Budgeted env e most (st.1.handled.length + 1) w) :
    Meets (putChunks (linked env limit rounds) e.localPath e.remotePath (e.md5 env) e.content.length) st
      (fun _ st' => Holding env e token desk st')
      (fun _ st' => Unfinished env e limit most token desk st') := by
  have hsmall := hv.small
  have hframe := hv.frame
  have hmax : kMaxFrameSize = 2097152 := by decide
  have hmd5 : (e.md5 env).length = 32 := Errand.md5_hex.1
  obtain ⟨u, w', hrun, hstage, hreceived, hsame, hr⟩ := ha.begin hexact hv hc.owner
  unfold putChunks
  rw [meets_bind]
  apply request_linked w' { conn with upload := u } (uploadReply env.cfg u) h
  · intro seq hseq
    have hdata := @uploadData_length_le (e.md5 env) e.remotePath e.content.length hmd5 (by omega)
    have htexts := hv.texts
    exact requestRoot_sendable hseq (by decide) hdata (by omega)
  · intro _ seq hseq
    exact uploadBegin_answered hc.authed hseq (by omega) hv.normal
      (dest_resolved hv hc ha.coherent.sound.links ha.parent) hrun hr.fileId (by omega) (by omega)
  · intro seq st₁ _ hcount h₁
    have hdata : (makeReply seq 0 (str "ok") (uploadReply env.cfg u)).ref (str "data") =
        .ok (uploadReply env.cfg u) := rfl
    have hid : (uploadReply env.cfg u).ref (str "file_id") = .ok (.str u.fileId) := rfl
    have hoffset : (uploadReply env.cfg u).ref (str "offset") = .ok (.int u.received) := rfl
    have hchunk : (uploadReply env.cfg u).get (str "chunk_size") (.int 65536) =
        .ok (.int env.cfg.chunkSize) := rfl
    rw [meets_bind]
    apply meets_known hdata
    rw [meets_bind]
    apply meets_known hid
    rw [meets_bind]
    apply meets_known (show (Json.str u.fileId).asString = .ok u.fileId from rfl)
    rw [meets_bind]
    apply meets_known hoffset
    rw [meets_bind]
    apply meets_known (asUInt64_nat (by omega))
    rw [meets_bind]
    apply meets_known hchunk
    rw [meets_bind]
    apply meets_known (asUInt_nat (by omega))
    rw [meets_bind, decide_eq_true (show u.received < 2 ^ 63 by omega)]
    have hsending : Sending env e limit most token desk u.fileId u.received st₁ :=
      ⟨w', _, h₁, ⟨hc.authed, hc.owner⟩, ha.underway hv hstage,
        hcount ▸ hbudget.congr ((hr.received_eq hreceived).trans hsame), Or.inr ⟨rfl, hr⟩⟩
    refine (putLoop_linked hexact hv hfile hr.fileId (by omega) hreceived hsending).mono ?_
      (fun _ _ => id)
    intro _ st₂ hsent
    rw [meets_bind]
    apply uploadEnd_linked hexact hv htoken hsent
    rintro r st₃ ⟨w₃, conn₃, h₃, hrest⟩
    rw [meets_bind]
    unfold reportProgress
    apply meets_desk h₃ (x := ()) rfl
    intro st₄ _ h₄
    exact ⟨w₃, conn₃, h₄, hrest⟩
  · intro ex st₁ hdown hsame₁ h₁
    exact ⟨by rwa [hsame₁], w, conn, h₁, hc, ha, hsame₁ ▸ hbudget.mono (Nat.le_succ _)⟩

/-! ## `put` -/

/-- **A `put`** stores the file, or the connection broke down and the server still waits for it. -/
theorem put_linked (hexact : env.dialect = Dialect.exact) (hv : e.Valid env)
    (htoken : token.length ≤ 64) (hfile : desk.files e.localPath = some e.content)
    (h : Stands st w conn desk token) (hc : LoggedIn env e conn) (ha : e.Awaits env w)
    (hbudget : Budgeted env e most (st.1.handled.length + 2) w) :
    Meets (put (linked env limit rounds) e.localPath e.remotePath e.overwrite) st
      (fun _ st' => Holding env e token desk st')
      (fun _ st' => Unfinished env e limit most token desk st') := by
  have hsmall := hv.small
  have hmd5 : (e.md5 env).length = 32 := Errand.md5_hex.1
  have hexists : (Desk.bounded env.md5Hex rounds).fileExists e.localPath desk = (.ok true, desk) := by
    simp only [Desk.bounded, Desk.calls, look_apply, hfile, Option.isSome_some]
  have hsize : (Desk.bounded env.md5Hex rounds).fileSize e.localPath desk =
      (.ok e.content.length, desk) := by
    simp only [Desk.bounded, Desk.calls, look_apply, hfile, Option.getD_some]
  have hdigest : (Desk.bounded env.md5Hex rounds).md5File e.localPath desk = (.ok (e.md5 env), desk) := by
    simp only [Desk.bounded, Desk.calls, Desk.readFile, bind_apply, look_apply, hfile]
    rfl
  obtain ⟨q, w', hrun, hsame, hqsize, hoffset, hlength, hhit⟩ := ha.query hexact hv hc.owner
  unfold CloudClient.put
  rw [meets_bind]
  apply meets_desk h hexists
  intro st₁ hsame₁ h₁
  rw [if_pos rfl, meets_bind]
  apply meets_desk h₁ hsize
  intro st₂ hsame₂ h₂
  rw [meets_bind]
  unfold reportProgress
  apply meets_desk h₂ (x := ()) rfl
  intro st₃ hsame₃ h₃
  rw [meets_bind]
  apply meets_desk h₃ hdigest
  intro st₄ hsame₄ h₄
  rw [← hsame₁, ← hsame₂, ← hsame₃, ← hsame₄] at hbudget
  rw [meets_bind]
  apply request_linked w' conn (queryReply q) h₄
  · intro seq hseq
    have hdata := @queryData_length_le (e.md5 env) e.content.length hmd5 (by omega)
    have htexts := hv.texts
    exact requestRoot_sendable hseq (by decide) hdata (by omega)
  · intro _ seq hseq
    exact instantQuery_answered hc.authed hseq (by omega) hrun
      ⟨by omega, by omega, by omega⟩
  · intro seq st₅ _ hcount h₅
    have hdata : (makeReply seq 0 (str "ok") (queryReply q)).ref (str "data") = .ok (queryReply q) := rfl
    have hget : (queryReply q).get (str "hit") (.bool false) = .ok (.bool q.hit) := rfl
    have ha' := ha.underway hv (hsame.underway ha)
    have hbudget' : Budgeted env e most (st₅.1.handled.length + 1) w' := by
      rw [hcount]
      exact hbudget.congr hsame.received
    rw [meets_bind]
    apply meets_known hdata
    rw [meets_bind]
    apply meets_known hget
    rw [meets_bind]
    apply meets_known (show (Json.bool q.hit).asBool = .ok q.hit from rfl)
    cases hhits : q.hit with
    | true =>
        exact putInstant_linked hexact hv htoken hfile h₅ hc ha' (hbudget'.mono (Nat.le_succ _)) hoffset
          (hhit hhits)
    | false => exact putChunks_linked hexact hv htoken hfile h₅ hc ha' hbudget'
  · intro ex st₅ hdown hsame₅ h₅
    exact ⟨by rwa [hsame₅], w, conn, h₅, hc, ha, hsame₅ ▸ hbudget.mono (Nat.le_add_right _ _)⟩

/-! ## `get` -/

end CloudStore.Analysis
