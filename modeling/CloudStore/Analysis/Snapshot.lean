import CloudStore.Interface.Downloads
import CloudStore.Interface.Playback

/-!
# Downloads are snapshots

A download reads the bytes that the object had when the download began, whatever other
requests do to the path and to the object meanwhile. It ends when its connection logs out,
is closed or begins another download.
-/

set_option autoImplicit false

namespace CloudStore.Analysis

open CloudStore.Library (Bytes Handle)
open CloudStore.Library.Posix
open CloudStore.Model
open CloudStore.Model.TransferService
open CloudStore.Model.World (objectPath backend)
open CloudStore.Interface

section

variable (env : Env) (m : Bytes) (d : DownloadSession)

/-- The call begins the download `d` of the content `m`. -/
def Begins (w : World) : Call → Prop
  | .beginDownload session _ p =>
    (downloadMd5 (backend env) session.userId p w).1 = .ok m ∧
      (beginDownload (backend env) session p w).1 = .ok d
  | _ => False

instance (w : World) (call : Call) : Decidable (Begins env m d w call) :=
  match call with
  | .beginDownload .. => by dsimp only [Begins]; infer_instance
  | .registerUser .. | .login .. | .checkToken .. | .logout .. | .listDir .. | .statPath .. |
    .makeDir .. | .indexFile .. | .lookupFile .. | .listIndexed .. | .removeUserPath .. |
    .renameUserPath .. | .queryInstant .. | .instantUpload .. | .closeUpload | .beginUpload .. |
    .writeChunk .. | .finishUpload .. | .closeDownload | .readChunk .. =>
    inferInstanceAs (Decidable False)

/-- MD5 is free of collisions at the event, and the disk does not change. -/
def Faultless (s : ServerState) (e : Event) : Prop :=
  NoCollision env s e ∧ match e with
    | .disk _ => False
    | _ => True

instance (s : ServerState) (e : Event) : Decidable (Faultless env s e) :=
  match e with
  | .disk _ => .isFalse fun h => h.2
  | .connect .. | .close _ | .frame .. | .expire _ =>
    inferInstanceAs (Decidable (NoCollision env s _ ∧ True))

end

/-- The connection is the same throughout a part of a trace. -/
def SameConnection (id : ℕ) (tr : List TraceEntry) : Prop := .opened id ∉ tr

/-- On the way, the connection neither logs out nor closes its download or begins another one. -/
def KeepsDownload (id : ℕ) (tr : List TraceEntry) : Prop :=
  ∀ r, .call id r ∈ tr → EndsDownload r.call = false

variable {env : Env} {m : Bytes} {d : DownloadSession} {id : ℕ} {tr : List TraceEntry}

/-! ## What a trace keeps of its downloads -/

/-- The calls of a trace were made while MD5 was free of collisions. -/
def CollisionFreeCalls (env : Env) (tr : List TraceEntry) : Prop :=
  ∀ id r, .call id r ∈ tr → World.CollisionFree env r.sys

/-- Every download of a trace is open on a sealed file. -/
def DownloadsSealed (env : Env) (tr : List TraceEntry) (s : ServerState) : Prop :=
  CollisionFreeCalls env tr → ∀ newer id r older m d, tr = newer ++ .call id r :: older →
    Hex32 m → Begins env m d r.sys r.call → ∃ i x, World.object env r.sys m = some x ∧
      d.fd = some (.file i) ∧ d.totalSize = x.length ∧ d.fileId.length = 32 ∧ SealedIn env i x s

/-- What is kept of the sealed files, is kept of the downloads. -/
theorem DownloadsSealed.keep {s s' : ServerState} (h : DownloadsSealed env tr s)
    (new : List TraceEntry) (hnew : ∀ id r, .call id r ∉ new)
    (hsealed : ∀ i x, SealedIn env i x s → SealedIn env i x s') :
    DownloadsSealed env (new ++ tr) s' := by
  intro hfree newer id r older m d htr hm hbegin
  have hfree' : CollisionFreeCalls env tr := by
    intro id r hr
    exact hfree id r (List.mem_append_right _ hr)
  have hcut : ∃ newer', tr = newer' ++ .call id r :: older := by
    induction new generalizing newer with
    | nil => exact ⟨newer, htr⟩
    | cons e new ih =>
        cases newer with
        | nil =>
            obtain ⟨rfl, -⟩ := List.cons.inj htr
            exact absurd List.mem_cons_self (hnew id r)
        | cons e' newer =>
            apply ih (fun id r hr => hnew id r (List.mem_cons_of_mem _ hr)) ?_ newer
              (List.cons.inj htr).2
            intro id r hr
            exact hfree id r (List.mem_cons_of_mem _ hr)
  obtain ⟨newer', htr'⟩ := hcut
  obtain ⟨i, x, hx, hfd, hsize, hid, hs⟩ := h hfree' newer' id r older m d htr' hm hbegin
  exact ⟨i, x, hx, hfd, hsize, hid, hsealed i x hs⟩

/-- A download that begins is open on the file of its object. -/
theorem begins_sealed {s : ServerState} {call : Call} (hsafe : Safe env s) (hm : Hex32 m)
    (h : Begins env m d s.world call) : ∃ i x, World.object env s.world m = some x ∧
      d.fd = some (.file i) ∧ d.totalSize = x.length ∧ d.fileId.length = 32 ∧
        SealedIn env i x s := by
  cases call with
  | beginDownload session physical p =>
      obtain ⟨i, hi, hfd, hsize, hid⟩ := beginDownload_ok hsafe.world hm h.1 h.2
      refine ⟨i, _, ?_, hfd, hsize, hid, hsafe.sealed hm hi⟩
      simp only [World.object, Library.FileTree.fileAt, hi]
  | _ => exact absurd h id

theorem downloads_sealed : TraceInvariant env (DownloadsSealed env) where
  start := by
    intro s _ _ newer id r older m d htr
    simp at htr
  opened := fun tr s id ip h _ =>
    h.keep [.opened id] (by simp) fun i x hs => hs.opened id ip
  closed := fun tr s id h => h.keep [] (by simp) fun i x hs => hs.closed id
  expired := by
    intro tr s key h
    apply h.keep [] (by simp)
    rintro i x ⟨hs, hconns⟩
    refine ⟨?_, hconns⟩
    rw [expireKey_fs]
    exact hs
  disk := fun tr s d h => h.keep [] (by simp) fun i x hs => hs
  call := by
    intro tr s id c call hsafe h hid hissued hfree newer id' r older m d htr hm hbegin
    have hfree₀ : World.CollisionFree env s.world := hfree id _ List.mem_cons_self
    have hrest : CollisionFreeCalls env tr := by
      intro id r hr
      exact hfree id r (List.mem_cons_of_mem _ hr)
    have hkeep : ∀ i x, SealedIn env i x s → SealedIn env i x (afterCall env s id c call) := by
      intro i x hs
      exact hs.call hsafe hid hissued hfree₀
    have hbefore : ∃ i x, World.object env r.sys m = some x ∧ d.fd = some (.file i) ∧
        d.totalSize = x.length ∧ d.fileId.length = 32 ∧ SealedIn env i x s := by
      cases newer with
      | nil =>
          obtain ⟨heq, -⟩ := List.cons.inj htr
          obtain ⟨-, rfl⟩ := TraceEntry.call.inj heq
          exact begins_sealed hsafe hm hbegin
      | cons e newer => exact h hrest newer id' r older m d (List.cons.inj htr).2 hm hbegin
    obtain ⟨i, x, hx, hfd, hsize, hlen, hs⟩ := hbefore
    exact ⟨i, x, hx, hfd, hsize, hlen, hkeep i x hs⟩

/-- A connection holds on to the download that it began last. -/
def DownloadsKept (env : Env) (tr : List TraceEntry) (s : ServerState) : Prop :=
  ∀ newer id r older m d, tr = newer ++ .call id r :: older → Begins env m d r.sys r.call →
    SameConnection id newer → KeepsDownload id newer → ∀ c, s.conns id = some c →
      c.download = d ∧ c.authed = true

theorem begins_conn {w : World} {c : Connection} {call : Call} (hissued : Issued env w c call)
    (h : Begins env m d w call) :
    (runCall env w c call).2.download = d ∧ (runCall env w c call).2.authed = true := by
  cases hissued with
  | beginDownload hnorm hresolves =>
      rcases hrun : beginDownload (backend env) c.session _ w with ⟨e | d', w'⟩
      · have hbegin := h.2
        rw [hrun] at hbegin
        simp at hbegin
      · have hbegin := h.2
        rw [hrun] at hbegin
        obtain rfl := Except.ok.inj hbegin
        simp only [runCall, hrun, settle]
        exact ⟨trivial, hresolves.1⟩
  | _ => exact absurd h id

theorem downloads_kept : TraceInvariant env (DownloadsKept env) where
  start := by
    intro s _ newer id r older m d htr
    simp at htr
  opened := by
    intro tr s id ip h _ newer id' r older m d htr hbegin hsame hkeeps c hc
    cases newer with
    | nil => simp at htr
    | cons e newer =>
        obtain ⟨rfl, htail⟩ := List.cons.inj htr
        have hne : id' ≠ id := by
          rintro rfl
          exact hsame List.mem_cons_self
        simp only [Function.update_of_ne hne] at hc
        exact h newer id' r older m d htail hbegin (fun hmem => hsame (List.mem_cons_of_mem _ hmem))
          (fun r hr => hkeeps r (List.mem_cons_of_mem _ hr)) c hc
  closed := by
    intro tr s id h newer id' r older m d htr hbegin hsame hkeeps c hc
    by_cases heq : id' = id
    · simp [heq] at hc
    · simp only [Function.update_of_ne heq] at hc
      exact h newer id' r older m d htr hbegin hsame hkeeps c hc
  expired := fun tr s key h => h
  disk := fun tr s d h => h
  call := by
    intro tr s id c call hsafe h hid hissued newer id' r older m d htr hbegin hsame hkeeps c' hc'
    cases newer with
    | nil =>
        obtain ⟨heq, -⟩ := List.cons.inj htr
        obtain ⟨rfl, rfl⟩ := TraceEntry.call.inj heq
        simp only [afterCall, Function.update_self, Option.some.injEq] at hc'
        exact hc' ▸ begins_conn hissued hbegin
    | cons e newer =>
        obtain ⟨rfl, htail⟩ := List.cons.inj htr
        have hbefore := h newer id' r older m d htail hbegin
          (fun hmem => hsame (List.mem_cons_of_mem _ hmem))
          fun r hr => hkeeps r (List.mem_cons_of_mem _ hr)
        by_cases heq : id' = id
        · subst heq
          simp only [afterCall, Function.update_self, Option.some.injEq] at hc'
          obtain ⟨hdownload, hauthed⟩ := hbefore c hid
          obtain ⟨hsame', hlogin⟩ := @runCall_download env s.world c call
            (hkeeps _ List.mem_cons_self)
          exact hc' ▸ ⟨hsame'.trans hdownload, hlogin hauthed⟩
        · simp only [afterCall, Function.update_of_ne heq] at hc'
          exact hbefore c' hc'

/-! ## The claim -/

/-- Each `download_chunk` of the download reads its range of `x`, and the end of the file is
where `x` ends. -/
def ServesSnapshot (env : Env) (s : ServerState) (id : ℕ) (d : DownloadSession) (x : Bytes) : Prop :=
  d.totalSize = x.length ∧ ∀ root seq offset len,
    ChunkRequest env.cfg root seq d.fileId offset len → 1 ≤ len → len + 40 ≤ kMaxFrameSize →
      (Server.step env s (.frame id (.json (.ok root)))).2.sent =
        [rangeReply seq d.fileId offset len x]

theorem Faultless.calls {hist : List (Library.Machine.Record ServerState Event Output)}
    {s : ServerState} (run : (Server.machine env).Run (Server.Start env) (Faultless env) hist s) :
    CollisionFreeCalls env (trace hist) := by
  intro id r hr
  obtain ⟨rec, hrec, hmem⟩ := List.mem_flatMap.mp hr
  obtain ⟨-, hok, hout⟩ := run.mem_history hrec
  unfold entriesOf at hmem
  split at hmem
  · split at hmem
    · simp at hmem
    · simp at hmem
  · obtain ⟨r', hr', heq⟩ := List.mem_map.mp hmem
    obtain ⟨-, rfl⟩ := TraceEntry.call.inj heq
    rw [hout] at hr'
    exact hok.1 r' hr'
  · simp at hmem

theorem Faultless.disk {hist : List (Library.Machine.Record ServerState Event Output)}
    {s : ServerState} (run : (Server.machine env).Run (Server.Start env) (Faultless env) hist s) :
    s.world.disk = {} := by
  apply run_disk _ run
  rintro s e hok d rfl
  exact hok.2

/-- **A download is a snapshot.** While its connection stays and keeps the download, every
`download_chunk` reads the bytes that the object had when the download began. -/
theorem download_snapshot
    {hist : List (Library.Machine.Record ServerState Event Output)} {s : ServerState}
    (run : (Server.machine env).Run (Server.Start env) (Faultless env) hist s)
    {newer older : List TraceEntry} {id : ℕ} {r : CallRecord World} {m : Bytes} {d : DownloadSession}
    (htrace : trace hist = newer ++ .call id r :: older) (hm : Hex32 m)
    (hbegin : Begins env m d r.sys r.call) (hsame : SameConnection id newer)
    (hopen : (s.conns id).isSome) (hkeeps : KeepsDownload id newer) :
    ∃ x, World.object env r.sys m = some x ∧ ServesSnapshot env s id d x := by
  obtain ⟨i, x, hx, hfd, hsize, hlen, hsealed⟩ :=
    run_trace downloads_sealed run (Faultless.calls run) newer id r older m d htrace hm hbegin
  obtain ⟨s₀, -, ⟨f, hlengths⟩, hworld, -, -⟩ := run_calls lengths_invariant run newer id r older htrace
  have hlt : x.length < 2 ^ 63 := hlengths.object hm (hworld ▸ hx)
  obtain ⟨c, hc⟩ := Option.isSome_iff_exists.mp hopen
  obtain ⟨rfl, hauthed⟩ := run_trace downloads_kept run newer id r older m d htrace hbegin hsame
    hkeeps c hc
  refine ⟨x, hx, hsize, fun root seq offset len hreq hpos hfits => ?_⟩
  simp only [Server.step, hc]
  exact downloadChunk_reply hauthed hfd hlen hsealed.1.bytes hsize hlt (Faultless.disk run) hreq hpos hfits

/-! ## A download across a removal -/

/-- Two bytes are uploaded. -/
def stored : List Event := Sample.login ++ Sample.upload "/a" (str "ab") (Sample.fileId 48)

/-- The download of the two bytes. -/
def sampleDownload : DownloadSession where
  fileId := Sample.fileId 64
  srcPath := str "/data/objects/18/187ef4436122d1cc2f40dc2b92f0eba0"
  totalSize := 2
  fd := some (.file 8)

/-- A request for the first byte. -/
def firstByte : Json :=
  .obj [(str "cmd", .str (str "download_chunk")),
    (str "data", .obj [(str "file_id", .str sampleDownload.fileId), (str "length", .int 1),
      (str "offset", .int 0)]), (str "seq", .int 7)]

theorem firstByte_request :
    ChunkRequest Sample.env.cfg firstByte 7 sampleDownload.fileId 0 1 where
  cmd := rfl
  seq := rfl
  data := ⟨_, _, 1, rfl, rfl, rfl, rfl, rfl, rfl⟩

/-- The frame that begins the download. -/
def beginFrame : Event := .frame 0 (request "download_begin" [("path", .str (str "/a"))])

/-- What it leads to, after the upload. -/
def begun : ServerState × Output := Server.step Sample.env (Sample.after stored) beginFrame

/-- A frame about the same path. -/
def laterFrame (cmd : String) : Event := .frame 0 (request cmd [("path", .str (str "/a"))])

/-- What it leads to, after the download has begun. -/
def later (cmd : String) : ServerState × Output := Server.step Sample.env begun.1 (laterFrame cmd)

/-- The download is begun there on the content that was uploaded. -/
theorem begun_begins : ∃ r rest, begun.2.calls = r :: rest ∧
    Begins Sample.env (Sample.md5Hex (str "ab")) sampleDownload r.sys r.call ∧
    World.object Sample.env r.sys (Sample.md5Hex (str "ab")) = some (str "ab") := by
  have hfacts : (begun.2.calls.head?.any fun r =>
      Begins Sample.env (Sample.md5Hex (str "ab")) sampleDownload r.sys r.call ∧
        World.object Sample.env r.sys (Sample.md5Hex (str "ab")) = some (str "ab")) = true := by
    decide +kernel
  generalize begun.2.calls = calls at hfacts
  cases calls with
  | nil => simp at hfacts
  | cons r rest => exact ⟨r, rest, rfl, by simpa using hfacts⟩

/-- The run through both frames, and its trace. -/
theorem run_later (cmd : String)
    (hstored : (Server.machine Sample.env).Allows (Faultless Sample.env)
      (started Sample.env 4096 Sample.entropy) stored)
    (hbegin : Faultless Sample.env (Sample.after stored) beginFrame)
    (hlater : Faultless Sample.env begun.1 (laterFrame cmd)) :
    ∃ hist older, (Server.machine Sample.env).Run (Server.Start Sample.env) (Faultless Sample.env)
        hist (later cmd).1 ∧
      trace hist = (later cmd).2.calls.map (.call 0) ++ (begun.2.calls.map (.call 0) ++ older) := by
  have hrun := playback_run hstored
  exact ⟨_, _, (hrun.step beginFrame hbegin).step (laterFrame cmd) hlater, rfl⟩

/-- The file is removed, and the bytes are still read. -/
theorem download_snapshot_rm :
    ServesSnapshot Sample.env (later "rm").1 0
      sampleDownload (str "ab") := by
  have hfacts : (Server.machine Sample.env).Allows (Faultless Sample.env)
        (started Sample.env 4096 Sample.entropy) stored ∧
      Faultless Sample.env (Sample.after stored) beginFrame ∧
      Faultless Sample.env begun.1 (laterFrame "rm") ∧
      (∀ r ∈ (later "rm").2.calls, EndsDownload r.call = false) ∧
      ((later "rm").1.conns 0).isSome ∧
      Hex32 (Sample.md5Hex (str "ab")) := by
    decide +kernel
  obtain ⟨hstored, hbegin, hrm, hkeeps, hopen, hhex⟩ := hfacts
  obtain ⟨hist, older, hrun, htrace⟩ := run_later "rm" hstored hbegin hrm
  obtain ⟨r, rest, hcalls, hbegins, hobject⟩ := begun_begins
  rw [hcalls] at htrace
  clear hstored hbegin hrm hcalls
  generalize later "rm" = l at *
  obtain ⟨x, hx, hserves⟩ := download_snapshot hrun htrace hhex hbegins (by
    intro hmem
    obtain ⟨r', -, heq⟩ := List.mem_map.mp hmem
    simp at heq) hopen (by
    intro r' hr'
    obtain ⟨r'', hr'', heq⟩ := List.mem_map.mp hr'
    obtain ⟨-, rfl⟩ := TraceEntry.call.inj heq
    exact hkeeps _ hr'')
  rw [hobject] at hx
  exact Option.some.inj hx ▸ hserves

/-- The claim for any other requests, those of the connection itself included. -/
def SnapshotAlways (env : Env) : Prop :=
  ∀ hist s, (Server.machine env).Run (Server.Start env) (Faultless env) hist s →
    ∀ newer older id r m d, trace hist = newer ++ .call id r :: older → Hex32 m →
      Begins env m d r.sys r.call → SameConnection id newer → (s.conns id).isSome →
        ∃ x, World.object env r.sys m = some x ∧ ServesSnapshot env s id d x

/-- A reply is a JSON text. -/
def inJson : Reply → Bool
  | .json _ => true
  | .chunk .. => false

/-- After a logout of its own, the connection reads nothing. -/
theorem snapshot_ends : ¬ SnapshotAlways Sample.env := by
  intro h
  have hfacts : (Server.machine Sample.env).Allows (Faultless Sample.env)
        (started Sample.env 4096 Sample.entropy) stored ∧
      Faultless Sample.env (Sample.after stored) beginFrame ∧
      Faultless Sample.env begun.1 (laterFrame "logout") ∧
      ((later "logout").1.conns
        0).isSome ∧
      Hex32 (Sample.md5Hex (str "ab")) := by
    decide +kernel
  obtain ⟨hstored, hbegin, hlogout, hopen, hhex⟩ := hfacts
  obtain ⟨hist, older, hrun, htrace⟩ := run_later "logout" hstored hbegin hlogout
  obtain ⟨r, rest, hcalls, hbegins, hobject⟩ := begun_begins
  rw [hcalls] at htrace
  obtain ⟨x, hx, -, hserves⟩ := h _ _ hrun _ _ 0 r _ _ htrace hhex hbegins (by
    intro hmem
    obtain ⟨r', -, heq⟩ := List.mem_map.mp hmem
    simp at heq) hopen
  have hreply := hserves firstByte 7 0 1 firstByte_request (by norm_num) (by decide)
  obtain rfl := Option.some.inj (hobject.symm.trans hx)
  have hrefused : ((Server.step Sample.env (later "logout").1
      (.frame 0 (.json (.ok firstByte)))).2.sent.all inJson) = true := by
    decide +kernel
  rw [hreply] at hrefused
  simp [rangeReply, str, inJson] at hrefused

end CloudStore.Analysis
