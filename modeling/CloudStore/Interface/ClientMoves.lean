import CloudStore.Interface.ClientRuns

/-!
# What the client leaves alone

A relation that the calls of the client keep is kept by its programs: by those that report no
progress where the callback need not keep it, and by all of them where the callback does.
-/

set_option autoImplicit false

namespace CloudStore.Interface

open CloudStore.Library (Bytes Action)
open CloudStore.Library.Action
open CloudStore.Model
open CloudStore.Model.CloudClient

variable {σ : Type} {calls : ClientCalls σ} {R : σ → σ → Prop}

/-- The calls for local files lead to related states. -/
structure Local (calls : ClientCalls σ) (R : σ → σ → Prop) : Prop where
  refl : ∀ s, R s s
  trans : ∀ s t u, R s t → R t u → R s u
  rounds : Moves R calls.rounds
  fileExists : ∀ path, Moves R (calls.fileExists path)
  fileSize : ∀ path, Moves R (calls.fileSize path)
  md5File : ∀ path, Moves R (calls.md5File path)
  md5FileRange : ∀ path off len, Moves R (calls.md5FileRange path off len)
  ensureDir : ∀ path, Moves R (calls.ensureDir path)
  readAt : ∀ path off len, Moves R (calls.readAt path off len)
  create : ∀ path, Moves R (calls.create path)
  append : ∀ path x, Moves R (calls.append path x)

/-- The calls, the callback apart, lead to related states. -/
structure Leads (calls : ClientCalls σ) (R : σ → σ → Prop) : Prop extends Local calls R where
  connect : ∀ host port, Moves R (calls.connect host port)
  send : ∀ frame, Moves R (calls.send frame)
  recv : Moves R calls.recv

/-- A request for a chunk, and the frame that is received then. -/
def askChunk (calls : ClientCalls σ) (fileId : Bytes) (got chunk : ℕ) : Prog σ Received := do
  let seq ← nextSeq
  let token := (← look Prod.snd).token
  sendJson calls (chunkRoot fileId got chunk seq token)
  recvFrame calls

/-- The loop of `get` goes on with the frame that is received. -/
theorem askChunk_bind {α : Type} {fileId : Bytes} {got chunk : ℕ} (k : Received → Prog σ α) :
    (do
      let seq ← nextSeq
      let token := (← look Prod.snd).token
      sendJson calls (chunkRoot fileId got chunk seq token)
      let r ← recvFrame calls
      k r) = askChunk calls fileId got chunk >>= k := by
  simp only [askChunk, bind_bind]

/-- A program of the client leads to related states, whatever becomes of the client. -/
abbrev Stays {α : Type} (R : σ → σ → Prop) (a : Prog σ α) : Prop :=
  Moves (fun s t : σ × CloudClient => R s.1 t.1) a

theorem stays_beside {α : Type} {a : Act σ α} (ha : Moves R a) : Stays R (Action.beside a) :=
  fun s => ha s.1

theorem stays_ite {α : Type} {c : Prop} [Decidable c] {a b : Prog σ α} (ha : Stays R a)
    (hb : Stays R b) : Stays R (if c then a else b) := by
  split_ifs
  · exact ha
  · exact hb

namespace Local

variable (hl : Local calls R)
include hl

theorem value {α : Type} (x : α) : Stays R (Pure.pure x : Prog σ α) := fun s => hl.refl s.1

theorem exception {α : Type} (e : Exn) : Stays R (throw e : Prog σ α) := fun s => hl.refl s.1

theorem bind {α β : Type} {a : Prog σ α} {f : α → Prog σ β} (ha : Stays R a)
    (hf : ∀ x, Stays R (f x)) : Stays R (a >>= f) :=
  Moves.bind (R := fun s t : σ × CloudClient => R s.1 t.1) (fun _ _ _ => hl.trans _ _ _) ha hf

theorem computed {α β : Type} {x : Except Exn α} {f : α → Prog σ β} (hf : ∀ y, Stays R (f y)) :
    Stays R ((liftM x : Prog σ α) >>= f) :=
  hl.bind (fun s => hl.refl s.1) hf

theorem looked {α : Type} (f : σ × CloudClient → α) : Stays R (look f) := fun s => hl.refl s.1

theorem setClient (f : CloudClient → CloudClient) : Stays R (setClient f : Prog σ Unit) :=
  fun s => hl.refl s.1

theorem nextSeq : Stays R (nextSeq : Prog σ ℕ) := fun s => hl.refl s.1

end Local

/-- The exchanges with the server and the calls for local files lead to related states. -/
structure Exchanges (calls : ClientCalls σ) (R : σ → σ → Prop) : Prop extends Local calls R where
  request : ∀ cmd data, Stays R (request calls cmd data)
  sendChunk : ∀ fileId offset data, Stays R (sendChunk calls fileId offset data)
  askChunk : ∀ fileId got chunk, Stays R (askChunk calls fileId got chunk)

namespace Leads

variable (hl : Leads calls R)
include hl

theorem writeAll (frame : Frame) : Stays R (writeAll calls frame) :=
  hl.bind (hl.looked _) fun _ => stays_ite (stays_beside (hl.send _)) (hl.exception _)

theorem sendJson (root : Json) : Stays R (sendJson calls root) :=
  hl.computed fun _ => hl.writeAll _

theorem recvFrame : Stays R (recvFrame calls) :=
  hl.bind (hl.looked _) fun _ => stays_ite (stays_beside hl.recv) (hl.exception _)

theorem recvJson : Stays R (recvJson calls) := by
  apply hl.bind hl.recvFrame
  rintro (⟨parses, v⟩ | payload)
  · exact stays_ite (hl.value _) (hl.exception _)
  · exact hl.exception _

/-- **A request** keeps what the calls keep. -/
theorem request (cmd : String) (data : Json) : Stays R (request calls cmd data) := by
  apply hl.bind hl.nextSeq
  intro seq
  apply hl.bind (hl.looked _)
  intro c
  apply hl.bind (hl.sendJson _)
  intro _
  apply hl.bind hl.recvJson
  intro reply
  apply hl.computed
  intro x
  apply hl.computed
  intro code
  apply stays_ite
  · apply hl.computed
    intro y
    exact hl.computed fun _ => hl.exception _
  · exact hl.value _

theorem sendChunk (fileId : Bytes) (offset : ℕ) (data : Bytes) :
    Stays R (sendChunk calls fileId offset data) :=
  hl.computed fun _ => hl.writeAll _

theorem askChunk (fileId : Bytes) (got chunk : ℕ) : Stays R (askChunk calls fileId got chunk) := by
  apply hl.bind hl.nextSeq
  intro seq
  apply hl.bind (hl.looked _)
  intro c
  exact hl.bind (hl.sendJson _) fun _ => hl.recvFrame

theorem exchanges : Exchanges calls R where
  toLocal := hl.toLocal
  request := hl.request
  sendChunk := hl.sendChunk
  askChunk := hl.askChunk

theorem connectTo (host : Bytes) (port : ℕ) : Stays R (connectTo calls host port) :=
  hl.bind (hl.setClient _) fun _ => hl.bind (stays_beside (hl.connect _ _)) fun _ => hl.setClient _

end Leads

namespace Exchanges

variable (hl : Exchanges calls R)
include hl

theorem requestData (cmd : String) (members : List (Bytes × Json)) :
    Stays R (requestData calls cmd members) :=
  hl.bind (hl.request _ _) fun _ => fun s => hl.refl s.1

theorem login (user pass : Bytes) : Stays R (login calls user pass) := by
  apply hl.bind (hl.request _ _)
  intro r
  apply hl.computed
  intro data
  apply hl.computed
  intro x
  apply hl.computed
  intro token
  apply hl.bind (hl.setClient _)
  intro _
  apply hl.computed
  intro y
  apply hl.computed
  intro username
  exact hl.bind (hl.setClient _) fun _ => hl.value _

theorem logout : Stays R (logout calls) := by
  apply hl.bind (hl.looked _)
  intro c
  apply stays_ite
  · exact hl.bind (hl.request _ _) fun _ => hl.setClient _
  · exact hl.setClient _

/-! ## Transfers -/

section Transfers

variable (hp : ∀ current total phase, Moves R (calls.progress current total phase))
include hp

theorem putInstant (localPath remotePath md5 : Bytes) (size : ℕ) (overwrite : Bool) (data : Json) :
    Stays R (putInstant calls localPath remotePath md5 size overwrite data) := by
  apply hl.computed
  intro x
  apply hl.computed
  intro off
  apply hl.computed
  intro y
  apply hl.computed
  intro len
  apply hl.bind (stays_ite (hl.value _) (stays_beside (hl.md5FileRange _ _ _)))
  intro proof
  apply hl.bind (hl.request _ _)
  intro ir
  apply hl.bind (stays_beside (hp _ _ _))
  intro _
  exact hl.computed fun _ => hl.value _

/-- Induction on the rounds. -/
theorem putLoop (localPath fileId : Bytes) (size chunk fuel : ℕ) (good : Bool) (sent : ℕ) :
    Stays R (putLoop calls localPath fileId size chunk fuel good sent) := by
  induction fuel generalizing good sent with
  | zero => exact hl.value _
  | succ fuel ih =>
      unfold CloudClient.putLoop
      apply stays_ite
      · apply hl.bind (stays_ite (stays_beside (hl.readAt _ _ _)) (hl.value _))
        intro data
        apply stays_ite (hl.value _)
        apply hl.bind (hl.sendChunk _ _ _)
        intro _
        exact hl.bind (stays_beside (hp _ _ _)) fun _ => ih _ _
      · exact hl.value _

theorem putChunks (localPath remotePath md5 : Bytes) (size : ℕ) :
    Stays R (putChunks calls localPath remotePath md5 size) := by
  apply hl.bind (hl.request _ _)
  intro br
  apply hl.computed
  intro data
  apply hl.computed
  intro x
  apply hl.computed
  intro fileId
  apply hl.computed
  intro y
  apply hl.computed
  intro offset
  apply hl.computed
  intro z
  apply hl.computed
  intro chunk
  apply hl.bind (hl.putLoop hp _ _ _ _ _ _ _)
  intro _
  apply hl.bind (hl.request _ _)
  intro _
  exact hl.bind (stays_beside (hp _ _ _)) fun _ => hl.value _

/-- What follows the first report of `put`. -/
theorem put_rest (localPath remotePath : Bytes) (overwrite : Bool) (size : ℕ) :
    Stays R (do
      let md5 ← Action.beside (calls.md5File localPath)
      let qr ← CloudClient.request calls "instant_query"
        (.obj [(str "md5", .str md5), (str "size", .int size)])
      let data ← qr.ref (str "data")
      if ← (← data.get (str "hit") (.bool false)).asBool then
        CloudClient.putInstant calls localPath remotePath md5 size overwrite data
      else CloudClient.putChunks calls localPath remotePath md5 size) := by
  apply hl.bind (stays_beside (hl.md5File _))
  intro md5
  apply hl.bind (hl.request _ _)
  intro qr
  apply hl.computed
  intro data
  apply hl.computed
  intro x
  apply hl.computed
  intro hit
  exact stays_ite (hl.putInstant hp _ _ _ _ _ _) (hl.putChunks hp _ _ _ _)

/-- Induction on the rounds. -/
theorem getLoop (localPath fileId : Bytes) (size chunk fuel got : ℕ) :
    Stays R (getLoop calls localPath fileId size chunk fuel got) := by
  induction fuel generalizing got with
  | zero => exact hl.exception _
  | succ fuel ih =>
      unfold CloudClient.getLoop
      apply stays_ite
      · rw [askChunk_bind]
        apply hl.bind (hl.askChunk _ _ _)
        rintro (⟨parses, v⟩ | payload)
        · apply hl.computed
          intro ends
          exact stays_ite (hl.value _) (ih _)
        · dsimp only
          cases Protocol.decodeChunk payload with
          | none => exact hl.exception _
          | some cp =>
              apply hl.bind (stays_beside (hl.append _ _))
              intro _
              exact hl.bind (stays_beside (hp _ _ _)) fun _ => ih _
      · exact hl.value _

theorem put (localPath remotePath : Bytes) (overwrite : Bool) :
    Stays R (put calls localPath remotePath overwrite) := by
  apply hl.bind (stays_beside (hl.fileExists _))
  intro found
  apply stays_ite
  · apply hl.bind (stays_beside (hl.fileSize _))
    intro size
    apply hl.bind (stays_beside (hp _ _ _))
    intro _
    exact hl.put_rest hp _ _ _ _
  · exact hl.exception _

theorem get (remotePath localPath : Bytes) : Stays R (get calls remotePath localPath) := by
  apply hl.bind (hl.request _ _)
  intro br
  apply hl.computed
  rintro ⟨fileId, size, chunk⟩
  apply hl.bind (stays_beside (hl.ensureDir _))
  intro _
  apply hl.bind (stays_beside (hl.create _))
  intro _
  apply hl.bind (stays_beside hl.rounds)
  intro rounds
  exact hl.bind (hl.getLoop hp _ _ _ _ _ _) fun _ => hl.value _

end Transfers

end Exchanges

end CloudStore.Interface
