import Ps2Servers.Ra.WatchList

/-!
# The receiver

One console at a time owns the receiver, for as long as it keeps talking. It asks for the set of
its game, a worker resolves it under a token, the console fetches the watch list of the set and
then sends frames of memory. Whatever makes older work wrong takes a new token or generation.

## Implementation notes

Every reading of the clock is an argument of the operation that reads it. A title comes as the
text that `str` gives of it, or as nothing where `str` raises.
-/

namespace Ps2Servers.Ra

open Text (lit)

structure IdentificationJob where
  token : Nat
  imageHash : Str
  serial : Str
  deriving DecidableEq, Repr

def IdentificationJob.identity (job : IdentificationJob) : Str × Str := (job.imageHash, job.serial)

structure ReceiverOutput where
  reply : Bytes
  destination : Option Endpoint
  values : Bytes
  generation : Nat
  sequence : Option Nat
  deriving DecidableEq, Repr

/-- `ReceiverOutput()` -/
def ReceiverOutput.empty : ReceiverOutput := ⟨[], none, [], 0, none⟩

/-- What the receiver is made with. -/
structure Limits (T : Type) where
  leaseSeconds : T
  identifySeconds : T
  /-- The length of the window that requests are counted in. -/
  windowSeconds : T
  requestsPerSecond : Nat
  advertisedReplies : Bool

/-- The characters from space to tilde. -/
def isPrintable (c : CodePoint) : Bool := 0x20 ≤ c.toNat && c.toNat ≤ 0x7e

/-- A title as it is sent. -/
structure Title where
  text : Str
  length_le : text.length ≤ 63
  printable : text.all isPrintable

def Title.empty : Title := ⟨[], Nat.zero_le _, rfl⟩

/-- Unicode's tables, as far as titles need them. -/
structure Folding where
  /-- `unicodedata.normalize("NFKD", text)` -/
  normalize : Str → Str
  combining : CodePoint → Bool

/-- Printable characters stay, combining ones go, the others become spaces. -/
def Title.ofText (u : Folding) (text : Str) : Title where
  text := (((u.normalize text).filter fun c => !u.combining c).map fun c =>
    if isPrintable c then c else .char ' ').take 63
  length_le := List.length_take_le 63 _
  printable := by
    rw [List.all_eq_true]
    intro c hc
    obtain ⟨d, -, rfl⟩ := List.mem_map.mp (List.mem_of_mem_take hc)
    split
    · assumption
    · decide

/-- The number of achievements, as it is sent. -/
abbrev Achievements := Fin 10000001

/-- A job a worker is resolving, and since when. -/
structure Pending (T : Type) where
  job : IdentificationJob
  since : T

structure Receiver (T : Type) where
  token : Nat
  window : T
  requests : Nat
  datagrams : Nat
  owner : Option UInt32
  destination : Option Endpoint
  acknowledged : List Int
  lastActivity : Option T
  pending : Option (Pending T)
  queued : Option IdentificationJob
  identified : Option (Str × Str)
  unsupported : Bool
  title : Title
  achievements : Achievements
  sentChunks : List Nat
  session : WatchSession T

inductive ReceiverError
  | value (message : String)
  | key
  | attribute
  | encode
  /-- What `str` raised for a title. -/
  | title
  deriving DecidableEq, Repr

/-- What a worker says of a set. -/
structure Metadata where
  unsupported : Bool
  serial : Option Str
  title : Option Str
  /-- The number of achievements, if it is of the type `int`. -/
  achievements : Option Int
  deriving DecidableEq, Repr

namespace Receiver

variable {T : Type}

/-- Revoke ownership and invalidate pending work on account/reset/stop. -/
def clear (s : Receiver T) : Receiver T :=
  { s with
    token := s.token + 1
    owner := none
    destination := none
    acknowledged := []
    lastActivity := none
    pending := none
    queued := none
    identified := none
    unsupported := false
    title := .empty
    achievements := 0
    sentChunks := []
    session := s.session.clear }

/-- A new receiver. -/
def start (now : T) : Receiver T :=
  clear
    { token := 0, window := now, requests := 0, datagrams := 0, owner := none, destination := none
      acknowledged := [], lastActivity := none, pending := none, queued := none, identified := none
      unsupported := false, title := .empty, achievements := 0, sentChunks := []
      session := ⟨1, none⟩ }

/-- The job a worker may complete. -/
def pendingJob (s : Receiver T) : Option IdentificationJob := s.pending.map Pending.job

section

variable [Sub T] [LE T] [DecidableLE T] (limits : Limits T) (u : Folding)

/-- The owner was silent for the whole lease. -/
def leaseOver (s : Receiver T) (now : T) : Bool :=
  s.lastActivity.any fun last => limits.leaseSeconds ≤ now - last

def identifyOver (s : Receiver T) (now : T) : Bool :=
  s.pending.any fun p => limits.identifySeconds ≤ now - p.since

/-- `_expire` -/
def expire (s : Receiver T) (now : T) : Receiver T :=
  if s.leaseOver limits now then s.clear
  else if s.identifyOver limits now then
    { s with token := s.token + 1, pending := none, queued := none }
  else s

def takeJobs (s : Receiver T) (now : T) : Option IdentificationJob × Receiver T :=
  let s := s.expire limits now
  (s.queued, { s with queued := none })

/-- `tick` -/
def tick (s : Receiver T) (now : T) : Receiver T := s.expire limits now

/-- The end of `complete`. -/
def publish (s : Receiver T) (job : IdentificationJob) (resolved unsupported : Bool) : Receiver T :=
  { s with
    pending := none
    queued := none
    identified := if resolved then some job.identity else none
    unsupported := unsupported }

/-- The set of a job, after the checks of its data. -/
def completeSet (s : Receiver T) (job : IdentificationJob) (watchFile : Bytes) (m : Metadata) :
    Except ReceiverError Bool × Receiver T :=
  if m.unsupported then (.error (.value "A supported set cannot also be unsupported"), s)
  else
    match validateWatchlist watchFile with
    | .error message => (.error (.value message), s)
    | .ok _ =>
        match m.achievements with
        | none => (.error (.value "Invalid achievement count"), s)
        | some n =>
            if h : 0 ≤ n ∧ n ≤ 10000000 then
              let serial := if m.serial.getD [] = [] then job.serial else m.serial.getD []
              match s.session.install limits.leaseSeconds job.imageHash serial watchFile with
              | .error message => (.error (.value message), s)
              | .ok session =>
                  match m.title with
                  | none => (.error .title, { s with session := session })
                  | some title =>
                      (.ok true, { s with
                        session := session
                        title := .ofText u title
                        achievements := ⟨n.toNat, by omega⟩ }.publish job true false)
            else (.error (.value "Invalid achievement count"), s)

def complete (s : Receiver T) (now : T) (job : Option IdentificationJob) (watchFile : Option Bytes)
    (m : Metadata) : Except ReceiverError Bool × Receiver T :=
  let s := s.expire limits now
  match job with
  | none => (.ok false, s)
  | some job =>
      if s.pendingJob ≠ some job ∨ job.token ≠ s.token then (.ok false, s)
      else
        match watchFile with
        | none => (.ok true, s.publish job m.unsupported m.unsupported)
        | some watchFile => s.completeSet limits u job watchFile m

end

/-! ## Datagrams -/

/-- `RA15` datagrams: a frame is emitted when the list was sent whole. -/
def receiveTelemetry [Sub T] [LE T] [DecidableLE T] (s : Receiver T) (now feedNow : T)
    (packet : Bytes) (source : Endpoint) : Except ReceiverError ReceiverOutput × Receiver T :=
  match s.owner, s.session.installed with
  | some _, some i =>
      if s.sentChunks.length ≠ chunkCount i.watch.data then (.ok .empty, s)
      else
        let result := s.session.feed packet feedNow
        let t := { s with session := result.2 }
        match result.1 with
        | .error (.value _) => (.ok .empty, t)
        | .error .key => (.error .key, t)
        | .ok none => (.ok .empty, t)
        | .ok (some values) =>
            (.ok ⟨[], some (s.destination.getD source), values, t.session.generation,
              t.session.installed.bind fun i => i.assembler.sequence⟩,
              { t with lastActivity := some now })
  | _, _ => (.ok .empty, s)

/-- `self.acknowledged.add(int(item))` for the items that are numbers. -/
def acknowledge (s : Receiver T) (extra : List Str) : Receiver T :=
  { s with acknowledged := (extra.filterMap pythonInt).foldl (fun l n => l.insert n) s.acknowledged }

/-- `pad_reply(body)` as the reply. -/
def respond (s : Receiver T) (body : Bytes) (destination : Endpoint) :
    Except ReceiverError ReceiverOutput × Receiver T :=
  match padReply body with
  | .error message => (.error (.value message), s)
  | .ok reply => (.ok { ReceiverOutput.empty with reply := reply, destination := some destination }, s)

/-- `RAG1` -/
def receiveChunk (s : Receiver T) (request : ConsoleRequest) (destination : Endpoint) :
    Except ReceiverError ReceiverOutput × Receiver T :=
  match s.session.chunk request.imageHash request.index with
  | .error _ => (.ok .empty, s)
  | .ok none => (.ok .empty, s)
  | .ok (some reply) =>
      if reply = [] then (.ok .empty, s)
      else
        (.ok { ReceiverOutput.empty with reply := reply, destination := some destination },
          { s with sentChunks := s.sentChunks.insert request.index })

/-- `RAA1 OK` with the size of the list, the number of its parts and the set's metadata. -/
def readyText (s : Receiver T) (watch : WatchList) : Str :=
  lit "RAA1 OK " ++ Text.latin1 (Strconv.digits watch.data.length) ++ lit " " ++
    Text.latin1 (Strconv.digits (chunkCount watch.data)) ++ lit " " ++
    Text.latin1 (Strconv.digits s.achievements) ++ lit " 0 0 " ++ s.title.text

theorem isAscii_readyText (s : Receiver T) (watch : WatchList) :
    (s.readyText watch).all CodePoint.isAscii := by
  have htitle : s.title.text.all CodePoint.isAscii := by
    rw [List.all_eq_true]
    intro c hc
    have hprintable := List.all_eq_true.mp s.title.printable c hc
    simp only [isPrintable, Bool.and_eq_true, decide_eq_true_eq] at hprintable
    apply decide_eq_true
    omega
  have hok : (lit "RAA1 OK ").all CodePoint.isAscii := by decide
  have hspace : (lit " ").all CodePoint.isAscii := by decide
  have hzeros : (lit " 0 0 ").all CodePoint.isAscii := by decide
  simp only [readyText, List.all_append, isAscii_latin1_digits, htitle, hok, hspace, hzeros,
    Bool.and_self]

/-- The metadata of a set fit a reply. -/
theorem length_readyText (s : Receiver T) (watch : WatchList) :
    1 ≤ (s.readyText watch).length ∧ (s.readyText watch).length < 960 := by
  have hlength := watch.length_data.2
  have hdata : (Strconv.digits watch.data.length).length ≤ 5 := by
    apply Strconv.length_digits_le (by decide)
    omega
  have hchunks : (Strconv.digits (chunkCount watch.data)).length ≤ 5 := by
    apply Strconv.length_digits_le (by decide)
    unfold chunkCount
    omega
  have hachievements : (Strconv.digits s.achievements).length ≤ 8 := by
    apply Strconv.length_digits_le (by decide)
    have := s.achievements.isLt
    omega
  have htitle := s.title.length_le
  have hok : (lit "RAA1 OK ").length = 8 := rfl
  have hzeros : (lit " 0 0 ").length = 5 := rfl
  have hspace : (lit " ").length = 1 := rfl
  simp only [readyText, List.length_append, Text.latin1, List.length_map]
  omega

/-- A job for another image. -/
def identify (s : Receiver T) (now : T) (imageHash serial : Str) : Receiver T :=
  let job := ⟨s.token + 1, imageHash, serial⟩
  { s with
    token := s.token + 1
    session := s.session.clear
    sentChunks := []
    identified := none
    unsupported := false
    pending := some ⟨job, now⟩
    queued := some job }

/-- `RAQ1` -/
def receiveQuery (s : Receiver T) (now : T) (request : ConsoleRequest) (destination : Endpoint) :
    Except ReceiverError ReceiverOutput × Receiver T :=
  let identity := (request.imageHash, request.serial)
  if s.identified = some identity then
    if s.unsupported then s.respond ((lit "RAA1 NO").map CodePoint.toByte) destination
    else
      match s.session.installed with
      | none => (.error .attribute, s)
      | some i =>
          match encodeAscii (s.readyText i.watch) with
          | none => (.error .encode, s)
          | some body => s.respond body destination
  else
    let s :=
      if s.pendingJob.map IdentificationJob.identity ≠ some identity then
        s.identify now request.imageHash request.serial
      else s
    s.respond ((lit "RAA1 WAIT").map CodePoint.toByte) destination

/-- The answer to a request of the owner. -/
def answer (s : Receiver T) (now : T) (request : ConsoleRequest) (destination : Endpoint) :
    Except ReceiverError ReceiverOutput × Receiver T :=
  match request.kind with
  | .RAH1 => (.ok { ReceiverOutput.empty with destination := some destination }, s)
  | .RAK1 | .RAK2 =>
      (.ok { ReceiverOutput.empty with destination := some destination }, s.acknowledge request.extra)
  | .RAP1 => s.respond ((lit "RAO1 OK PS2-Servers/owned-protocol").map CodePoint.toByte) destination
  | .RAG1 => s.receiveChunk request destination
  | .RAQ1 => s.receiveQuery now request destination

section

variable (limits : Limits T)

/-- A request takes or renews the lease. -/
def receiveRequest (s : Receiver T) (now : T) (packet : Bytes) (peer : Peer) (source : Endpoint) :
    Except ReceiverError ReceiverOutput × Receiver T :=
  let s := { s with requests := s.requests + 1 }
  if limits.requestsPerSecond < s.requests then (.ok .empty, s)
  else
    match parseRequest packet peer with
    | .error _ => (.ok .empty, s)
    | .ok request =>
        if s.owner = none ∧ request.kind = .RAG1 then (.ok .empty, s)
        else
          let destination := if limits.advertisedReplies then request.endpoint else source
          { s with
            owner := some (s.owner.getD source.address)
            lastActivity := some now
            destination := some destination }.answer now request destination

variable [Sub T] [LE T] [DecidableLE T]

/-- The counts of datagrams start again with each window. -/
def countWindow (s : Receiver T) (now : T) : Receiver T :=
  if limits.windowSeconds ≤ now - s.window then { s with window := now, requests := 0, datagrams := 0 }
  else s

def receive (s : Receiver T) (now feedNow : T) (packet : Option Bytes) (peer : Peer) :
    Except ReceiverError ReceiverOutput × Receiver T :=
  let s := (s.expire limits now).countWindow limits now
  match packet, sourceEndpoint peer with
  | some packet, some source =>
      if s.owner.any (source.address ≠ ·) then (.ok .empty, s)
      else
        let s := { s with datagrams := s.datagrams + 1 }
        if 256 < s.datagrams then (.ok .empty, s)
        else if TELEMETRY.isPrefixOf packet then s.receiveTelemetry now feedNow packet source
        else s.receiveRequest limits now packet peer source
  | _, _ => (.ok .empty, s)

end

end Receiver

end Ps2Servers.Ra
