import Ps2Servers.Lib.Runs
import Mathlib.Data.List.Basic
import Mathlib.Logic.Function.Basic

/-!
# Edge UDPFS sessions and the single-writer reservation

One session per peer, with a worker goroutine that serves its requests one at a
time, and one table of write reservations shared by all sessions. The dispatcher
resets a session that is not streaming; the reaper and the shutdown close a
session once its worker has exited. A step below is one action under one lock:
a call of `reserveWriter`, `releaseWriter` or `removeUnlessWriting`, or a change
of session state that only its owner can make. Everything between two such
actions of different goroutines may interleave.

## Implementation notes

Timers, sequence numbers and transfers decide only when a request is accepted,
a session is handed over or expires, so these are free choices of the step
relation. Write assembly and read positions do not touch the reservations and
are left out. A path is the result of `Root.Resolve` or `Root.Entry`, an absolute
host path, hence not empty.
-/

namespace Ps2Servers.Edge

/-- Handle numbers are Go `int32`, so counting them up wraps. -/
abbrev HandleId := BitVec 32

/-- A resolved host path. -/
abbrev RealPath := {p : String // p ≠ ""}

/-- The part of `session.Handle` the reservations depend on. `closing` records that
`releaseWrite` has run for the handle while it is still open and in its table. -/
structure Handle where
  writer : Bool
  realPath : String
  inherited : Bool
  closing : Bool
  deriving DecidableEq, Repr

/-- `Server.writers`: the reference count of each reserved path. -/
abbrev Writers := String → Option Nat

def Writers.count (w : Writers) (p : String) : Nat := (w p).getD 0

/-- `Server.reserveWriter`: `none` when another handle already holds the path. -/
def reserveWriter (w : Writers) (realPath : String) : Option Writers :=
  if 0 < w.count realPath then none else some (Function.update w realPath (some 1))

/-- `Server.releaseWriter`. -/
def releaseWriter (w : Writers) (realPath : String) : Writers :=
  if w.count realPath ≤ 1 then Function.update w realPath none
  else Function.update w realPath (some (w.count realPath - 1))

/-- `State.releaseWrite`: only a writable handle with a path holds a reservation. -/
def releaseWrite (w : Writers) (h : Handle) : Writers :=
  if h.writer = false ∨ h.realPath = "" then w else releaseWriter w h.realPath

/-- `State.Handles`. -/
abbrev Handles := List (HandleId × Handle)

namespace Handles

def keys (hs : Handles) : List HandleId := hs.map Prod.fst

/-- `delete(s.Handles, id)`. -/
def delete (hs : Handles) (id : HandleId) : Handles := hs.filter fun e => e.1 != id

/-- `s.Handles[id] = h`, which replaces an entry already stored under `id`. -/
def store (hs : Handles) (id : HandleId) (h : Handle) : Handles := (id, h) :: hs.delete id

/-- The marking loop of `State.HandOff`. -/
def markInherited (hs : Handles) : Handles :=
  hs.map fun e => (e.1, { e.2 with inherited := true })

def markClosing (hs : Handles) (id : HandleId) : Handles :=
  hs.map fun e => if e.1 = id then (e.1, { e.2 with closing := true }) else e

/-- The handles `State.TakeOverWriter` closes. -/
def inheritedWriters (hs : Handles) (realPath : String) : List HandleId :=
  Handles.keys (hs.filter fun e => e.2.inherited && e.2.writer && e.2.realPath == realPath)

end Handles

/-- A loop that closes handles one at a time: `releaseWrite`, then `Closer.Close` and the
deletion. `dropping` is the handle between these two, `pending` the ones still to visit. -/
structure Teardown where
  dropping : Option HandleId
  pending : List HandleId
  deriving DecidableEq, Repr

/-- One action of `State.CloseHandle`, `State.Close` or `State.TakeOverWriter`.
A Go map is visited in no fixed order, so any pending handle may come next. -/
inductive TearStep : Writers → Handles → Teardown → Writers → Handles → Teardown → Prop
  | absent {w : Writers} {hs : Handles} {ids : List HandleId} {id : HandleId}
      (hid : id ∈ ids) (hn : hs.lookup id = none) :
      TearStep w hs ⟨none, ids⟩ w hs ⟨none, ids.erase id⟩
  | release {w : Writers} {hs : Handles} {ids : List HandleId} {id : HandleId} {h : Handle}
      (hid : id ∈ ids) (hh : hs.lookup id = some h) :
      TearStep w hs ⟨none, ids⟩ (releaseWrite w h) (hs.markClosing id) ⟨some id, ids.erase id⟩
  | drop {w : Writers} {hs : Handles} {ids : List HandleId} {id : HandleId} :
      TearStep w hs ⟨some id, ids⟩ w (hs.delete id) ⟨none, ids⟩

/-- Where a worker goes on after closing handles. -/
inductive After
  | idle
  | retry (id : HandleId) (real : RealPath)
  | removeRetry (entry : RealPath)
  deriving DecidableEq, Repr

/-- What a worker is doing between two actions. -/
inductive Phase
  | idle
  /-- `openForWrite` before its first `reserveWriter`. -/
  | opening (id : HandleId) (real : RealPath)
  /-- `openForWrite` after `TakeOverWriter`, before its second `reserveWriter`. -/
  | retry (id : HandleId) (real : RealPath)
  /-- The reservation is held and `os.OpenFile` has not returned. -/
  | reserved (id : HandleId) (real : RealPath)
  /-- `os.OpenFile` failed and the reservation is not yet released. -/
  | failed (real : RealPath)
  /-- `handleRemove` before its first `removeUnlessWriting`. -/
  | removing (entry : RealPath)
  /-- `handleRemove` after `TakeOverWriter`, before its second `removeUnlessWriting`. -/
  | removeRetry (entry : RealPath)
  | tearing (t : Teardown) (next : After)
  deriving DecidableEq, Repr

def After.phase : After → Phase
  | idle => .idle
  | retry id real => .retry id real
  | removeRetry entry => .removeRetry entry

/-- Why a session is being closed from outside its worker. -/
inductive CloseKind
  | reset
  | close
  deriving DecidableEq, Repr

/-- `session.State` with its worker. `closer` is a `Reset` or `Close` in progress. -/
structure Session where
  handles : Handles
  nextHandle : HandleId
  streaming : Bool
  worker : Phase
  closer : Option (Teardown × CloseKind)
  stopping : Bool
  exited : Bool
  deriving DecidableEq, Repr

/-- `session.New`. -/
def Session.new : Session :=
  { handles := [], nextHandle := 1, streaming := false, worker := .idle, closer := none,
    stopping := false, exited := false }

/-- The worker can take `State.Mu` and serve the next packet. -/
def Session.Ready (st : Session) : Prop :=
  st.worker = .idle ∧ st.closer = none ∧ st.exited = false

/-- `State.TakeOverWriter`: with nothing to close, the request that found the path
held ends with EBUSY. -/
def Session.takeOver (st : Session) (realPath : String) (next : After) : Phase :=
  let ids := st.handles.inheritedWriters realPath
  .tearing ⟨none, ids⟩ (if ids.isEmpty then .idle else next)

def maxHandles : Nat := 64

/-- What is visible of one action of one session. -/
inductive Label
  | silent
  | reserve (realPath : String)
  | store (id : HandleId)
  | unlink (entry : String)
  | reset
  deriving DecidableEq, Repr

/-- The actions of one session on the shared reservations. -/
inductive LocalStep : Writers → Session → Label → Writers → Session → Prop
  /-- An accepted request that opens, closes and deletes nothing. -/
  | request {w : Writers} {st : Session} (h : st.Ready) :
      LocalStep w st .silent w { st with streaming := true }
  /-- `HandOff`; the packet that caused it is then accepted, or refused by a NACK. -/
  | handOff {w : Writers} {st : Session} (h : st.Ready) (accepted : Bool) :
      LocalStep w st .silent w
        { st with handles := st.handles.markInherited, streaming := accepted }
  /-- An OPEN that took a handle number and failed before any reservation. -/
  | openFailed {w : Writers} {st : Session} (h : st.Ready)
      (hlen : st.handles.length < maxHandles) :
      LocalStep w st .silent w
        { st with streaming := true, nextHandle := st.nextHandle + 1 }
  /-- An OPEN for reading, or of a directory: the handle has no writer. -/
  | openRead {w : Writers} {st : Session} (h : st.Ready)
      (hlen : st.handles.length < maxHandles) :
      LocalStep w st (.store st.nextHandle) w
        { st with
          streaming := true
          nextHandle := st.nextHandle + 1
          handles := st.handles.store st.nextHandle ⟨false, "", false, false⟩ }
  /-- `openForWrite` up to its first `reserveWriter`. -/
  | openWrite {w : Writers} {st : Session} (h : st.Ready)
      (hlen : st.handles.length < maxHandles) (real : RealPath) :
      LocalStep w st .silent w
        { st with
          streaming := true
          nextHandle := st.nextHandle + 1
          worker := .opening st.nextHandle real }
  | reserve {w w' : Writers} {st : Session} {id : HandleId} {real : RealPath}
      (hw : st.worker = .opening id real ∨ st.worker = .retry id real)
      (hr : reserveWriter w real = some w') :
      LocalStep w st (.reserve real) w' { st with worker := .reserved id real }
  /-- The path is held: close what a replaced loader left open on it, else EBUSY. -/
  | takeOver {w : Writers} {st : Session} {id : HandleId} {real : RealPath}
      (hw : st.worker = .opening id real) (hr : reserveWriter w real = none) :
      LocalStep w st .silent w
        { st with worker := st.takeOver real (.retry id real) }
  | busy {w : Writers} {st : Session} {id : HandleId} {real : RealPath}
      (hw : st.worker = .retry id real) (hr : reserveWriter w real = none) :
      LocalStep w st .silent w { st with worker := .idle }
  /-- `os.OpenFile` succeeded and the writable handle is stored. -/
  | opened {w : Writers} {st : Session} {id : HandleId} {real : RealPath}
      (hw : st.worker = .reserved id real) :
      LocalStep w st (.store id) w
        { st with
          handles := st.handles.store id ⟨true, real, false, false⟩
          worker := .idle }
  | openError {w : Writers} {st : Session} {id : HandleId} {real : RealPath}
      (hw : st.worker = .reserved id real) :
      LocalStep w st .silent w { st with worker := .failed real }
  | openRelease {w : Writers} {st : Session} {real : RealPath}
      (hw : st.worker = .failed real) :
      LocalStep w st .silent (releaseWriter w real) { st with worker := .idle }
  /-- CLOSE of a handle other than the block device's handle 0. -/
  | close {w : Writers} {st : Session} (h : st.Ready) {id : HandleId} (hid : id ≠ 0) :
      LocalStep w st .silent w
        { st with streaming := true, worker := .tearing ⟨none, [id]⟩ .idle }
  | remove {w : Writers} {st : Session} (h : st.Ready) (entry : RealPath) :
      LocalStep w st .silent w { st with streaming := true, worker := .removing entry }
  /-- `removeUnlessWriting` found no reservation and deletes under the same lock. -/
  | unlink {w : Writers} {st : Session} {entry : RealPath}
      (hw : st.worker = .removing entry ∨ st.worker = .removeRetry entry)
      (hn : w.count entry = 0) :
      LocalStep w st (.unlink entry) w { st with worker := .idle }
  | removeBusy {w : Writers} {st : Session} {entry : RealPath}
      (hw : st.worker = .removing entry) (hb : 0 < w.count entry) :
      LocalStep w st .silent w
        { st with worker := st.takeOver entry (.removeRetry entry) }
  | removeRefused {w : Writers} {st : Session} {entry : RealPath}
      (hw : st.worker = .removeRetry entry) (hb : 0 < w.count entry) :
      LocalStep w st .silent w { st with worker := .idle }
  | tear {w w' : Writers} {st : Session} {hs' : Handles} {t t' : Teardown} {next : After}
      (hw : st.worker = .tearing t next) (ht : TearStep w st.handles t w' hs' t') :
      LocalStep w st .silent w' { st with handles := hs', worker := .tearing t' next }
  | torn {w : Writers} {st : Session} {next : After}
      (hw : st.worker = .tearing ⟨none, []⟩ next) :
      LocalStep w st .silent w { st with worker := next.phase }
  /-- A DISCOVERY for a session that is not streaming starts `State.Reset` under `Mu`. -/
  | reset {w : Writers} {st : Session} (hs : st.streaming = false) (hc : st.closer = none) :
      LocalStep w st .reset w
        { st with closer := some (⟨none, st.handles.keys⟩, .reset) }
  /-- The reaper, once the worker has exited, and the shutdown, once all have. -/
  | closeSession {w : Writers} {st : Session} (he : st.exited = true) (hc : st.closer = none) :
      LocalStep w st .silent w
        { st with closer := some (⟨none, st.handles.keys⟩, .close) }
  | closerTear {w w' : Writers} {st : Session} {hs' : Handles} {t t' : Teardown}
      {kind : CloseKind} (hc : st.closer = some (t, kind))
      (ht : TearStep w st.handles t w' hs' t') :
      LocalStep w st .silent w' { st with handles := hs', closer := some (t', kind) }
  | resetDone {w : Writers} {st : Session} (hc : st.closer = some (⟨none, []⟩, .reset)) :
      LocalStep w st .silent w { st with closer := none, nextHandle := 1, streaming := false }
  | closeDone {w : Writers} {st : Session} (hc : st.closer = some (⟨none, []⟩, .close)) :
      LocalStep w st .silent w { st with closer := none }
  /-- The reaper takes an idle session out of the session map and stops its worker. -/
  | stop {w : Writers} {st : Session} :
      LocalStep w st .silent w { st with stopping := true }
  | exit {w : Writers} {st : Session} (hw : st.worker = .idle) (hs : st.stopping = true) :
      LocalStep w st .silent w { st with exited := true }

/-- `udpfs.Server`. `down` is set once `Close` has started. -/
structure Server where
  writers : Writers
  sessions : List Session
  down : Bool

def Server.new : Server := { writers := fun _ => none, sessions := [], down := false }

inductive Action
  | connect
  | shutdown
  | session (i : Nat) (l : Label)
  deriving DecidableEq, Repr

/-- One action of the server. Dispatcher and shutdown are the same goroutine, so no
session is created or reset once the shutdown has started. -/
inductive Step : Server → Action → Server → Prop
  | connect {s : Server} (hd : s.down = false)
      (hlen : (s.sessions.filter fun st => !st.stopping).length < 256) :
      Step s .connect { s with sessions := s.sessions ++ [Session.new] }
  | shutdown {s : Server} :
      Step s .shutdown
        { s with down := true, sessions := s.sessions.map fun st => { st with stopping := true } }
  | session {s : Server} {i : Nat} {st st' : Session} {l : Label} {w' : Writers}
      (hi : s.sessions[i]? = some st) (hd : l = .reset → s.down = false)
      (hs : LocalStep s.writers st l w' st') :
      Step s (.session i l) { s with writers := w', sessions := s.sessions.set i st' }

/-- The interleavings of all peers, the reaper and the shutdown. -/
def server : Runs.System Server Action where
  init s := s = Server.new
  step := Step

end Ps2Servers.Edge
