import Ps2Servers.Lib.EventStream
import Ps2Servers.Lib.Ring
import Ps2Servers.Lib.Runs
import Ps2Servers.WebUi.Config
import Mathlib.Logic.Function.Basic

/-!
# The log of the web UI

Log lines are written to a ring, and from there to the subscribers: one channel for each browser
that follows the log. A browser is first shown the servers' own log and the ring, and then what
comes through its channel, as server-sent events.

## Implementation notes

A step is what one goroutine does between two points at which another can act. A write holds the
lock from its first line to its last, and sends a line to one subscriber after another, in no
fixed order; a browser may take lines from its channel in between. A browser is given by its
number, which is the name of its channel, too. `World.log`, `World.writes`, `Client.sent`,
`Client.since` and `Client.left` record what has happened, and no step looks at them.
-/

namespace Ps2Servers.WebUi

open EventStream Runs

/-- `strings.NewReplacer("\r", " ", "\n", " ")`. -/
def sanitizeSSE (line : Bytes) : Bytes :=
  line.map fun b => if b = CR ∨ b = LF then space else b

/-- The lines that are written of `p`. What follows its last newline is one if it is not empty. -/
def written (p : Bytes) : List Bytes :=
  let lines := p.splitOn LF
  if lines.getLast? = some [] then lines.dropLast else lines

/-- The number of slots of `NewLogBuffer(capacity)`. -/
def ringSize (capacity : Int) : Nat := if capacity ≤ 0 then 100 else capacity.toNat

theorem ringSize_pos (capacity : Int) : 0 < ringSize capacity := by
  unfold ringSize
  split <;> omega

/-- The room of a subscriber's channel. -/
def channelSize : Nat := 100

/-- What `HandleLogs` writes to a stream. -/
inductive Message
  | unavailable (err : Bytes)
  | noLines
  | lineCount (n : Nat)
  | service (line : Bytes)
  | follows
  | replayed (line : Bytes)
  | live (line : Bytes)
  | fellBehind
  deriving DecidableEq, Repr

namespace Message

/-- What stands between `data: ` and the blank line. A line from the channel stands as it is. -/
def text : Message → Bytes
  | unavailable err => ascii "[service logs unavailable: " ++ sanitizeSSE err ++ ascii "]"
  | noLines => ascii "[no service log lines yet]"
  | lineCount n => ascii "[" ++ Strconv.digits n ++ ascii " line(s) from the servers' own log]"
  | service line => sanitizeSSE line
  | follows => ascii "[--- web UI log follows, live ---]"
  | replayed line => sanitizeSSE line
  | live line => line
  | fellBehind => ascii "[log stream fell behind and was dropped; reconnecting]"

def frame (m : Message) : Bytes := EventStream.frame m.text

/-- The line of the web UI's log that a message shows. -/
def logLine? : Message → Option Bytes
  | replayed line => some line
  | live line => some line
  | _ => none

def liveLine? : Message → Option Bytes
  | live line => some line
  | _ => none

end Message

/-- Where a call of `HandleLogs` stands. -/
inductive Phase
  | idle
  /-- Too many log streams. -/
  | refused
  | admitted
  | subscribed
  | announced
  | live
  /-- The loop has returned, and `unsub` is still to be run. -/
  | leaving
  | gone
  deriving DecidableEq, Repr

/-- A browser: its stream so far, and its channel. -/
structure Client where
  phase : Phase
  out : Bytes
  queue : List Bytes
  /-- How often the channel has been closed. -/
  closes : Nat
  sent : List Message
  /-- How many lines the log had when the channel was subscribed, and when it no longer was. -/
  since : Nat
  left : Nat

namespace Client

def idle : Client := ⟨.idle, [], [], 0, [], 0, 0⟩

def say (c : Client) (m : Message) : Client :=
  { c with out := c.out ++ m.frame, sent := c.sent ++ [m] }

def sayAll (c : Client) (ms : List Message) : Client := ms.foldl say c

def logLines (c : Client) : List Bytes := c.sent.filterMap Message.logLine?

def liveLines (c : Client) : List Bytes := c.sent.filterMap Message.liveLine?

end Client

/-- A call of `Write` that holds the lock: the lines to come, and the line whose sending is not
over, with the subscribers that are still to be visited. -/
structure Writer where
  pending : List Bytes
  line : Bytes
  targets : List Nat

structure World where
  lines : Ring Bytes
  subscribers : List Nat
  writer : Option Writer
  logClients : Nat
  clients : Nat → Client
  panicked : Bool
  log : List Bytes
  writes : List Bytes

namespace World

/-- `NewLogBuffer(capacity)`. -/
def init (capacity : Int) : World where
  lines := Ring.empty (ringSize capacity) (ringSize_pos capacity) []
  subscribers := []
  writer := none
  logClients := 0
  clients := fun _ => Client.idle
  panicked := false
  log := []
  writes := []

/-- `LogBuffer.Lines`. -/
def Lines (w : World) : List Bytes := w.lines.toList

def put (w : World) (id : Nat) (c : Client) : World :=
  { w with clients := Function.update w.clients id c }

def unsubscribe (w : World) (id : Nat) : World :=
  { w with subscribers := w.subscribers.filter (· ≠ id) }

end World

inductive Action
  | write (p : Bytes)
  /-- The write puts its next line into the ring. -/
  | record
  /-- The write visits a subscriber. -/
  | send (id : Nat)
  | wrote
  | request (id : Nat)
  | subscribe (id : Nat)
  /-- `ServiceLogs` has an error or lines. -/
  | announce (id : Nat) (logs : Except Bytes (List Bytes))
  | replay (id : Nat)
  | receive (id : Nat)
  /-- The context of the request is done. -/
  | done (id : Nat)
  | unsub (id : Nat)

/-- A close of a channel, which must not be closed yet. -/
def World.close (w : World) (id left : Nat) : World :=
  if (w.clients id).closes ≠ 0 then { w with panicked := true }
  else (w.unsubscribe id).put id { w.clients id with closes := 1, left := left }

/-- What is said of the servers' own log. -/
def announcement : Except Bytes (List Bytes) → List Message
  | .error err => [.unavailable err]
  | .ok [] => [.noLines]
  | .ok lines => .lineCount lines.length :: lines.map .service

/-- One step. -/
def next (maxLogClients : Nat) (w : World) : Action → Option World
  | .write p =>
      if w.writer.isNone then
        some { w with writer := some ⟨written p, [], []⟩, writes := w.writes ++ [p] }
      else none
  | .record =>
      match w.writer with
      | some ⟨s :: rest, _, []⟩ =>
          some { w with
            lines := w.lines.push s
            log := w.log ++ [s]
            writer := some ⟨rest, s, w.subscribers⟩ }
      | _ => none
  | .send id =>
      match w.writer with
      | some ⟨pending, line, targets⟩ =>
          if id ∈ targets then
            let w := { w with writer := some ⟨pending, line, targets.filter (· ≠ id)⟩ }
            let c := w.clients id
            if c.closes ≠ 0 then some { w with panicked := true }
            else if c.queue.length < channelSize then
              some (w.put id { c with queue := c.queue ++ [line] })
            else some (w.close id (w.log.length - 1))
          else none
      | none => none
  | .wrote =>
      match w.writer with
      | some ⟨[], _, []⟩ => some { w with writer := none }
      | _ => none
  | .request id =>
      let c := w.clients id
      if c.phase = .idle then
        if w.logClients < maxLogClients then
          some ({ w with logClients := w.logClients + 1 }.put id { c with phase := .admitted })
        else some (w.put id { c with phase := .refused })
      else none
  | .subscribe id =>
      let c := w.clients id
      if c.phase = .admitted ∧ w.writer.isNone then
        some ({ w with subscribers := id :: w.subscribers }.put id
          { c with phase := .subscribed, since := w.log.length })
      else none
  | .announce id logs =>
      let c := w.clients id
      if c.phase = .subscribed then
        some (w.put id
          { c.sayAll (announcement logs ++ [.follows]) with phase := .announced })
      else none
  | .replay id =>
      let c := w.clients id
      if c.phase = .announced ∧ w.writer.isNone then
        some (w.put id { c.sayAll (w.Lines.map .replayed) with phase := .live })
      else none
  | .receive id =>
      let c := w.clients id
      if c.phase = .live then
        match c.queue with
        | line :: rest => some (w.put id ({ c with queue := rest }.say (.live line)))
        | [] =>
            if c.closes ≠ 0 then some (w.put id { c.say .fellBehind with phase := .leaving })
            else none
      else none
  | .done id =>
      let c := w.clients id
      if c.phase = .live then some (w.put id { c with phase := .leaving }) else none
  | .unsub id =>
      let c := w.clients id
      if c.phase = .leaving ∧ w.writer.isNone then
        let w := { w with logClients := w.logClients - 1 }.put id { c with phase := .gone }
        some (if id ∈ w.subscribers then w.close id w.log.length else w)
      else none

def system (capacity : Int) (maxLogClients : Nat) : System World Action :=
  System.ofGuarded (World.init capacity) (next maxLogClients)

end Ps2Servers.WebUi
