import Ps2Servers.Lib.Runs
import Ps2Servers.Lib.Tables
import Mathlib.Algebra.Ring.Int.Defs

/-!
# Session counters

Both families of servers keep one entry of counters for each client and print it as a `SESSION`
line when the client is idle, pushed out by a newer one, or the server stops. One keeps an ordered
dictionary, the other a map beside a slice.

## Implementation notes

Times are whole seconds. Locks are left out: each operation runs in one piece, and its lines are
printed before the next. Where the map or the slice would be read out of bounds the program
panics, which is `none`.
-/

namespace Ps2Servers.Sessions

open Runs

def KINDS : List String :=
  ["connections", "list", "open", "read", "bytes", "write", "close", "errors"]

/-- What both sides are made with. -/
structure Limits where
  service : String
  maxClients : Nat
  idleSeconds : Int
  maxClients_pos : 1 ≤ maxClients

/-- The values of a `SESSION` line. -/
structure Report where
  client : String
  seconds : Int
  counts : String → Int
  ended : String

/-- What an operation gives back. An unknown kind is refused before anything changes. -/
inductive Reply
  | done
  | raised
  | refreshed (known : Bool)
  | lines (reports : List Report)

/-- A counter is changed. -/
def set {α : Type} (counts : String → α) (kind : String) (value : α) : String → α :=
  fun k => if k = kind then value else counts k

/-! ## The launcher -/

namespace Launcher

/-- `_Client`. -/
structure Client where
  first : Int
  last : Int
  counts : String → Int

def Client.new (now : Int) : Client := ⟨now, now, fun _ => 0⟩

def Client.count (c : Client) (kind : String) (count now : Int) : Client :=
  { c with last := now, counts := set c.counts kind (c.counts kind + count) }

/-- The entries stand in the order they were last seen. -/
structure SessionStats where
  clients : List (String × Client)
  emitted : List Report

def SessionStats.new : SessionStats := ⟨[], []⟩

def report (ended : String) (entry : String × Client) : Report :=
  ⟨entry.1, entry.2.last - entry.2.first, entry.2.counts, ended⟩

/-- `_line`. -/
def line (service : String) (r : Report) : String :=
  let fields := " ".intercalate (KINDS.map fun k => k ++ "=" ++ toString (r.counts k))
  "SESSION " ++ service ++ " client=" ++ r.client ++ " seconds=" ++ toString r.seconds ++ " " ++
    fields ++ " ended=" ++ r.ended

/-- An entry is changed and goes to the end. -/
def moveToEnd (clients : List (String × Client)) (client : String) (entry : Client) :
    List (String × Client) :=
  Tables.erase clients client ++ [(client, entry)]

def record (limits : Limits) (s : SessionStats) (client kind : String) (count now : Int) :
    Reply × SessionStats :=
  if !KINDS.contains kind then (.raised, s)
  else
    match s.clients.lookup client with
    | some entry =>
        (.done, { s with clients := moveToEnd s.clients client (entry.count kind count now) })
    | none =>
        let full := limits.maxClients ≤ s.clients.length
        let evicted := if full then s.clients.take 1 else []
        let clients := if full then s.clients.drop 1 else s.clients
        (.done, {
          clients := clients ++ [(client, (Client.new now).count kind count now)]
          emitted := s.emitted ++ evicted.map (report "evicted") })

def touch (s : SessionStats) (client : String) (now : Int) : Reply × SessionStats :=
  match s.clients.lookup client with
  | none => (.refreshed false, s)
  | some entry =>
      (.refreshed true,
        { s with clients := moveToEnd s.clients client { entry with last := now } })

/-- The loop stops at the first entry that is not idle. -/
def expire (limits : Limits) (s : SessionStats) (now : Int) : Reply × SessionStats :=
  let idle := fun entry : String × Client => !decide (now - entry.2.last < limits.idleSeconds)
  let lines := (s.clients.takeWhile idle).map (report "idle")
  (.lines lines, { clients := s.clients.dropWhile idle, emitted := s.emitted ++ lines })

def stop (s : SessionStats) : Reply × SessionStats :=
  let lines := s.clients.map (report "stopped")
  (.lines lines, { clients := [], emitted := s.emitted ++ lines })

end Launcher

/-! ## The Edge server -/

namespace Edge

structure Entry where
  first : Int
  last : Int
  counts : String → Int64

def Entry.new (now : Int) : Entry := ⟨now, now, fun _ => 0⟩

def Entry.count (e : Entry) (kind : String) (count : Int64) (now : Int) : Entry :=
  { e with last := now, counts := set e.counts kind (e.counts kind + count) }

/-- The map and the order of its keys, least recently seen first. -/
structure Stats where
  clients : List (String × Entry)
  order : List String
  emitted : List Report

def Stats.new : Stats := ⟨[], [], []⟩

/-- The fields of `emitLine`. -/
def report (ended : String) (entry : String × Entry) : Report :=
  ⟨entry.1, entry.2.last - entry.2.first, fun k => (entry.2.counts k).toInt, ended⟩

/-- `emitLine`. -/
def line (service : String) (r : Report) : String :=
  KINDS.foldl (fun b k => b ++ (" " ++ k ++ "=" ++ toString (r.counts k)))
    ("SESSION " ++ service ++ " client=" ++ r.client ++ " seconds=" ++ toString r.seconds) ++
    (" ended=" ++ r.ended)

def touchLocked (order : List String) (client : String) : List String :=
  order.erase client ++ [client]

def record (limits : Limits) (s : Stats) (client kind : String) (count : Int64) (now : Int) :
    Option (Reply × Stats) :=
  if !KINDS.contains kind then some (.raised, s)
  else
    match s.clients.lookup client with
    | some e =>
        some (.done, { s with
          clients := Tables.assign s.clients client (e.count kind count now)
          order := touchLocked s.order client })
    | none =>
        let e := (Entry.new now).count kind count now
        if s.clients.length < limits.maxClients then
          some (.done, { s with
            clients := Tables.assign s.clients client e
            order := touchLocked s.order client })
        else
          match s.order with
          | [] => none
          | evictedClient :: order =>
              let evicted := (s.clients.lookup evictedClient).toList.map fun e =>
                report "evicted" (evictedClient, e)
              some (.done, {
                clients := Tables.assign (Tables.erase s.clients evictedClient) client e
                order := touchLocked order client
                emitted := s.emitted ++ evicted })

def touch (s : Stats) (client : String) (now : Int) : Reply × Stats :=
  match s.clients.lookup client with
  | none => (.refreshed false, s)
  | some e =>
      (.refreshed true, { s with
        clients := Tables.assign s.clients client { e with last := now }
        order := touchLocked s.order client })

/-- The loop of `Expire`: the entries that are finished, the clients kept and the map. -/
def expireLoop (limits : Limits) (now : Int) : List String → List (String × Entry) →
    Option (List (String × Entry) × List String × List (String × Entry))
  | [], clients => some ([], [], clients)
  | client :: rest, clients =>
      match clients.lookup client with
      | none => none
      | some e =>
          if limits.idleSeconds ≤ now - e.last then
            (expireLoop limits now rest (Tables.erase clients client)).map fun r =>
              ((client, e) :: r.1, r.2)
          else
            (expireLoop limits now rest clients).map fun r => (r.1, client :: r.2.1, r.2.2)

def expire (limits : Limits) (s : Stats) (now : Int) : Option (Reply × Stats) :=
  (expireLoop limits now s.order s.clients).map fun r =>
    let lines := r.1.map (report "idle")
    (.lines lines, { clients := r.2.2, order := r.2.1, emitted := s.emitted ++ lines })

def stop (s : Stats) : Option (Reply × Stats) :=
  (s.order.mapM fun client => (s.clients.lookup client).map (client, ·)).map fun finished =>
    let lines := finished.map (report "stopped")
    (.lines lines, { clients := [], order := [], emitted := s.emitted ++ lines })

end Edge

/-! ## Operations -/

inductive Op
  | record (client kind : String) (count : Int64)
  | touch (client : String)
  | expire
  | stop
  deriving DecidableEq, Repr

structure Event where
  op : Op
  now : Int
  deriving DecidableEq, Repr

def Launcher.next (limits : Limits) (s : SessionStats) (e : Event) : Reply × SessionStats :=
  match e.op with
  | .record client kind count => record limits s client kind count.toInt e.now
  | .touch client => touch s client e.now
  | .expire => expire limits s e.now
  | .stop => stop s

def Edge.next (limits : Limits) (s : Stats) (e : Event) : Option (Reply × Stats) :=
  match e.op with
  | .record client kind count => record limits s client kind count e.now
  | .touch client => some (touch s client e.now)
  | .expire => expire limits s e.now
  | .stop => stop s

/-- What the event adds to a counter. -/
def Event.counts (e : Event) (client kind : String) : Int :=
  match e.op with
  | .record c k count => if c = client ∧ k = kind ∧ KINDS.contains k then count.toInt else 0
  | _ => 0

/-- The client that the event makes an entry for. -/
def Launcher.opens (s : SessionStats) (e : Event) : Option String :=
  match e.op with
  | .record client kind _ =>
      if KINDS.contains kind ∧ s.clients.lookup client = none then some client else none
  | _ => none

/-- Both sides under the same operations, and what happened: the time of the last one, all of
them, and the clients that an entry was made for. -/
structure Twins where
  launcher : Launcher.SessionStats
  edge : Option Edge.Stats
  clock : Int
  history : List Event
  opened : List String

def Twins.start (clock : Int) : Twins := ⟨.new, some .new, clock, [], []⟩

def Twins.next (limits : Limits) (t : Twins) (e : Event) : Twins where
  launcher := (Launcher.next limits t.launcher e).2
  edge := t.edge.bind fun s => (Edge.next limits s e).map Prod.snd
  clock := e.now
  history := t.history ++ [e]
  opened := t.opened ++ (Launcher.opens t.launcher e).toList

def runs (limits : Limits) (clock : Int) : System Twins Event :=
  .ofNext (.start clock) (Twins.next limits)

/-- The count of a kind in the live entry of a client. -/
def live (clients : List (String × Launcher.Client)) (client kind : String) : Int :=
  (clients.map fun entry => if entry.1 = client then entry.2.counts kind else 0).sum

/-- The sum of the counts of a kind in the lines of a client. -/
def reported (emitted : List Report) (client kind : String) : Int :=
  (emitted.map fun r => if r.client = client then r.counts kind else 0).sum

def recorded (history : List Event) (client kind : String) : Int :=
  (history.map fun e => e.counts client kind).sum

/-- No counter of 64 bits overflows. -/
def Fits (s : Launcher.SessionStats) (e : Event) : Prop :=
  match e.op with
  | .record client kind count =>
      -2 ^ 63 ≤ live s.clients client kind + count.toInt ∧
        live s.clients client kind + count.toInt < 2 ^ 63
  | _ => True

/-- The clock does not go back, and no counter overflows. -/
def Regular (t : Twins) (e : Event) : Prop := t.clock ≤ e.now ∧ Fits t.launcher e

end Ps2Servers.Sessions
