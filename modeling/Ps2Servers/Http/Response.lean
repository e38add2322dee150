import Ps2Servers.Http.Catalogue

/-!
# Responses of the HTTP game server

What `Ps2HTTPRequestHandler` puts on a connection for one request. `wfile` is not
buffered, so a write is a send, and header blocks are written whole by
`end_headers`. A write to a connection that breaks puts a part on the wire and
raises; nothing reaches the wire after that.

## Implementation notes

The files may change at any time, so what opening, seeking, reading and
`sendfile` do during a request is part of its `World`. A read gives bytes of the
image the handle shows, at most as many as asked for, or raises. Statistics and
log lines are left out. A request carries its `Target`: what the index resolved
its path to.
-/

namespace Ps2Servers.Http

/-- Exceptions of the host, as far as `_dispatch` tells them apart. -/
inductive Fault
  /-- `ConnectionResetError` or `BrokenPipeError`. -/
  | reset
  /-- Any other `OSError`. -/
  | os
  /-- What no clause of `_dispatch` catches. -/
  | other
  deriving DecidableEq, Repr

inductive Exc
  | host (fault : Fault)
  /-- `_RangeError`. -/
  | range
  deriving DecidableEq, Repr

/-- What reached the socket. -/
inductive Event
  | head (code : Nat) (contentLength : Nat)
  /-- Part of a header block, on a connection that broke. -/
  | cut
  | data (bytes : Bytes)
  | close
  deriving DecidableEq, Repr

inductive Sendfile
  | sent (count : Nat)
  /-- `AttributeError` or `ValueError`, before anything is sent. -/
  | refused
  /-- `OSError` after `count` bytes. -/
  | failed (count : Nat)
  deriving DecidableEq, Repr

/-- An open file or decoder. `image` is what it shows from its first byte on. -/
structure Handle where
  image : Bytes
  /-- `read(n)` at a position: how many bytes it gives, of the at most `n` asked for. -/
  read : Nat → Nat → Except Fault Nat
  seek : Nat → Option Fault
  sendfile : Nat → Nat → Sendfile

/-- The host during one request. -/
structure World where
  date : String
  /-- The handle cached by the connection, if there is one. -/
  cached : Handle
  openFile : Str → Except Fault Handle
  /-- `none`: no decoder for the file. -/
  openCompressed : Str → Except Fault (Option Handle)

structure Request where
  target : Target
  /-- `HEAD` sends header blocks only. -/
  body : Bool
  range : Option String
  /-- HTTP/1.0 or `Connection: close`. -/
  closes : Bool
  deriving DecidableEq, Repr

/-- A connection. `room` is how many bytes it takes before it breaks, if it does, and
`breaks` what the breaking write raises. -/
structure Conn where
  wire : List Event
  room : Option Nat
  breaks : Fault
  cachedPath : Option Str
  closeConnection : Bool
  deriving DecidableEq, Repr

abbrev Action := EStateM Exc Conn

/-! ## Writing -/

/-- `wfile.write` of `size` bytes that read `whole`, or `part` when the connection breaks. -/
def write (size : Nat) (whole : Event) (part : Nat → List Event) : Action Unit := fun c =>
  match c.room with
  | none => .ok () { c with wire := c.wire ++ [whole] }
  | some r =>
      if size ≤ r then .ok () { c with room := some (r - size), wire := c.wire ++ [whole] }
      else .error (.host c.breaks) { c with room := some 0, breaks := .reset, wire := c.wire ++ part r }

def writeData (bytes : Bytes) : Action Unit :=
  write bytes.length (.data bytes) fun r => [.data (bytes.take r)]

def CONTENT_TYPE : String := "application/octet-stream"

/-- `send_response_only` and `send_header`. -/
def headerText (code : Nat) (message : String) (fields : List (String × String)) : String :=
  "HTTP/1.1 " ++ toString code ++ " " ++ message ++ "\r\n" ++
    String.join (fields.map fun f => f.1 ++ ": " ++ f.2 ++ "\r\n") ++ "\r\n"

/-- `end_headers` writes the block whole. -/
def sendHead (code : Nat) (message : String) (fields : List (String × String))
    (contentLength : Nat) : Action Unit :=
  write (headerText code message fields).length (.head code contentLength) fun r =>
    if r = 0 then [] else [.cut]

def sendShort (w : World) (body : Bool) (code : Nat) (message : String) : Action Unit := do
  let payload := (message ++ "\n").toUTF8.toList
  sendHead code message
    [("Date", w.date), ("Content-Type", "text/plain"), ("Content-Length", toString payload.length)]
    payload.length
  if body then writeData payload

/-! ## Ranges -/

/-- `str.isspace` on the characters of a header, which are decoded from Latin-1. -/
def isSpace (c : Char) : Bool :=
  let n := c.toNat
  (9 ≤ n && n ≤ 13) || (28 ≤ n && n ≤ 32) || n == 0x85 || n == 0xa0

def strip (s : List Char) : List Char :=
  ((s.dropWhile isSpace).reverse.dropWhile isSpace).reverse

def number (digits : List Char) : Nat :=
  digits.foldl (fun n c => 10 * n + (c.toNat - '0'.toNat)) 0

/-- CPython refuses to convert longer digit strings. -/
def maxDigits : Nat := 4300

/-- The match of `^bytes=(\d*)-(\d*)$`. -/
def matchRange (header : List Char) : Option (List Char × List Char) :=
  match ("bytes=".toList).isPrefixOf header, (header.drop 6).span Char.isDigit with
  | true, (first, '-' :: rest) => if rest.all Char.isDigit then some (first, rest) else none
  | _, _ => none

def parseRange (total : Nat) (header : Option String) : Except Exc (Option (Nat × Nat)) :=
  match header with
  | none => .ok none
  | some "" => .ok none
  | some text =>
      match matchRange (strip text.toList) with
      | none => .error .range
      | some (first, last) =>
          if first = [] then .error .range
          else if maxDigits < first.length ∨ maxDigits < last.length then .error (.host .other)
          else
            let start : Int := number first
            let stop : Int := if last = [] then (total : Int) - 1 else number last
            if start > stop ∨ start ≥ total ∨ stop ≥ total then .error .range
            else .ok (some (start.toNat, stop.toNat))

/-! ## Bodies -/

/-- Opening the file behind an entry. -/
def World.openEntry (w : World) (entry : GameEntry) : Except Fault Handle :=
  if entry.compressed then
    match w.openCompressed entry.path with
    | .ok (some h) => .ok h
    | .ok none => .error .os
    | .error e => .error e
  else w.openFile entry.path

/-- `_handle_for`. The cached handle is closed before another file is opened. -/
def handleFor (w : World) (entry : GameEntry) : Action Handle := fun c =>
  if c.cachedPath = some entry.path then .ok w.cached c
  else
    match w.openEntry entry with
    | .ok h => .ok h { c with cachedPath := some entry.path }
    | .error e => .error (.host e) { c with cachedPath := none }

def chunkSize : Nat := 256 * 1024

/-- `handle.read(n)` at `pos`. -/
def Handle.readAt (h : Handle) (pos n : Nat) : Except Fault Bytes :=
  match h.read pos n with
  | .ok k => .ok (h.image.sub pos (min k n))
  | .error e => .error e

/-- The read and write loop of `_send_bytes`. Every pass writes a byte, so `fuel` passes
send `fuel` bytes. -/
def sendChunks (h : Handle) (fuel pos remaining : Nat) : Action Unit :=
  match fuel with
  | 0 => pure ()
  | fuel + 1 =>
      if remaining = 0 then pure ()
      else
        match h.readAt pos (min remaining chunkSize) with
        | .error e => throw (.host e)
        | .ok [] => do
            modify fun c => { c with closeConnection := true }
            throw (.host .os)
        | .ok (b :: chunk) => do
            writeData (b :: chunk)
            sendChunks h fuel (pos + (chunk.length + 1)) (remaining - (chunk.length + 1))

/-- The manual path: seek, then the loop. -/
def sendManual (h : Handle) (offset length : Nat) : Action Unit := do
  match h.seek offset with
  | some e => throw (.host e)
  | none => sendChunks h length offset length

/-- The result of `connection.sendfile`; an `OSError` drops the connection. -/
inductive SendResult
  | sent (count : Nat)
  | dropped

/-- `connection.sendfile` with the handlers around it. -/
def sendFile (h : Handle) (offset length : Nat) : Action SendResult := fun c =>
  match h.sendfile offset length with
  | .refused => .ok (.sent 0) c
  | .sent k =>
      let bytes := h.image.sub offset (min k length)
      match writeData bytes c with
      | .ok _ c => .ok (.sent bytes.length) c
      | .error _ c => .ok .dropped { c with closeConnection := true }
  | .failed k =>
      match writeData (h.image.sub offset (min k length)) c with
      | .ok _ c => .ok .dropped { c with closeConnection := true }
      | .error _ c => .ok .dropped { c with closeConnection := true }

/-- `_send_bytes` for a plain file: what `connection.sendfile` left is sent by hand. -/
def sendPlain (h : Handle) (offset length : Nat) : Action Unit := do
  match ← sendFile h offset length with
  | .dropped => pure ()
  | .sent k =>
      if k = length then pure ()
      else sendManual h (offset + k) (length - k)

/-- `_send_bytes`. -/
def sendBytes (w : World) (entry : GameEntry) (offset length : Nat) : Action Unit := do
  let handle ← handleFor w entry
  if entry.compressed then sendManual handle offset length
  else sendPlain handle offset length

/-! ## Routing -/

def gameFields (w : World) (length : Nat) (contentRange : List (String × String)) :
    List (String × String) :=
  [("Date", w.date), ("Content-Type", CONTENT_TYPE)] ++ contentRange ++
    [("Content-Length", toString length), ("Accept-Ranges", "bytes")]

/-- `_serve_game`. -/
def serveGame (w : World) (r : Request) (entry : GameEntry) : Action Unit := do
  match parseRange entry.size r.range with
  | .error e => throw e
  | .ok none =>
      sendHead 200 "OK" (gameFields w entry.size []) entry.size
      if r.body then sendBytes w entry 0 entry.size
  | .ok (some (start, stop)) =>
      let length := stop - start + 1
      let range := "bytes " ++ toString start ++ "-" ++ toString stop ++ "/" ++
        toString entry.size
      sendHead 206 "Partial Content" (gameFields w length [("Content-Range", range)]) length
      if r.body then sendBytes w entry start length

def serveGamesCsv (w : World) (r : Request) (payload : Bytes) : Action Unit := do
  sendHead 200 "OK"
    [("Date", w.date), ("Content-Type", "text/csv"), ("Content-Length", toString payload.length)]
    payload.length
  if r.body then writeData payload

/-- The body of `_dispatch` inside its `try`. -/
def route (w : World) (r : Request) : Action Unit :=
  match r.target with
  | .bad => sendShort w r.body 400 "Bad Request"
  | .gamesCsv payload => serveGamesCsv w r payload
  | .missing => sendShort w r.body 404 "Not Found"
  | .game entry => serveGame w r entry

/-- The `except` clauses of `_dispatch`. -/
def handled (w : World) (r : Request) :
    EStateM.Result Exc Conn Unit → EStateM.Result Exc Conn Unit
  | .ok _ c => .ok () c
  | .error (.host .reset) c => .ok () { c with closeConnection := true }
  | .error .range c => sendShort w r.body 416 "Requested Range Not Satisfiable" c
  | .error (.host .os) c => sendShort w r.body 500 "Internal Server Error" c
  | .error (.host .other) c => .error (.host .other) c

/-- `_dispatch`. -/
def dispatch (w : World) (r : Request) : Action Unit := fun c => handled w r (route w r c)

/-- The end of a request. An exception that leaves the handler ends the connection. -/
def ended : EStateM.Result Exc Conn Unit → Conn
  | .ok _ c => if c.closeConnection then { c with wire := c.wire ++ [.close] } else c
  | .error _ c => { c with closeConnection := true, wire := c.wire ++ [.close] }

/-- One request on a connection. -/
def respond (w : World) (r : Request) (c : Conn) : Conn :=
  ended (dispatch w r { c with closeConnection := r.closes })

end Ps2Servers.Http
