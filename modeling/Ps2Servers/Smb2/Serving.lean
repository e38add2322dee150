import Ps2Servers.Smb2.Commands
import Ps2Servers.Smb2.Connection

/-!
# Connections and their files

A connection together with the host and the handles that its requests work on. Requests reach the
handlers of files through the checks of the connection, and the end of a connection closes what is open.

## Implementation notes

Handles and pipes stand in `Files`, so the handle table of `Conn` stays empty. The digests, the NTLM
proof and the challenge are those of an `Env` whose shares and commands are not looked at.
-/

namespace Ps2Servers.Smb2

open Text Effects

/-- A connection, and the files behind it. -/
structure Serving (H F : Type) where
  state : State ShareTree Unit
  files : Files H F

variable {H F : Type} (svc : Service H F) (base : Env ShareTree Unit)

/-- `share_named`. -/
def Service.shareCalled (name : Str) : Option Share :=
  match svc.shares.lookup name with
  | some share => some share
  | none =>
      (svc.shares.find? fun e =>
        svc.host.letters.casefold e.1 == svc.host.letters.casefold name).map Prod.snd

/-- The last component of a TREE_CONNECT path. -/
def lastComponent (path : Str) : Str :=
  ((path.reverse.dropWhile (· == backslash)).takeWhile (· != backslash)).reverse

/-- The tree that a TREE_CONNECT path names. -/
def Service.treeNamed (path : Bytes) : Option ShareTree :=
  let name := lastComponent (decodeUtf16 path)
  if svc.host.letters.upper name = lit "IPC$" then some .ipc else (svc.shareCalled name).map .disk

/-- What a handler of files is told of a request. -/
def contextOf (conn : Conn ShareTree Unit) (hdr : Header) (body : Bytes) : Context :=
  ⟨conn.authenticated, conn.tables.trees, hdr.treeId, body, conn.compoundFileId⟩

/-- What `_dispatch` makes of the outcome of a handler. -/
def replyOf (command : Command) : EStateM.Result Exn (Files H F) Answer → Reply
  | .error e _ => .of e.toStatus
  | .ok answer _ =>
      ⟨some answer.status, none,
        if command = .create ∧ 80 ≤ answer.body.length then some (answer.body.sub 64 16) else none⟩

/-- The connection's surroundings, with the handlers of files as they act now. -/
def Serving.env (w : Serving H F) : Env ShareTree Unit :=
  { base with
    shareNamed := svc.treeNamed
    serve := fun command tables hdr body compoundFileId =>
      (replyOf command (execute svc ⟨w.state.conn.authenticated, tables.trees, hdr.treeId, body,
        compoundFileId⟩ command w.files), tables) }

/-- The files behind an admitted request. -/
def Serving.perform (w : Serving H F) (p : Piece) : Files H F :=
  match p.hdr.command with
  | .logoff => w.files.closeAll svc
  | command =>
      final (execute svc (contextOf w.state.conn (inherit w.state.prev p.hdr) p.body) command w.files)

/-- The files behind an input. -/
def Serving.filesAfter (w : Serving H F) : Input → Files H F
  | .request p _ => if w.state.admits (w.env svc base) p then w.perform svc p else w.files
  | _ => w.files

/-- An input of the connection, or its end. -/
inductive Event
  | input (i : Input)
  | gone
  deriving DecidableEq, Repr

/-- The files of a connection that has ended are closed. -/
def Serving.settle (w : Serving H F) : Serving H F :=
  if w.state.closed then { w with files := w.files.closeAll svc } else w

def Serving.next (w : Serving H F) : Event → Serving H F
  | .input i => Serving.settle svc ⟨Smb2.next (w.env svc base) w.state i, w.filesAfter svc base i⟩
  | .gone => Serving.settle svc { w with state := { w.state with closed := true } }

/-- A connection that starts. -/
def Serving.new (h : H) : Serving H F := ⟨State.new, ⟨⟨h, Handles.empty⟩, []⟩⟩

/-- All runs of a connection on a host. -/
def serving (h : H) : Runs.System (Serving H F) Event := .ofNext (Serving.new h) (Serving.next svc base)

end Ps2Servers.Smb2
