import Ps2Servers.Lib.Tables
import Ps2Servers.WebUi.Config

/-!
# The UCI back end

A configuration is read from the listing of `uci show` and written by one `uci set` for each
option and a commit.

## Implementation notes

The state of `uci` is what is committed beside what is staged. A command of a save that is refused
by the system (a missing section, a missing permission) changes nothing: which commands are comes
with the save. The listing has the options in the order of the store. Line breaks in a value are
printed as they are.
-/

namespace Ps2Servers.WebUi

open Strconv (atoi itoa)

variable {F : Type} (fl : Floats F)

/-! ## Options -/

inductive MainOption
  | enabled | root | bind | port | dataPort | protocol | singlePort | readOnly | peerTimeout
  | txDelayMs | udpBatch | logFormat | verbose | blockDevice | sectorSize | noCompression
  | compressionCacheSize | metrics | metricsPeriod | sessionSummary
  deriving DecidableEq

/-- `path` is the share or the image. -/
inductive ServerOption
  | enabled | path | bind | port | readOnly | statusPort | logFormat | verbose | sessionSummary
  deriving DecidableEq

inductive WebUIOption
  | enabled | port | bind
  deriving DecidableEq

inductive UciOption
  | main (o : MainOption)
  | smb (o : ServerOption)
  | udpbd (o : ServerOption)
  | webui (o : WebUIOption)
  deriving DecidableEq

def MainOption.text : MainOption → String
  | enabled => "enabled"
  | root => "root"
  | bind => "bind"
  | port => "port"
  | dataPort => "data_port"
  | protocol => "protocol"
  | singlePort => "single_port"
  | readOnly => "read_only"
  | peerTimeout => "peer_timeout"
  | txDelayMs => "tx_delay_ms"
  | udpBatch => "udp_batch"
  | logFormat => "log_format"
  | verbose => "verbose"
  | blockDevice => "block_device"
  | sectorSize => "sector_size"
  | noCompression => "no_compression"
  | compressionCacheSize => "compression_cache_size"
  | metrics => "metrics"
  | metricsPeriod => "metrics_period"
  | sessionSummary => "session_summary"

def ServerOption.text (path : String) : ServerOption → String
  | enabled => "enabled"
  | .path => path
  | bind => "bind"
  | port => "port"
  | readOnly => "read_only"
  | statusPort => "status_port"
  | logFormat => "log_format"
  | verbose => "verbose"
  | sessionSummary => "session_summary"

def WebUIOption.text : WebUIOption → String
  | enabled => "enabled"
  | port => "port"
  | bind => "bind"

/-- The key of an option in the listing. -/
def UciOption.key : UciOption → Bytes
  | main o => ascii "ps2servers-edge.main." ++ ascii o.text
  | smb o => ascii "ps2servers-edge.smb." ++ ascii (o.text "share")
  | udpbd o => ascii "ps2servers-edge.udpbd." ++ ascii (o.text "image")
  | webui o => ascii "ps2servers-edge.webui." ++ ascii o.text

/-- The options in the order in which they are saved. -/
def OPTIONS : List UciOption :=
  [.main .enabled, .main .root, .main .bind, .main .port, .main .dataPort, .main .protocol,
    .main .singlePort, .main .readOnly, .main .peerTimeout, .main .txDelayMs, .main .udpBatch,
    .main .logFormat, .main .verbose, .main .blockDevice, .main .sectorSize, .main .noCompression,
    .main .compressionCacheSize, .main .metrics, .main .metricsPeriod, .main .sessionSummary,
    .smb .enabled, .smb .path, .smb .bind, .smb .port, .smb .readOnly, .smb .statusPort,
    .smb .logFormat, .smb .verbose, .smb .sessionSummary,
    .udpbd .enabled, .udpbd .path, .udpbd .bind, .udpbd .port, .udpbd .readOnly,
    .udpbd .statusPort, .udpbd .logFormat, .udpbd .verbose, .udpbd .sessionSummary,
    .webui .enabled, .webui .port, .webui .bind]

/-! ## Loading -/

/-- `val == "1" || val == "true"`. -/
def isOne (val : Bytes) : Bool := val = ascii "1" || val = ascii "true"

def lowerByte (b : UInt8) : UInt8 := if 0x41 ≤ b ∧ b ≤ 0x5a then b + 0x20 else b

def uciBool (value : Bytes) : Bool :=
  [ascii "1", ascii "on", ascii "true", ascii "yes", ascii "enabled"].contains (value.map lowerByte)

/-- The cases of the section `main`. A number that cannot be read leaves its field alone. -/
def UDPFSConfig.load (c : UDPFSConfig F) (val : Bytes) : MainOption → UDPFSConfig F
  | .enabled => { c with enabled := isOne val }
  | .root => { c with root := val }
  | .bind => { c with bind := val }
  | .port => { c with port := (atoi val).getD c.port }
  | .dataPort => { c with dataPort := (atoi val).getD c.dataPort }
  | .protocol => { c with protocol := val }
  | .singlePort => { c with singlePort := isOne val }
  | .readOnly => { c with readOnly := isOne val }
  | .peerTimeout => { c with peerTimeout := val }
  | .txDelayMs => { c with txDelayMs := (fl.parseFloat val).getD c.txDelayMs }
  | .udpBatch => { c with udpBatch := uciBool val }
  | .logFormat => { c with logFormat := val }
  | .verbose => { c with verbose := isOne val }
  | .sessionSummary => { c with sessionSummary := isOne val }
  | .blockDevice => { c with blockDevice := val }
  | .sectorSize => { c with sectorSize := (atoi val).getD c.sectorSize }
  | .noCompression => { c with noCompression := isOne val }
  | .compressionCacheSize =>
      { c with compressionCacheSize := (atoi val).getD c.compressionCacheSize }
  | .metrics => { c with metrics := isOne val }
  | .metricsPeriod => { c with metricsPeriod := val }

def SMBConfig.load (c : SMBConfig) (val : Bytes) : ServerOption → SMBConfig
  | .enabled => { c with enabled := isOne val }
  | .path => { c with share := val }
  | .bind => { c with bind := val }
  | .port => { c with port := (atoi val).getD c.port }
  | .readOnly => { c with readOnly := isOne val }
  | .statusPort => { c with statusPort := (atoi val).getD c.statusPort }
  | .logFormat => { c with logFormat := val }
  | .verbose => { c with verbose := isOne val }
  | .sessionSummary => { c with sessionSummary := isOne val }

def UDPBDConfig.load (c : UDPBDConfig) (val : Bytes) : ServerOption → UDPBDConfig
  | .enabled => { c with enabled := isOne val }
  | .path => { c with image := val }
  | .bind => { c with bind := val }
  | .port => { c with port := (atoi val).getD c.port }
  | .readOnly => { c with readOnly := isOne val }
  | .statusPort => { c with statusPort := (atoi val).getD c.statusPort }
  | .logFormat => { c with logFormat := val }
  | .verbose => { c with verbose := isOne val }
  | .sessionSummary => { c with sessionSummary := isOne val }

def WebUIConfig.load (c : WebUIConfig) (val : Bytes) : WebUIOption → WebUIConfig
  | .enabled => { c with enabled := isOne val }
  | .port => { c with port := (atoi val).getD c.port }
  | .bind => { c with bind := val }

/-- The cases of the switch over the keys. -/
def EdgeConfig.load (c : EdgeConfig F) (val : Bytes) : UciOption → EdgeConfig F
  | .main o => { c with udpfs := c.udpfs.load fl val o }
  | .smb o => { c with smb := c.smb.load val o }
  | .udpbd o => { c with udpbd := c.udpbd.load val o }
  | .webui o => { c with webui := c.webui.load val o }

/-- The white space of Unicode, in UTF-8. -/
def SPACES : List Bytes :=
  [[0x09], [0x0a], [0x0b], [0x0c], [0x0d], [0x20], [0xc2, 0x85], [0xc2, 0xa0], [0xe1, 0x9a, 0x80],
    [0xe2, 0x80, 0x80], [0xe2, 0x80, 0x81], [0xe2, 0x80, 0x82], [0xe2, 0x80, 0x83],
    [0xe2, 0x80, 0x84], [0xe2, 0x80, 0x85], [0xe2, 0x80, 0x86], [0xe2, 0x80, 0x87],
    [0xe2, 0x80, 0x88], [0xe2, 0x80, 0x89], [0xe2, 0x80, 0x8a], [0xe2, 0x80, 0xa8],
    [0xe2, 0x80, 0xa9], [0xe2, 0x80, 0xaf], [0xe2, 0x81, 0x9f], [0xe3, 0x80, 0x80]]

/-- The text without the spaces it starts with. -/
def trimStart (spaces : List Bytes) : (fuel : Nat) → Bytes → Bytes
  | 0, text => text
  | fuel + 1, text =>
      match spaces.find? fun space => space.isPrefixOf text with
      | none => text
      | some space => trimStart spaces fuel (text.drop space.length)

/-- `strings.TrimSpace`. -/
def trimSpace (text : Bytes) : Bytes :=
  let text := trimStart SPACES text.length text
  (trimStart (SPACES.map List.reverse) text.length text.reverse).reverse

def isQuote (b : UInt8) : Bool := b = 0x27 || b = 0x22

/-- `strings.Trim(text, "'\"")`. -/
def trimQuotes (text : Bytes) : Bytes :=
  ((text.dropWhile isQuote).reverse.dropWhile isQuote).reverse

/-- What a line of the listing sets: the part in front of the first `=` is the key of an option. -/
def readLine (line : Bytes) : Option (UciOption × Bytes) :=
  let line := trimSpace line
  let key := line.takeWhile (· ≠ 0x3d)
  match line.drop key.length with
  | [] => none
  | _ :: val => (OPTIONS.find? fun o => o.key = key).map fun o => (o, trimQuotes val)

def loadLine (c : EdgeConfig F) (line : Bytes) : EdgeConfig F :=
  match readLine line with
  | none => c
  | some (o, val) => c.load fl val o

/-- `uci show` fails with a message, or cannot be run. -/
inductive ShowError
  | exit (stderr : Bytes)
  | other

/-- `strings.Contains`. -/
def contains (needle : Bytes) : Bytes → Bool
  | [] => needle = []
  | b :: rest => needle.isPrefixOf (b :: rest) || contains needle rest

/-- No letter outside ASCII has a lower case in the texts that are looked for. -/
def isUCINotFound (stderr : Bytes) : Bool :=
  let s := stderr.map lowerByte
  contains (ascii "not found") s || contains (ascii "entry not found") s

/-- `Load`, with what `uci show` answers. -/
def load : Except ShowError Bytes → Except ShowError (EdgeConfig F)
  | .error (.exit stderr) =>
      if isUCINotFound stderr then .ok (defaultConfig fl) else .error (.exit stderr)
  | .error .other => .error .other
  | .ok out => .ok ((out.splitOn 0x0a).foldl (loadLine fl) (defaultConfig fl))

/-! ## Saving -/

/-- What `addCmd` is given. -/
inductive Value (F : Type)
  | bool (v : Bool)
  | string (v : Bytes)
  | int (v : Int64)
  | float (v : F)
  deriving DecidableEq

def Value.text : Value F → Bytes
  | bool v => if v then ascii "1" else ascii "0"
  | string v => v
  | int v => itoa v
  | float v => fl.formatFloat v

def UDPFSConfig.get (c : UDPFSConfig F) : MainOption → Value F
  | .enabled => .bool c.enabled
  | .root => .string c.root
  | .bind => .string c.bind
  | .port => .int c.port
  | .dataPort => .int c.dataPort
  | .protocol => .string c.protocol
  | .singlePort => .bool c.singlePort
  | .readOnly => .bool c.readOnly
  | .peerTimeout => .string c.peerTimeout
  | .txDelayMs => .float c.txDelayMs
  | .udpBatch => .bool c.udpBatch
  | .logFormat => .string c.logFormat
  | .verbose => .bool c.verbose
  | .blockDevice => .string c.blockDevice
  | .sectorSize => .int c.sectorSize
  | .noCompression => .bool c.noCompression
  | .compressionCacheSize => .int c.compressionCacheSize
  | .metrics => .bool c.metrics
  | .metricsPeriod => .string c.metricsPeriod
  | .sessionSummary => .bool c.sessionSummary

def SMBConfig.get (c : SMBConfig) : ServerOption → Value F
  | .enabled => .bool c.enabled
  | .path => .string c.share
  | .bind => .string c.bind
  | .port => .int c.port
  | .readOnly => .bool c.readOnly
  | .statusPort => .int c.statusPort
  | .logFormat => .string c.logFormat
  | .verbose => .bool c.verbose
  | .sessionSummary => .bool c.sessionSummary

def UDPBDConfig.get (c : UDPBDConfig) : ServerOption → Value F
  | .enabled => .bool c.enabled
  | .path => .string c.image
  | .bind => .string c.bind
  | .port => .int c.port
  | .readOnly => .bool c.readOnly
  | .statusPort => .int c.statusPort
  | .logFormat => .string c.logFormat
  | .verbose => .bool c.verbose
  | .sessionSummary => .bool c.sessionSummary

def WebUIConfig.get (c : WebUIConfig) : WebUIOption → Value F
  | .enabled => .bool c.enabled
  | .port => .int c.port
  | .bind => .string c.bind

/-- The value that is saved for an option. -/
def EdgeConfig.get (c : EdgeConfig F) : UciOption → Value F
  | .main o => c.udpfs.get o
  | .smb o => c.smb.get o
  | .udpbd o => c.udpbd.get o
  | .webui o => c.webui.get o

/-- The options of a package, each with another key. -/
structure Options where
  entries : List (Bytes × Bytes)
  nodup : (entries.map Prod.fst).Nodup

/-- `uci set key=value`. An empty value removes the option. -/
def Options.set (s : Options) (key value : Bytes) : Options :=
  if value = [] then ⟨Tables.erase s.entries key, Tables.nodup_erase s.nodup key⟩
  else ⟨Tables.assign s.entries key value, Tables.nodup_assign s.nodup key value⟩

structure Uci where
  committed : Options
  staged : Options

/-- A single quote is written as `'\''`. -/
def quote (value : Bytes) : Bytes :=
  [0x27] ++ value.flatMap (fun b => if b = 0x27 then [0x27, 0x5c, 0x27, 0x27] else [b]) ++ [0x27]

def showEntry (entry : Bytes × Bytes) : Bytes := entry.1 ++ 0x3d :: quote entry.2

/-- `uci show`. -/
def Options.show (s : Options) : Bytes := s.entries.flatMap fun entry => showEntry entry ++ [0x0a]

inductive SaveError
  | invalid (error : ConfigError)
  | set (key : Bytes)
  | commit
  deriving DecidableEq

/-- The commands `uci set`, up to the first that is refused. -/
def setAll (refused : Bytes → Bool) : List (Bytes × Bytes) → Options → Except Bytes Options
  | [], s => .ok s
  | (key, value) :: rest, s =>
      if refused key then .error key else setAll refused rest (s.set key value)

/-- `Save`. What is staged is given up when a command is refused. -/
def save (cfg : EdgeConfig F) (refused : Bytes → Bool) (commits : Bool) (s : Uci) :
    Except SaveError Unit × Uci :=
  match validateConfig fl cfg with
  | .error e => (.error (.invalid e), s)
  | .ok () =>
      match setAll refused (OPTIONS.map fun o => (o.key, (cfg.get o).text fl)) s.staged with
      | .error key => (.error (.set key), ⟨s.committed, s.committed⟩)
      | .ok staged =>
          if commits then (.ok (), ⟨staged, staged⟩)
          else (.error .commit, ⟨s.committed, s.committed⟩)

end Ps2Servers.WebUi
