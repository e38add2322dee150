import Ps2Servers.Lib.Strconv

/-!
# The configuration of the web UI

The four sections of the configuration, their defaults, and the check that a configuration
passes before it is stored.

## Implementation notes

Strings are byte strings. A rune below 0x80 is its one byte, in valid text and in any other, so
control characters are looked for among the bytes. Go ranges over maps in no fixed order: the
checks over a map are made in the order in which it is written. Errors are given as the values
that their texts are made from.
-/

namespace Ps2Servers.WebUi

/-- A text of ASCII characters. -/
def ascii (text : String) : Bytes := text.toList.map fun c => UInt8.ofNat c.toNat

/-- What is used of `float64`. A NaN is one value. Formatting with the smallest number of digits
necessary is read back exactly. -/
structure Floats (F : Type) where
  zero : F
  /-- `v < 0`. -/
  negative : F → Bool
  /-- `strconv.FormatFloat(v, 'g', -1, 64)`. -/
  formatFloat : F → Bytes
  /-- `strconv.ParseFloat(text, 64)`, `none` where it fails. -/
  parseFloat : Bytes → Option F
  parse_format : ∀ v, parseFloat (formatFloat v) = some v
  format_ne_nil : ∀ v, formatFloat v ≠ []
  mem_format : ∀ v, ∀ b ∈ formatFloat v, b ∈ ascii "+-.0123456789INaefn"

structure UDPFSConfig (F : Type) where
  enabled : Bool
  root : Bytes
  bind : Bytes
  port : Int64
  dataPort : Int64
  protocol : Bytes
  singlePort : Bool
  readOnly : Bool
  peerTimeout : Bytes
  txDelayMs : F
  udpBatch : Bool
  logFormat : Bytes
  verbose : Bool
  blockDevice : Bytes
  sectorSize : Int64
  noCompression : Bool
  compressionCacheSize : Int64
  metrics : Bool
  metricsPeriod : Bytes
  sessionSummary : Bool
  deriving DecidableEq

structure SMBConfig where
  enabled : Bool
  share : Bytes
  bind : Bytes
  port : Int64
  readOnly : Bool
  statusPort : Int64
  logFormat : Bytes
  verbose : Bool
  sessionSummary : Bool
  deriving DecidableEq

structure UDPBDConfig where
  enabled : Bool
  image : Bytes
  bind : Bytes
  port : Int64
  readOnly : Bool
  statusPort : Int64
  logFormat : Bytes
  verbose : Bool
  sessionSummary : Bool
  deriving DecidableEq

structure WebUIConfig where
  enabled : Bool
  port : Int64
  bind : Bytes
  deriving DecidableEq

structure EdgeConfig (F : Type) where
  udpfs : UDPFSConfig F
  smb : SMBConfig
  udpbd : UDPBDConfig
  webui : WebUIConfig
  deriving DecidableEq

variable {F : Type} (fl : Floats F)

def defaultConfig : EdgeConfig F where
  udpfs :=
    { enabled := true
      root := ascii "/mnt/sda1/PS2"
      bind := ascii "0.0.0.0"
      port := 62966
      dataPort := 0
      protocol := ascii "auto"
      singlePort := false
      readOnly := true
      peerTimeout := ascii "1h"
      txDelayMs := fl.zero
      udpBatch := false
      logFormat := ascii "text"
      verbose := false
      blockDevice := []
      sectorSize := 512
      noCompression := false
      compressionCacheSize := 32
      metrics := false
      metricsPeriod := ascii "1m"
      sessionSummary := false }
  smb :=
    { enabled := false
      share := ascii "games=/mnt/sda1/PS2"
      bind := ascii "0.0.0.0"
      port := 1111
      readOnly := true
      statusPort := 0
      logFormat := ascii "text"
      verbose := false
      sessionSummary := false }
  udpbd :=
    { enabled := false
      image := []
      bind := ascii "0.0.0.0"
      port := 48573
      readOnly := true
      statusPort := 0
      logFormat := ascii "text"
      verbose := false
      sessionSummary := false }
  webui :=
    { enabled := false
      port := 8082
      bind := ascii "0.0.0.0" }

/-! ## Validation -/

inductive ConfigError
  | controlCharacters (field : String)
  | portRange (field : String) (port : Int64)
  | notOneOf (field : String) (value : Bytes) (allowed : List Bytes)
  | nothingServed
  | sectorSizeRange (size : Int64)
  | negativeCacheSize
  | negativeDelay
  deriving DecidableEq

def validPort (field : String) (port : Int64) : Except ConfigError Unit :=
  if port < 0 ∨ 65535 < port then .error (.portRange field port) else .ok ()

def validStatusPort (field : String) (port : Int64) : Except ConfigError Unit :=
  if port = -1 then .ok () else validPort field port

/-- `noControlChars` refuses the byte. -/
def isControl (b : UInt8) : Bool :=
  b = 0x0a || b = 0x0d || b = 0 || (b < 0x20 && b ≠ 0x09)

def noControlChars (field : String) (value : Bytes) : Except ConfigError Unit :=
  if value.any isControl then .error (.controlCharacters field) else .ok ()

def oneOf (field : String) (value : Bytes) (allowed : List Bytes) : Except ConfigError Unit :=
  if allowed.contains value then .ok () else .error (.notOneOf field value allowed)

/-- The free texts of a configuration. -/
def strFields (cfg : EdgeConfig F) : List (String × Bytes) :=
  [("udpfs.root", cfg.udpfs.root), ("udpfs.bind", cfg.udpfs.bind),
    ("udpfs.peer_timeout", cfg.udpfs.peerTimeout), ("udpfs.block_device", cfg.udpfs.blockDevice),
    ("udpfs.metrics_period", cfg.udpfs.metricsPeriod), ("smb.share", cfg.smb.share),
    ("smb.bind", cfg.smb.bind), ("udpbd.image", cfg.udpbd.image), ("udpbd.bind", cfg.udpbd.bind),
    ("webui.bind", cfg.webui.bind)]

def validateConfig (cfg : EdgeConfig F) : Except ConfigError Unit := do
  (strFields cfg).forM fun (field, value) => noControlChars field value
  [("udpfs.port", cfg.udpfs.port), ("udpfs.data_port", cfg.udpfs.dataPort),
    ("smb.port", cfg.smb.port), ("udpbd.port", cfg.udpbd.port),
    ("webui.port", cfg.webui.port)].forM fun (field, port) => validPort field port
  [("smb.status_port", cfg.smb.statusPort),
    ("udpbd.status_port", cfg.udpbd.statusPort)].forM fun (field, port) =>
      validStatusPort field port
  oneOf "udpfs.protocol" cfg.udpfs.protocol [ascii "auto", ascii "standard", ascii "modulo"]
  [("udpfs.log_format", cfg.udpfs.logFormat), ("smb.log_format", cfg.smb.logFormat),
    ("udpbd.log_format", cfg.udpbd.logFormat)].forM fun (field, value) =>
      oneOf field value [ascii "text", ascii "json"]
  if cfg.udpfs.enabled ∧ cfg.udpfs.root = [] ∧ cfg.udpfs.blockDevice = [] then
    throw .nothingServed
  if cfg.udpfs.sectorSize ≤ 0 ∨ 65536 < cfg.udpfs.sectorSize then
    throw (.sectorSizeRange cfg.udpfs.sectorSize)
  if cfg.udpfs.compressionCacheSize < 0 then throw .negativeCacheSize
  if fl.negative cfg.udpfs.txDelayMs then throw .negativeDelay

end Ps2Servers.WebUi
