import Ps2Servers.Lib.UrlPath
import Mathlib.Data.List.Infix
import Mathlib.Data.List.Sort

/-!
# The game list

`GameIndex`: which files of the games folder are games, the `games.csv` made of
them under either profile, and what a request path resolves to.

## Implementation notes

A directory is kept as its segments below the games folder, so `os.path.relpath`
is read off. The platform is POSIX. Log lines and the lists made for them are
left out, and so is the throttled rescan: an index is what one scan of the folder
builds.
-/

namespace Ps2Servers.Http

open Text

inductive Media
  | cd
  | dvd
  deriving DecidableEq, Repr

def Media.text : Media → Str
  | cd => lit "CD"
  | dvd => lit "DVD"

/-- `GameEntry`: one row of `games.csv` and the host file behind it. -/
structure GameEntry where
  startup : Str
  /-- The name in `games.csv` and in the URL. -/
  advertised : Str
  path : Str
  media : Media
  size : Nat
  compressed : Bool
  conventional : Bool
  relPath : Str
  title : Str
  deriving DecidableEq, Repr

def nul : CodePoint := .char (Char.ofNat 0)

/-- A name that a directory can list. -/
def IsFileName (s : Str) : Prop := Ordinary s ∧ slash ∉ s ∧ nul ∉ s

instance (s : Str) : Decidable (IsFileName s) := inferInstanceAs (Decidable (_ ∧ _ ∧ _))

abbrev FileName := { s : Str // IsFileName s }

/-- The calls on the host. -/
structure Host where
  listdir : Str → Option (List FileName)
  /-- The entries of `os.scandir` that `_is_real_dir` takes. -/
  realDirs : Str → Option (List FileName)
  isdir : Str → Bool
  isfile : Str → Bool
  getsize : Str → Option Nat
  /-- The uncompressed size that `get_compressed_info` finds. -/
  compressedInfo : Str → Option Nat
  realpath : Str → Str
  /-- A `games.csv` in the folder: its contents, if it can be read. -/
  diskCsv : Option (Option Bytes)

inductive Profile
  | legacyFlat
  | riptoplPathAware
  deriving DecidableEq, Repr

/-- What a `GameIndex` is made with. Nested games are for the path-aware profile only. -/
structure Config where
  rootDir : Str
  profile : Profile
  enableCompression : Bool
  recursive : Bool
  recursive_pathAware : recursive → profile = .riptoplPathAware
  /-- Which decoders the server has. -/
  lz4 : Bool
  libchdr : Bool
  deriving DecidableEq, Repr

def RAW_EXTENSIONS : List Str := [lit ".iso", lit ".zso", lit ".ziso"]

/-- `COMPRESSED_EXTENSIONS`. -/
def compressedExtensions (cfg : Config) : List Str :=
  (if cfg.lz4 then [lit ".zso", lit ".ziso"] else []) ++ [lit ".cso", lit ".ciso"] ++
    (if cfg.libchdr then [lit ".chd"] else [])

def decompressible (cfg : Config) : List Str :=
  if !cfg.enableCompression then []
  else if cfg.profile = .riptoplPathAware then compressedExtensions cfg
  else (compressedExtensions cfg).filter fun ext => ext ∉ [lit ".zso", lit ".ziso"]

def STARTUP_MAX : Nat := 12

def FILENAME_MAX : Nat := 159

def GAMES_CSV_MAX : Nat := 8192

def CD_SIZE_LIMIT : Nat := 800 * 1024 * 1024

def RIPTOPL_STARTUP_MAX : Nat := 12

def RIPTOPL_TITLE_MAX : Nat := 160

def RIPTOPL_PATH_MAX : Nat := 255

def RIPTOPL_CATALOG_BYTES_MAX : Nat := 262144

def RIPTOPL_CATALOG_ROWS_MAX : Nat := 2048

def RIPTOPL_URI_MAX : Nat := 768

def RIPTOPL_BASE_PATH_MAX : Nat := 64

def RECURSIVE_MAX_DEPTH : Nat := 4

def RECURSIVE_MAX_DIRS : Nat := 2000

/-! ## Entries -/

variable (u : Casing)

/-- `os.path.splitext` of a name. A name that starts with dots only has no extension. -/
def splitext (name : Str) : Str × Str :=
  let stem := (name.rdropWhile (· ≠ dot)).dropLast
  if stem.all (· = dot) then (name, [])
  else (stem, dot :: name.rtakeWhile (· ≠ dot))

def isLetter (c : CodePoint) : Bool :=
  (0x41 ≤ c.toNat && c.toNat ≤ 0x5a) || (0x61 ≤ c.toNat && c.toNat ≤ 0x7a)

def newline : CodePoint := .char '\n'

/-- `.+$` of a regular expression: a last newline is left over, no other is taken. -/
def restOfLine (s : Str) : Option Str :=
  let line := if s.getLast? = some newline then s.dropLast else s
  if line = [] ∨ newline ∈ line then none else some line

/-- `_STARTUP_RE`: an id such as `SLUS_201.74`, a dot and a title. -/
def startupRe (stem : Str) : Option (Str × Str) :=
  let id := stem.take 11
  if stem.length < 12 then none
  else if (id.take 4).all isLetter && id[4]? = some (.char '_') &&
      ((id.drop 5).take 3).all (isDigit u) && id[8]? = some dot &&
      (id.drop 9).all (isDigit u) && stem[11]? = some dot then
    (restOfLine (stem.drop 12)).map fun title => (id, title)
  else none

/-- `parse_startup`. -/
def parseStartup (stem : Str) : Str × Str :=
  match startupRe u stem with
  | some (id, title) => (id.map CodePoint.asciiUpper, title)
  | none => (stem.take STARTUP_MAX, stem)

/-- `_utf8_prefix`: the longest prefix that encodes to at most `limit` bytes. -/
def utf8Prefix : Str → (limit : Nat) → Str
  | [], _ => []
  | c :: text, limit =>
      let size := (encodeReplace [c]).length
      if size ≤ limit then c :: utf8Prefix text (limit - size) else []

def mediaFor (implied : Option Media) (size : Nat) : Media :=
  implied.getD (if size ≤ CD_SIZE_LIMIT then .cd else .dvd)

def BLANKS : Str := lit " \t"

/-- A directory that is scanned, as its segments below the games folder, and the media it
implies. -/
structure Dir where
  segments : List FileName
  implied : Option Media

variable (cfg : Config)

def Dir.path (d : Dir) : Str := d.segments.foldl (fun p s => join p s.1) cfg.rootDir

/-- `os.path.relpath`. -/
def Dir.relDir (d : Dir) : Str :=
  if d.segments = [] then lit "." else joinSlash (d.segments.map Subtype.val)

variable (host : Host)

/-- `_contained`: no link leads out of the games folder. -/
def contained (path : Str) : Bool :=
  let real := host.realpath path
  real = cfg.rootDir || (cfg.rootDir.rdropWhile (· = slash) ++ [slash]).isPrefixOf real

/-- `_path_aware_entry`. The stem is part of the path, so it encodes when the path does. -/
def pathAwareEntry (d : Dir) (stem advertised path : Str) (size : Nat) (compressed : Bool) :
    Option GameEntry :=
  let relDir := d.relDir
  let relPath := if relDir = lit "." then advertised else relDir ++ [slash] ++ advertised
  if !contained cfg host path then none
  else if (encode relPath).isNone then none
  else
    let (startup, title) := parseStartup u stem
    let conventional := (startupRe u stem).isSome
    let startup := if conventional then startup
      else strip BLANKS (utf8Prefix (strip BLANKS stem) RIPTOPL_STARTUP_MAX)
    let title := strip BLANKS (utf8Prefix (strip BLANKS title) RIPTOPL_TITLE_MAX)
    some ⟨startup, advertised, path, mediaFor d.implied size, size, compressed, conventional,
      relPath, title⟩

/-- The end of `_entry_for`, for the flat profile. -/
def flatEntry (d : Dir) (stem advertised path : Str) (size : Nat) (compressed : Bool) :
    Option GameEntry :=
  if FILENAME_MAX < advertised.length then none
  else if (lit ",\n\r").any advertised.contains then none
  else
    some ⟨(parseStartup u stem).1, advertised, path, mediaFor d.implied size, size, compressed,
      (startupRe u stem).isSome, advertised, advertised⟩

/-- The name in `games.csv` and the size served, for a file with a game's extension. -/
def advertise (path stem ext : Str) : Option (Str × Nat × Bool) :=
  if ext ∈ decompressible cfg then
    (host.compressedInfo path).map fun size => (stem ++ lit ".iso", size, true)
  else if ext ∈ RAW_EXTENSIONS then
    (host.getsize path).map fun size =>
      (stem ++ (if ext = lit ".iso" then lit ".iso" else lit ".zso"), size, false)
  else none

/-- `_entry_for`. -/
def entryFor (d : Dir) (name : FileName) : Option GameEntry :=
  let path := join (d.path cfg) name.1
  let (stem, ext) := splitext name.1
  match advertise cfg host path stem (lower u ext) with
  | none => none
  | some (advertised, size, compressed) =>
      if !host.isfile path then none
      else if cfg.profile = .riptoplPathAware then
        pathAwareEntry u cfg host d stem advertised path size compressed
      else flatEntry u d stem advertised path size compressed

/-! ## Scanning -/

/-- `_walk_dirs`, for one directory: its children are put at the end of the result. -/
def walkDir (top : Bool) (acc : List Dir × List Dir) (d : Dir) : List Dir × List Dir :=
  match host.realDirs (d.path cfg) with
  | none => acc
  | some children =>
      let sorted := children.insertionSort fun a b => Text.le a.1 b.1
      let dirs := sorted.map fun child =>
        let name := child.1.map CodePoint.asciiUpper
        let implied := if top && name = lit "CD" then some .cd
          else if top && name = lit "DVD" then some .dvd
          else d.implied
        ⟨d.segments ++ [child], implied⟩
      let added := dirs.take (RECURSIVE_MAX_DIRS - acc.1.length)
      (acc.1 ++ added, acc.2 ++ added)

/-- The queue of `_walk_dirs` is worked off level by level. -/
def walkLevels : (depth : Nat) → (result level : List Dir) → List Dir
  | 0, result, _ => result
  | depth + 1, result, level =>
      let (result, next) :=
        level.foldl (walkDir cfg host (depth + 1 = RECURSIVE_MAX_DEPTH)) (result, [])
      walkLevels depth result next

/-- The directory with a name of `SCAN_DIRS`, in any letter case. The last one listed counts. -/
def namedDir (name : Str) (media : Media) : List Dir :=
  let listing := (host.listdir cfg.rootDir).getD []
  match listing.reverse.find? fun n => lower u n.1 = name with
  | none => []
  | some actual =>
      let d : Dir := ⟨[actual], some media⟩
      if host.isdir (d.path cfg) then [d] else []

/-- `_scan_dirs`. -/
def scanDirs : List Dir :=
  let root : Dir := ⟨[], none⟩
  if cfg.recursive then walkLevels cfg host RECURSIVE_MAX_DEPTH [root] [root]
  else
    root :: (namedDir u cfg host (lit "dvd") .dvd ++ namedDir u cfg host (lit "cd") .cd)

/-- A game and where it was found. -/
structure Found where
  dir : Dir
  name : FileName
  entry : GameEntry

/-- The games of the folder, in the order of the scan. -/
def found : List Found :=
  (scanDirs u cfg host).flatMap fun d =>
    match host.listdir (d.path cfg) with
    | none => []
    | some names =>
        (names.insertionSort fun a b => Text.le a.1 b.1).filterMap fun name =>
          (entryFor u cfg host d name).map fun entry => ⟨d, name, entry⟩

/-! ## The flat profile -/

structure FlatIndex where
  entries : List (Str × GameEntry)
  /-- The newest entry of a key is first. -/
  pathEntries : List (Str × GameEntry)
  ambiguousNames : List Str
  csv : Bytes
  deriving DecidableEq, Repr

/-- `csv_line`. -/
def GameEntry.csvLine (e : GameEntry) : Str :=
  e.startup ++ lit "," ++ e.advertised ++ lit "," ++ e.media.text

/-- A row of the list. -/
def GameEntry.csvRow (e : GameEntry) : Bytes := encodeReplace (e.csvLine ++ [newline])

/-- The rows that fit. -/
def addRow (body row : Bytes) : Bytes :=
  if GAMES_CSV_MAX < body.length + row.length then body else body ++ row

/-- `_build_csv`. -/
def buildCsv (entries : List GameEntry) : Bytes :=
  let sorted := entries.insertionSort fun a b =>
    Text.le (lower u a.advertised) (lower u b.advertised)
  (sorted.map GameEntry.csvRow).foldl addRow []

/-- What `_rebuild_flat` keeps of its loop. -/
structure Flat where
  entries : List (Str × GameEntry)
  pathEntries : List (Str × GameEntry)
  ambiguousNames : List Str

def backslash : CodePoint := .char '\\'

/-- The key of a file below `DVD` or `CD`. -/
def relPathKey (f : Found) : Str :=
  let relDir := f.dir.relDir.map fun c => if c = backslash then slash else c
  lower u (lstripSlash (normpath (join relDir f.name.1)))

/-- One round of `_rebuild_flat`. -/
def addFlat (acc : Flat) (f : Found) : Flat :=
  let key := lower u f.entry.advertised
  let pathEntries := if f.dir.relDir = lit "." then acc.pathEntries
    else (relPathKey u f, f.entry) :: acc.pathEntries
  if (acc.entries.lookup key).isSome then
    { acc with pathEntries := pathEntries, ambiguousNames := key :: acc.ambiguousNames }
  else
    { acc with pathEntries := pathEntries, entries := acc.entries ++ [(key, f.entry)] }

/-- The contents of a `games.csv` of the user's, when they are served. -/
def servedDiskCsv : Option Bytes :=
  match host.diskCsv with
  | some (some data) => if GAMES_CSV_MAX < data.length then none else some data
  | _ => none

/-- `_rebuild_flat`. -/
def rebuildFlat : FlatIndex :=
  let flat := (found u cfg host).foldl (addFlat u) ⟨[], [], []⟩
  { entries := flat.entries
    pathEntries := flat.pathEntries
    ambiguousNames := flat.ambiguousNames
    csv := (servedDiskCsv host).getD (buildCsv u (flat.entries.map Prod.snd)) }

/-- `lookup`. -/
def FlatIndex.lookup (index : FlatIndex) (name : Str) : Option GameEntry :=
  let clean := lower u (lstripSlash (normpath name))
  match index.pathEntries.lookup clean with
  | some entry => some entry
  | none =>
      let base := lower u (basename name)
      if base ∈ index.ambiguousNames then none else index.entries.lookup base

/-! ## The path-aware profile -/

structure PathIndex where
  exactPaths : List (Str × GameEntry)
  pathEntries : List (Str × GameEntry)
  ambiguousPaths : List Str
  csv : Bytes
  deriving DecidableEq, Repr

def quote : CodePoint := .char '"'

/-- `_csv_quote`. -/
def csvQuote (text : Str) : Str :=
  [quote] ++ (text.flatMap fun c => if c = quote then [quote, quote] else [c]) ++ [quote]

/-- `riptopl_csv_line`. -/
def GameEntry.riptoplCsvLine (e : GameEntry) : Str :=
  csvQuote e.startup ++ lit "," ++ csvQuote e.title ++ lit "," ++ e.media.text ++ lit "," ++
    csvQuote e.relPath

def isControl (c : CodePoint) : Bool := c.toNat < 0x20 || c.toNat = 0x7f

/-- `_RIPTOPL_UNRESERVED`. -/
def unreserved (b : UInt8) : Bool :=
  (0x41 ≤ b && b ≤ 0x5a) || (0x61 ≤ b && b ≤ 0x7a) || (0x30 ≤ b && b ≤ 0x39) ||
    b ∈ [0x2d, 0x5f, 0x2e, 0x7e, 0x2f]

/-- `riptopl_encoded_path`, of a path that encodes. -/
def riptoplEncodedPath (relPath : Str) : Bytes := percentEncode unreserved (encodeReplace relPath)

/-- Which field of a row a problem is in. -/
inductive Field
  | startup
  | title
  | path
  deriving DecidableEq, Repr

/-- Why RiptOPL would refuse a row. -/
inductive Problem
  | blanks (field : Field)
  | empty (field : Field)
  | control (field : Field)
  | encoding (field : Field)
  | size (field : Field) (limit : Nat)
  | url
  | absolute
  | backslash
  | emptySegment
  | parentSegment
  | extension
  | encodedSize
  deriving DecidableEq, Repr

def fieldProblem (field : Field) (value : Str) (limit : Nat) : Option Problem :=
  if value ≠ strip BLANKS value then some (.blanks field)
  else if value = [] then some (.empty field)
  else if value.any isControl then some (.control field)
  else
    match encode value with
    | none => some (.encoding field)
    | some bytes => if limit < bytes.length then some (.size field limit) else none

def segmentProblem (segments : List Str) : Option Problem :=
  segments.findSome? fun segment =>
    if segment = [] ∨ segment = lit "." then some .emptySegment
    else if segment = lit ".." then some .parentSegment
    else none

/-- `riptopl_row_problem`. -/
def riptoplRowProblem (startup title relPath : Str) : Option Problem :=
  (fieldProblem .startup startup RIPTOPL_STARTUP_MAX).or <|
  (fieldProblem .title title RIPTOPL_TITLE_MAX).or <|
  (fieldProblem .path relPath RIPTOPL_PATH_MAX).or <|
  if lit "://" <:+: relPath then some .url
  else if relPath.head? = some slash then some .absolute
  else if Http.backslash ∈ relPath then some .backslash
  else (segmentProblem (relPath.splitOn slash)).or <|
  let lowered := lower u relPath
  if ¬ (lit ".iso" <:+ lowered ∨ lit ".zso" <:+ lowered) ∨ relPath.length ≤ 4 then
    some .extension
  else if RIPTOPL_URI_MAX ≤ (riptoplEncodedPath relPath).length + RIPTOPL_BASE_PATH_MAX then
    some .encodedSize
  else none

/-- What `_build_riptopl_csv` has so far. -/
structure Rows where
  body : Bytes
  retained : List GameEntry
  dropped : Nat
  deriving DecidableEq, Repr

/-- One round of `_build_riptopl_csv`. A row that does not encode would raise. -/
def addRiptoplRow (acc : Rows) (e : GameEntry) : Option Rows :=
  if (riptoplRowProblem u e.startup e.title e.relPath).isSome then some acc
  else if e.startup ∈ acc.retained.map GameEntry.startup then some acc
  else
    (encode (e.riptoplCsvLine ++ [newline])).map fun line =>
      if RIPTOPL_CATALOG_ROWS_MAX ≤ acc.retained.length ∨
          RIPTOPL_CATALOG_BYTES_MAX < acc.body.length + line.length then
        { acc with dropped := acc.dropped + 1 }
      else { acc with body := acc.body ++ line, retained := acc.retained ++ [e] }

/-- The order of the rows. -/
def rowLe (a b : GameEntry) : Bool :=
  let la := lower u a.relPath
  let lb := lower u b.relPath
  if la = lb then Text.le a.relPath b.relPath else Text.le la lb

/-- `_build_riptopl_csv`. -/
def buildRiptoplCsv (entries : List GameEntry) : Option Rows :=
  (entries.insertionSort fun a b => rowLe u a b).foldlM (addRiptoplRow u) ⟨[], [], 0⟩

/-- The entries of a path that come first. -/
def addCandidate (acc : List GameEntry) (e : GameEntry) : List GameEntry :=
  if e.relPath ∈ acc.map GameEntry.relPath then acc else acc ++ [e]

/-- One round over the retained entries: the folded paths and the ambiguous keys. -/
def addFolded (acc : List (Str × GameEntry) × List Str) (e : GameEntry) :
    List (Str × GameEntry) × List Str :=
  let key := lower u e.relPath
  if (acc.1.lookup key).isSome then (acc.1, key :: acc.2) else (acc.1 ++ [(key, e)], acc.2)

/-- `_rebuild_path_aware`: the index and the entries it retains. -/
def rebuildPathAware : Option (PathIndex × List GameEntry) :=
  let candidates := ((found u cfg host).map Found.entry).foldl addCandidate []
  (buildRiptoplCsv u candidates).map fun rows =>
    let (folded, ambiguous) := rows.retained.foldl (addFolded u) ([], [])
    ({ exactPaths := rows.retained.map fun e => (e.relPath, e)
       pathEntries := folded.filter fun p => p.1 ∉ ambiguous
       ambiguousPaths := ambiguous
       csv := rows.body }, rows.retained)

/-- The suffixes of a path at its segments, longest first. -/
def suffixes : List Str → List (List Str)
  | [] => []
  | part :: parts => (part :: parts) :: suffixes parts

/-- `_lookup_path`. -/
def PathIndex.lookup (index : PathIndex) (name : Str) : Option GameEntry :=
  go (suffixes ((lstripSlash (normpath name)).splitOn slash))
where
  go : List (List Str) → Option GameEntry
  | [] => none
  | parts :: rest =>
      let candidate := joinSlash parts
      match index.exactPaths.lookup candidate with
      | some entry => some entry
      | none =>
          let key := lower u candidate
          if key ∈ index.ambiguousPaths then none
          else
            match index.pathEntries.lookup key with
            | some entry => some entry
            | none => go rest

/-! ## Requests -/

/-- `str.isspace`, for the characters of a request line. -/
def isBlank (c : CodePoint) : Bool :=
  (0x09 ≤ c.toNat && c.toNat ≤ 0x0d) || (0x1c ≤ c.toNat && c.toNat ≤ 0x20) ||
    c.toNat = 0x85 || c.toNat = 0xa0

/-- `self.path` after `parse_request`, for the bytes between `GET ` and ` HTTP/1.1`. More than
one word there is a bad request. -/
def requestPath (raw : Bytes) : Option Str :=
  match ((latin1 (raw.takeWhile (· ≠ 0x0a))).splitOnP isBlank).filter (· ≠ []) with
  | [path] =>
      some (if lit "//" <+: path then slash :: lstripSlash path else path)
  | _ => none

/-- The end of `_normalised_path`. -/
def normaliseDecoded (decoded : Str) : Option Str :=
  if nul ∈ decoded then none else some (lstripSlash (normpath decoded))

/-- `_normalised_path`. -/
def normalisedPath (path : Str) : Option Str :=
  let raw := (path.takeWhile (· ≠ .char '?')).takeWhile (· ≠ .char '#')
  (unquote raw).bind normaliseDecoded

/-- `_is_games_csv`. -/
def isGamesCsv (path : Str) : Bool := lower u (basename path) = lit "games.csv"

/-- What the request path resolves to. -/
inductive Target
  | bad
  | gamesCsv (payload : Bytes)
  | missing
  | game (entry : GameEntry)
  deriving DecidableEq, Repr

/-- What comes of a lookup. -/
def Target.ofLookup : Option GameEntry → Target
  | none => missing
  | some entry => game entry

/-- The first part of `_dispatch`. -/
def targetOf (csv : Bytes) (lookup : Str → Option GameEntry) (path : Str) : Target :=
  match normalisedPath path with
  | none => .bad
  | some name => if isGamesCsv u name then .gamesCsv csv else .ofLookup (lookup name)

def FlatIndex.target (index : FlatIndex) (path : Str) : Target :=
  targetOf u index.csv (index.lookup u) path

def PathIndex.target (index : PathIndex) (path : Str) : Target :=
  targetOf u index.csv (index.lookup u) path

end Ps2Servers.Http
