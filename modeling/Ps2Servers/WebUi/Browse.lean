import Ps2Servers.Lib.Links
import Ps2Servers.WebUi.Uci

/-!
# The file browser of the web UI

The directories that may be listed are derived once, from the flags and the configuration. A
request names a directory by an absolute path, which is cleaned, followed and compared with them.

## Implementation notes

The file system stands still during a request. `none` for the loaded configuration is an error of
the back end, or no configuration. The address of a path that is sent back is its components.
-/

namespace Ps2Servers.WebUi

open Links (Path FileSystem Entry)

variable {F : Type}

/-! ## The roots -/

/-- The flags of the server that browsing looks at. -/
structure BrowseConfig where
  browseRoots : List Bytes
  browseAnywhere : Bool
  noBrowse : Bool

/-- A word, and what is behind it. -/
def word : (fuel : Nat) → Bytes → Bytes × Bytes
  | 0, text => ([], text)
  | _ + 1, [] => ([], [])
  | fuel + 1, b :: rest =>
      if SPACES.any fun space => space.isPrefixOf (b :: rest) then ([], b :: rest)
      else (b :: (word fuel rest).1, (word fuel rest).2)

def fieldsFrom : (fuel : Nat) → Bytes → List Bytes
  | 0, _ => []
  | fuel + 1, text =>
      let text := trimStart SPACES text.length text
      if text = [] then []
      else (word text.length text).1 :: fieldsFrom fuel (word text.length text).2

/-- `strings.Fields`. -/
def fields (text : Bytes) : List Bytes := fieldsFrom (text.length + 1) text

/-- What is behind the first `=`. -/
def cutPath (entry : Bytes) : Option Bytes :=
  match entry.dropWhile (· ≠ 0x3d) with
  | [] => none
  | _ :: path => some path

def addRoot (roots : List Bytes) (p : Bytes) : List Bytes :=
  if p = [] ∨ roots.contains p then roots else roots ++ [p]

def browseRoots (cfg : BrowseConfig) (loaded : Option (EdgeConfig F)) : List Bytes :=
  if cfg.browseAnywhere then []
  else if cfg.browseRoots ≠ [] then cfg.browseRoots
  else
    match loaded with
    | none => []
    | some loaded =>
        ((fields loaded.smb.share).filterMap cutPath).foldl addRoot
          (addRoot [] loaded.udpfs.root)

/-! ## Requests -/

/-- The root that the path is under. -/
def underRoot (fs : FileSystem) (path : Path) : List Bytes → Option Path
  | [] => none
  | root :: rest =>
      let root := (fs.evalSymlinks (Path.ofText root)).getD (Path.ofText root)
      match root.rel path with
      | none => underRoot fs path rest
      | some rel =>
          if rel.head? ≠ some Links.dotdot then some root else underRoot fs path rest

/-- Without roots, every path is inside. -/
def withinBrowseRoots (fs : FileSystem) (roots : List Bytes) (path : Path) : Option Path :=
  if roots = [] then some ⟨false, []⟩
  else underRoot fs ((fs.evalSymlinks path).getD path) roots

structure BrowseEntry where
  name : Bytes
  isDir : Bool
  size : Int
  deriving DecidableEq

inductive Response
  | error (status : Nat) (message : String)
  | roots (roots : List Bytes)
  | listing (path : Path) (parent : Option Path) (items : List BrowseEntry) (roots : List Bytes)
  deriving DecidableEq

structure Request where
  isGet : Bool
  path : Bytes

/-- An entry that cannot be examined is left out. -/
def browseEntry (e : Entry) : Option BrowseEntry := e.info.map fun size => ⟨e.name, e.isDir, size⟩

/-- The listing of a clean path. -/
def listPath (fs : FileSystem) (roots : List Bytes) (path : Path) : Response :=
  match withinBrowseRoots fs roots path with
  | none => .error 403 "path is outside the configured server directories"
  | some root =>
      match fs.readDir path with
      | none => .error 404 "cannot list that directory"
      | some entries =>
          let parent :=
            if path.dir ≠ path ∧ path ≠ root ∧ (withinBrowseRoots fs roots path.dir).isSome then
              some path.dir
            else none
          .listing path parent (entries.filterMap browseEntry) roots

/-- The listing of a path of the request or of the configuration. -/
def browsePath (fs : FileSystem) (roots : List Bytes) (path : Bytes) : Response :=
  if (Path.ofText path).rooted then listPath fs roots (Path.ofText path).clean
  else .error 400 "Invalid path"

def handleBrowse (fs : FileSystem) (noBrowse : Bool) (roots : List Bytes) (r : Request) :
    Response :=
  if !r.isGet then .error 405 "Method not allowed"
  else if noBrowse then .error 403 "File browsing is disabled"
  else if r.path ≠ [] then browsePath fs roots r.path
  else
    match roots with
    | [] => browsePath fs roots [0x2f]
    | [root] => browsePath fs roots root
    | _ => .roots roots

/-- A request to a server that was started with the flags and what the back end loaded. -/
def browse (fs : FileSystem) (cfg : BrowseConfig) (loaded : Option (EdgeConfig F)) (r : Request) :
    Response :=
  handleBrowse fs cfg.noBrowse (browseRoots cfg loaded) r

end Ps2Servers.WebUi
