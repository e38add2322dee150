import Mathlib.Data.List.TakeWhile
import Ps2Servers.Smb1.Entries

/-!
# Listed names and opens

The client opens a file under the name that a listing has shown, behind the name of the folder. The
listing shows the ASCII characters of a name, so what comes back may be another name.

## Implementation notes

The file is there as it was when it was listed.
-/

namespace Ps2Servers.Smb1

open Effects Paging
open Struct (Item)

variable {F : Type} {files : Files F} {base : Ops (Files F) F} {cfg : Config}
  {s t : State (Files F) F} {r q : Req} {share : Share} {place : Place} {names : List String}

/-! ## Opens -/

/-- The name of a NT_CREATE_ANDX. -/
def createName (q : Req) : Name :=
  ascii (cString ((if q.data.head? = some 0 then q.data.tail else q.data).take (q.params.field 5 2)))

def createOptions (q : Req) : Nat := if 43 ≤ q.params.length then q.params.field 39 4 else 0

/-- An OPEN_ANDX, or a NT_CREATE_ANDX with FILE_OPEN that does not ask for a folder. -/
def OpensName (name : Name) (q : Req) : Prop :=
  q.cmd = .openAndx ∧ ascii (cString q.data) = name ∨
    q.cmd = .ntCreateAndx ∧ 39 ≤ q.params.length ∧ dispositionOf (q.params.field 35 4) = some .open_ ∧
      createOptions q &&& 1 = 0 ∧ createName q = name

/-- The length of the name is a field of 16 bits. -/
theorem length_createName_lt (q : Req) : (createName q).length < 0x10000 := by
  have hfield := Bytes.field_lt q.params 5 2
  have hascii : (createName q).length ≤ _ := List.length_filter_le _ _
  have hstring := (List.takeWhile_prefix (· ≠ 0)
    (l := (if q.data.head? = some 0 then q.data.tail else q.data).take (q.params.field 5 2))).length_le
  have htake := List.length_take_le (q.params.field 5 2)
    (if q.data.head? = some 0 then q.data.tail else q.data)
  have hlimit : 256 ^ 2 = 0x10000 := rfl
  unfold cString at hascii
  omega

/-- Where the reply to an open has the FID. -/
def numberAt : Command → Nat
  | .ntCreateAndx => 5
  | _ => 4

/-- Where the reply to an open has the size, and in how many bytes. -/
def sizeAt : Command → Nat × Nat
  | .ntCreateAndx => (55, 8)
  | _ => (12, 4)

/-- A request opens the file of a path, and the size of the file and of the reply is the one that was
shown. -/
def Opened {H F : Type} (ops : Ops H F) (cfg : Config) (s : State H F) (q : Req) (path : String)
    (size : Nat) : Prop :=
  ∃ reply t file, handle ops cfg q s = .ok reply t ∧ reply.status = STATUS_SUCCESS ∧
    t.conn.files.lookup (reply.params.field (numberAt q.cmd) 2) = some file ∧
    file.path = path ∧ file.isDir = false ∧ file.size = size ∧
    reply.params.field (sizeAt q.cmd).1 (sizeAt q.cmd).2 = size

/-- What an open finds at the end of a path. -/
structure Present (files : Files F) (share : Share) (name : Name) (path : String) (info : Info) : Prop where
  resolve : files.resolve share name = some path
  stat : files.stat (partsOf path) = some info
  isFile : info.isFile
  openRead : (files.openRead (partsOf path)).isSome

variable {name : Name} {path : String} {info : Info}

/-- The connection with another open file. -/
def addingFile (s : State (Files F) F) (file : OpenFile F) : State (Files F) F :=
  { s with conn := { s.conn with
    nextFid := allocate s.conn.nextFid 0x1000
    files := store s.conn.files (allocate s.conn.nextFid 0x1000) file } }

theorem addFile_ok (s : State (Files F) F) (file : OpenFile F) :
    addFile file s = .ok (allocate s.conn.nextFid 0x1000) (addingFile s file) := rfl

/-- The words of the reply to an OPEN_ANDX. -/
def openItems (fid size : Nat) : List Item :=
  [.B 0xff, .B 0, .H 0, .H fid, .H 0, .I 0, .I (size % 0x100000000), .H 0, .H 0, .H 0, .H 1, .I 0, .H 0]

/-- The words of the reply to a NT_CREATE_ANDX. -/
def createItems (fid action t attributes size kind : Nat) : List Item :=
  [.B 0xff, .B 0, .H 0, .B 0, .H fid, .I action, .q t, .q t, .q t, .q t, .I attributes, .Q size, .Q size,
    .H 0, .H 0, .B kind]

theorem field_openItems {fid : Nat} (hfid : fid < 0x10000) (size : Nat) :
    Bytes.field ((openItems fid size).flatMap Item.bytes) 4 2 = fid ∧
      Bytes.field ((openItems fid size).flatMap Item.bytes) 12 4 = size % 0x100000000 := by
  constructor
  · have hfield := @field_behind ([Item.B 0xff, .B 0, .H 0].flatMap Item.bytes)
      ([Item.H 0, .I 0, .I (size % 0x100000000), .H 0, .H 0, .H 0, .H 1, .I 0, .H 0].flatMap Item.bytes) 4 rfl
      2 fid
    exact hfield.trans (Nat.mod_eq_of_lt hfid)
  · have hfield := @field_behind ([Item.B 0xff, .B 0, .H 0, .H fid, .H 0, .I 0].flatMap Item.bytes)
      ([Item.H 0, .H 0, .H 0, .H 1, .I 0, .H 0].flatMap Item.bytes) 12 rfl 4 (size % 0x100000000)
    exact hfield.trans (Nat.mod_mod _ _)

theorem field_createItems {fid : Nat} (hfid : fid < 0x10000) (action t attributes size kind : Nat) :
    Bytes.field ((createItems fid action t attributes size kind).flatMap Item.bytes) 5 2 = fid ∧
      Bytes.field ((createItems fid action t attributes size kind).flatMap Item.bytes) 55 8 =
        size % 256 ^ 8 := by
  constructor
  · have hfield := @field_behind ([Item.B 0xff, .B 0, .H 0, .B 0].flatMap Item.bytes)
      ([Item.I action, .q t, .q t, .q t, .q t, .I attributes, .Q size, .Q size, .H 0, .H 0,
        .B kind].flatMap Item.bytes) 5 rfl 2 fid
    exact hfield.trans (Nat.mod_eq_of_lt hfid)
  · exact @field_behind ([Item.B 0xff, .B 0, .H 0, .B 0, .H fid, .I action, .q t, .q t, .q t, .q t,
      .I attributes, .Q size].flatMap Item.bytes) ([Item.H 0, .H 0, .B kind].flatMap Item.bytes) 55 rfl 8 size

/-- The file object of what is found. -/
theorem Present.newOpenFile (h : Present files share name path info) :
    ∃ fh, newOpenFile (Files.ops base) files path false = some ⟨path, false, info.size, some fh⟩ := by
  obtain ⟨fh, hfh⟩ := Option.isSome_iff_exists.mp h.openRead
  have hstat : (Files.ops base).stat files path = some info := h.stat
  have hopen : (Files.ops base).openRead files path = some fh := hfh
  refine ⟨fh, ?_⟩
  rw [Smb1.newOpenFile, hstat, hopen]
  rfl

/-- An OPEN_ANDX of what is there. -/
theorem handle_openAndx (hcmd : q.cmd = .openAndx) (hname : ascii (cString q.data) = name)
    (hshare : shareForTid s.conn q = some share) (h : Present s.host share name path info) :
    ∃ fh, handle (Files.ops base) cfg q s =
      .ok (.done ((openItems (allocate s.conn.nextFid 0x1000) info.size).flatMap Item.bytes) [])
        (addingFile s ⟨path, false, info.size, some fh⟩) := by
  obtain ⟨fh, hnew⟩ := @Present.newOpenFile F s.host base share name path info h
  have hresolve : (Files.ops base).resolve s.host share (ascii (cString q.data)) = some path := by
    rw [hname]
    exact h.resolve
  have hstat : (Files.ops base).stat s.host path = some info := h.stat
  have hfid := allocate_lt s.conn.nextFid 0x1000 (by decide)
  have hfits : (openItems (allocate s.conn.nextFid 0x1000) info.size).all Item.fits := by
    have hsmall : info.size % 0x100000000 < 0x100000000 := Nat.mod_lt _ (by decide)
    simp [openItems, Item.fits, hfid, hsmall]
  refine ⟨fh, ?_⟩
  unfold handle
  rw [hcmd]
  change hOpenAndx (Files.ops base) q s = _
  unfold hOpenAndx
  rw [get_bind]
  simp only [hshare, hresolve, Option.bind_some, hstat, h.isFile, if_true, hnew]
  refine (bind_ok rfl).trans ?_
  refine (bind_ok (addFile_ok s _)).trans ?_
  exact (bind_ok (pack_ok hfits _)).trans rfl

theorem opened_openAndx (hcmd : q.cmd = .openAndx) (hname : ascii (cString q.data) = name)
    (hshare : shareForTid s.conn q = some share) (h : Present s.host share name path info)
    (hsmall : info.size < 0x100000000) : Opened (Files.ops base) cfg s q path info.size := by
  obtain ⟨fh, hrun⟩ := @handle_openAndx F base cfg s q share name path info hcmd hname hshare h
  obtain ⟨hfid, hsize⟩ := field_openItems (allocate_lt s.conn.nextFid 0x1000 (by decide)) info.size
  refine ⟨_, _, ⟨path, false, info.size, some fh⟩, hrun, rfl, ?_, rfl, rfl, rfl, ?_⟩
  · rw [hcmd]
    exact (congrArg (fun fid => List.lookup fid _) hfid).trans List.lookup_cons_self
  · rw [hcmd]
    exact hsize.trans (Nat.mod_eq_of_lt hsmall)

/-- What a NT_CREATE_ANDX does to a host when it opens what is there. -/
theorem ntCreate_open {host : Files F} (h : (Files.ops base).stat host path = some info) :
    ntCreate (Files.ops base) cfg host path .open_ false = .ok (1, host) := by
  rw [ntCreate, h]
  rfl

/-- A NT_CREATE_ANDX of what is there comes to the file object and its reply. -/
theorem handle_ntCreateAndx (hcmd : q.cmd = .ntCreateAndx) (hwords : 39 ≤ q.params.length)
    (hdisposition : dispositionOf (q.params.field 35 4) = some .open_)
    (hoptions : createOptions q &&& 1 = 0) (hname : createName q = name)
    (hshare : shareForTid s.conn q = some share) (h : Present s.host share name path info) :
    ∃ fh, handle (Files.ops base) cfg q s =
      (pack (createItems (allocate s.conn.nextFid 0x1000) 1 info.filetime (attributes false) info.size 0) >>=
        fun params => pure (.done params [])) (addingFile s ⟨path, false, info.size, some fh⟩) := by
  obtain ⟨fh, hnew⟩ := @Present.newOpenFile F s.host base share name path info h
  have hresolve : (Files.ops base).resolve s.host share (createName q) = some path := by
    rw [hname]
    exact h.resolve
  have hstat : (Files.ops base).stat s.host path = some info := h.stat
  have hdir := s.host.stat_isFile _ info h.stat h.isFile
  have hshort : ¬ q.params.length < 39 := by omega
  have hask : (createOptions q &&& 1 != 0) = false := by
    rw [hoptions]
    rfl
  refine ⟨fh, ?_⟩
  unfold createName at hresolve
  unfold createOptions at hask
  unfold handle
  rw [hcmd]
  change hNtCreateAndx (Files.ops base) cfg q s = _
  unfold hNtCreateAndx
  rw [get_bind]
  simp only [hshare, hshort, if_false, hdisposition, hresolve, hask, ntCreate_open hstat]
  refine (bind_ok (set_apply _ _)).trans ?_
  unfold openCreated
  simp only [hstat, Option.map_some, Option.getD_some, hdir, hnew]
  exact bind_ok (addFile_ok s _)

/-- The words of its reply can be held exactly if size and time can. -/
theorem fits_createItems (s : State (Files F) F) (info : Info) :
    (createItems (allocate s.conn.nextFid 0x1000) 1 info.filetime (attributes false) info.size 0).all
      Item.fits = true ↔ info.filetime < 0x8000000000000000 ∧ info.size < 0x10000000000000000 := by
  have hfid := allocate_lt s.conn.nextFid 0x1000 (by decide)
  simp [createItems, Item.fits, hfid, attributes, ATTR_NORMAL]

theorem opened_ntCreateAndx (hcmd : q.cmd = .ntCreateAndx) (hwords : 39 ≤ q.params.length)
    (hdisposition : dispositionOf (q.params.field 35 4) = some .open_)
    (hoptions : createOptions q &&& 1 = 0) (hname : createName q = name)
    (hshare : shareForTid s.conn q = some share) (h : Present s.host share name path info)
    (htime : info.filetime < 0x8000000000000000) (hsmall : info.size < 0x100000000) :
    Opened (Files.ops base) cfg s q path info.size := by
  obtain ⟨fh, hrun⟩ := @handle_ntCreateAndx F base cfg s q share name path info hcmd hwords hdisposition
    hoptions hname hshare h
  have hfits := (fits_createItems s info).mpr ⟨htime, by omega⟩
  obtain ⟨hfid, hsize⟩ := field_createItems (allocate_lt s.conn.nextFid 0x1000 (by decide)) 1
    info.filetime (attributes false) info.size 0
  refine ⟨_, _, ⟨path, false, info.size, some fh⟩, hrun.trans ((bind_ok (pack_ok hfits _)).trans rfl), rfl,
    ?_, rfl, rfl, rfl, ?_⟩
  · rw [hcmd]
    exact (congrArg (fun fid => List.lookup fid _) hfid).trans List.lookup_cons_self
  · rw [hcmd]
    exact hsize.trans (Nat.mod_eq_of_lt (by omega))

/-- What a NT_CREATE_ANDX that opens a file has sent. -/
theorem time_of_opened {size : Nat} (hcmd : q.cmd = .ntCreateAndx) (hwords : 39 ≤ q.params.length)
    (hdisposition : dispositionOf (q.params.field 35 4) = some .open_)
    (hoptions : createOptions q &&& 1 = 0) (hname : createName q = name)
    (hshare : shareForTid s.conn q = some share) (h : Present s.host share name path info)
    (hopened : Opened (Files.ops base) cfg s q path size) : info.filetime < 0x8000000000000000 := by
  obtain ⟨fh, hrun⟩ := @handle_ntCreateAndx F base cfg s q share name path info hcmd hwords hdisposition
    hoptions hname hshare h
  obtain ⟨reply, t, -, hok, -⟩ := hopened
  obtain ⟨params, u, hpack, -⟩ := bind_ok_iff.mp (hrun.symm.trans hok)
  unfold pack Struct.pack at hpack
  split at hpack
  · rename_i hall
    exact ((fits_createItems s info).mp hall).1
  · cases hpack

/-- What an OPEN_ANDX has found when it opens a file. -/
theorem present_of_opened {size : Nat} (hcmd : q.cmd = .openAndx) (hname : ascii (cString q.data) = name)
    (hshare : shareForTid s.conn q = some share) (h : Opened (Files.ops base) cfg s q path size) :
    ∃ info, Present s.host share name path info ∧ info.size = size ∧ size < 0x100000000 := by
  obtain ⟨reply, t, file, hrun, hstatus, hfile, rfl, -, hfsize, hfield⟩ := h
  have hhandle := hrun
  unfold handle at hhandle
  rw [hcmd] at hhandle
  change hOpenAndx (Files.ops base) q s = _ at hhandle
  unfold hOpenAndx at hhandle
  rw [get_bind] at hhandle
  simp only [hshare, hname] at hhandle
  have hfail {s : State (Files F) F} (heq : (pure (.fail STATUS_OBJECT_NAME_NOT_FOUND) :
      Handler (Files F) F Reply) s = .ok reply t) : False := by
    cases heq
    exact absurd hstatus (by decide)
  cases hresolve : (Files.ops base).resolve s.host share name with
  | none =>
      rw [hresolve] at hhandle
      exact absurd hhandle hfail
  | some found =>
      rw [hresolve] at hhandle
      simp only [Option.bind_some] at hhandle
      cases hstat : (Files.ops base).stat s.host found with
      | none =>
          rw [hstat] at hhandle
          exact absurd hhandle hfail
      | some info =>
          rw [hstat] at hhandle
          dsimp only at hhandle
          split at hhandle
          · rename_i hisFile
            cases hopen : s.host.openRead (partsOf found) with
            | none =>
                have hnew : newOpenFile (Files.ops base) s.host found false = none := by
                  have hread : (Files.ops base).openRead s.host found = none := hopen
                  rw [newOpenFile, hstat, hread]
                  rfl
                rw [hnew] at hhandle
                cases hhandle
            | some fh =>
                have hpresent : Present s.host share name found info :=
                  ⟨hresolve, hstat, hisFile, Option.isSome_iff_exists.mpr ⟨fh, hopen⟩⟩
                obtain ⟨fh', hrun'⟩ :=
                  @handle_openAndx F base cfg s q share name found info hcmd hname hshare hpresent
                cases hrun.symm.trans hrun'
                have hfields := field_openItems (allocate_lt s.conn.nextFid 0x1000 (by decide)) info.size
                rw [hcmd] at hfile hfield
                have hlookup := (congrArg (fun fid => List.lookup fid (addingFile s
                  ⟨found, false, info.size, some fh'⟩).conn.files) hfields.1).trans List.lookup_cons_self
                cases hfile.symm.trans hlookup
                refine ⟨info, hpresent, hfsize, ?_⟩
                rw [← hfield]
                exact hfields.2.trans_lt (Nat.mod_lt _ (by decide))
          · exact absurd hhandle hfail

/-! ## Names that come back -/

/-- The name of a folder with the name that is shown of an entry. -/
def sent (dir : Name) (n : String) : Name := dir ++ BACKSLASH :: encodeAscii n

/-- An entry that is shown as a file can be opened as such. NT_CREATE_ANDX, which sends the time, has 16
bits for the length of the name. -/
structure Reached (files : Files F) (share : Share) (dir : Name) (place : Place) (n : String) : Prop where
  leads : files.realpath (Files.placeOf share (sent dir n)) = files.realpath (place ++ [n])
  inside : (partsOf share.root).isPrefixOf (files.realpath (place ++ [n]))
  readable : (files.openRead (files.realpath (place ++ [n]))).isSome
  file : ∃ info ∈ files.stat (files.realpath (place ++ [n])), info.isFile ∧
    info.size = sizeShown files (place ++ [n]) ∧ info.size < 0x100000000 ∧
    ((sent dir n).length < 0x10000 → info.filetime < 0x8000000000000000)

/-- The folders whose listings agree with opens. -/
structure Openable (files : Files F) (share : Share) (dir : Name) (place : Place) (names : List String) :
    Prop where
  recorded : Recorded files place names
  distinct : (shownNames names).Nodup
  reached : ∀ n ∈ names, ¬ (files.stat (place ++ [n])).any Info.isDir → Reached files share dir place n

/-- The listing of a folder, and what comes of its names. -/
def Agrees (base : Ops (Files F) F) (cfg : Config) (s : State (Files F) F) (r : Req) (nexts : List Req)
    (share : Share) (place : Place) (names : List String) : Prop :=
  ∃ first replies t, converse (Files.ops base) cfg s (r :: nexts) = some (first :: replies, t) ∧
    let pages := pageOf 2 first :: replies.map (pageOf 0)
    (pages.map Page.name).take 2 = [encodeAscii ".", encodeAscii ".."] ∧
    pages.map Page.count = List.replicate (names.length + 2) 1 ∧
    (pages.map Page.name).Nodup ∧
    pages.map Page.ended = List.replicate (names.length + 1) false ++ [true] ∧
    ∀ i n reply, (names.mergeSort fun a b => decide (a ≤ b))[i]? = some n → replies[i + 1]? = some reply →
      showsDir reply = false → ∀ u q, u.host = s.host → shareForTid u.conn q = some share →
        OpensName (dirOf r ++ BACKSLASH :: (pageOf 0 reply).name) q →
        Opened (Files.ops base) cfg u q (pathOf (s.host.realpath (place ++ [n]))) (shownSize reply)

/-- The characters of a name that are sent. -/
def asciiPart (n : String) : String := String.ofList (n.toList.filter (·.toNat < 128))

theorem toStr_encodeAscii (n : String) : toStr (encodeAscii n) = asciiPart n := by
  unfold toStr encodeAscii asciiPart
  rw [List.map_map]
  congr 1
  conv => rhs; rw [← List.map_id (List.filter _ _)]
  apply List.map_congr_left
  intro c hc
  have hsmall := of_decide_eq_true (List.mem_filter.mp hc).2
  change Char.ofNat (UInt8.ofNat c.toNat).toNat = c
  rw [UInt8.toNat_ofNat', Nat.mod_eq_of_lt (by omega)]
  exact Char.ofNat_toNat c

theorem forward_encodeAscii {n : String} (h : '\\' ∉ n.toList) : forward (encodeAscii n) = encodeAscii n := by
  unfold forward
  conv => rhs; rw [← List.map_id (encodeAscii n)]
  apply List.map_congr_left
  intro b hb
  apply if_neg
  rintro rfl
  unfold encodeAscii at hb
  obtain ⟨c, hc, hbyte⟩ := List.mem_map.mp hb
  obtain ⟨hmem, hsmall⟩ := List.mem_filter.mp hc
  have hnat : c.toNat = 0x5c := by
    have hsmall := of_decide_eq_true hsmall
    have hbyte := congrArg UInt8.toNat hbyte
    rw [UInt8.toNat_ofNat', Nat.mod_eq_of_lt (by omega)] at hbyte
    exact hbyte
  apply h
  have heq : c = '\\' := by
    rw [← Char.ofNat_toNat c, hnat]
  rw [← heq]
  exact hmem

/-- An ASCII name is the one that comes back. -/
theorem asciiPart_eq {n : String} (h : ∀ c ∈ n.toList, c.toNat < 128) : asciiPart n = n := by
  have hall : n.toList.filter (·.toNat < 128) = n.toList :=
    List.filter_eq_self.mpr fun c hc => decide_eq_true (h c hc)
  rw [asciiPart, hall, String.ofList_toList]

/-- In a folder that is there under its name, an entry with an ASCII name without backslashes comes back
as itself. -/
theorem Finds.leads_of_ascii (h : Finds s r share place names)
    (hdir : (s.host.stat (Files.placeOf share (dirOf r))).any Info.isDir) {n : String} (hn : Part n)
    (hascii : ∀ c ∈ n.toList, c.toNat < 128) (hback : '\\' ∉ n.toList) :
    s.host.realpath (Files.placeOf share (sent (dirOf r) n)) = s.host.realpath (place ++ [n]) := by
  have hpieces : partsOf (toStr (forward (encodeAscii n))) = [n] := by
    rw [forward_encodeAscii hback, toStr_encodeAscii, asciiPart_eq hascii, partsOf_part hn]
  rw [sent, placeOf_append, s.host.realpath_append _ _ hdir, h.leads, hpieces]

/-! ## Listing and opening -/

/-- A request that opens a name. -/
def openRequest (tid : Nat) (name : Name) : Req := ⟨0x2d, tid, 0, 0, 0, 0, [], name, []⟩

theorem ascii_cString {name : Name} (h : ∀ b ∈ name, b ≠ 0 ∧ b < 0x80) : ascii (cString name) = name := by
  have hwhole : cString name = name := List.takeWhile_eq_self_iff.mpr fun b hb => by
    simpa using (h b hb).1
  rw [hwhole]
  exact List.filter_eq_self.mpr fun b hb => decide_eq_true (h b hb).2

theorem plain_of_mem_cString {bytes : Bytes} {b : UInt8} (h : b ∈ ascii (cString bytes)) :
    b ≠ 0 ∧ b < 0x80 := by
  obtain ⟨hmem, hsmall⟩ := List.mem_filter.mp h
  unfold cString at hmem
  have hne := List.mem_takeWhile_imp hmem
  exact ⟨by simpa using hne, of_decide_eq_true hsmall⟩

theorem plain_of_mem_dirOf {b : UInt8} (h : b ∈ dirOf r) : b ≠ 0 ∧ b < 0x80 := by
  have hpath : ∀ b ∈ backslashes (ascii (cString (r.trans2Params.drop 12))), b ≠ 0 ∧ b < 0x80 := by
    intro b hb
    obtain ⟨c, hc, rfl⟩ := List.mem_map.mp hb
    split
    · decide
    · exact plain_of_mem_cString hc
  unfold dirOf searchDir at h
  dsimp only at h
  split at h
  · exact hpath b (List.mem_of_mem_take h)
  · split at h
    · exact hpath b (List.mem_of_mem_take h)
    · exact hpath b h

theorem plain_of_mem_encodeAscii {n : String} (hn : Entry n) {b : UInt8} (h : b ∈ encodeAscii n) :
    b ≠ 0 ∧ b < 0x80 := by
  unfold encodeAscii at h
  obtain ⟨c, hc, rfl⟩ := List.mem_map.mp h
  obtain ⟨hmem, hsmall⟩ := List.mem_filter.mp hc
  have hsmall := of_decide_eq_true hsmall
  have hnat : (UInt8.ofNat c.toNat).toNat = c.toNat := by
    rw [UInt8.toNat_ofNat', Nat.mod_eq_of_lt (by omega)]
  constructor
  · intro hzero
    have hc : c.toNat = 0 := by
      rw [← hnat, hzero]
      rfl
    apply hn.nul
    have heq : c = '\x00' := by
      rw [← Char.ofNat_toNat c, hc]
    rw [← heq]
    exact hmem
  · rw [UInt8.lt_iff_toNat_lt, hnat]
    exact hsmall

/-- A request that creates a name, or opens it. -/
def createRequest (tid : Nat) (name : Name) : Req :=
  ⟨0xa2, tid, 0, 0, 0, 0, List.replicate 5 0 ++ (Bytes.ofNat 2 name.length ++
    (List.replicate 28 0 ++ Bytes.ofNat 4 1)), name, []⟩

theorem opensName_createRequest {tid : Nat} {name : Name} (hplain : ∀ b ∈ name, b ≠ 0 ∧ b < 0x80)
    (hlength : name.length < 0x10000) :
    39 ≤ (createRequest tid name).params.length ∧
      dispositionOf ((createRequest tid name).params.field 35 4) = some .open_ ∧
      createOptions (createRequest tid name) &&& 1 = 0 ∧ createName (createRequest tid name) = name := by
  have hwords : (createRequest tid name).params.length = 39 := by simp [createRequest]
  have hcount : (createRequest tid name).params.field 5 2 = name.length :=
    (@field_behind (List.replicate 5 0) (List.replicate 28 0 ++ Bytes.ofNat 4 1) 5 rfl 2 name.length).trans
      (Nat.mod_eq_of_lt hlength)
  have hdisposition : (createRequest tid name).params.field 35 4 = 1 := by
    have hfield := @field_behind (List.replicate 5 0 ++ (Bytes.ofNat 2 name.length ++ List.replicate 28 0))
      [] 35 (by simp) 4 1
    rw [List.append_nil, List.append_assoc, List.append_assoc] at hfield
    exact hfield.trans (Nat.mod_eq_of_lt (by decide))
  have hhead : name.head? ≠ some 0 := fun h => (hplain 0 (List.mem_of_head? h)).1 rfl
  refine ⟨Nat.le_of_eq hwords.symm, by rw [hdisposition]; rfl, ?_, ?_⟩
  · rw [createOptions, if_neg (by omega)]
    rfl
  · rw [createName, hcount]
    show ascii (cString ((if name.head? = some 0 then name.tail else name).take name.length)) = name
    rw [if_neg hhead, List.take_length, ascii_cString hplain]

/-- What a name of the folder that leads somewhere says. -/
theorem Files.resolve_eq_some {full : Place} (hresolve : files.resolve share name = some (pathOf full))
    (hproper : ∀ m ∈ full, Part m) :
    (partsOf share.root).isPrefixOf full ∧ files.realpath (Files.placeOf share name) = full := by
  rw [files.resolve_eq] at hresolve
  split at hresolve
  · rename_i hinside
    have hpath := congrArg partsOf (Option.some.inj hresolve)
    have hreal : ∀ m ∈ files.realpath (Files.placeOf share name), Part m :=
      files.part_realpath _ fun m hm => Files.part_of_mem_placeOf hm
    rw [Smb1.partsOf_pathOf hproper, Smb1.partsOf_pathOf hreal] at hpath
    rw [hpath] at hinside
    exact ⟨hinside, hpath⟩
  · cases hresolve

theorem Finds.part_append (h : Finds s r share place names) {n : String} (hn : Entry n) :
    ∀ m ∈ s.host.realpath (place ++ [n]), Part m := by
  apply s.host.part_realpath
  intro m hm
  rcases List.mem_append.mp hm with hm | hm
  · exact h.part m hm
  · rw [List.mem_singleton.mp hm]
    exact hn.part

/-- An entry that comes back is there. -/
theorem Finds.present (h : Finds s r share place names) {n : String} (hn : Entry n)
    (hreached : Reached s.host share (dirOf r) place n) :
    ∃ info, Present s.host share (sent (dirOf r) n) (pathOf (s.host.realpath (place ++ [n]))) info ∧
      info.size = sizeShown s.host (place ++ [n]) ∧ info.size < 0x100000000 ∧
      ((sent (dirOf r) n).length < 0x10000 → info.filetime < 0x8000000000000000) := by
  have hreal := Smb1.partsOf_pathOf (h.part_append hn)
  obtain ⟨info, hinfo, hisFile, hsize, hsmall, htime⟩ := hreached.file
  refine ⟨info, ⟨?_, ?_, hisFile, ?_⟩, hsize, hsmall, htime⟩
  · rw [s.host.resolve_eq, hreached.leads, if_pos hreached.inside]
  · rw [hreal]
    exact hinfo
  · rw [hreal]
    exact hreached.readable

/-- An entry that opens under what is shown of it comes back. -/
theorem Finds.reached (h : Finds s r share place names) {n : String} (hn : Entry n)
    (hopens : ∀ q, shareForTid s.conn q = some share → OpensName (sent (dirOf r) n) q →
      Opened (Files.ops base) cfg s q (pathOf (s.host.realpath (place ++ [n])))
        (sizeShown s.host (place ++ [n]))) :
    Reached s.host share (dirOf r) place n := by
  have hplain : ∀ b ∈ sent (dirOf r) n, b ≠ 0 ∧ b < 0x80 := by
    intro b hb
    rcases List.mem_append.mp hb with hb | hb
    · exact plain_of_mem_dirOf hb
    · rcases List.mem_cons.mp hb with rfl | hb
      · decide
      · exact plain_of_mem_encodeAscii hn hb
  have hname := ascii_cString hplain
  have hproper := h.part_append hn
  have hreal := Smb1.partsOf_pathOf hproper
  obtain ⟨info, hpresent, hsize, hsmall⟩ := present_of_opened (q := openRequest r.tid (sent (dirOf r) n))
    rfl hname h.tree (hopens (openRequest r.tid (sent (dirOf r) n)) h.tree (Or.inl ⟨rfl, hname⟩))
  obtain ⟨hinside, hleads⟩ := Files.resolve_eq_some hpresent.resolve hproper
  have hstat := hpresent.stat
  have hread := hpresent.openRead
  rw [hreal] at hstat hread
  refine ⟨hleads, hinside, hread, info, hstat, hpresent.isFile, hsize, hsize ▸ hsmall, ?_⟩
  intro hlength
  obtain ⟨hwords, hdisposition, hoptions, hcreate⟩ :=
    opensName_createRequest hplain hlength
  exact time_of_opened (q := createRequest r.tid (sent (dirOf r) n)) rfl hwords hdisposition hoptions
    hcreate h.tree hpresent (hopens (createRequest r.tid (sent (dirOf r) n)) h.tree
      (Or.inr ⟨rfl, hwords, hdisposition, hoptions, hcreate⟩))

/-- A folder whose listing agrees with opens. -/
theorem Agrees.openable {nexts : List Req} (h : Finds s r share place names)
    (hnexts : ∀ q ∈ nexts, Asks (allocate s.conn.nextSid 1) q) (hlength : nexts.length = names.length + 1)
    (hagrees : Agrees base cfg s r nexts share place names) :
    Openable s.host share (dirOf r) place names := by
  obtain ⟨first, replies, t, hrun, -, -, hnodup, -, hopens⟩ := hagrees
  obtain ⟨hrecorded, hreplies⟩ := (converse_listing_iff h hnexts hlength).mp ⟨t, hrun⟩
  cases hreplies
  rw [pages_listing, map_name_listing, nodup_shownNames] at hnodup
  refine ⟨hrecorded, hnodup, ?_⟩
  intro n hn hfile
  have hentry := s.host.listDir_entry place names h.listed n hn
  obtain ⟨i, hi⟩ := List.mem_iff_getElem?.mp
    ((List.mergeSort_perm names fun a b => decide (a ≤ b)).mem_iff.mpr hn)
  have hlt : i + 1 < ((marked (entriesAt place names).tail).map (nextReply s.host base)).length := by
    obtain ⟨hi, -⟩ := List.getElem?_eq_some_iff.mp hi
    rw [List.length_mergeSort] at hi
    rw [List.length_map, length_marked, length_tail_entriesAt]
    omega
  obtain ⟨last, hreply⟩ := reply_of_entry hi (List.getElem?_eq_getElem hlt)
  obtain ⟨hshowsDir, hshownSize⟩ := @Finds.shown F base s r share place names h n hentry
    (hrecorded.2 n hn) last
  apply h.reached hentry
  intro q htree hq
  have hopened := hopens i n _ hi (List.getElem?_eq_getElem hlt)
    (by rw [hreply, hshowsDir]; exact eq_false_of_ne_true hfile) s q rfl htree
    (by rw [hreply, pageOf_nextReply]; exact hq)
  rwa [hreply, hshownSize] at hopened

/-- The listing of a folder agrees with opens if and only if its names come back. -/
theorem agrees_iff (base : Ops (Files F) F) (cfg : Config) (s : State (Files F) F) (r : Req)
    (nexts : List Req) (share : Share) (place : Place) (names : List String)
    (h : Finds s r share place names) (hnexts : ∀ q ∈ nexts, Asks (allocate s.conn.nextSid 1) q)
    (hlength : nexts.length = names.length + 1) :
    Agrees base cfg s r nexts share place names ↔ Openable s.host share (dirOf r) place names := by
  constructor
  · exact fun hagrees => hagrees.openable h hnexts hlength
  · intro hopenable
    obtain ⟨t, hrun⟩ := (@converse_listing_iff F base cfg s r share place names nexts h hnexts hlength
      _).mpr ⟨hopenable.recorded, rfl⟩
    refine ⟨_, _, t, hrun, ?_, ?_, ?_, ?_, ?_⟩
    · rw [pages_listing, map_name_listing]
      rfl
    · rw [pages_listing, map_count_listing]
    · rw [pages_listing, map_name_listing, nodup_shownNames]
      exact hopenable.distinct
    · rw [pages_listing, map_ended_listing]
    · intro i n reply hn hreply hfile u q hhost htree hopens
      have hmem : n ∈ names := List.mem_mergeSort.mp (List.mem_of_getElem? hn)
      have hentry := s.host.listDir_entry place names h.listed n hmem
      obtain ⟨last, rfl⟩ := reply_of_entry hn hreply
      obtain ⟨hshowsDir, hshownSize⟩ := @Finds.shown F base s r share place names h n hentry
        (hopenable.recorded.2 n hmem) last
      rw [hshowsDir] at hfile
      have hreached := hopenable.reached n hmem (by rw [hfile]; exact Bool.false_ne_true)
      rw [pageOf_nextReply] at hopens
      obtain ⟨info, hpresent, hsize, hsmall, htime⟩ := h.present hentry hreached
      rw [hshownSize, ← hsize]
      rw [← hhost] at hpresent
      rw [← hhost]
      rcases hopens with ⟨hcmd, hname⟩ | ⟨hcmd, hwords, hdisposition, hoptions, hname⟩
      · exact opened_openAndx hcmd hname htree hpresent hsmall
      · refine opened_ntCreateAndx hcmd hwords hdisposition hoptions hname htree hpresent (htime ?_) hsmall
        have hsent : createName q = sent (dirOf r) n := hname
        rw [← hsent]
        exact length_createName_lt q

/-! ## One game -/

/-- A host where `/srv` holds one file. -/
def oneGame (name : String) (size : Nat) (h : Entry name) : Files Unit where
  stat p :=
    if p = ["srv", name] then some ⟨false, true, size, 0⟩
    else if p = [] ∨ p = ["srv"] then some ⟨true, false, 4096, 0⟩
    else none
  realpath p := p
  listDir p := if p = ["srv"] then some [name] else none
  openRead p := if p = ["srv", name] then some () else none
  realpath_append _ _ _ := rfl
  stat_isFile p info hinfo hfile := by
    rw [Option.mem_def] at hinfo
    split at hinfo
    · cases hinfo
      rfl
    · split at hinfo
      · cases hinfo
        cases hfile
      · cases hinfo
  part_realpath _ h := h
  listDir_entry p names hnames n hn := by
    rw [Option.mem_def] at hnames
    split at hnames
    · cases hnames
      rw [List.mem_singleton.mp hn]
      exact h
    · cases hnames

theorem stat_srv (name : String) (size : Nat) (h : Entry name) :
    (oneGame name size h).stat ["srv"] = some ⟨true, false, 4096, 0⟩ := by
  change (if ["srv"] = ["srv", name] then some (Info.mk false true size 0)
    else if ["srv"] = [] ∨ ["srv"] = ["srv"] then some (Info.mk true false 4096 0) else none) = _
  have hother : ["srv"] ≠ ["srv", name] := fun heq => by cases heq
  rw [if_neg hother, if_pos (Or.inr rfl)]

theorem openRead_oneGame (name : String) (size : Nat) (h : Entry name) :
    (oneGame name size h).openRead ["srv", name] = some () := by
  change (if ["srv", name] = ["srv", name] then some () else none) = some ()
  exact if_pos rfl

theorem stat_oneGame (name : String) (size : Nat) (h : Entry name) :
    (oneGame name size h).stat ["srv", name] = some ⟨false, true, size, 0⟩ := if_pos rfl

/-- The calls that change a host that cannot be changed. -/
def fixedFiles : Ops (Files Unit) Unit where
  resolve _ _ _ := none
  stat _ _ := none
  openRead _ _ := none
  readAt _ _ _ _ := some ([], ())
  readAt_length h := by
    cases h
    exact Nat.zero_le _
  listDir _ _ := none
  dirname path := path
  join a _ := a
  truncate _ _ := .error .other
  createFile _ _ := .error .other
  mkdir _ _ := .error .other
  openWrite _ _ := false
  writeAt _ _ _ _ := .error .other

def gameShare : Share := ⟨"games".toUTF8.toList, "/srv"⟩

/-- Tree 1 is connected. -/
def connectedTo (name : String) (size : Nat) (h : Entry name) : State (Files Unit) Unit :=
  ⟨oneGame name size h, { Conn.new with trees := [(1, .disk gameShare)] }⟩

def gamesConfig : Config := ⟨[gameShare], [], true, 1⟩

/-- A TRANS2 with these parameters, which stand right behind the words. -/
def trans2Request (setup : Nat) (tParams : Bytes) : Req :=
  Req.ofMessage (clientMessage 0x32 1 (List.replicate 18 0 ++ Bytes.ofNat 2 tParams.length ++
    Bytes.ofNat 2 65 ++ List.replicate 4 0 ++ Bytes.ofNat 2 1 ++ Bytes.ofNat 2 setup) tParams)

/-- FIND_FIRST2 of `\\*`. -/
def findGames : Req := trans2Request 1 (List.replicate 12 0 ++ [BACKSLASH, STAR, 0])

/-- FIND_NEXT2 of the first search of a connection. -/
def findNextGame : Req := trans2Request 2 (Bytes.ofNat 2 2 ++ List.replicate 10 0)

theorem finds_findGames (name : String) (size : Nat) (h : Entry name) :
    Finds (connectedTo name size h) findGames gameShare ["srv"] [name] where
  trans2 := ⟨rfl, by decide +kernel, by decide +kernel, by decide +kernel⟩
  tree := rfl
  leads := by
    have hdir : dirOf findGames = [] := by decide +kernel
    rw [hdir]
    rfl
  inside := by decide +kernel
  isDir := congrArg (Option.any Info.isDir) (stat_srv name size h)
  listed := by
    change (if ["srv"] = ["srv"] then some [name] else none) = some [name]
    exact if_pos rfl

theorem asks_findNextGame : Asks 2 findNextGame where
  trans2 := ⟨rfl, by decide +kernel, by decide +kernel, by decide +kernel⟩
  words := by decide +kernel
  sid := by decide +kernel

theorem entry_game : Entry "game.iso" := ⟨⟨by decide, by decide⟩, by decide, by decide, by decide, by decide⟩

theorem entry_pokemon : Entry "Pokémon.iso" :=
  ⟨⟨by decide, by decide⟩, by decide, by decide, by decide, by decide⟩

theorem asks_findNextGames : ∀ q ∈ [findNextGame, findNextGame], Asks 2 q := by
  intro q hq
  rw [(List.mem_replicate.mp (show q ∈ List.replicate 2 findNextGame from hq)).2]
  exact asks_findNextGame

theorem agrees_game :
    Agrees fixedFiles gamesConfig (connectedTo "game.iso" 4 entry_game) findGames
      [findNextGame, findNextGame] gameShare ["srv"] ["game.iso"] := by
  have hfinds := finds_findGames "game.iso" 4 entry_game
  have hgame := stat_oneGame "game.iso" 4 entry_game
  have hfolder := stat_srv "game.iso" 4 entry_game
  have hread := openRead_oneGame "game.iso" 4 entry_game
  refine (agrees_iff fixedFiles gamesConfig _ findGames [findNextGame, findNextGame] gameShare ["srv"]
    ["game.iso"] hfinds asks_findNextGames rfl).mpr ⟨⟨?_, ?_⟩, by decide +kernel, ?_⟩
  · intro info hinfo
    cases hfolder.symm.trans hinfo
    exact ⟨by decide, fun h => by cases h⟩
  · intro n hn info hinfo
    rw [List.mem_singleton.mp hn] at hinfo
    cases hgame.symm.trans hinfo
    exact ⟨by decide, fun _ => by decide⟩
  · intro n hn _
    rw [List.mem_singleton.mp hn]
    refine ⟨?_, by decide +kernel, ?_, ⟨false, true, 4, 0⟩, hgame, rfl, ?_, by decide, fun _ => by decide⟩
    · apply hfinds.leads_of_ascii _ entry_game.part (by simp) (by decide)
      have hplace : Files.placeOf gameShare (dirOf findGames) = ["srv"] := by decide +kernel
      rw [hplace]
      exact congrArg (Option.any Info.isDir) hfolder
    · exact congrArg Option.isSome hread
    · exact (congrArg (fun found => Option.elim found 0 _) hgame).symm

/-- A game with an accent in its name is shown without the letter and cannot be opened, and one of 5 GiB
is opened with another size than is shown. -/
theorem pokemon_lost :
    ¬ Agrees fixedFiles gamesConfig (connectedTo "Pokémon.iso" 4 entry_pokemon) findGames
        [findNextGame, findNextGame] gameShare ["srv"] ["Pokémon.iso"] ∧
      ¬ Agrees fixedFiles gamesConfig (connectedTo "game.iso" 0x140000000 entry_game) findGames
        [findNextGame, findNextGame] gameShare ["srv"] ["game.iso"] := by
  constructor
  · intro hagrees
    have hopenable := hagrees.openable (finds_findGames _ _ _) asks_findNextGames rfl
    have hreached := hopenable.reached "Pokémon.iso" (List.mem_singleton.mpr rfl)
      (by
        rw [List.singleton_append, connectedTo, stat_oneGame]
        exact Bool.false_ne_true)
    exact absurd hreached.leads (by decide +kernel)
  · intro hagrees
    have hopenable := hagrees.openable (finds_findGames _ _ _) asks_findNextGames rfl
    have hgame := stat_oneGame "game.iso" 0x140000000 entry_game
    have hreached := hopenable.reached "game.iso" (List.mem_singleton.mpr rfl)
      (by
        rw [List.singleton_append, connectedTo, stat_oneGame]
        exact Bool.false_ne_true)
    obtain ⟨info, hinfo, -, -, hsmall, -⟩ := hreached.file
    cases hgame.symm.trans hinfo
    exact absurd hsmall (by decide)

end Ps2Servers.Smb1
