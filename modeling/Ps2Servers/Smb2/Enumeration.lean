import Ps2Servers.Lib.Chained
import Ps2Servers.Lib.Struct
import Ps2Servers.Lib.Utf16
import Ps2Servers.Smb2.Listing
import Mathlib.Algebra.Order.BigOperators.Group.List
import Mathlib.Algebra.Order.Group.Nat

/-!
# Directory enumeration

QUERY_DIRECTORY walks a snapshot of the directory, entry by entry, and packs as many as fit into each
reply. What a client makes of the replies is in `Listed`.

## Implementation notes

`Dir` is what a handle keeps of a directory. The lookups of the tree and of the handle are left out.
-/

namespace Ps2Servers.Smb2

open Struct (Item)
open Text Chained

/-! ## Entries -/

def ATTR_READONLY : Nat := 0x00000001

def ATTR_DIRECTORY : Nat := 0x00000010

def ATTR_ARCHIVE : Nat := 0x00000020

def FILE_DIRECTORY_INFORMATION : Nat := 0x01

def FILE_FULL_DIRECTORY_INFORMATION : Nat := 0x02

def FILE_BOTH_DIRECTORY_INFORMATION : Nat := 0x03

def FILE_NAMES_INFORMATION : Nat := 0x0C

def FILE_ID_BOTH_DIRECTORY_INFORMATION : Nat := 0x25

def FILE_ID_FULL_DIRECTORY_INFORMATION : Nat := 0x26

/-- The classes that `directory_entry` encodes. -/
def supported (infoClass : Nat) : Bool :=
  [FILE_DIRECTORY_INFORMATION, FILE_FULL_DIRECTORY_INFORMATION, FILE_BOTH_DIRECTORY_INFORMATION,
    FILE_NAMES_INFORMATION, FILE_ID_BOTH_DIRECTORY_INFORMATION,
    FILE_ID_FULL_DIRECTORY_INFORMATION].contains infoClass

/-- `attributes_for`. -/
def attributesFor (st : Stat) (readOnly : Bool) : Nat :=
  (if st.isDir then ATTR_DIRECTORY else ATTR_ARCHIVE) ||| (if readOnly then ATTR_READONLY else 0)

/-- `allocation_of`. -/
def allocationOf (st : Stat) : Nat := (st.size + 4095) / 4096 * 4096

/-- What most classes begin with. -/
def statItems (st : Stat) (readOnly : Bool) (nameLength : Nat) : List Item :=
  [.I 0, .I 0, .Q st.ctime, .Q st.atime, .Q st.mtime, .Q st.mtime, .q st.size, .q (allocationOf st),
    .I (attributesFor st readOnly), .I nameLength]

/-- The fixed part of `both_directory_entry`. -/
def bothItems (st : Stat) (readOnly withFileId : Bool) (nameLength : Nat) : List Item :=
  statItems st readOnly nameLength ++ [.I 0, .B 0, .B 0, .zeros 24] ++
    if withFileId then [.H 0, .Q (st.ino % 2 ^ 64)] else []

/-- The fixed part of `directory_entry`. -/
def entryItems (infoClass : Nat) (st : Stat) (readOnly : Bool) (nameLength : Nat) :
    Option (List Item) :=
  if infoClass = FILE_BOTH_DIRECTORY_INFORMATION then some (bothItems st readOnly false nameLength)
  else if infoClass = FILE_ID_BOTH_DIRECTORY_INFORMATION then
    some (bothItems st readOnly true nameLength)
  else if infoClass = FILE_DIRECTORY_INFORMATION then some (statItems st readOnly nameLength)
  else if infoClass = FILE_FULL_DIRECTORY_INFORMATION then
    some (statItems st readOnly nameLength ++ [.I 0])
  else if infoClass = FILE_ID_FULL_DIRECTORY_INFORMATION then
    some (statItems st readOnly nameLength ++ [.I 0, .I 0, .Q (st.ino % 2 ^ 64)])
  else if infoClass = FILE_NAMES_INFORMATION then some [.I 0, .I 0, .I nameLength]
  else none

/-- `directory_entry`: nothing for a class that is not encoded. -/
def directoryEntry (name : Name) (st : Stat) (infoClass : Nat) (readOnly : Bool) :
    Except Exn (Option Bytes) :=
  match encodeUtf16 name with
  | none => .error .other
  | some raw =>
      match entryItems infoClass st readOnly raw.length with
      | none => .ok none
      | some items =>
          match Struct.pack items with
          | none => .error .other
          | some fixed => .ok (some (fixed ++ raw))

def pad8 (record : Bytes) : Bytes :=
  record ++ List.replicate ((8 - record.length % 8) % 8) 0

/-! ## `h_query_directory` -/

/-- What a handle keeps of a directory. -/
structure Dir where
  path : Path
  isDir : Bool
  listing : Option (List Name)
  cursor : Nat

variable {H F : Type} (host : Host H F) (h : H) (share : Share) (readOnly : Bool)

/-- What an entry describes. The parent of the root is the root. -/
def targetOf (path : Path) (name : Name) : Path :=
  if name = lit "." then path
  else if name = lit ".." then if host.realpath h path = share.root then path else path.dropLast
  else path ++ [name]

/-- A request: the class, whether one entry is asked for, and the room for entries. -/
structure Query where
  infoClass : Nat
  single : Bool
  outLen : Nat

/-- The query of a request. -/
def queryOf (body : Bytes) : Query :=
  ⟨body.field 2 1, body.field 3 1 &&& 0x02 != 0,
    min (if body.field 28 4 = 0 then MAX_TRANSACT else body.field 28 4) MAX_TRANSACT⟩

/-- The loop of `h_query_directory`, over the names that are left: the new cursor, and the entries or
what was raised. -/
def fill (path : Path) (q : Query) : List Name → (cursor total : Nat) → List Bytes →
    Nat × Except Exn (List Bytes)
  | [], cursor, _, entries => (cursor, .ok entries)
  | name :: rest, cursor, total, entries =>
      match host.stat h (targetOf host h share path name) with
      | .error _ => fill path q rest (cursor + 1) total entries
      | .ok st =>
          match directoryEntry name st q.infoClass readOnly with
          | .error e => (cursor, .error e)
          | .ok none => (cursor, .error (.status STATUS_INVALID_PARAMETER))
          | .ok (some record) =>
              let padded := pad8 record
              if q.outLen < total + padded.length ∧ entries ≠ [] then (cursor, .ok entries)
              else if q.single then (cursor + 1, .ok (entries ++ [padded]))
              else fill path q rest (cursor + 1) (total + padded.length) (entries ++ [padded])

/-- The entries, each with the offset of the next one. -/
def chain : List Bytes → Option Bytes
  | [] => some []
  | [record] => (Struct.pack [.I 0]).map (· ++ record.drop 4)
  | record :: next :: rest => do
      let offset ← Struct.pack [.I record.length]
      let blob ← chain (next :: rest)
      return offset ++ record.drop 4 ++ blob

/-- The reply of `h_query_directory` in front of an output of this many bytes. -/
def queryItems (size : Nat) : List Item := [.H 9, .H (HEADER_SIZE + 8), .I size]

/-- The reply in front of the output, and the output. -/
def queryReply (entries : List Bytes) : Except Exn (Bytes × Bytes) :=
  if entries = [] then .error (.status STATUS_NO_MORE_FILES)
  else
    match chain entries with
    | none => .error .other
    | some blob =>
        match Struct.pack (queryItems blob.length) with
        | none => .error .other
        | some body => .ok (body, blob)

/-- `h_query_directory`. -/
def hQueryDirectory (dir : Dir) (body : Bytes) : Dir × Except Exn (Bytes × Bytes) :=
  if body.length < 32 then (dir, .error (.status STATUS_INVALID_PARAMETER))
  else
    match requestBuffer body (body.field 24 2) (body.field 26 2) (HEADER_SIZE + 32) with
    | none => (dir, .error (.status STATUS_INVALID_PARAMETER))
    | some raw =>
        if dir.isDir = false then (dir, .error (.status STATUS_INVALID_PARAMETER))
        else
          let fresh := dir.listing.isNone || body.field 3 1 &&& 0x01 != 0
          let names := if fresh then listingFor host h dir.path (requested (decodeUtf16 raw))
            else dir.listing.getD []
          let cursor := if fresh then 0 else dir.cursor
          let (cursor, result) :=
            fill host h share readOnly dir.path (queryOf body) (names.drop cursor) cursor 0 []
          ({ dir with listing := some names, cursor := cursor }, result.bind queryReply)

/-! ## The client -/

/-- Where an entry has the length of its name. -/
def nameField (infoClass : Nat) : Nat := if infoClass = FILE_NAMES_INFORMATION then 8 else 60

/-- The size of an entry without its name. -/
def fixedLength (infoClass : Nat) : Nat :=
  if infoClass = FILE_BOTH_DIRECTORY_INFORMATION then 94
  else if infoClass = FILE_ID_BOTH_DIRECTORY_INFORMATION then 104
  else if infoClass = FILE_DIRECTORY_INFORMATION then 64
  else if infoClass = FILE_FULL_DIRECTORY_INFORMATION then 68
  else if infoClass = FILE_ID_FULL_DIRECTORY_INFORMATION then 80
  else 12

/-- The name of an entry. -/
def entryName (infoClass : Nat) (entry : Bytes) : Option Name :=
  let size := entry.field (nameField infoClass) 4
  if entry.length < fixedLength infoClass + size then none
  else some (decodeUtf16 (entry.sub (fixedLength infoClass) size))

/-- The names of the entries of an output. -/
def entryNames (infoClass : Nat) (blob : Bytes) : Option (List Name) :=
  (unlink blob.length blob).bind fun entries => entries.mapM (entryName infoClass)

/-! ## One entry -/

def nameLength (name : Name) : Nat := ((encodeUtf16 name).getD []).length

/-- The size of an entry with its padding. -/
def entrySize (infoClass : Nat) (name : Name) : Nat := (fixedLength infoClass + nameLength name + 7) / 8 * 8

/-- The name is valid as UTF-16, and the numbers are not too large. -/
structure Recordable (infoClass : Nat) (name : Name) (st : Stat) : Prop where
  encodes : (encodeUtf16 name).isSome
  length : nameLength name < 2 ^ 32
  stat : infoClass = FILE_NAMES_INFORMATION ∨
    st.ctime < 2 ^ 64 ∧ st.atime < 2 ^ 64 ∧ st.mtime < 2 ^ 64 ∧ allocationOf st < 2 ^ 63

theorem attributesFor_lt (st : Stat) (readOnly : Bool) : attributesFor st readOnly < 2 ^ 32 := by
  unfold attributesFor
  cases st.isDir <;> cases readOnly <;> decide

theorem size_le_allocationOf (st : Stat) : st.size ≤ allocationOf st := by
  unfold allocationOf
  omega

theorem statItems_fits {st : Stat} {readOnly : Bool} {size : Nat} (hsize : size < 2 ^ 32)
    (hstat : st.ctime < 2 ^ 64 ∧ st.atime < 2 ^ 64 ∧ st.mtime < 2 ^ 64 ∧ allocationOf st < 2 ^ 63) :
    (statItems st readOnly size).all Item.fits = true := by
  obtain ⟨hctime, hatime, hmtime, hallocation⟩ := hstat
  have hattributes := attributesFor_lt st readOnly
  have hsize' := Nat.lt_of_le_of_lt (size_le_allocationOf st) hallocation
  simpa [statItems, Item.fits] using
    ⟨hctime, hatime, hmtime, hsize', hallocation, hattributes, hsize⟩

/-- What an entry has behind `statItems`. -/
theorem entryItems_back {infoClass : Nat} (hclass : supported infoClass = true)
    (hne : infoClass ≠ FILE_NAMES_INFORMATION) (st : Stat) (readOnly : Bool) (size : Nat) :
    ∃ back, entryItems infoClass st readOnly size = some (statItems st readOnly size ++ back) ∧
      64 + Struct.calcsize back = fixedLength infoClass ∧ back.all Item.fits = true := by
  unfold entryItems bothItems
  have hino : st.ino % 2 ^ 64 < 0x10000000000000000 := Nat.mod_lt _ (by decide)
  generalize st.ino % 2 ^ 64 = ino at hino ⊢
  simp only [supported, List.contains_iff_mem, List.mem_cons, List.not_mem_nil, or_false] at hclass
  rcases hclass with rfl | rfl | rfl | rfl | rfl | rfl
  · exact ⟨[], by rw [List.append_nil]; rfl, rfl, rfl⟩
  · exact ⟨[.I 0], rfl, rfl, rfl⟩
  · exact ⟨[.I 0, .B 0, .B 0, .zeros 24], rfl, rfl, rfl⟩
  · exact absurd rfl hne
  · refine ⟨[.I 0, .B 0, .B 0, .zeros 24, .H 0, .Q ino], rfl, rfl, ?_⟩
    simpa [Item.fits] using hino
  · refine ⟨[.I 0, .I 0, .Q ino], rfl, rfl, ?_⟩
    simpa [Item.fits] using hino

/-- In every class the length of the name is where the client looks for it. -/
theorem entryItems_eq {infoClass : Nat} (hclass : supported infoClass = true) {name : Name} {st : Stat}
    (hrecord : Recordable infoClass name st) (readOnly : Bool) :
    ∃ front back, entryItems infoClass st readOnly (nameLength name) =
        some (front ++ .I (nameLength name) :: back) ∧
      Struct.calcsize front = nameField infoClass ∧
      Struct.calcsize (front ++ .I (nameLength name) :: back) = fixedLength infoClass ∧
      (front ++ .I (nameLength name) :: back).all Item.fits = true := by
  by_cases hne : infoClass = FILE_NAMES_INFORMATION
  · subst hne
    refine ⟨[.I 0, .I 0], [], rfl, rfl, rfl, ?_⟩
    simpa [Item.fits] using hrecord.length
  · obtain ⟨back, hitems, hsize, hback⟩ :=
      entryItems_back hclass hne st readOnly (nameLength name)
    have hsplit : statItems st readOnly (nameLength name) ++ back =
        (statItems st readOnly 0).take 9 ++ .I (nameLength name) :: back := rfl
    refine ⟨(statItems st readOnly 0).take 9, back, hitems, ?_, ?_, ?_⟩
    · rw [nameField, if_neg hne]
      rfl
    · rw [← hsplit, ← hsize, Struct.calcsize, List.map_append, List.sum_append]
      rfl
    · rw [← hsplit, List.all_append, hback, statItems_fits hrecord.length (hrecord.stat.resolve_left hne),
        Bool.and_self]

/-- An entry as the client reads it. -/
structure Entry (infoClass : Nat) (name : Name) (entry : Bytes) : Prop where
  length : entry.length = entrySize infoClass name
  name : ∀ next, entryName infoClass (withNext next entry) = some name

theorem four_le_nameField (infoClass : Nat) : 4 ≤ nameField infoClass := by
  unfold nameField
  split <;> decide

theorem four_le_fixedLength (infoClass : Nat) : 4 ≤ fixedLength infoClass := by
  unfold fixedLength
  split
  · decide
  · split
    · decide
    · split
      · decide
      · split
        · decide
        · split <;> decide

theorem directoryEntry_ok {infoClass : Nat} (hclass : supported infoClass = true) {name : Name}
    {st : Stat} (hrecord : Recordable infoClass name st) (readOnly : Bool) :
    ∃ record, directoryEntry name st infoClass readOnly = .ok (some record) ∧
      Entry infoClass name (pad8 record) := by
  obtain ⟨raw, hraw⟩ := Option.isSome_iff_exists.mp hrecord.encodes
  obtain ⟨front, back, hitems, hfront, hfixed, hfits⟩ := entryItems_eq hclass hrecord readOnly
  have hlength : nameLength name = raw.length := by
    rw [nameLength, hraw]
    rfl
  have hraw' : raw.length < 256 ^ 4 := hlength ▸ hrecord.length
  rw [hlength] at hitems hfixed hfits
  have hsize : ((front ++ Item.I raw.length :: back).flatMap Item.bytes).length = fixedLength infoClass :=
    (Struct.length_flatMap _).trans hfixed
  refine ⟨(front ++ Item.I raw.length :: back).flatMap Item.bytes ++ raw, ?_, ?_, ?_⟩
  · rw [directoryEntry, hraw]
    dsimp only
    rw [hitems]
    dsimp only
    rw [Struct.pack_eq_some.mpr ⟨hfits, rfl⟩]
  · rw [pad8, List.length_append, List.length_replicate, List.length_append, hsize, entrySize, hlength]
    omega
  · intro next
    have hfield := Struct.field_flatMap front hraw' back (raw ++ List.replicate
      ((8 - ((front ++ Item.I raw.length :: back).flatMap Item.bytes ++ raw).length % 8) % 8) 0)
    rw [hfront] at hfield
    have hlong : 4 ≤ (pad8 ((front ++ Item.I raw.length :: back).flatMap Item.bytes ++ raw)).length := by
      rw [pad8, List.length_append, List.length_append, hsize]
      have := four_le_fixedLength infoClass
      omega
    unfold entryName
    dsimp only
    rw [field_withNext_of_le next _ (four_le_nameField infoClass), length_withNext next hlong,
      sub_withNext_of_le next _ (four_le_fixedLength infoClass), pad8, List.append_assoc, hfield]
    have hsub : Bytes.sub ((front ++ Item.I raw.length :: back).flatMap Item.bytes ++
        (raw ++ List.replicate
          ((8 - ((front ++ Item.I raw.length :: back).flatMap Item.bytes ++ raw).length % 8) % 8) 0))
        (fixedLength infoClass) raw.length = raw := by
      rw [Bytes.sub_append_right _ _ (Nat.le_of_eq hsize), hsize, Nat.sub_self,
        Bytes.sub_append_left _ (Nat.le_of_eq (Nat.zero_add _)), Bytes.sub_of_length rfl]
    rw [hsub, decodeUtf16_encodeUtf16 hraw, if_neg]
    rw [List.length_append, List.length_append, hsize]
    omega

/-! ## One reply -/

theorem chain_eq_some {entries : List Bytes} (h : ∀ e ∈ entries, e.length < 2 ^ 32) :
    chain entries = some (linked entries).flatten := by
  induction entries with
  | nil => rfl
  | cons entry rest ih =>
      have hrest := ih fun e he => h e (List.mem_cons_of_mem entry he)
      cases rest with
      | nil =>
          rw [chain, linked, List.flatten_cons, List.flatten_nil, List.append_nil]
          rfl
      | cons next rest =>
          have hfits : [Item.I entry.length].all Item.fits = true := by
            simpa [Item.fits] using h entry List.mem_cons_self
          have hpack := Struct.pack_eq_some.mpr ⟨hfits, rfl⟩
          rw [chain, hpack, hrest, linked, List.flatten_cons, withNext]
          rfl

/-- Entries with these names. -/
abbrev Packs (infoClass : Nat) (names : List Name) (entries : List Bytes) : Prop :=
  List.Forall₂ (Entry infoClass) names entries

theorem Packs.four_le {infoClass : Nat} {names : List Name} {entries : List Bytes}
    (h : Packs infoClass names entries) : ∀ e ∈ entries, 4 ≤ e.length := by
  induction h with
  | nil =>
      intro e he
      cases he
  | cons hentry _ ih =>
      intro e he
      rcases List.mem_cons.mp he with rfl | he
      · have := four_le_fixedLength infoClass
        rw [hentry.length, entrySize]
        omega
      · exact ih e he

theorem Packs.mapM_entryName {infoClass : Nat} {names : List Name} {entries : List Bytes}
    (h : Packs infoClass names entries) : (linked entries).mapM (entryName infoClass) = some names := by
  induction h with
  | nil => rfl
  | cons hentry hrest ih =>
      cases hrest with
      | nil =>
          rw [linked, List.mapM_cons, hentry.name, List.mapM_nil]
          rfl
      | cons hnext hrest =>
          rw [linked, List.mapM_cons, hentry.name, ih]
          rfl

/-- A reply with these entries: the client finds their names, and it is as long as they are. -/
theorem queryReply_ok {infoClass : Nat} {names : List Name} {entries : List Bytes}
    (hpacks : Packs infoClass names entries) (hne : entries ≠ [])
    (hsum : (entries.map List.length).sum < 2 ^ 32) :
    ∃ body blob, queryReply entries = .ok (body, blob) ∧
      blob.length = (entries.map List.length).sum ∧ entryNames infoClass blob = some names := by
  have hlong := hpacks.four_le
  have hlt (e : Bytes) (he : e ∈ entries) : e.length < 2 ^ 32 :=
    Nat.lt_of_le_of_lt (List.le_sum_of_mem (List.mem_map_of_mem he)) hsum
  have hlength := length_flatten_linked hlong
  have hcount := length_le_length_flatten hlong
  have hfits : (queryItems (linked entries).flatten.length).all Item.fits = true := by
    rw [hlength]
    simpa [queryItems, HEADER_SIZE, Item.fits] using hsum
  refine ⟨(queryItems (linked entries).flatten.length).flatMap Item.bytes, (linked entries).flatten,
    ?_, hlength, ?_⟩
  · rw [queryReply, if_neg hne, chain_eq_some hlt]
    dsimp only
    rw [Struct.pack_eq_some.mpr ⟨hfits, rfl⟩]
  · rw [entryNames, unlink_linked hne (fun e he => ⟨hlong e he, hlt e he⟩) hcount, Option.bind_some,
      hpacks.mapM_entryName]

/-! ## A page -/

/-- The names whose `stat` succeeds, with what it gives. -/
def visible (path : Path) (names : List Name) : List (Name × Stat) :=
  names.filterMap fun name => (host.stat h (targetOf host h share path name)).toOption.map (name, ·)

variable {host h share readOnly}

theorem visible_cons_error {path : Path} {name : Name} {rest : List Name} {e : Errno}
    (hstat : host.stat h (targetOf host h share path name) = .error e) :
    visible host h share path (name :: rest) = visible host h share path rest := by
  rw [visible, List.filterMap_cons_none]
  · rfl
  · rw [hstat]
    rfl

theorem visible_cons_ok {path : Path} {name : Name} {rest : List Name} {st : Stat}
    (hstat : host.stat h (targetOf host h share path name) = .ok st) :
    visible host h share path (name :: rest) = (name, st) :: visible host h share path rest := by
  rw [visible, List.filterMap_cons_some]
  · rfl
  · rw [hstat]
    rfl

theorem visible_append (path : Path) (a b : List Name) :
    visible host h share path (a ++ b) = visible host h share path a ++ visible host h share path b :=
  List.filterMap_append

/-- Where nothing is left to see, the loop goes to the end. -/
theorem fill_nil {path : Path} {q : Query} {rest : List Name} (hnone : visible host h share path rest = [])
    (cursor total : Nat) (entries : List Bytes) :
    fill host h share readOnly path q rest cursor total entries =
      (cursor + rest.length, .ok entries) := by
  induction rest generalizing cursor with
  | nil => rfl
  | cons name rest ih =>
      cases hstat : host.stat h (targetOf host h share path name) with
      | error e =>
          rw [visible_cons_error hstat] at hnone
          rw [fill, hstat]
          dsimp only
          rw [ih hnone, List.length_cons, Nat.add_right_comm, Nat.add_assoc]
      | ok st =>
          rw [visible_cons_ok hstat] at hnone
          cases hnone

/-- The loop takes what fits, in order, and one entry at least: by the names that are left, with the
entries that were taken. -/
theorem fill_ok {path : Path} {q : Query} {room : Nat} (hclass : supported q.infoClass = true)
    (hroom : q.outLen ≤ room) {rest taken : List Name} {cursor total : Nat} {entries : List Bytes}
    (hrecord : ∀ e ∈ visible host h share path rest, Recordable q.infoClass e.1 e.2)
    (hpacks : Packs q.infoClass taken entries) (htotal : (entries.map List.length).sum = total)
    (hfits : total ≤ room)
    (hfirst : entries = [] → ∀ e ∈ (visible host h share path rest).head?,
      entrySize q.infoClass e.1 ≤ room) :
    ∃ now left entries', rest = now ++ left ∧
      fill host h share readOnly path q rest cursor total entries =
        (cursor + now.length, .ok entries') ∧
      Packs q.infoClass (taken ++ (visible host h share path now).map Prod.fst) entries' ∧
      (entries'.map List.length).sum ≤ room ∧
      (entries' = [] → visible host h share path rest = []) := by
  induction rest generalizing cursor total entries taken with
  | nil => exact ⟨[], [], entries, rfl, rfl, by simpa [visible] using hpacks, htotal ▸ hfits, fun _ => rfl⟩
  | cons name rest ih =>
      cases hstat : host.stat h (targetOf host h share path name) with
      | error e =>
          have hskip := @visible_cons_error _ _ host h share path name rest e hstat
          rw [hskip] at hrecord hfirst
          obtain ⟨now, left, entries', rfl, hfill, hpacks', hsum, hnil⟩ :=
            @ih taken (cursor + 1) total entries hrecord hpacks htotal hfits hfirst
          refine ⟨name :: now, left, entries', rfl, ?_, ?_, hsum, ?_⟩
          · rw [fill, hstat]
            dsimp only
            rw [hfill, List.length_cons, Nat.add_right_comm, Nat.add_assoc]
          · rwa [visible_cons_error hstat]
          · rwa [hskip]
      | ok st =>
          have hsee := @visible_cons_ok _ _ host h share path name rest st hstat
          rw [hsee] at hrecord hfirst
          obtain ⟨record, hdirectory, hentry⟩ :=
            directoryEntry_ok hclass (hrecord (name, st) List.mem_cons_self) readOnly
          have hone : fill host h share readOnly path q (name :: rest) cursor total entries =
              if q.outLen < total + (pad8 record).length ∧ entries ≠ [] then (cursor, .ok entries)
              else if q.single then (cursor + 1, .ok (entries ++ [pad8 record]))
              else fill host h share readOnly path q rest (cursor + 1)
                (total + (pad8 record).length) (entries ++ [pad8 record]) := by
            rw [fill, hstat]
            dsimp only
            rw [hdirectory]
          rw [hone]
          by_cases hfull : q.outLen < total + (pad8 record).length ∧ entries ≠ []
          · refine ⟨[], name :: rest, entries, rfl, if_pos hfull, ?_, htotal ▸ hfits,
              fun hnil => absurd hnil hfull.2⟩
            simpa [visible] using hpacks
          · rw [if_neg hfull]
            have hnext : total + (pad8 record).length ≤ room := by
              by_cases hnil : entries = []
              · have hzero : total = 0 := by
                  rw [← htotal, hnil]
                  rfl
                rw [hzero, Nat.zero_add, hentry.length]
                exact hfirst hnil (name, st) rfl
              · have hle : ¬ q.outLen < total + (pad8 record).length := fun hlt => hfull ⟨hlt, hnil⟩
                omega
            have hpacks' : Packs q.infoClass (taken ++ [name]) (entries ++ [pad8 record]) :=
              List.rel_append hpacks (.cons hentry .nil)
            have htotal' : ((entries ++ [pad8 record]).map List.length).sum =
                total + (pad8 record).length := by
              rw [List.map_append, List.sum_append, htotal]
              rfl
            have hnames (now : List Name) :
                taken ++ [name] ++ (visible host h share path now).map Prod.fst =
                  taken ++ (visible host h share path (name :: now)).map Prod.fst := by
              rw [visible_cons_ok hstat, List.append_assoc]
              rfl
            by_cases hsingle : q.single = true
            · refine ⟨[name], rest, entries ++ [pad8 record], rfl, if_pos hsingle, ?_, htotal' ▸ hnext,
                fun hnil => by simp at hnil⟩
              have hpage := hnames []
              rw [← hpage]
              simpa [visible] using hpacks'
            · obtain ⟨now, left, entries', rfl, hfill, hpage, hsum, -⟩ :=
                @ih (taken ++ [name]) (cursor + 1) (total + (pad8 record).length)
                  (entries ++ [pad8 record]) (fun e he => hrecord e (List.mem_cons_of_mem _ he)) hpacks'
                  htotal' hnext (fun hnil => by simp at hnil)
              refine ⟨name :: now, left, entries', rfl, ?_, ?_, hsum, ?_⟩
              · rw [if_neg hsingle, hfill, List.length_cons, Nat.add_right_comm, Nat.add_assoc]
              · rwa [← hnames now]
              · intro hnil
                rw [hnil] at hpage
                have hlength := hpage.length_eq
                simp at hlength

/-! ## Whole enumerations -/

/-- The pattern of a request. -/
def patternOf (body : Bytes) : Str :=
  requested (decodeUtf16 ((requestBuffer body (body.field 24 2) (body.field 26 2)
    (HEADER_SIZE + 32)).getD []))

/-- A request that goes on with the enumeration, in a class that is encoded. -/
structure Scan (body : Bytes) : Prop where
  length : 32 ≤ body.length
  pattern : (requestBuffer body (body.field 24 2) (body.field 26 2) (HEADER_SIZE + 32)).isSome
  resume : body.field 3 1 &&& 0x01 = 0
  infoClass : supported (body.field 2 1) = true

variable (host h share readOnly)

/-- The snapshot that a request walks. -/
def Dir.snapshot (dir : Dir) (body : Bytes) : List Name :=
  dir.listing.getD (listingFor host h dir.path (patternOf body))

/-- Where the walk is. -/
def Dir.start (dir : Dir) : Nat := if dir.listing.isNone then 0 else dir.cursor

/-- The names that are left before a request. -/
def Dir.left (dir : Dir) (body : Bytes) : List Name := (dir.snapshot host h body).drop dir.start

/-- The entries that are left can be encoded, and the first one fits into the output. -/
def Dir.Fits (dir : Dir) (body : Bytes) : Prop :=
  (∀ e ∈ visible host h share dir.path (dir.left host h body), Recordable (body.field 2 1) e.1 e.2) ∧
    ∀ e ∈ (visible host h share dir.path (dir.left host h body)).head?,
      entrySize (body.field 2 1) e.1 ≤ body.field 28 4

/-- The replies to some requests. -/
def enumerate (dir : Dir) : List Bytes → List (Bytes × Except Exn (Bytes × Bytes))
  | [] => []
  | body :: rest =>
      let (next, reply) := hQueryDirectory host h share readOnly dir body
      (body, reply) :: enumerate next rest

/-- The condition at each step of an enumeration. -/
def FitsAll (dir : Dir) : List Bytes → Prop
  | [] => True
  | body :: rest => dir.Fits host h share body ∧
      FitsAll (hQueryDirectory host h share readOnly dir body).1 rest

/-- Replies that list these names in order: each has some of the names, in an output that is no longer
than asked for, and the end is reported when none is left. -/
inductive Enumerates : List Name → List (Bytes × Except Exn (Bytes × Bytes)) → Prop
  | nil (left : List Name) : Enumerates left []
  | page {body reply blob : Bytes} {names left : List Name}
      {rest : List (Bytes × Except Exn (Bytes × Bytes))} (hnames : names ≠ [])
      (hread : entryNames (body.field 2 1) blob = some names) (hroom : blob.length ≤ body.field 28 4)
      (hrest : Enumerates left rest) : Enumerates (names ++ left) ((body, .ok (reply, blob)) :: rest)
  | done {body : Bytes} {rest : List (Bytes × Except Exn (Bytes × Bytes))}
      (hrest : Enumerates [] rest) :
      Enumerates [] ((body, .error (.status STATUS_NO_MORE_FILES)) :: rest)

variable {host h share readOnly}

theorem entrySize_pos (infoClass : Nat) (name : Name) : 0 < entrySize infoClass name := by
  have hfixed := four_le_fixedLength infoClass
  unfold entrySize
  omega

theorem hQueryDirectory_eq {dir : Dir} (hdir : dir.isDir = true) {body : Bytes} (hscan : Scan body) :
    hQueryDirectory host h share readOnly dir body =
      ({ dir with
          listing := some (dir.snapshot host h body)
          cursor := (fill host h share readOnly dir.path (queryOf body) (dir.left host h body) dir.start 0
            []).1 },
        (fill host h share readOnly dir.path (queryOf body) (dir.left host h body) dir.start 0 []).2.bind
          queryReply) := by
  obtain ⟨raw, hraw⟩ := Option.isSome_iff_exists.mp hscan.pattern
  have hpattern : patternOf body = requested (decodeUtf16 raw) := by
    rw [patternOf, hraw]
    rfl
  have hflag : (body.field 3 1 &&& 0x01 != 0) = false := by
    rw [hscan.resume]
    rfl
  unfold hQueryDirectory Dir.left Dir.snapshot Dir.start
  rw [if_neg (Nat.not_lt.mpr hscan.length), hraw]
  dsimp only
  rw [if_neg (by rw [hdir]; decide), hflag, Bool.or_false, hpattern]
  cases dir.listing with
  | none => rfl
  | some names => rfl

/-- What a request does to a directory: it moves on by the names it looked at. -/
theorem hQueryDirectory_step {dir : Dir} (hdir : dir.isDir = true) {body : Bytes} (hscan : Scan body)
    (hfits : dir.Fits host h share body) :
    ∃ next result now left, hQueryDirectory host h share readOnly dir body = (next, result) ∧
      next.path = dir.path ∧ next.isDir = true ∧ (∀ b, next.left host h b = left) ∧
      dir.left host h body = now ++ left ∧
      ((∃ reply blob, result = .ok (reply, blob) ∧ blob.length ≤ body.field 28 4 ∧
        (visible host h share dir.path now).map Prod.fst ≠ [] ∧ entryNames (body.field 2 1) blob =
          some ((visible host h share dir.path now).map Prod.fst)) ∨
      result = .error (.status STATUS_NO_MORE_FILES) ∧
        visible host h share dir.path (now ++ left) = []) := by
  obtain ⟨hrecord, hfirst⟩ := hfits
  rw [hQueryDirectory_eq hdir hscan]
  unfold Dir.left at hrecord hfirst ⊢
  generalize dir.snapshot host h body = names at hrecord hfirst ⊢
  generalize dir.start = cursor at hrecord hfirst ⊢
  by_cases hnone : visible host h share dir.path (names.drop cursor) = []
  · rw [fill_nil hnone]
    refine ⟨_, _, names.drop cursor, [], rfl, rfl, hdir, ?_, (List.append_nil _).symm, Or.inr ⟨rfl, ?_⟩⟩
    · intro b
      show names.drop (cursor + (names.drop cursor).length) = []
      rw [← List.drop_drop, List.drop_length]
    · rwa [List.append_nil]
  · obtain ⟨e, hhead⟩ : ∃ e, e ∈ (visible host h share dir.path (names.drop cursor)).head? :=
      Option.isSome_iff_exists.mp (List.isSome_head?.mpr hnone)
    have hpos := entrySize_pos (body.field 2 1) e.1
    have hroom : (queryOf body).outLen ≤ body.field 28 4 := by
      have hle := hfirst e hhead
      show min (if body.field 28 4 = 0 then MAX_TRANSACT else body.field 28 4) MAX_TRANSACT ≤ _
      rw [if_neg (by omega)]
      exact Nat.min_le_left _ _
    obtain ⟨now, left, entries, hsplit, hfill, hpacks, hsum, hnil⟩ :=
      @fill_ok _ _ host h share readOnly dir.path (queryOf body) (body.field 28 4) hscan.infoClass hroom
        (names.drop cursor) [] cursor 0 [] hrecord .nil rfl (Nat.zero_le _) (fun _ => hfirst)
    rw [hfill]
    have hentries : entries ≠ [] := fun h => hnone (hnil h)
    obtain ⟨reply, blob, hreply, hlength, hread⟩ :=
      queryReply_ok hpacks hentries (Nat.lt_of_le_of_lt hsum (body.field_lt 28 4))
    refine ⟨_, _, now, left, rfl, rfl, hdir, ?_, hsplit, Or.inl ⟨reply, blob, hreply, ?_, ?_, hread⟩⟩
    · intro b
      show names.drop (cursor + now.length) = left
      rw [← List.drop_drop, hsplit, List.drop_left]
    · rw [hlength]
      exact hsum
    · intro h
      rw [List.nil_append, h] at hpacks
      cases hpacks
      exact hentries rfl

theorem enumerates_left {bodies : List Bytes} {dir : Dir} {names : List Name} (hdir : dir.isDir = true)
    (hleft : ∀ body ∈ bodies.head?, dir.left host h body = names) (hscan : ∀ body ∈ bodies, Scan body)
    (hfits : FitsAll host h share readOnly dir bodies) :
    Enumerates ((visible host h share dir.path names).map Prod.fst)
      (enumerate host h share readOnly dir bodies) := by
  induction bodies generalizing dir names with
  | nil => exact Enumerates.nil _
  | cons body rest ih =>
      obtain ⟨next, result, now, left, hquery, hpath, hnext, hleft', hsplit, hresult⟩ :=
        @hQueryDirectory_step _ _ host h share readOnly dir hdir body (hscan body List.mem_cons_self)
          hfits.1
      have hnames : names = now ++ left := (hleft body rfl).symm.trans hsplit
      have hrest := @ih next left hnext (fun b _ => hleft' b)
        (fun b hb => hscan b (List.mem_cons_of_mem body hb)) (by
          have hall := hfits.2
          rwa [hquery] at hall)
      rw [hpath] at hrest
      rw [enumerate, hquery]
      dsimp only
      rw [hnames]
      rcases hresult with ⟨reply, blob, rfl, hroom, hne, hread⟩ | ⟨rfl, hnone⟩
      · rw [visible_append, List.map_append]
        exact Enumerates.page hne hread hroom hrest
      · rw [hnone]
        rw [visible_append, List.append_eq_nil_iff] at hnone
        rw [hnone.2] at hrest
        exact Enumerates.done hrest

/-- An enumeration lists what the pattern of its first request gives and `stat` finds. -/
theorem enumerates_listing {dir : Dir} (hdir : dir.isDir = true) (hfresh : dir.listing = none)
    (first : Bytes) (rest : List Bytes) (hscan : ∀ body ∈ first :: rest, Scan body)
    (hfits : FitsAll host h share readOnly dir (first :: rest)) :
    Enumerates ((visible host h share dir.path (listingFor host h dir.path (patternOf first))).map Prod.fst)
      (enumerate host h share readOnly dir (first :: rest)) := by
  refine enumerates_left hdir ?_ hscan hfits
  intro body hbody
  cases hbody
  rw [Dir.left, Dir.snapshot, Dir.start, hfresh]
  rfl

/-! ## A directory with one name -/

/-- `plainHost` with one name in each directory. -/
def hostOf (name : Name) : Host Unit Unit := { plainHost with listdir := fun _ _ => .ok [name] }

def wholeShare : Share := ⟨lit "GAMES", [], true⟩

def openedDir : Dir := ⟨[], true, none, 0⟩

/-- A request for all names, in 4096 bytes. -/
def scanBody : Bytes := [33, 0, 0x25, 0] ++ List.replicate 24 0 ++ [0, 0x10, 0, 0]

theorem scan_scanBody : Scan scanBody := ⟨by decide, by decide, by decide, by decide⟩

theorem listingFor_hostOf (name : Name) (path : Path) :
    listingFor (hostOf name) () path (patternOf scanBody) = [lit ".", lit "..", name] := by
  show dots ++ List.mergeSort [name] inOrder = _
  rw [List.mergeSort_singleton]
  rfl

theorem left_hostOf (name : Name) :
    openedDir.left (hostOf name) () scanBody = [lit ".", lit "..", name] :=
  listingFor_hostOf name []

/-- The first request on a directory with one name. -/
theorem hQueryDirectory_hostOf (name : Name) :
    hQueryDirectory (hostOf name) () wholeShare true openedDir scanBody =
      ({ openedDir with
          listing := some [lit ".", lit "..", name]
          cursor := (fill (hostOf name) () wholeShare true [] (queryOf scanBody)
            [lit ".", lit "..", name] 0 0 []).1 },
        (fill (hostOf name) () wholeShare true [] (queryOf scanBody)
          [lit ".", lit "..", name] 0 0 []).2.bind queryReply) := by
  have hsnapshot : openedDir.snapshot (hostOf name) () scanBody = [lit ".", lit "..", name] :=
    left_hostOf name
  rw [hQueryDirectory_eq rfl scan_scanBody, left_hostOf, hsnapshot]
  rfl

/-- Every entry of a `hostOf` is a directory. -/
theorem visible_hostOf (name : Name) :
    visible (hostOf name) () wholeShare [] [lit ".", lit "..", name] =
      [(lit ".", ⟨true, 0, 0, 0, 0, 0, 0⟩), (lit "..", ⟨true, 0, 0, 0, 0, 0, 0⟩),
        (name, ⟨true, 0, 0, 0, 0, 0, 0⟩)] := rfl

theorem enumerates_one_game :
    Enumerates [lit ".", lit "..", lit "game.iso"]
      (enumerate (hostOf (lit "game.iso")) () wholeShare true openedDir [scanBody, scanBody]) := by
  have hcursor : (fill (hostOf (lit "game.iso")) () wholeShare true [] (queryOf scanBody)
      [lit ".", lit "..", lit "game.iso"] 0 0 []).1 = 3 := by decide +kernel
  have hall := @enumerates_listing _ _ (hostOf (lit "game.iso")) () wholeShare true openedDir rfl rfl scanBody
    [scanBody] (by simp [scan_scanBody]) ⟨⟨?_, ?_⟩, ⟨?_, ?_⟩, trivial⟩
  · rw [listingFor_hostOf] at hall
    exact hall
  · intro e he
    rw [left_hostOf] at he
    simp only [visible_hostOf, openedDir, List.mem_cons, List.not_mem_nil, or_false] at he
    rcases he with rfl | rfl | rfl
    · exact ⟨by decide, by decide, Or.inr (by decide)⟩
    · exact ⟨by decide, by decide, Or.inr (by decide)⟩
    · exact ⟨by decide, by decide, Or.inr (by decide)⟩
  · intro e he
    rw [left_hostOf] at he
    cases he
    decide
  · rw [hQueryDirectory_hostOf, hcursor]
    intro e he
    cases he
  · rw [hQueryDirectory_hostOf, hcursor]
    intro e he
    cases he

/-- A name that is not valid as UTF-16. -/
def oddName : Name := [.surrogate 0x4ff]

/-- A name that cannot be encoded ends the enumeration with an error, and with it what was found
before. -/
theorem not_enumerates_odd_name :
    (hQueryDirectory (hostOf oddName) () wholeShare true openedDir scanBody).2 = .error .other ∧
      (hQueryDirectory (hostOf oddName) () wholeShare true openedDir scanBody).1.cursor = 2 ∧
      ¬ Enumerates [lit ".", lit "..", oddName]
        (enumerate (hostOf oddName) () wholeShare true openedDir [scanBody]) := by
  have hfill : fill (hostOf oddName) () wholeShare true [] (queryOf scanBody) [lit ".", lit "..", oddName] 0 0
      [] = (2, .error .other) := by decide +kernel
  have hquery := hQueryDirectory_hostOf oddName
  rw [hfill] at hquery
  refine ⟨by rw [hquery]; rfl, by rw [hquery], ?_⟩
  rw [enumerate, hquery]
  generalize [lit ".", lit "..", oddName] = names
  intro henumerates
  cases henumerates

end Ps2Servers.Smb2
