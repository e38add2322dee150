import Ps2Servers.Ra.Assembler
import Ps2Servers.Ra.Requests

/-!
# Watch lists

A watch list names the addresses whose values a console sends, and with them how long a frame is.
A session binds a list to the image it was identified for, together with the assembler of its
frames. Every change of the session takes a new generation.
-/

namespace Ps2Servers.Ra

/-- A validated list. -/
structure WatchList where
  data : Bytes
  count : Nat
  directBytes : Nat
  nodes : Nat
  length_data : 20 ≤ data.length ∧ data.length ≤ 17432
  count_range : 1 ≤ count ∧ count ≤ 4096
  capacity : 1 ≤ directBytes ∧ directBytes + nodes * 8 ≤ MAX_VALUES

/-- `snapshot_sizes` -/
def WatchList.snapshotSizes (watch : WatchList) : List Nat :=
  [watch.directBytes, watch.directBytes + watch.nodes * 8]

/-- The sizes of the direct values. -/
def directSizes (data : Bytes) (count : Nat) : List Nat :=
  (List.range count).map fun i => data.field (16 + i * 4) 4 / 2 ^ 28

/-- A pointer reads one, two or four bytes behind an entry or an earlier pointer. -/
def pointerOk (data : Bytes) (count offset index : Nat) : Bool :=
  let word := data.field (offset + index * 8) 4
  let parent := word % 0x1000
  let fromNode := word / 2 ^ 12 % 2
  let size := word / 2 ^ 13 % 8
  [1, 2, 4].contains size && parent < if fromNode = 1 then index else count

/-- The pointers behind the entries, and how many there are. -/
def parseNodes (data : Bytes) (count offset : Nat) : Except String Nat :=
  if offset = data.length then .ok 0
  else if data.length - offset < 8 then .error "Truncated pointer-tail header"
  else
    let nodes := data.field (offset + 4) 4
    if data.field offset 4 ≠ 0x4C4E4152 ∨ ¬(1 ≤ nodes ∧ nodes ≤ 128) ∨
        offset + 8 + nodes * 8 ≠ data.length then
      .error "Invalid pointer-tail dimensions"
    else if ¬(List.range nodes).all (pointerOk data count (offset + 8)) then
      .error "Invalid pointer dependency or read size"
    else .ok nodes

def validateWatchlist (data : Bytes) : Except String WatchList :=
  if hlength : 20 ≤ data.length ∧ data.length ≤ 17432 then
    let count := data.field 8 4
    let directBytes := data.field 12 4
    if hcount : data.field 0 4 = 0x4C574152 ∧ data.field 4 4 = 1 ∧ 1 ≤ count ∧ count ≤ 4096 then
      if data.length < 16 + count * 4 then .error "Truncated watch entries"
      else if ¬(directSizes data count).all [1, 2, 4].contains ∨
          (directSizes data count).sum ≠ directBytes then
        .error "Invalid direct-value dimensions"
      else
        match parseNodes data count (16 + count * 4) with
        | .error message => .error message
        | .ok nodes =>
            if hcapacity : 1 ≤ directBytes ∧ directBytes + nodes * 8 ≤ MAX_VALUES then
              .ok ⟨data, count, directBytes, nodes, hlength, hcount.2.2, hcapacity⟩
            else .error "Snapshot exceeds protocol capacity"
    else .error "Invalid watch-list header"
  else .error "Invalid watch-list length or type"

/-! ## Sessions -/

/-- The list of a session with the assembler made for it. -/
structure Installed (T : Type) where
  imageHash : Str
  watch : WatchList
  session : Session T
  assembler : Assembler T

/-- `WatchSession`: its image, serial, list and assembler are set and cleared together. -/
structure WatchSession (T : Type) where
  generation : Nat
  installed : Option (Installed T)

namespace WatchSession

variable {T : Type}

def clear (s : WatchSession T) : WatchSession T := ⟨s.generation + 1, none⟩

/-- The assembler's own checks hold of every validated list. -/
def assembling (watch : WatchList) (serial : Str) (hserial : isSerial serial) (timeout : T) :
    Session T where
  serial := serial
  count := watch.count
  sizes := watch.snapshotSizes
  timeout := timeout
  serial_ne := by
    rintro rfl
    exact absurd hserial (by decide)
  count_range := watch.count_range
  sizes_ne := List.cons_ne_nil _ _
  sizes_range := by
    have h := watch.capacity
    simp only [WatchList.snapshotSizes, List.mem_cons, List.not_mem_nil, or_false]
    omega

def install (s : WatchSession T) (timeout : T) (imageHash serial : Str) (data : Bytes) :
    Except String (WatchSession T) :=
  if ¬isImageHash imageHash then .error "Invalid image hash"
  else if hserial : isSerial serial then
    match validateWatchlist data with
    | .error message => .error message
    | .ok watch =>
        .ok ⟨s.generation + 1, some ⟨imageHash.map CodePoint.asciiLower, watch,
          assembling watch serial hserial timeout, .reset⟩⟩
  else .error "Invalid game serial"

/-- A part of the list, for the image it was installed for. -/
def chunk (s : WatchSession T) (imageHash : Str) (index : Nat) : Except String (Option Bytes) :=
  match s.installed with
  | none => .ok none
  | some i => if imageHash ≠ i.imageHash then .ok none else (watchChunk i.watch.data index).map some

variable [Sub T] [LE T] [DecidableLE T]

def feed (s : WatchSession T) (packet : Bytes) (now : T) :
    Except FeedError (Option Bytes) × WatchSession T :=
  match s.installed with
  | none => (.ok none, s)
  | some i =>
      let result := i.assembler.feed i.session packet now
      (result.1, { s with installed := some { i with assembler := result.2 } })

end WatchSession

end Ps2Servers.Ra
