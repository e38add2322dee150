import Ps2Servers.Udpfs.Server
import Ps2Servers.Udpfs.VirtualViews

/-!
# Which contents a request survives

The calls below the handlers return or fail by what is in the files: the index of an image and the
bytes it points at, what a decompressor makes of them, the hunks behind libchdr, and the times and
names of a folder. Of all their failures only an errno of the host is answered.
-/

namespace Ps2Servers.Udpfs

open Text
open CueBin (BinError ChdBinFile)
open Effects (ok_bind)

/-! ## Outcomes of calls -/

/-- A failed call on the host is answered with its errno; what it returned must be fit to go on. -/
def HostThen {α : Type} (r : Except Errno α) (next : α → Prop) : Prop :=
  match r with
  | .ok a => next a
  | .error _ => True

/-- An `OSError` that carries an errno. -/
def Exn.hasErrno (e : Exn) : Prop := e.isOSError ∧ e.errno.isSome

/-- The call returns, or it raises an `OSError` that carries an errno. -/
def ErrnoThen {α : Type} (r : Except Exn α) (next : α → Prop) : Prop :=
  match r with
  | .ok a => next a
  | .error e => e.hasErrno

/-- The call returns. -/
def ReturnsThen {α : Type} (r : Except Exn α) (next : α → Prop) : Prop :=
  match r with
  | .ok a => next a
  | .error _ => False

/-- The call returns, or it raises an `OSError` that carries an errno, or a `ValueError`. -/
def PositionThen (r : Except Exn Nat) : Prop :=
  match r with
  | .ok _ => True
  | .error e => if e.isOSError then e.errno.isSome else e.isValueError

/-- The call returns, or it raises what the errors of an image are. -/
def ImageThen {α : Type} (r : Except Exn α) (next : α → Prop) : Prop :=
  match r with
  | .ok a => next a
  | .error e => e.isImageError

theorem Exn.not_hasErrno {e : Exn} (he : e.isOSError = false) : ¬ e.hasErrno := by
  rintro ⟨hos, -⟩
  rw [he] at hos
  cases hos

/-! ## Places in a file -/

section

variable {H : Type} (host : Host H) (codecs : Codecs H) (h : H)

/-- The place can be sought, and so many bytes be asked for. -/
def Askable (inode : Inode) (offset : Nat) (size : Int) : Prop :=
  offset ≤ MAX_OFFSET ∧ offset ≤ host.maxOffset h inode ∧ -1 ≤ size ∧ size ≤ MAX_OFFSET

instance (inode : Inode) (offset : Nat) (size : Int) : Decidable (Askable host h inode offset size) :=
  inferInstanceAs (Decidable (_ ∧ _))

/-- What the host has at a place; a size of `-1` takes the rest of the file. -/
def contentAt (inode : Inode) (offset : Nat) (size : Int) : Except Fault Bytes :=
  host.readAt h inode offset (if size = -1 then host.fileEnd h inode - offset else size.toNat)

/-- The bytes at a place, if they can be read. -/
def bytesAt (inode : Inode) (offset : Nat) (size : Int) : Option Bytes :=
  if Askable host h inode offset size then (contentAt host h inode offset size).toOption else none

/-- The host fails at a place: it cannot seek to it, or its read has an errno. -/
def FaultAt (inode : Inode) (offset : Nat) (size : Int) : Prop :=
  offset ≤ MAX_OFFSET ∧ host.maxOffset h inode < offset ∨
    Askable host h inode offset size ∧ ∃ errno, contentAt host h inode offset size = .error (.os errno)

/-! ## Blocks -/

/-- Where the bytes of a block are, and whether they are stored as they are. -/
structure Extent where
  stored : Bool
  offset : Nat
  size : Int
  deriving DecidableEq, Repr

/-- What the index says of a block. A block behind the index has no extent; the last block of a ZSO
file goes up to the end of the file. -/
def Wrapper.extent (w : Wrapper) (block : Nat) : Option Extent :=
  match w.layout with
  | .cso align => do
      guard (block < w.numBlocks)
      let raw ← w.blockOffsets[block]?
      let next ← w.blockOffsets[block + 1]?
      return ⟨isStored raw, entryOffset raw align,
        if isStored raw then w.blockSize else (entryOffset next align : Int) - entryOffset raw align⟩
  | .zso ziso align => do
      guard (block < w.numBlocks)
      let raw ← w.blockOffsets[block]?
      let next ←
        if ziso ∨ block + 1 < w.numBlocks then
          w.blockOffsets[block + 1]?.map fun next => entryOffset next align
        else some (host.fileEnd h w.inode)
      return ⟨isStored raw, entryOffset raw align, (next : Int) - entryOffset raw align⟩
  | .chd .. => none

/-- The non-empty prefixes of a byte string, the longest first. -/
def prefixes (bytes : Bytes) : List Bytes :=
  (List.range bytes.length).map fun n => bytes.take (bytes.length - n)

/-- What the decompressor makes of the bytes of a block. -/
def Wrapper.decode (w : Wrapper) (stored : Bool) (bytes : Bytes) : Option Bytes :=
  match w.layout with
  | .cso _ =>
      (if stored then some bytes
        else (codecs.inflateRaw bytes).orElse fun _ => codecs.inflate bytes).map (ljust w.blockSize)
  | .zso .. =>
      if stored then some bytes
      else codecs.lz4.bind fun lz4 => (prefixes bytes).findSome? fun bytes => lz4 bytes w.blockSize
  | .chd .. => none

/-- The data of a hunk: of a CD the user data of its frames. -/
def hunkData (hunkSize : Nat) (cd : Bool) (hunk : Bytes) : Bytes :=
  if cd then
    (List.range (hunkSize / CD_FRAME_SIZE)).flatMap fun i =>
      extractUserData (hunk.sub (i * CD_FRAME_SIZE) 2352)
  else hunk

/-- The content of a block, as far as the index, the file and the decompressor give it. -/
def Wrapper.content (w : Wrapper) (block : Nat) : Option Bytes :=
  match w.layout with
  | .chd handle hunkSize cd => (chdHunk codecs h handle hunkSize block).map (hunkData hunkSize cd)
  | _ => do
      let extent ← w.extent host h block
      let bytes ← bytesAt host h w.inode extent.offset extent.size
      w.decode codecs extent.stored bytes

/-- The block is in the index, and the host fails where its bytes are. -/
def Wrapper.Faulty (w : Wrapper) (block : Nat) : Prop :=
  ∃ extent, w.extent host h block = some extent ∧ FaultAt host h w.inode extent.offset extent.size

/-- What a read has that asks for a block: a cached one, or its content if the cache can hold it. -/
def Wrapper.blockFor (w : Wrapper) (cache : List (Nat × Bytes)) (block : Nat) : Option Bytes :=
  (cache.lookup block).or (if 0 < w.cacheSize then w.content host codecs h block else none)

/-- How many bytes of the image are in the block of a position, from there on. -/
def Wrapper.room (w : Wrapper) (pos : Nat) : Nat :=
  let last := w.uncompressedSize % w.blockSize
  (if pos / w.blockSize + 1 = w.numBlocks ∧ last ≠ 0 then last else w.blockSize) - pos % w.blockSize

/-- Block by block from a position on, with so many bytes read so far: there are enough in the end,
and their number can be sent, or the host fails at a block. The rounds run out where the read goes on
for ever. -/
def Wrapper.ReadsOn (w : Wrapper) (size : Nat) : Nat → List (Nat × Bytes) → Nat → Nat → Prop
  | 0, _, _, _ => False
  | rounds + 1, cache, pos, got =>
      if size ≤ got then fits32 got = true
      else
        let block := pos / w.blockSize
        let taken := min (size - got) (w.room pos)
        match w.blockFor host codecs h cache block with
        | some data =>
            w.ReadsOn size rounds (Lru.use w.cacheSize.toNat cache block data) (pos + taken)
              (got + min taken (data.length - pos % w.blockSize))
        | none => cache.lookup block = none ∧ w.Faulty host h block

/-- A read at a position of an image: there is nothing to read, or it goes on to its end. -/
def Wrapper.ReadsAt (w : Wrapper) (pos size : Nat) : Prop :=
  size = 0 ∨ w.uncompressedSize ≤ pos ∨
    w.ReadsOn host codecs h (min size (w.uncompressedSize - pos)) (w.uncompressedSize - pos + 2)
      w.cache pos 0

/-! ## Views -/

/-- A read at a position of a view: its bytes can be counted, and of a BIN each hunk that is not in the
cache comes from libchdr. -/
def OpenView.ReadsAt (pos size : Nat) : OpenView → Prop
  | .cue f => fits32 (min size (f.data.length - pos) : Nat)
  | .bin b =>
      fits32 (min size (b.layout.size - pos) : Nat) ∧
        Lru.Served (hunkLimit b.file) (chdHunk codecs h b.chd b.table.hunkBytes) b.file.cache
          (hunksAt b.table pos (min size (b.layout.size - pos)))

def OpenView.pos : OpenView → Nat
  | .cue f => f.pos
  | .bin b => b.file.pos

/-- A seek that `io.BytesIO` does not find too large; a BIN can seek anywhere. -/
def OpenView.Seeks (offset : Int) (whence : Nat) : OpenView → Prop
  | .cue f =>
      (whence = 1 → f.pos + offset ≤ MAX_OFFSET) ∧ (whence = 2 → f.data.length + offset ≤ MAX_OFFSET)
  | .bin _ => True

/-- A CUE opens always, a BIN if libchdr is there and opens the regular file that it is about. -/
def VirtualView.Opens (names : ViewNames H) (view : VirtualView) : Prop :=
  view.kind = .bin → ∃ lib st name, codecs.libchdr = some lib ∧
    host.lstat h view.chdPath = .ok st ∧ st.isReg ∧ names.fsencode view.chdPath = some name ∧
    (lib.1 h name).isSome

/-! ## Images that open -/

/-- A read while an image is opened. A place that cannot be sought or read refuses the image; more
bytes than can be asked for, or held, do not. -/
def ReadThen (inode : Inode) (offset size : Nat) (next : Bytes → Prop) : Prop :=
  host.maxOffset h inode < offset ∨
    size ≤ MAX_OFFSET ∧
      match host.readAt h inode offset size with
      | .ok data => next data
      | .error (.os _) => True
      | .error .memory => False

/-- Where the index of a CSO file is, and how many entries it has, if its header is accepted. -/
def csoIndex (header : Bytes) : Option (Nat × Nat) :=
  if 24 ≤ header.length ∧ header.field 0 4 = CSO_MAGIC ∧ header.field 16 4 ≠ 0 then
    some (24, ceilDiv (header.field 8 8) (header.field 16 4) + 1)
  else none

def zsoIndex (header : Bytes) : Option (Nat × Nat) :=
  let ziso := header.take 4 == ZISO_MAGIC
  if 24 ≤ header.length ∧ (ziso ∨ header.take 4 = ZSO_MAGIC) ∧ header.field 16 4 ≠ 0 then
    some (header.field 4 4,
      ceilDiv (header.field 8 8) (header.field 16 4) + if ziso then 1 else 0)
  else none

def chdAccepted (header : Bytes) : Prop :=
  64 ≤ header.length ∧ header.take 8 = CHD_MAGIC ∧ bigEndian header 12 4 = 5 ∧
    bigEndian header 56 4 ≠ 0

/-- An image with an index, which opens if its header is accepted and all of the index is there. -/
def IndexThen (inode : Inode) (index : Bytes → Option (Nat × Nat)) (opened : Prop) : Prop :=
  ReadThen host h inode 0 24 fun header => ∀ place entries, index header = some (place, entries) →
    ReadThen host h inode place (entries * 4) fun table => entries * 4 ≤ table.length → opened

/-- An image that may open, and what must hold if it does. One that is refused is answered. -/
def OpensThen (path : Str) (opened : Prop) : Prop :=
  ∀ inode, host.openRead h path = .ok inode →
    match formatForExtension host path, codecs.lz4, codecs.libchdr with
    | some .cso, _, _ => IndexThen host h inode csoIndex opened
    | some .zso, some _, _ => IndexThen host h inode zsoIndex opened
    | some .chd, _, some (chdOpen, _) =>
        ReadThen host h inode 0 124 fun header => chdAccepted header →
          ∀ name, encode path = some name → (chdOpen h name).isSome → opened
    | _, _, _ => True

end

section

variable {H : Type} {host : Host H} {codecs : Codecs H} {h : H}

/-- A call that returns what there is, and else fails, with an errno just where the host does. -/
inductive Reflects {α : Type} (faulty : Prop) : Except Exn α → Option α → Prop
  | ok (a : α) (hnot : ¬ faulty) : Reflects faulty (.ok a) (some a)
  | error (e : Exn) (herrno : e.hasErrno ↔ faulty) : Reflects faulty (.error e) none

theorem Reflects.refused {α : Type} {faulty : Prop} {e : Exn} (he : e.isOSError = false)
    (hnot : ¬ faulty) : Reflects faulty (.error e : Except Exn α) none :=
  .error e (iff_of_false (Exn.not_hasErrno he) hnot)

theorem Reflects.orRaise {α : Type} {faulty : Prop} {e : Exn} (he : e.isOSError = false)
    (hnot : ¬ faulty) (o : Option α) : Reflects faulty (orRaise e o) o := by
  cases o with
  | none => exact .refused he hnot
  | some a => exact .ok a hnot

/-- What is done behind a call fails without an errno. -/
theorem Reflects.bind {α β : Type} {faulty : Prop} {r : Except Exn α} {o : Option α}
    {f : α → Except Exn β} {g : α → Option β} (hr : Reflects faulty r o)
    (hf : ∀ a, ¬ faulty → Reflects faulty (f a) (g a)) : Reflects faulty (r >>= f) (o.bind g) := by
  cases hr with
  | ok a hnot => exact hf a hnot
  | error e herrno => exact .error e herrno

variable (host h) in
theorem reflects_readFrom (inode : Inode) (offset : Nat) (size : Int) :
    Reflects (FaultAt host h inode offset size) (readFrom host h inode offset size)
      (bytesAt host h inode offset size) := by
  -- A place that is not asked of the host.
  have hrefused {e : Exn} (he : e.isOSError = false) (hnot : ¬ Askable host h inode offset size)
      (hseek : ¬ (offset ≤ MAX_OFFSET ∧ host.maxOffset h inode < offset)) :
      Reflects (FaultAt host h inode offset size) (.error e) (bytesAt host h inode offset size) := by
    rw [bytesAt, if_neg hnot]
    apply Reflects.refused he
    rintro (hlt | ⟨hask, -⟩)
    · exact hseek hlt
    · exact hnot hask
  -- A place that is.
  have hread (hask : Askable host h inode offset size) :
      Reflects (FaultAt host h inode offset size) (orFault (contentAt host h inode offset size))
        (bytesAt host h inode offset size) := by
    have hfault : FaultAt host h inode offset size ↔
        ∃ errno, contentAt host h inode offset size = .error (.os errno) := by
      constructor
      · rintro (⟨-, hlt⟩ | ⟨-, herrno⟩)
        · exact absurd hlt (Nat.not_lt.mpr hask.2.1)
        · exact herrno
      · exact fun herrno => Or.inr ⟨hask, herrno⟩
    rw [bytesAt, if_pos hask]
    cases hcontent : contentAt host h inode offset size with
    | ok data =>
        refine .ok data ?_
        rw [hfault, hcontent]
        rintro ⟨errno, herror⟩
        cases herror
    | error fault =>
        refine .error fault.exn ?_
        rw [hfault, hcontent]
        cases fault with
        | os errno => exact iff_of_true ⟨rfl, rfl⟩ ⟨errno, rfl⟩
        | memory =>
            refine iff_of_false (Exn.not_hasErrno rfl) ?_
            rintro ⟨errno, herror⟩
            cases herror
  unfold readFrom
  split
  case isTrue hoffset =>
    exact hrefused rfl (fun hask => Nat.not_lt.mpr hask.1 hoffset)
      (fun hseek => Nat.not_lt.mpr hseek.1 hoffset)
  case isFalse hoffset =>
  split
  case isTrue hseek =>
    rw [bytesAt, if_neg (fun hask => Nat.not_lt.mpr hask.2.1 hseek)]
    exact .error _ (iff_of_true ⟨rfl, rfl⟩ (Or.inl ⟨Nat.le_of_not_lt hoffset, hseek⟩))
  case isFalse hseek =>
  split
  case isTrue hsize =>
    exact hrefused rfl (fun hask => Int.not_lt.mpr hask.2.2.1 hsize) (fun hlt => hseek hlt.2)
  case isFalse hsize =>
  split
  case isTrue hrest =>
    have hask : Askable host h inode offset size :=
      ⟨Nat.le_of_not_lt hoffset, Nat.le_of_not_lt hseek, by omega, by rw [hrest]; decide⟩
    have hcontent := hread hask
    rw [contentAt, if_pos hrest] at hcontent
    exact hcontent
  case isFalse hrest =>
  split
  case isTrue hlarge =>
    exact hrefused rfl (fun hask => Int.not_lt.mpr hask.2.2.2 hlarge) (fun hlt => hseek hlt.2)
  case isFalse hlarge =>
    have hcontent := hread ⟨Nat.le_of_not_lt hoffset, Nat.le_of_not_lt hseek, by omega, by omega⟩
    rw [contentAt, if_neg hrest] at hcontent
    exact hcontent

/-! ## Blocks that return -/

variable {w : Wrapper}

theorem lz4Retry_eq (lz4 : Bytes → Nat → Option Bytes) (blockSize : Nat) (data : Bytes) :
    lz4Retry lz4 blockSize data.length data =
      orRaise .valueError ((prefixes data).findSome? fun bytes => lz4 bytes blockSize) := by
  have hshorter (data : Bytes) (b : UInt8) : prefixes (data ++ [b]) = (data ++ [b]) :: prefixes data := by
    unfold prefixes
    rw [List.length_append, List.length_singleton, List.range_succ_eq_map, List.map_cons,
      List.map_map]
    congr 1
    · rw [Nat.sub_zero, ← List.length_singleton (a := b), ← List.length_append, List.take_length]
    · apply List.map_congr_left
      intro n hn
      have hlt := List.mem_range.mp hn
      rw [Function.comp_apply, Nat.succ_eq_add_one, Nat.add_sub_add_right,
        List.take_append_of_le_length (Nat.sub_le _ _)]
  induction data using List.reverseRecOn with
  | nil => rfl
  | append_singleton data b ih =>
      rw [hshorter, List.length_append, List.length_singleton, List.findSome?_cons, lz4Retry]
      cases lz4 (data ++ [b]) blockSize with
      | some decompressed => rfl
      | none =>
          dsimp only
          rw [List.dropLast_concat]
          exact ih

section

variable {block : Nat} {extent : Extent}

theorem not_faulty (hextent : w.extent host h block = none) : ¬ w.Faulty host h block := by
  rintro ⟨extent, hsome, -⟩
  rw [hextent] at hsome
  cases hsome

theorem faulty_iff (hextent : w.extent host h block = some extent) :
    w.Faulty host h block ↔ FaultAt host h w.inode extent.offset extent.size := by
  constructor
  · rintro ⟨extent', hsome, hfault⟩
    rw [hextent] at hsome
    cases hsome
    exact hfault
  · exact fun hfault => ⟨extent, hextent, hfault⟩

/-- The content of a block that has an index. -/
theorem content_eq (hindexed : ∀ handle hunkSize cd, w.layout ≠ .chd handle hunkSize cd) :
    w.content host codecs h block = (w.extent host h block).bind fun extent =>
      (bytesAt host h w.inode extent.offset extent.size).bind (w.decode codecs extent.stored) := by
  unfold Wrapper.content
  split
  case h_1 handle hunkSize cd hlayout => exact absurd hlayout (hindexed handle hunkSize cd)
  case h_2 => rfl

/-- The bytes of an extent are read and decoded. -/
theorem reflects_extent (hindexed : ∀ handle hunkSize cd, w.layout ≠ .chd handle hunkSize cd)
    (hextent : w.extent host h block = some extent) {f : Bytes → Except Exn Bytes}
    (hdecode : ∀ bytes {faulty : Prop}, ¬ faulty →
      Reflects faulty (f bytes) (w.decode codecs extent.stored bytes)) :
    Reflects (w.Faulty host h block) (readFrom host h w.inode extent.offset extent.size >>= f)
      (w.content host codecs h block) := by
  rw [content_eq hindexed, hextent, Option.bind_some]
  have hread := (reflects_readFrom host h w.inode extent.offset extent.size).bind
    (f := f) (g := w.decode codecs extent.stored) fun bytes hnot => hdecode bytes hnot
  rwa [← faulty_iff hextent] at hread

/-- A block without an extent. -/
theorem reflects_no_extent (hindexed : ∀ handle hunkSize cd, w.layout ≠ .chd handle hunkSize cd)
    (hextent : w.extent host h block = none) {e : Exn} (he : e.isOSError = false) :
    Reflects (w.Faulty host h block) (.error e) (w.content host codecs h block) := by
  rw [content_eq hindexed, hextent]
  exact .refused he (not_faulty hextent)

end

theorem reflects_decompressCso {align : Nat} (hlayout : w.layout = .cso align) (block : Nat) :
    Reflects (w.Faulty host h block) (decompressCso host codecs h w align block)
      (w.content host codecs h block) := by
  have hindexed : ∀ handle hunkSize cd, w.layout ≠ .chd handle hunkSize cd := by simp [hlayout]
  unfold decompressCso offsetAt
  by_cases hblock : w.numBlocks ≤ block
  · rw [if_pos hblock]
    exact reflects_no_extent hindexed (by simp [Wrapper.extent, hlayout, Nat.not_lt.mpr hblock]) rfl
  rw [if_neg hblock]
  cases hraw : w.blockOffsets[block]? with
  | none =>
      exact reflects_no_extent hindexed (by simp [Wrapper.extent, hlayout, hraw]) rfl
  | some raw =>
      cases hnext : w.blockOffsets[block + 1]? with
      | none =>
          exact reflects_no_extent hindexed (by simp [Wrapper.extent, hlayout, hraw, hnext]) rfl
      | some next =>
          have hextent : w.extent host h block = some ⟨isStored raw, entryOffset raw align,
              if isStored raw then w.blockSize
              else (entryOffset next align : Int) - entryOffset raw align⟩ := by
            simp [Wrapper.extent, hlayout, Nat.lt_of_not_le hblock, hraw, hnext]
          refine reflects_extent hindexed hextent ?_
          intro bytes faulty hnot
          unfold Wrapper.decode
          rw [hlayout]
          dsimp only
          split
          · exact .ok (ljust w.blockSize bytes) hnot
          · rw [Option.map_eq_bind]
            exact (Reflects.orRaise rfl hnot _).bind fun decompressed hnot =>
              .ok (ljust w.blockSize decompressed) hnot

theorem reflects_decompressZso {ziso : Bool} {align : Nat} (hlayout : w.layout = .zso ziso align)
    (block : Nat) : Reflects (w.Faulty host h block)
      (decompressZso host codecs h w ziso align block) (w.content host codecs h block) := by
  have hindexed : ∀ handle hunkSize cd, w.layout ≠ .chd handle hunkSize cd := by simp [hlayout]
  -- What is done with the bytes of the block.
  have hdecode (raw : Nat) (bytes : Bytes) {faulty : Prop} (hnot : ¬ faulty) {r : Except Exn Bytes}
      (hr : r = if isStored raw then .ok bytes else
        orRaise .importError codecs.lz4 >>= fun lz4 => lz4Retry lz4 w.blockSize bytes.length bytes) :
      Reflects faulty r (w.decode codecs (isStored raw) bytes) := by
    unfold Wrapper.decode
    rw [hr, hlayout]
    dsimp only
    split
    · exact .ok bytes hnot
    cases codecs.lz4 with
    | none => exact .refused rfl hnot
    | some lz4 =>
        rw [orRaise, ok_bind, Option.bind_some, lz4Retry_eq]
        exact Reflects.orRaise rfl hnot _
  unfold decompressZso offsetAt
  by_cases hblock : w.numBlocks ≤ block
  · rw [if_pos hblock]
    exact reflects_no_extent hindexed (by simp [Wrapper.extent, hlayout, Nat.not_lt.mpr hblock]) rfl
  rw [if_neg hblock]
  cases hraw : w.blockOffsets[block]? with
  | none =>
      exact reflects_no_extent hindexed (by simp [Wrapper.extent, hlayout, hraw]) rfl
  | some raw =>
      by_cases hentry : ziso = true ∨ block + 1 < w.numBlocks
      · cases hnext : w.blockOffsets[block + 1]? with
        | none =>
            rw [orRaise, ok_bind, if_pos hentry]
            exact reflects_no_extent (e := .indexError) hindexed
              (by simp [Wrapper.extent, hlayout, hraw, hnext, hentry]) rfl
        | some next =>
            have hextent : w.extent host h block = some ⟨isStored raw, entryOffset raw align,
                (entryOffset next align : Int) - entryOffset raw align⟩ := by
              simp [Wrapper.extent, hlayout, Nat.lt_of_not_le hblock, hraw, hnext, hentry]
            rw [orRaise, ok_bind, if_pos hentry]
            exact reflects_extent hindexed hextent fun bytes _ hnot =>
              hdecode raw bytes hnot (by cases codecs.lz4 <;> rfl)
      · have hextent : w.extent host h block = some ⟨isStored raw, entryOffset raw align,
            (host.fileEnd h w.inode : Int) - entryOffset raw align⟩ := by
          simp [Wrapper.extent, hlayout, Nat.lt_of_not_le hblock, hraw, hentry]
        rw [orRaise, ok_bind, if_neg hentry]
        exact reflects_extent hindexed hextent fun bytes _ hnot =>
          hdecode raw bytes hnot (by cases codecs.lz4 <;> rfl)

variable (host codecs h) in
/-- Every block comes with its content, and only a host that fails at its bytes has an errno. -/
theorem reflects_decompressBlock (w : Wrapper) (block : Nat) :
    Reflects (w.Faulty host h block) (decompressBlock host codecs h w block)
      (w.content host codecs h block) := by
  unfold decompressBlock
  split
  case h_1 align hlayout => exact reflects_decompressCso hlayout block
  case h_2 ziso align hlayout => exact reflects_decompressZso hlayout block
  case h_3 handle hunkSize cd hlayout =>
    have hnot : ¬ w.Faulty host h block := by
      apply not_faulty
      unfold Wrapper.extent
      rw [hlayout]
    unfold Wrapper.content chdHunk decompressChd
    rw [hlayout]
    dsimp only
    cases codecs.libchdr with
    | none => exact .refused rfl hnot
    | some lib =>
        obtain ⟨chdOpen, chdRead⟩ := lib
        dsimp only
        cases chdRead h handle (block % 0x100000000) with
        | none => exact .error _ (iff_of_false (fun herrno => by cases herrno.2) hnot)
        | some hunk =>
            dsimp only [Option.map_some]
            unfold hunkData
            split
            · exact .ok _ hnot
            · exact .ok _ hnot

/-! ## Reads of an image -/

/-- A block that is asked for comes from the cache or has its content, and is used then. -/
theorem getBlock_of_some {block : Nat} {data : Bytes}
    (hblock : w.blockFor host codecs h w.cache block = some data) :
    getBlock host codecs h w block =
      (.ok data, { w with cache := Lru.use w.cacheSize.toNat w.cache block data }) := by
  unfold Wrapper.blockFor at hblock
  unfold getBlock
  cases hlookup : w.cache.lookup block with
  | some cached =>
      rw [hlookup, Option.some_or] at hblock
      cases hblock
      rw [Lru.use_of_lookup hlookup]
  | none =>
      rw [hlookup, Option.none_or] at hblock
      split at hblock
      case isFalse => cases hblock
      case isTrue hlimit =>
        have hreflects := reflects_decompressBlock host codecs h w block
        rw [hblock] at hreflects
        generalize decompressBlock host codecs h w block = r at hreflects
        cases hreflects with
        | ok a hnot =>
            dsimp only
            rw [if_neg (Int.not_le.mpr hlimit), Lru.use_of_lookup_none hlookup (by omega)]

/-- Else an exception is raised, with an errno just where the host fails at the block. -/
theorem getBlock_of_none {block : Nat} (hblock : w.blockFor host codecs h w.cache block = none) :
    ∃ e w', getBlock host codecs h w block = (.error e, w') ∧
      (e.hasErrno ↔ w.cache.lookup block = none ∧ w.Faulty host h block) := by
  unfold Wrapper.blockFor at hblock
  obtain ⟨hlookup, hcontent⟩ := Option.or_eq_none_iff.mp hblock
  unfold getBlock
  rw [hlookup]
  have hreflects := reflects_decompressBlock host codecs h w block
  generalize decompressBlock host codecs h w block = r at hreflects
  generalize w.content host codecs h block = o at hreflects hcontent
  cases hreflects with
  | ok data hnot =>
      split at hcontent
      case isTrue => cases hcontent
      case isFalse hlimit =>
        dsimp only
        rw [if_pos (Int.not_lt.mp hlimit)]
        exact ⟨_, _, rfl, iff_of_false (Exn.not_hasErrno rfl) fun hfaulty => hnot hfaulty.2⟩
  | error e herrno => exact ⟨e, w, rfl, herrno.trans (and_iff_right rfl).symm⟩

theorem readSize_eq (w : Wrapper) (remaining : Nat) :
    w.readSize remaining = min remaining (w.room w.pos) := by
  unfold Wrapper.readSize Wrapper.room
  by_cases hblock : w.pos / w.blockSize + 1 = w.numBlocks
  · by_cases hlast : w.uncompressedSize % w.blockSize = 0
    · simp [hblock, hlast]
    · simp [hblock, hlast]
  · simp [hblock]

/-- Each round of the loop is one of the condition. -/
theorem errnoThen_readLoop (w : Wrapper) (size fuel : Nat) (cache : List (Nat × Bytes)) (pos : Nat)
    (result : Bytes) :
    ErrnoThen (readLoop host codecs h size fuel { w with pos := pos, cache := cache } result).1
        (fun data => fits32 data.length) ↔
      w.ReadsOn host codecs h size fuel cache pos result.length := by
  induction fuel generalizing cache pos result with
  | zero => exact iff_of_false (Exn.not_hasErrno rfl) id
  | succ fuel ih =>
      unfold readLoop Wrapper.ReadsOn
      by_cases henough : size ≤ result.length
      · rw [if_pos henough, if_pos henough]
        rfl
      · rw [if_neg henough, if_neg henough]
        dsimp only
        cases hblock : w.blockFor host codecs h cache (pos / w.blockSize) with
        | some data =>
            have hget := getBlock_of_some (w := { w with pos := pos, cache := cache }) hblock
            rw [hget]
            dsimp only
            rw [ih, List.length_append, readSize_eq]
            have hlength (taken : Nat) : (data.sub (pos % w.blockSize) taken).length =
                min taken (data.length - pos % w.blockSize) := by
              unfold Bytes.sub
              rw [List.length_take, List.length_drop]
            rw [hlength]
            rfl
        | none =>
            obtain ⟨e, w', hget, herrno⟩ :=
              getBlock_of_none (w := { w with pos := pos, cache := cache }) hblock
            rw [hget]
            exact herrno

theorem errnoThen_imageRead (w : Wrapper) (pos size : Nat) :
    ErrnoThen (({ w with pos := pos } : Wrapper).read host codecs h size).1
        (fun data => fits32 data.length) ↔ w.ReadsAt host codecs h pos size := by
  unfold Wrapper.read Wrapper.ReadsAt
  split
  case isTrue hnothing =>
    refine iff_of_true rfl ?_
    rcases hnothing with hsize | hend
    · exact Or.inl hsize
    · exact Or.inr (Or.inl hend)
  case isFalse hmore =>
    rw [not_or] at hmore
    rw [or_iff_right hmore.1, or_iff_right hmore.2]
    exact errnoThen_readLoop w _ _ w.cache pos []

/-- A seek behind the end goes to the end, where there is as little to read. -/
theorem errnoThen_imageSeekRead (w : Wrapper) (offset size : Nat) :
    ErrnoThen ((w.seek offset 0).2.read host codecs h size).1 (fun data => fits32 data.length) ↔
      w.ReadsAt host codecs h offset size := by
  have hseek : (w.seek offset 0).2 = { w with pos := min offset w.uncompressedSize } := by
    have hpos : (max 0 (min (offset : Int) w.uncompressedSize)).toNat =
        min offset w.uncompressedSize := by omega
    rw [← hpos]
    rfl
  rw [hseek, errnoThen_imageRead]
  rcases Nat.le_total w.uncompressedSize offset with hend | hinside
  · rw [Nat.min_eq_right hend]
    exact iff_of_true (Or.inr (Or.inl (Nat.le_refl _))) (Or.inr (Or.inl hend))
  · rw [Nat.min_eq_left hinside]

/-! ## Reads and seeks of views -/

theorem errnoThen_binRead (b : BinFile) (size : Nat) :
    ErrnoThen (b.read codecs h size).1 (fun data => fits32 data.length) ↔
      (OpenView.bin b).ReadsAt codecs h b.file.pos size := by
  have hends := @Over.read _ _ _ _ codecs h b.chd b.geometry
    (CueBin.TrackTable.layout_sound b.layout_eq) b.isOver size
  unfold BinFile.read OpenView.ReadsAt
  dsimp only
  rcases hends.result with ⟨⟨data, hok, hlength⟩, hserved⟩ | ⟨⟨index, herror⟩, hnot⟩
  · rw [hok, ← hlength, hlength, and_iff_left hserved, ← hlength]
    rfl
  · rw [herror]
    refine iff_of_false ?_ fun hreads => hnot hreads.2
    exact fun herrno => by cases herrno.2

theorem errnoThen_viewRead (names : ViewNames H) (b : OpenView) (size : Nat) :
    ErrnoThen ((chdViews host codecs names).read h b size).1 (fun data => fits32 data.length) ↔
      b.ReadsAt codecs h b.pos size := by
  cases b with
  | cue f =>
      change fits32 (f.data.sub f.pos size).length ↔ fits32 (min size (f.data.length - f.pos) : Nat)
      rw [Bytes.sub, List.length_take, List.length_drop]
  | bin b => exact errnoThen_binRead b size

variable (host codecs h) in
/-- A view can be sought anywhere from its start, and reads there. -/
theorem viewSeek_start (names : ViewNames H) (b : OpenView) (offset size : Nat) :
    ∃ b', (chdViews host codecs names).seek h b offset 0 = (.ok offset, b') ∧
      (ErrnoThen ((chdViews host codecs names).read h b' size).1 (fun data => fits32 data.length) ↔
        b.ReadsAt codecs h offset size) := by
  cases b with
  | cue f =>
      refine ⟨.cue { f with pos := offset }, ?_, errnoThen_viewRead names _ size⟩
      have hseek : f.seek offset 0 = (.ok offset, { f with pos := offset }) := by
        change (if (offset : Int) < 0 then (.error .valueError, f)
          else (.ok (offset : Int).toNat, { f with pos := (offset : Int).toNat }) :
            Except Exn Nat × MemoryFile) = _
        rw [if_neg (Int.not_lt.mpr (Int.natCast_nonneg offset)), Int.toNat_natCast]
      change ((f.seek offset 0).1, OpenView.cue (f.seek offset 0).2) = _
      rw [hseek]
  | bin b =>
      have hseek : b.file.seek offset 0 = (.ok offset, { b.file with pos := offset }) := by
        change (if (offset : Int) < 0 then (.error .negativeSeek, b.file)
          else (.ok (offset : Int).toNat, { b.file with pos := (offset : Int).toNat }) :
            Except BinError Nat × ChdBinFile) = _
        rw [if_neg (Int.not_lt.mpr (Int.natCast_nonneg offset)), Int.toNat_natCast]
      refine ⟨.bin { b with file := { b.file with pos := offset }, isOver := b.isOver.setPos offset }, ?_,
        errnoThen_viewRead names _ size⟩
      change ((b.seek offset 0).1, OpenView.bin (b.seek offset 0).2) = _
      unfold BinFile.seek
      simp only [hseek]
      rfl

theorem viewSeeks_iff (names : ViewNames H) (b : OpenView) (offset : Int) (whence : Nat) :
    PositionThen ((chdViews host codecs names).seek h b offset whence).1 ↔ b.Seeks offset whence := by
  cases b with
  | cue f =>
      change PositionThen (f.seek offset whence).1 ↔ _
      have hplace (base : Nat) : PositionThen (if (MAX_OFFSET : Int) - base < offset then
          ((.error .overflowError, f) : Except Exn Nat × MemoryFile)
          else (.ok (base + offset).toNat, { f with pos := (base + offset).toNat })).1 ↔
          base + offset ≤ MAX_OFFSET := by
        split
        case isTrue hlarge => exact iff_of_false nofun (by omega)
        case isFalse hsmall => exact iff_of_true trivial (by omega)
      unfold OpenView.Seeks
      match whence with
      | 0 =>
          refine iff_of_true ?_ ⟨nofun, nofun⟩
          change PositionThen (if offset < 0 then _ else _ : Except Exn Nat × MemoryFile).1
          split
          · exact rfl
          · trivial
      | 1 => exact (hplace f.pos).trans (by simp)
      | 2 => exact (hplace f.data.length).trans (by simp)
      | n + 3 => exact iff_of_true rfl ⟨by omega, by omega⟩
  | bin b =>
      refine iff_of_true ?_ trivial
      change PositionThen ((b.file.seek offset whence).1.mapError binExn)
      unfold ChdBinFile.seek
      dsimp only
      split
      · exact rfl
      · split
        · exact rfl
        · trivial

/-! ## Openings -/

theorem imageThen_bind {α β : Type} {r : Except Exn α} {f : α → Except Exn β} {next : β → Prop} :
    ImageThen (r >>= f) next ↔ ImageThen r fun a => ImageThen (f a) next := by
  cases r with
  | ok a => rfl
  | error e => rfl

/-- A refusal before the rest. -/
theorem imageThen_refuse {α : Type} {c : Prop} [Decidable c] {r : Except Exn α} {next : α → Prop} :
    ImageThen (if c then .error .valueError else r) next ↔ (¬ c → ImageThen r next) := by
  split
  case isTrue hc => exact iff_of_true rfl fun hnot => absurd hc hnot
  case isFalse hc => exact ⟨fun hr _ => hr, fun hr => hr hc⟩

theorem imageThen_orRaise {α : Type} {e : Exn} (he : e.isImageError) {o : Option α}
    {next : α → Prop} : ImageThen (orRaise e o) next ↔ ∀ a, o = some a → next a := by
  cases o with
  | none => exact iff_of_true he (by simp)
  | some a => simp [orRaise, ImageThen]

theorem imageThen_readFrom {inode : Inode} {offset : Nat} (size : Nat) {next : Bytes → Prop}
    (hoffset : offset ≤ MAX_OFFSET) :
    ImageThen (readFrom host h inode offset size) next ↔ ReadThen host h inode offset size next := by
  unfold readFrom ReadThen
  rw [if_neg (Nat.not_lt.mpr hoffset)]
  split
  case isTrue hseek => exact iff_of_true rfl (Or.inl hseek)
  case isFalse hseek =>
    rw [or_iff_right hseek, if_neg (by omega), if_neg (by omega), Int.toNat_natCast]
    split
    case isTrue hlarge => exact iff_of_false nofun (by omega)
    case isFalse hsize =>
      rw [and_iff_right (by omega)]
      cases host.readAt h inode offset size with
      | ok data => rfl
      | error fault =>
          cases fault with
          | os errno => exact iff_of_true rfl trivial
          | memory => exact iff_of_false nofun id

theorem readThen_congr {inode : Inode} {offset size : Nat} {p q : Bytes → Prop}
    (hpq : ∀ data, p data ↔ q data) :
    ReadThen host h inode offset size p ↔ ReadThen host h inode offset size q := by
  have hfun : p = q := funext fun data => propext (hpq data)
  rw [hfun]

theorem imageThen_readOffsets {inode : Inode} {place entries : Nat} {next : List Nat → Prop}
    {opened : Prop} (hplace : place ≤ MAX_OFFSET) (hnext : ∀ offsets, next offsets ↔ opened) :
    ImageThen (readOffsets host h inode place entries) next ↔
      ReadThen host h inode place (entries * 4) fun table => entries * 4 ≤ table.length → opened := by
  unfold readOffsets
  refine imageThen_bind.trans ((imageThen_readFrom _ hplace).trans (readThen_congr fun table => ?_))
  refine imageThen_refuse.trans ?_
  rw [Nat.not_lt]
  exact imp_congr_right fun _ => hnext _

theorem forall_csoIndex {header : Bytes} {p : Nat → Nat → Prop} :
    (∀ place entries, csoIndex header = some (place, entries) → p place entries) ↔
      (¬ header.length < 24 → ¬ header.field 0 4 ≠ CSO_MAGIC → ¬ header.field 16 4 = 0 →
        p 24 (ceilDiv (header.field 8 8) (header.field 16 4) + 1)) := by
  unfold csoIndex
  simp only [Option.ite_none_right_eq_some, Option.some.injEq, Prod.mk.injEq, Nat.not_lt, not_not]
  constructor
  · exact fun hall hlength hmagic hblock => hall _ _ ⟨⟨hlength, hmagic, hblock⟩, rfl, rfl⟩
  · rintro hp place entries ⟨⟨hlength, hmagic, hblock⟩, rfl, rfl⟩
    exact hp hlength hmagic hblock

theorem forall_zsoIndex {header : Bytes} {p : Nat → Nat → Prop} :
    (∀ place entries, zsoIndex header = some (place, entries) → p place entries) ↔
      (¬ header.length < 24 →
        ¬ (!(header.take 4 == ZISO_MAGIC) && decide (header.take 4 ≠ ZSO_MAGIC)) = true →
          ¬ header.field 16 4 = 0 → p (header.field 4 4)
            (ceilDiv (header.field 8 8) (header.field 16 4) +
              if header.take 4 == ZISO_MAGIC then 1 else 0)) := by
  have hmagic : ¬ (!(header.take 4 == ZISO_MAGIC) && decide (header.take 4 ≠ ZSO_MAGIC)) = true ↔
      (header.take 4 == ZISO_MAGIC) = true ∨ header.take 4 = ZSO_MAGIC := by
    cases header.take 4 == ZISO_MAGIC <;> simp
  rw [hmagic]
  unfold zsoIndex
  simp only [Option.ite_none_right_eq_some, Option.some.injEq, Prod.mk.injEq, Nat.not_lt]
  constructor
  · exact fun hall hlength hmagic hblock => hall _ _ ⟨⟨hlength, hmagic, hblock⟩, rfl, rfl⟩
  · rintro hp place entries ⟨⟨hlength, hmagic, hblock⟩, rfl, rfl⟩
    exact hp hlength hmagic hblock

theorem imageThen_parseCso (inode : Inode) (cacheSize : Int) (opened : Prop) :
    ImageThen (parseCso host h inode cacheSize) (fun _ => opened) ↔
      IndexThen host h inode csoIndex opened := by
  unfold parseCso IndexThen
  refine imageThen_bind.trans ((imageThen_readFrom 24 (Nat.zero_le _)).trans
    (readThen_congr fun header => Iff.trans ?_ forall_csoIndex.symm))
  dsimp only
  refine imageThen_refuse.trans (imp_congr_right fun _ => imageThen_refuse.trans
    (imp_congr_right fun _ => imageThen_refuse.trans (imp_congr_right fun _ => ?_)))
  exact imageThen_bind.trans (imageThen_readOffsets (by decide) fun _ => Iff.rfl)

theorem imageThen_parseZso (inode : Inode) (cacheSize : Int) (opened : Prop) :
    ImageThen (parseZso host h inode cacheSize) (fun _ => opened) ↔
      IndexThen host h inode zsoIndex opened := by
  unfold parseZso IndexThen
  refine imageThen_bind.trans ((imageThen_readFrom 24 (Nat.zero_le _)).trans
    (readThen_congr fun header => Iff.trans ?_ forall_zsoIndex.symm))
  dsimp only
  refine imageThen_refuse.trans (imp_congr_right fun _ => imageThen_refuse.trans
    (imp_congr_right fun _ => imageThen_refuse.trans (imp_congr_right fun _ => ?_)))
  have hplace : header.field 4 4 ≤ MAX_OFFSET := by
    have hlt := Bytes.field_lt header 4 4
    unfold MAX_OFFSET
    omega
  split
  · exact imageThen_bind.trans (imageThen_readOffsets hplace fun _ => Iff.rfl)
  · exact imageThen_bind.trans (imageThen_readOffsets hplace fun _ => Iff.rfl)

theorem imageThen_parseChd (chdOpen : H → Bytes → Option Nat) (path : Str) (inode : Inode)
    (cacheSize : Int) (opened : Prop) :
    ImageThen (parseChd host h chdOpen path inode cacheSize) (fun _ => opened) ↔
      ReadThen host h inode 0 124 fun header => chdAccepted header →
        ∀ name, encode path = some name → (chdOpen h name).isSome → opened := by
  unfold parseChd
  refine imageThen_bind.trans ((imageThen_readFrom 124 (Nat.zero_le _)).trans
    (readThen_congr fun header => ?_))
  dsimp only
  have haccepted (p : Prop) : (chdAccepted header → p) ↔
      (¬ (header.length < 64 ∨ header.take 8 ≠ CHD_MAGIC) → ¬ bigEndian header 12 4 ≠ 5 →
        ¬ bigEndian header 56 4 = 0 → p) := by
    simp only [chdAccepted, not_or, Nat.not_lt, ne_eq, not_not, and_imp]
  rw [haccepted]
  refine imageThen_refuse.trans (imp_congr_right fun _ => imageThen_refuse.trans
    (imp_congr_right fun _ => imageThen_refuse.trans (imp_congr_right fun _ => ?_)))
  refine imageThen_bind.trans ((imageThen_orRaise rfl).trans (forall_congr' fun name =>
    imp_congr_right fun _ => imageThen_bind.trans ((imageThen_orRaise rfl).trans ?_)))
  rw [Option.isSome_iff_exists]
  exact ⟨fun hopen ⟨handle, hhandle⟩ => hopen handle hhandle,
    fun hopen handle hhandle => hopen ⟨handle, hhandle⟩⟩

/-- An image that does not open is reported as none; what is no error of an image is not caught. -/
theorem imageThen_openCompressed (path : Str) (cacheSize : Int) (opened : Prop) :
    ImageThen (openCompressed host codecs h path cacheSize)
        (fun wrapper => wrapper.isNone ∨ opened) ↔
      OpensThen host codecs h path opened := by
  unfold openCompressed OpensThen
  have hfile {f : Inode → Except Exn Wrapper} {p : Inode → Prop}
      (hf : ∀ inode, ImageThen (f inode) (fun _ => opened) ↔ p inode) {r : Except Exn (Option Wrapper)}
      (hr : r = (host.openRead h path).mapError (fun errno => .osError (some errno)) >>=
        fun inode => some <$> f inode) :
      ImageThen r (fun wrapper => wrapper.isNone ∨ opened) ↔
        ∀ inode, host.openRead h path = .ok inode → p inode := by
    rw [hr]
    cases host.openRead h path with
    | error errno => exact iff_of_true rfl nofun
    | ok inode =>
        have hmap : ImageThen (some <$> f inode) (fun wrapper => wrapper.isNone ∨ opened) ↔
            ImageThen (f inode) (fun _ => opened) := by
          cases f inode with
          | error e => rfl
          | ok w => exact or_iff_right (by simp)
        refine (hmap.trans (hf inode)).trans ?_
        constructor
        · rintro hp inode ⟨⟩
          exact hp
        · exact fun hall => hall inode rfl
  have hnone {p : Inode → Prop} (hp : ∀ inode, p inode) :
      ImageThen (.ok (none : Option Wrapper)) (fun wrapper => wrapper.isNone ∨ opened) ↔
        ∀ inode, host.openRead h path = .ok inode → p inode :=
    iff_of_true (Or.inl rfl) fun inode _ => hp inode
  dsimp only
  generalize formatForExtension host path = format
  generalize codecs.lz4 = lz4
  generalize codecs.libchdr = lib
  match format, lz4, lib with
  | some .cso, _, _ =>
      exact hfile (fun inode => imageThen_parseCso inode _ opened)
        (by cases host.openRead h path <;> rfl)
  | some .zso, some _, _ =>
      exact hfile (fun inode => imageThen_parseZso inode _ opened)
        (by cases host.openRead h path <;> rfl)
  | some .chd, _, some (chdOpen, _) =>
      exact hfile (fun inode => imageThen_parseChd chdOpen path inode _ opened)
        (by cases host.openRead h path <;> rfl)
  | none, _, _ => exact hnone fun _ => trivial
  | some .zso, none, _ => exact hnone fun _ => trivial
  | some .chd, _, none => exact hnone fun _ => trivial

/-! ## Views that open -/

/-- Every way in which a BIN does not open is an error of an image. -/
theorem imageThen_openBin (names : ViewNames H) (view : VirtualView) (cacheSize : Int) (next : Prop) :
    ImageThen (openBin host codecs names h view cacheSize) (fun _ => next) ↔
      ((∃ lib st name, codecs.libchdr = some lib ∧ host.lstat h view.chdPath = .ok st ∧ st.isReg ∧
        names.fsencode view.chdPath = some name ∧ (lib.1 h name).isSome) → next) := by
  unfold openBin
  cases codecs.libchdr with
  | none => exact iff_of_true rfl (by simp)
  | some lib =>
      obtain ⟨chdOpen, chdRead⟩ := lib
      rw [orRaise, ok_bind]
      dsimp only
      cases host.lstat h view.chdPath with
      | error errno => exact iff_of_true rfl (by simp)
      | ok st =>
          dsimp only
          rw [pure_bind]
          by_cases hreg : st.isReg = true
          case neg =>
            rw [Bool.not_eq_true] at hreg
            rw [hreg]
            refine iff_of_true rfl ?_
            rintro ⟨lib, st', name, -, ⟨⟩, hreg', -⟩
            rw [hreg] at hreg'
            cases hreg'
          rw [if_neg (by rw [hreg]; decide)]
          cases names.fsencode view.chdPath with
          | none => exact iff_of_true rfl (by simp)
          | some name =>
              rw [orRaise, ok_bind]
              cases hopen : chdOpen h name with
              | none =>
                  refine iff_of_true rfl ?_
                  rintro ⟨lib, st', name', ⟨⟩, -, -, ⟨⟩, hsome⟩
                  change (chdOpen h name).isSome = true at hsome
                  rw [hopen] at hsome
                  cases hsome
              | some chd =>
                  refine ⟨fun hnext _ => hnext, fun hopens => hopens ?_⟩
                  exact ⟨_, st, name, rfl, rfl, hreg, rfl, Option.isSome_iff_exists.mpr ⟨chd, hopen⟩⟩

theorem imageThen_openView (names : ViewNames H) (view : VirtualView) (cacheSize : Int)
    (next : Prop) :
    ImageThen ((chdViews host codecs names).openView h view cacheSize) (fun _ => next) ↔
      (view.Opens host codecs h names → next) := by
  unfold VirtualView.Opens chdViews
  dsimp only
  cases view.kind with
  | cue => exact ⟨fun hnext _ => hnext, fun hopens => hopens nofun⟩
  | bin =>
      rw [forall_prop_of_true rfl, ← imageThen_openBin names view cacheSize next]
      cases openBin host codecs names h view cacheSize with
      | ok b => rfl
      | error e => rfl

end

end Ps2Servers.Udpfs
