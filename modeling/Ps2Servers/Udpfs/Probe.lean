import Ps2Servers.Lib.Effects
import Ps2Servers.Udpfs.Disk
import Ps2Servers.Udpfs.Images

/-!
# The probe of compressed images

A listing tells the size that `get_compressed_info` reads from the start of a file; an open goes on to
the offset table, or to libchdr. What the probe accepts opens with the size it told if the rest is
there, too.
-/

namespace Ps2Servers.Udpfs

open Text
open Effects (bind_eq_ok ok_bind)

section

variable {H : Type}

/-- Whatever is told of a file with an available codec is the size it opens with. -/
def ProbeAgrees (host : Host H) (codecs : Codecs H) (h : H) (path : Str) (cacheSize : Int) : Prop :=
  ∀ fmt, formatForExtension host path = some fmt → available codecs fmt →
    ∀ n, getCompressedInfo host h path = some n →
      ∃ w, openCompressed host codecs h path cacheSize = .ok (some w) ∧ w.uncompressedSize = n

/-- A file that the host opens and reads. Its reads come from its content, and headers and what is in
the file are read. -/
structure Host.Stands (host : Host H) (h : H) (path : Str) (inode : Inode) (content : Bytes) :
    Prop where
  opens : host.openRead h path = .ok inode
  reads : ∀ offset size, size ≤ max content.length 124 →
    host.readAt h inode offset size = .ok (content.sub offset size)
  only : ∀ offset size data, host.readAt h inode offset size = .ok data →
    data = content.sub offset size
  length_le : content.length ≤ MAX_OFFSET
  maxOffset : 0xffffffff ≤ host.maxOffset h inode

/-- A header that the probe accepts. -/
def Accepted : Format → Bytes → Prop
  | .cso, content => 24 ≤ content.length ∧ content.field 0 4 = CSO_MAGIC
  | .zso, content =>
      24 ≤ content.length ∧ (content.take 4 = ZSO_MAGIC ∨ content.take 4 = ZISO_MAGIC)
  | .chd, content =>
      64 ≤ content.length ∧ content.take 8 = CHD_MAGIC ∧ bigEndian content 12 4 = 5

/-- The size behind a header. -/
def advertisedSize : Format → Bytes → Nat
  | .chd, content => chdSize content
  | _, content => content.field 8 8

/-- The entries of the offset table. -/
def tableCount (ziso : Bool) (content : Bytes) : Nat :=
  let numBlocks := ceilDiv (content.field 8 8) (content.field 16 4)
  if ziso then numBlocks + 1 else numBlocks

/-- What an image needs behind its magic: blocks of some size, and its table; a CHD is opened by
libchdr. -/
def Whole (codecs : Codecs H) (h : H) (path : Str) (content : Bytes) : Format → Prop
  | .cso => content.field 16 4 ≠ 0 ∧ tableCount true content * 4 ≤ content.length - 24
  | .zso =>
      content.field 16 4 ≠ 0 ∧
        tableCount (content.take 4 == ZISO_MAGIC) content * 4 ≤ content.length - content.field 4 4
  | .chd =>
      bigEndian content 56 4 ≠ 0 ∧ ∃ name lib handle,
        encode path = some name ∧ codecs.libchdr = some lib ∧ lib.1 h name = some handle

/-! ## Reads -/

variable {host : Host H} {codecs : Codecs H} {h : H} {path : Str} {inode : Inode}
  {content : Bytes} {cacheSize : Int}

theorem field_start {n offset size : Nat} (hle : offset + size ≤ n) :
    (content.sub 0 n).field offset size = content.field offset size := by
  unfold Bytes.field
  rw [Bytes.sub_sub content hle, Nat.zero_add]

theorem bigEndian_start {n offset size : Nat} (hle : offset + size ≤ n) :
    bigEndian (content.sub 0 n) offset size = bigEndian content offset size := by
  unfold bigEndian
  rw [Bytes.sub_sub content hle, Nat.zero_add]

theorem take_start {n size : Nat} (hle : size ≤ n) :
    (content.sub 0 n).take size = content.take size :=
  Bytes.take_sub content 0 hle

theorem isCdFormat_start {n : Nat} (hle : 64 ≤ n) :
    isCdFormat (content.sub 0 n) = isCdFormat content := by
  unfold isCdFormat
  rw [bigEndian_start (by omega), bigEndian_start (by omega), List.map_congr_left]
  intro at_ hat
  apply bigEndian_start
  simp only [List.mem_cons, List.not_mem_nil, or_false] at hat
  omega

/-- The size of a CHD is in the part of its header that both read. -/
theorem chdSize_start {n : Nat} (hle : 64 ≤ n) : chdSize (content.sub 0 n) = chdSize content := by
  unfold chdSize
  rw [isCdFormat_start hle, bigEndian_start (by omega), bigEndian_start (by omega)]

theorem length_start {n : Nat} (hle : n ≤ content.length) : (content.sub 0 n).length = n :=
  Bytes.length_sub content (by omega)

theorem length_start_lt {n : Nat} : (content.sub 0 n).length < n ↔ content.length < n := by
  unfold Bytes.sub
  rw [List.length_take, List.drop_zero]
  omega

theorem Host.Stands.readFrom_eq (hf : host.Stands h path inode content) {offset size : Nat}
    (hoffset : offset ≤ 0xffffffff) (hsize : size ≤ max content.length 124) :
    readFrom host h inode offset size = .ok (content.sub offset size) := by
  have hlength := hf.length_le
  have hmax := hf.maxOffset
  unfold readFrom
  unfold MAX_OFFSET at hlength ⊢
  rw [if_neg (by omega), if_neg (by omega), if_neg (by omega), if_neg (by omega),
    if_neg (by omega), Int.toNat_natCast, hf.reads offset size hsize]
  rfl

theorem Host.Stands.header (hf : host.Stands h path inode content) (size : Nat)
    (hle : size ≤ 124) : readFrom host h inode 0 size = .ok (content.sub 0 size) :=
  hf.readFrom_eq (Nat.zero_le _) (Nat.le_trans hle (Nat.le_max_right _ _))

theorem Host.Stands.of_readFrom (hf : host.Stands h path inode content) {offset size : Nat}
    {data : Bytes} (hread : readFrom host h inode offset size = .ok data) :
    data = content.sub offset size := by
  unfold readFrom at hread
  split at hread
  · cases hread
  split at hread
  · cases hread
  rw [if_neg (by omega), if_neg (by omega)] at hread
  split at hread
  · cases hread
  rw [Int.toNat_natCast] at hread
  cases hdata : host.readAt h inode offset size with
  | error fault =>
      rw [hdata] at hread
      cases hread
  | ok data' =>
      rw [hdata] at hread
      cases hread
      exact hf.only offset size data hdata

/-- A table is read if and only if all of it is there. -/
theorem readOffsets_iff (hf : host.Stands h path inode content) {at_ count : Nat}
    (hat : at_ ≤ 0xffffffff) :
    (∃ offsets, readOffsets host h inode at_ count = .ok offsets) ↔
      count * 4 ≤ content.length - at_ := by
  have hlength : (content.sub at_ (count * 4)).length = min (count * 4) (content.length - at_) := by
    rw [Bytes.sub, List.length_take, List.length_drop]
  constructor
  · rintro ⟨offsets, hoffsets⟩
    obtain ⟨data, hdata, hrest⟩ := bind_eq_ok.mp hoffsets
    rw [hf.of_readFrom hdata] at hrest
    split at hrest
    · cases hrest
    omega
  · intro hle
    have hread := @Host.Stands.readFrom_eq _ _ _ _ _ _ hf at_ (count * 4) hat (by omega)
    refine ⟨offsets count (content.sub at_ (count * 4)), bind_eq_ok.mpr ⟨_, hread, ?_⟩⟩
    rw [if_neg (by omega)]
    rfl

theorem of_orRaise {α : Type} {e : Exn} {o : Option α} {a : α} (h : orRaise e o = .ok a) :
    o = some a := by
  cases o with
  | none => cases h
  | some b => exact congrArg some (Except.ok.inj h)

/-! ## Probing and opening -/

theorem guard_bind_eq_some {p : Prop} [Decidable p] {a n : Nat} :
    ((guard p : Option Unit) >>= fun _ => some a) = some n ↔ p ∧ a = n := by
  by_cases hp : p <;> simp [guard, hp]

/-- The probe tells the size behind an accepted header. -/
theorem getCompressedInfo_eq (hf : host.Stands h path inode content) {fmt : Format}
    (hfmt : formatForExtension host path = some fmt) {n : Nat} :
    getCompressedInfo host h path = some n ↔
      Accepted fmt content ∧ advertisedSize fmt content = n := by
  have hstart {size : Nat} (hle : size ≤ 124) :
      host.readAt h inode 0 size = .ok (content.sub 0 size) := hf.reads 0 size (by omega)
  unfold getCompressedInfo
  rw [hfmt]
  dsimp only
  rw [hf.opens]
  dsimp only
  -- A header that is long enough, with its magic.
  have hheader {size got : Nat} {magic : Prop} [Decidable magic] {f : Bytes → Option Nat}
      (hnext : f (content.sub 0 size) = guard magic >>= fun _ => some got) :
      ((if (content.sub 0 size).length < size then none else some (content.sub 0 size)) >>= f) =
        some n ↔ (size ≤ content.length ∧ magic) ∧ got = n := by
    by_cases hlength : content.length < size
    · rw [if_pos (length_start_lt.mpr hlength)]
      exact iff_of_false (fun hn => by cases hn) fun ha => absurd hlength (Nat.not_lt.mpr ha.1.1)
    · rw [if_neg (length_start_lt.not.mpr hlength)]
      refine (iff_of_eq (congrArg (· = some n) hnext)).trans (guard_bind_eq_some.trans ?_)
      exact and_congr_left fun _ => ⟨fun hm => ⟨Nat.not_lt.mp hlength, hm⟩, And.right⟩
  cases fmt with
  | zso =>
      dsimp only
      rw [hstart (by decide)]
      exact hheader (by rw [take_start (by decide), field_start (by decide)]; rfl)
  | cso =>
      dsimp only
      rw [hstart (by decide)]
      exact hheader (by rw [field_start (by decide), field_start (by decide)]; rfl)
  | chd =>
      dsimp only
      rw [hstart (by decide)]
      exact hheader (by
        rw [take_start (by decide), bigEndian_start (by decide), chdSize_start (by decide)]; rfl)

theorem parseCso_iff (hf : host.Stands h path inode content) (ha : Accepted .cso content) :
    (∃ w, parseCso host h inode cacheSize = .ok w ∧ w.uncompressedSize = content.field 8 8) ↔
      Whole codecs h path content .cso := by
  obtain ⟨hlength, hmagic⟩ := ha
  have hread : readFrom host h inode 0 24 = .ok (content.sub 0 24) :=
    hf.header 24 (by decide)
  unfold parseCso Whole tableCount
  rw [hread, ok_bind, length_start hlength, if_neg (Nat.lt_irrefl _), field_start (by decide),
    field_start (by decide), field_start (by decide), field_start (by decide)]
  dsimp only
  rw [if_neg (not_not.mpr hmagic)]
  by_cases hblock : content.field 16 4 = 0
  · rw [if_pos hblock]
    exact iff_of_false (fun ⟨_, hw, _⟩ => by cases hw) fun hwhole => hwhole.1 hblock
  · rw [if_neg hblock, if_pos rfl, ← readOffsets_iff hf (by decide)]
    constructor
    · rintro ⟨w, hw, -⟩
      obtain ⟨offsets, hoffsets, -⟩ := bind_eq_ok.mp hw
      exact ⟨hblock, offsets, hoffsets⟩
    · rintro ⟨-, offsets, hoffsets⟩
      exact ⟨_, bind_eq_ok.mpr ⟨offsets, hoffsets, rfl⟩, rfl⟩

theorem parseZso_iff (hf : host.Stands h path inode content) (ha : Accepted .zso content) :
    (∃ w, parseZso host h inode cacheSize = .ok w ∧ w.uncompressedSize = content.field 8 8) ↔
      Whole codecs h path content .zso := by
  obtain ⟨hlength, hmagic⟩ := ha
  have hread : readFrom host h inode 0 24 = .ok (content.sub 0 24) :=
    hf.header 24 (by decide)
  have hheader : content.field 4 4 ≤ 0xffffffff := Nat.le_of_lt_succ (content.field_lt 4 4)
  have haccepted :
      ¬ (!(content.take 4 == ZISO_MAGIC) && decide (content.take 4 ≠ ZSO_MAGIC)) = true := by
    rw [Bool.and_eq_true, decide_eq_true_iff, Bool.not_eq_true', beq_eq_false_iff_ne]
    rintro ⟨hziso, hzso⟩
    exact hmagic.elim hzso hziso
  unfold parseZso Whole tableCount
  rw [hread, ok_bind, length_start hlength, if_neg (Nat.lt_irrefl _), field_start (by decide),
    field_start (by decide), field_start (by decide), field_start (by decide),
    take_start (by decide)]
  dsimp only
  rw [if_neg haccepted]
  by_cases hblock : content.field 16 4 = 0
  · rw [if_pos hblock]
    exact iff_of_false (fun ⟨_, hw, _⟩ => by cases hw) fun hwhole => hwhole.1 hblock
  · rw [if_neg hblock, ← readOffsets_iff hf hheader]
    constructor
    · rintro ⟨w, hw, -⟩
      obtain ⟨offsets, hoffsets, -⟩ := bind_eq_ok.mp hw
      exact ⟨hblock, offsets, hoffsets⟩
    · rintro ⟨-, offsets, hoffsets⟩
      exact ⟨_, bind_eq_ok.mpr ⟨offsets, hoffsets, rfl⟩, rfl⟩

theorem parseChd_iff (hf : host.Stands h path inode content) (ha : Accepted .chd content)
    {lib : (H → Bytes → Option Nat) × (H → Nat → Nat → Option Bytes)}
    (hlib : codecs.libchdr = some lib) :
    (∃ w, parseChd host h lib.1 path inode cacheSize = .ok w ∧
        w.uncompressedSize = chdSize content) ↔
      Whole codecs h path content .chd := by
  obtain ⟨hlength, hmagic, hversion⟩ := ha
  have hread : readFrom host h inode 0 124 = .ok (content.sub 0 124) :=
    hf.header 124 (by decide)
  have haccepted : ¬ ((content.sub 0 124).length < 64 ∨ content.take 8 ≠ CHD_MAGIC) := by
    rintro (hshort | hother)
    · unfold Bytes.sub at hshort
      rw [List.length_take, List.drop_zero] at hshort
      omega
    · exact hother hmagic
  unfold parseChd Whole
  rw [hread, ok_bind, take_start (by decide), if_neg haccepted, bigEndian_start (by decide),
    bigEndian_start (by decide), bigEndian_start (by decide), chdSize_start (by decide),
    if_neg (not_not.mpr hversion)]
  dsimp only
  by_cases hhunk : bigEndian content 56 4 = 0
  · rw [if_pos hhunk]
    exact iff_of_false (fun ⟨_, hw, _⟩ => by cases hw) fun hwhole => hwhole.1 hhunk
  · rw [if_neg hhunk]
    constructor
    · rintro ⟨w, hw, -⟩
      obtain ⟨name, hname, hw⟩ := bind_eq_ok.mp hw
      obtain ⟨handle, hhandle, -⟩ := bind_eq_ok.mp hw
      exact ⟨hhunk, name, lib, handle, of_orRaise hname, hlib, of_orRaise hhandle⟩
    · rintro ⟨-, name, lib', handle, hname, hlib', hhandle⟩
      obtain rfl : lib' = lib := Option.some.inj (hlib'.symm.trans hlib)
      have hname' : orRaise .valueError (encode path) = .ok name := congrArg _ hname
      have hhandle' : orRaise (.osError none) (lib'.1 h name) = .ok handle := congrArg _ hhandle
      exact ⟨_, bind_eq_ok.mpr ⟨name, hname', bind_eq_ok.mpr ⟨handle, hhandle', rfl⟩⟩, rfl⟩

theorem map_some_eq_ok {α : Type} {x : Except Exn α} {a : α} :
    some <$> x = .ok (some a) ↔ x = .ok a := by
  cases x with
  | error e => exact iff_of_false (fun h => by cases h) fun h => by cases h
  | ok b =>
      constructor
      · intro h
        cases h
        rfl
      · intro h
        cases h
        rfl

/-- An image with an accepted header opens with the size behind it if and only if it is whole. -/
theorem openCompressed_iff (hf : host.Stands h path inode content) {fmt : Format}
    (hfmt : formatForExtension host path = some fmt) (hcodec : available codecs fmt)
    (ha : Accepted fmt content) :
    (∃ w, openCompressed host codecs h path cacheSize = .ok (some w) ∧
        w.uncompressedSize = advertisedSize fmt content) ↔
      Whole codecs h path content fmt := by
  unfold openCompressed
  rw [hfmt, hf.opens]
  cases fmt with
  | cso =>
      dsimp only
      rw [← parseCso_iff hf ha]
      exact exists_congr fun w => and_congr_left fun _ => map_some_eq_ok
  | zso =>
      obtain ⟨lz4, hlz4⟩ := Option.isSome_iff_exists.mp hcodec
      rw [hlz4, ← parseZso_iff hf ha]
      exact exists_congr fun w => and_congr_left fun _ => map_some_eq_ok
  | chd =>
      obtain ⟨lib, hlib⟩ := Option.isSome_iff_exists.mp hcodec
      rw [← parseChd_iff hf ha hlib, hlib]
      exact exists_congr fun w => and_congr_left fun _ => map_some_eq_ok

/-- Whatever the probe tells of a file is the size it opens with, if and only if a file whose header
is accepted has the rest. -/
theorem probe_agrees_iff (hf : host.Stands h path inode content) :
    ProbeAgrees host codecs h path cacheSize ↔
      ∀ fmt, formatForExtension host path = some fmt → available codecs fmt → Accepted fmt content →
        Whole codecs h path content fmt := by
  constructor
  · intro hagrees fmt hfmt hcodec ha
    apply (openCompressed_iff hf hfmt hcodec ha).mp
    exact hagrees fmt hfmt hcodec _ ((getCompressedInfo_eq hf hfmt).mpr ⟨ha, rfl⟩)
  · intro hwhole fmt hfmt hcodec n hn
    obtain ⟨ha, rfl⟩ := (getCompressedInfo_eq hf hfmt).mp hn
    exact (openCompressed_iff hf hfmt hcodec ha).mpr (hwhole fmt hfmt hcodec ha)

end

/-- A disk with an image at its root. -/
def imageDisk (image : Bytes) : Disk := ⟨[([lit "game.cso"], .file 5)], [(5, image)]⟩

/-- The header of an image of one block. -/
def csoHeader : Bytes :=
  "CISO".toUTF8.toList ++ Bytes.ofNat 4 24 ++ Bytes.ofNat 8 2048 ++ Bytes.ofNat 4 2048 ++
    [1, 0, 0, 0]

/-- zlib alone, on which no stream decompresses. -/
def zlibCodecs : Codecs Disk := ⟨fun _ => none, fun _ => none, none, none⟩

theorem imageDisk_stands (image : Bytes) (hle : image.length ≤ MAX_OFFSET) :
    diskHost.Stands (imageDisk image) (lit "/game.cso") 5 image where
  opens := rfl
  reads _ _ _ := rfl
  only _ _ data hdata := by
    cases hdata
    rfl
  length_le := hle
  maxOffset := show 0xffffffff ≤ MAX_OFFSET by decide

theorem probe_agrees_header_and_table :
    ProbeAgrees diskHost zlibCodecs (imageDisk (csoHeader ++ List.replicate 8 0)) (lit "/game.cso")
      0 := by
  apply (probe_agrees_iff (imageDisk_stands _ (by decide +kernel))).mpr
  intro fmt hfmt _ _
  have hcso : formatForExtension diskHost (lit "/game.cso") = some .cso := by decide +kernel
  rw [hcso] at hfmt
  cases hfmt
  refine ⟨?_, ?_⟩ <;> decide +kernel

/-- A size is told of a header alone. -/
theorem header_disagrees :
    ¬ ProbeAgrees diskHost zlibCodecs (imageDisk csoHeader) (lit "/game.cso") 0 := by
  intro hagrees
  have hcso : formatForExtension diskHost (lit "/game.cso") = some .cso := by decide +kernel
  have hinfo : getCompressedInfo diskHost (imageDisk csoHeader) (lit "/game.cso") = some 2048 := by
    decide +kernel
  obtain ⟨w, hopen, -⟩ := hagrees .cso hcso rfl 2048 hinfo
  have hfails : openCompressed diskHost zlibCodecs (imageDisk csoHeader) (lit "/game.cso") 0 =
      .error .valueError := by decide +kernel
  rw [hfails] at hopen
  cases hopen

end Ps2Servers.Udpfs
