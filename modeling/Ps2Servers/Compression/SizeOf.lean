import Ps2Servers.Compression.Reads

/-!
# The size of an image

`SizeOf` reads the header of an image alone, where `openImage` goes on to its index. The two agree on
the images of a directory unless the numbers of a header wrap around, or libchdr refuses a CHD whose
header it has not seen.
-/

namespace Ps2Servers.Compression

open Effects (bind_eq_ok ok_bind)
open Edge.Blocks (int64)

/-- `sizeOfCHD`. -/
def sizeOfCHD (libchdr : Option (File → Option ChdFile)) (f : File) : Except ReadError Nat :=
  match libchdr with
  | none => .error (.failed "CHD support requires CGO and libchdr (build with -tags chd)")
  | some _ => (parseCHDHeader f).map ChdHeader.size

/-- `SizeOf` of a file by the lower-case extension of its name. -/
def sizeOf (libchdr : Option (File → Option ChdFile)) (ext : String) (f : File) :
    Except ReadError Nat :=
  if ext = ".chd" then sizeOfCHD libchdr f
  else if ext ≠ ".cso" ∧ ext ≠ ".ciso" ∧ ext ≠ ".zso" ∧ ext ≠ ".ziso" then .ok f.size
  else do
    let hdr ← f.readFull 0 24
    let h ← parseHeader hdr
    let blocks := blockCount h
    if 268435456 < blocks ∨ (f.size : Int) <
        (h.headerSize + (blocks + 1) % 0x10000000000000000 * 4) % 0x10000000000000000 then
      throw (.failed "image index too large or extends past file size")
    return h.size

/-- The extensions of images with an index. -/
def Indexed (ext : String) : Prop := ext = ".cso" ∨ ext = ".ciso" ∨ ext = ".zso" ∨ ext = ".ziso"

instance (ext : String) : Decidable (Indexed ext) := inferInstanceAs (Decidable (_ ∨ _))

/-- One succeeds if and only if the other does, with the same size. -/
def Agree (probed : Except ReadError Nat) (opened : Except ReadError Image) : Prop :=
  ∀ n, probed = .ok n ↔ ∃ i, opened = .ok i ∧ i.size = n

/-- The index that a header asks for is made and read. -/
def Header.Fits (h : Header) (fileSize : Nat) : Prop :=
  blockCount h ≤ 268435456 ∧
    (h.headerSize + (blockCount h + 1) % 0x10000000000000000 * 4) % 0x10000000000000000 ≤
      (fileSize : Int)

/-- The numbers that are computed from a header: the sum that is divided, the number of blocks, the
byte length of the index and where it ends. An index is not longer than the file. -/
structure Header.Exact (h : Header) (fileSize : Nat) : Prop where
  sum : int64 (h.size + h.block - 1) = h.size + h.block - 1
  blocks : 0 ≤ blockCount h
  stop : blockCount h ≤ 268435456 →
    (h.headerSize + (blockCount h + 1) % 0x10000000000000000 * 4) % 0x10000000000000000 =
      h.headerSize + (blockCount h + 1) * 4
  index : h.Fits fileSize → 0 < blockCount h + 1 ∧ (blockCount h + 1) * 4 ≤ fileSize

/-- The header that a file is read for. -/
def headerOf (f : File) : Except ReadError Header := do
  let hdr ← f.readFull 0 24
  parseHeader hdr

/-- What is asked of a file with an extension: its numbers, and libchdr. -/
def Whole (libchdr : Option (File → Option ChdFile)) (ext : String) (f : File) : Prop :=
  (Indexed ext → ∀ h, headerOf f = .ok h → h.size + h.block - 1 < 0x8000000000000000) ∧
  (ext = ".chd" → ∀ chdOpen, libchdr = some chdOpen → ∀ h, parseCHDHeader f = .ok h →
    ∃ chd, chdOpen f = some chd ∧ chd.hunkBytes = h.hunkSize)

/-! ## Headers -/

theorem not_indexed_iff {ext : String} :
    (ext ≠ ".cso" ∧ ext ≠ ".ciso" ∧ ext ≠ ".zso" ∧ ext ≠ ".ziso") ↔ ¬ Indexed ext := by
  unfold Indexed
  tauto

theorem headerOf_bounded {f : File} {h : Header} (hh : headerOf f = .ok h) : h.Bounded := by
  obtain ⟨hdr, -, hparse⟩ := bind_eq_ok.mp hh
  exact parseHeader_bounded hparse

theorem int64_of_lt {n : Int} (hlow : -0x8000000000000000 ≤ n) (hhigh : n < 0x8000000000000000) :
    int64 n = n := by
  unfold int64
  exact Int.bmod_eq_of_le (by omega) (by omega)

/-- Where the sum does not wrap around, no number does. -/
theorem Header.exact_iff {f : File} {h : Header} (hh : headerOf f = .ok h) :
    h.Exact f.size ↔ h.size + h.block - 1 < 0x8000000000000000 := by
  have hbounded := headerOf_bounded hh
  have hsize := hbounded.size_le
  have hblock := hbounded.block_pos
  have hlt := hbounded.headerSize_lt
  constructor
  · intro hexact
    have hsum := hexact.sum
    have hbound : int64 ((h.size : Int) + h.block - 1) < 0x8000000000000000 := by
      unfold int64
      exact Int.lt_of_le_of_lt (Int.bmod_le (by decide)) (by decide)
    omega
  · intro hsum
    have hsum' : int64 ((h.size : Int) + h.block - 1) = h.size + h.block - 1 :=
      int64_of_lt (by omega) (by omega)
    have hblocks : 0 ≤ blockCount h := by
      unfold blockCount
      rw [hsum']
      exact Int.tdiv_nonneg (by omega) (by omega)
    have hstop : blockCount h ≤ 268435456 →
        (h.headerSize + (blockCount h + 1) % 0x10000000000000000 * 4) % 0x10000000000000000 =
          h.headerSize + (blockCount h + 1) * 4 := by
      intro hle
      rw [Int.emod_eq_of_lt (show 0 ≤ blockCount h + 1 by omega) (by omega),
        Int.emod_eq_of_lt (by omega) (by omega)]
    refine ⟨hsum', hblocks, hstop, ?_⟩
    rintro ⟨hle, hfits⟩
    rw [hstop hle] at hfits
    omega

/-! ## Files in memory -/

/-- An index that is in the file is read. -/
theorem readIndex_memoryFile {content : Bytes} {fuel offset count : Nat}
    (hfuel : count < fuel) (h : offset + count * 4 ≤ content.length) :
    ∃ index, readIndex (memoryFile content) fuel offset count = .ok index := by
  induction fuel generalizing offset count with
  | zero => omega
  | succ fuel ih =>
      unfold readIndex
      split
      · exact ⟨[], rfl⟩
      · dsimp only
        rw [readFull_memoryFile (by omega)]
        obtain ⟨index, hindex⟩ := @ih (offset + min count 2048 * 4) (count - min count 2048)
          (by omega) (by omega)
        dsimp only
        rw [hindex]
        exact ⟨_, rfl⟩

/-! ## Probing and opening -/

variable {libchdr : Option (File → Option ChdFile)} {ext : String}

theorem agree_of_size {opened : Except ReadError Image} {n : Nat} {i : Image}
    (h : opened = .ok i) (hsize : i.size = n) : Agree (.ok n) opened := by
  intro m
  constructor
  · intro hm
    exact ⟨i, h, hsize.trans (Except.ok.inj hm)⟩
  · rintro ⟨j, hj, hm⟩
    rw [h] at hj
    rw [← hm, ← Except.ok.inj hj, hsize]

theorem agree_of_errors {e e' : ReadError} : Agree (.error e) (.error e') := by
  intro n
  constructor
  · intro h
    cases h
  · rintro ⟨_, h, _⟩
    cases h

/-- Of a CHD they agree if and only if libchdr opens what the header is accepted of. -/
theorem agree_chd (f : File) : Agree (sizeOf libchdr ".chd" f) (openImage libchdr ".chd" f) ↔
    ∀ chdOpen, libchdr = some chdOpen → ∀ h, parseCHDHeader f = .ok h →
      ∃ chd, chdOpen f = some chd ∧ chd.hunkBytes = h.hunkSize := by
  have hopen : openImage libchdr ".chd" f = openCHD libchdr f := if_pos rfl
  have hsize : sizeOf libchdr ".chd" f = sizeOfCHD libchdr f := if_pos rfl
  rw [hopen, hsize]
  cases libchdr with
  | none => exact iff_of_true agree_of_errors fun _ h => by cases h
  | some chdOpen =>
      unfold openCHD sizeOfCHD
      cases hh : parseCHDHeader f with
      | error e => exact iff_of_true agree_of_errors fun _ _ h hno => by cases hno
      | ok h =>
          constructor
          · intro hagree chdOpen' hsome h' hh'
            cases hsome
            cases hh'
            obtain ⟨i, hi, -⟩ := (hagree h.size).mp rfl
            obtain ⟨_, hok, hi⟩ := bind_eq_ok.mp hi
            cases hok
            split at hi
            case h_1 => cases hi
            case h_2 chd hchd =>
              split at hi
              case isTrue => cases hi
              case isFalse hhunk => exact ⟨chd, hchd, not_not.mp hhunk⟩
          · intro hall
            obtain ⟨chd, hchd, hhunk⟩ := hall chdOpen rfl h rfl
            apply agree_of_size
            · apply bind_eq_ok.mpr
              refine ⟨h, rfl, ?_⟩
              rw [hchd]
              exact if_neg (not_not.mpr hhunk)
            · rfl

/-- Of an image with an index they agree where no number of its header wraps around. -/
theorem agree_indexed (hext : Indexed ext) {content : Bytes}
    (hexact : ∀ h, headerOf (memoryFile content) = .ok h → h.Exact content.length) :
    Agree (sizeOf libchdr ext (memoryFile content)) (openImage libchdr ext (memoryFile content)) := by
  have hchd : ext ≠ ".chd" := by
    rcases hext with rfl | rfl | rfl | rfl
    all_goals decide
  unfold sizeOf openImage
  have hno : ¬ (ext ≠ ".cso" ∧ ext ≠ ".ciso" ∧ ext ≠ ".zso" ∧ ext ≠ ".ziso") :=
    fun h => not_indexed_iff.mp h hext
  rw [if_neg hchd, if_neg hno, if_neg hchd, if_neg hno]
  cases hhdr : (memoryFile content).readFull 0 24 with
  | error e => exact agree_of_errors
  | ok hdr =>
      rw [ok_bind, ok_bind]
      cases hparse : parseHeader hdr with
      | error e => exact agree_of_errors
      | ok h =>
          have hh : headerOf (memoryFile content) = .ok h := bind_eq_ok.mpr ⟨hdr, hhdr, hparse⟩
          have hnumbers := hexact h hh
          rw [ok_bind, ok_bind]
          by_cases hfits : h.Fits content.length
          · have hroom : ¬ (268435456 < blockCount h ∨ ((memoryFile content).size : Int) <
                (h.headerSize + (blockCount h + 1) % 0x10000000000000000 * 4) %
                  0x10000000000000000) := by
              rintro (hlarge | hpast)
              · exact absurd hfits.1 (Int.not_le.mpr hlarge)
              · exact absurd hfits.2 (Int.not_le.mpr hpast)
            have hpos := (hnumbers.index hfits).1
            have hend := hfits.2
            rw [hnumbers.stop hfits.1] at hend
            obtain ⟨index, hindex⟩ := @readIndex_memoryFile content
              ((blockCount h + 1).toNat + 1) h.headerSize (blockCount h + 1).toNat
              (Nat.lt_succ_self _) (by omega)
            dsimp only
            rw [if_neg hroom, if_neg hroom, if_neg (Int.not_lt.mpr (Int.le_of_lt hpos)), hindex]
            exact agree_of_size rfl rfl
          · have hthrow : 268435456 < blockCount h ∨ ((memoryFile content).size : Int) <
                (h.headerSize + (blockCount h + 1) % 0x10000000000000000 * 4) %
                  0x10000000000000000 := by
              by_contra hroom
              rw [not_or] at hroom
              exact hfits ⟨Int.not_lt.mp hroom.1, Int.not_lt.mp hroom.2⟩
            dsimp only
            rw [if_pos hthrow, if_pos hthrow]
            exact agree_of_errors

/-- The two agree and no number wraps around if and only if the numbers of the header do not come
near the end of the range, and libchdr opens the CHDs whose headers are accepted. -/
theorem sizeOf_agrees_iff (libchdr : Option (File → Option ChdFile)) (ext : String)
    (content : Bytes) :
    (Agree (sizeOf libchdr ext (memoryFile content)) (openImage libchdr ext (memoryFile content)) ∧
      (Indexed ext → ∀ h, headerOf (memoryFile content) = .ok h → h.Exact content.length)) ↔
    Whole libchdr ext (memoryFile content) := by
  have hexact {h : Header} (hh : headerOf (memoryFile content) = .ok h) :
      h.Exact content.length ↔ h.size + h.block - 1 < 0x8000000000000000 :=
    Header.exact_iff hh
  have hnumbers : (Indexed ext → ∀ h, headerOf (memoryFile content) = .ok h →
        h.Exact content.length) ↔
      (Indexed ext → ∀ h, headerOf (memoryFile content) = .ok h →
        h.size + h.block - 1 < 0x8000000000000000) :=
    ⟨fun hall hext h hh => (hexact hh).mp (hall hext h hh),
      fun hall hext h hh => (hexact hh).mpr (hall hext h hh)⟩
  constructor
  · rintro ⟨hagree, hall⟩
    refine ⟨hnumbers.mp hall, ?_⟩
    rintro rfl
    exact (agree_chd _).mp hagree
  · rintro ⟨hsum, hchd⟩
    refine ⟨?_, hnumbers.mpr hsum⟩
    by_cases hext : Indexed ext
    · exact agree_indexed hext (hnumbers.mpr hsum hext)
    · by_cases hc : ext = ".chd"
      · subst hc
        exact (agree_chd _).mpr (hchd rfl)
      · unfold sizeOf openImage
        rw [if_neg hc, if_pos (not_indexed_iff.mpr hext), if_neg hc,
          if_pos (not_indexed_iff.mpr hext)]
        exact agree_of_size rfl rfl

/-- A header of blocks of 2 bytes with the largest size that is not negative. -/
def largestSize : Bytes :=
  cisoMagic ++ [24, 0, 0, 0] ++ [0xff, 0xff, 0xff, 0xff, 0xff, 0xff, 0xff, 0x7f] ++
    [2, 0, 0, 0] ++ List.replicate 20 0

/-- Its size is told, but it is not opened: there would be a negative number of blocks. -/
theorem largestSize_disagrees :
    ¬ Agree (sizeOf none ".cso" (memoryFile largestSize))
        (openImage none ".cso" (memoryFile largestSize)) ∧
      ∃ h, headerOf (memoryFile largestSize) = .ok h ∧ blockCount h < 0 := by
  have hhdr : (memoryFile largestSize).readFull 0 24 = .ok (largestSize.take 24) := by
    decide +kernel
  have hparse : parseHeader (largestSize.take 24) = .ok ⟨.cso, 24, 0x7fffffffffffffff, 2, 0⟩ := by
    decide +kernel
  constructor
  · intro hagree
    have hsize : sizeOf none ".cso" (memoryFile largestSize) = .ok 0x7fffffffffffffff := by
      unfold sizeOf
      rw [if_neg (by decide), if_neg (by decide), hhdr, ok_bind, hparse, ok_bind]
      dsimp only
      rw [if_neg (by decide +kernel)]
      rfl
    have hopen : openImage none ".cso" (memoryFile largestSize) = .error .panic := by
      unfold openImage
      rw [if_neg (by decide), if_neg (by decide), hhdr, ok_bind, hparse, ok_bind]
      dsimp only
      rw [if_neg (by decide +kernel), if_pos (by decide +kernel)]
      rfl
    obtain ⟨i, hi, -⟩ := (hagree _).mp hsize
    rw [hopen] at hi
    cases hi
  · exact ⟨_, bind_eq_ok.mpr ⟨_, hhdr, hparse⟩, by decide +kernel⟩

end Ps2Servers.Compression
