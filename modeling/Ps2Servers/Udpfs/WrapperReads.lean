import Ps2Servers.Lib.Blocks
import Ps2Servers.Lib.Effects
import Ps2Servers.Lib.Tables
import Ps2Servers.Udpfs.Disk
import Ps2Servers.Udpfs.Images

/-!
# Reads of compressed images

The loop of `CompressedFileWrapper.read` over the blocks of a CSO or ZSO file. It counts positions,
and the bytes it hands out are those that the blocks have. A block that is shorter than it should be
makes the two differ.
-/

namespace Ps2Servers.Udpfs

open Blocks
open Effects (bind_eq_ok)
open Tables (mem_of_lookup)

/-- A CSO or ZSO file as it is opened; a cache size of zero stands for the default. -/
def Opens {H : Type} (host : Host H) (h : H) (inode : Inode) (cacheSize : Int) (w : Wrapper) : Prop :=
  let limit := if cacheSize = 0 then DEFAULT_CACHE_SIZE else cacheSize
  parseCso host h inode limit = .ok w ∨ parseZso host h inode limit = .ok w

/-- What may be done with an open image. -/
inductive Access
  | read (size : Int)
  | seek (offset : Int) (whence : Nat)
  deriving DecidableEq, Repr

section

variable {H : Type} (host : Host H) (codecs : Codecs H) (h : H)

def Wrapper.access (w : Wrapper) : Access → Wrapper
  | .read size => (w.read host codecs h size.toNat).2
  | .seek offset whence => (w.seek offset whence).2

/-- A block as a read sees it: without a cache limit above zero it is not handed out. -/
def Wrapper.fetch (w : Wrapper) (block : Nat) : Except Exn Bytes :=
  match decompressBlock host codecs h w block with
  | .error e => .error e
  | .ok data => if w.cacheSize ≤ 0 then .error .keyError else .ok data

/-- The bytes of a block, none of one that raises. -/
def Wrapper.blockBytes (w : Wrapper) (block : Nat) : Bytes :=
  match w.fetch host codecs h block with
  | .error _ => []
  | .ok data => data

/-- The byte of the decoded image at a position. -/
def Wrapper.imageByte (w : Wrapper) (position : Nat) : Option UInt8 :=
  byteAt w.blockSize (w.blockBytes host codecs h) position

/-- The bytes of the decoded image from one position up to another. -/
def Wrapper.imageBytes (w : Wrapper) (low high : Nat) : Bytes :=
  between w.blockSize (w.blockBytes host codecs h) low high

end

/-! ## Blocks return -/

/-- The call comes back. -/
def Returns {α : Type} (r : Except Exn α) : Prop := r ≠ .error .noReturn

theorem Returns.bind {α β : Type} {r : Except Exn α} {f : α → Except Exn β} (hr : Returns r)
    (hf : ∀ a, Returns (f a)) : Returns (r >>= f) := by
  cases r with
  | error e => exact fun he => hr (congrArg Except.error (Except.error.inj he))
  | ok a => exact hf a

theorem returns_orRaise {α : Type} {e : Exn} (he : e ≠ .noReturn) (o : Option α) :
    Returns (orRaise e o) := by
  cases o with
  | none => exact fun h => he (Except.error.inj h)
  | some a => nofun

section

variable {H : Type} {host : Host H} {codecs : Codecs H} {h : H}

theorem returns_orFault (r : Except Fault Bytes) : Returns (orFault r) := by
  rcases r with ⟨_ | _⟩ | _ <;> nofun

theorem returns_readFrom (inode : Inode) (offset : Nat) (size : Int) :
    Returns (readFrom host h inode offset size) := by
  unfold readFrom
  split
  · nofun
  split
  · nofun
  split
  · nofun
  split
  · exact returns_orFault _
  split
  · nofun
  · exact returns_orFault _

theorem returns_lz4Retry (lz4 : Bytes → Nat → Option Bytes) (blockSize fuel : Nat) (data : Bytes) :
    Returns (lz4Retry lz4 blockSize fuel data) := by
  induction fuel generalizing data with
  | zero => nofun
  | succ fuel ih =>
      unfold lz4Retry
      split
      · nofun
      · exact ih _

theorem returns_offsetAt (w : Wrapper) (i : Nat) : Returns (offsetAt w i) :=
  returns_orRaise (by decide) _

theorem returns_decompressCso (w : Wrapper) (align block : Nat) :
    Returns (decompressCso host codecs h w align block) := by
  unfold decompressCso
  dsimp only
  split
  · nofun
  apply (returns_offsetAt w block).bind
  intro raw
  apply (returns_offsetAt w (block + 1)).bind
  intro next
  apply (returns_readFrom _ _ _).bind
  intro data
  split
  · nofun
  · exact (returns_orRaise (by decide) _).bind nofun

theorem returns_pure {α : Type} (a : α) : Returns (pure a : Except Exn α) := by
  intro he
  cases he

theorem returns_decompressZso (w : Wrapper) (ziso : Bool) (align block : Nat) :
    Returns (decompressZso host codecs h w ziso align block) := by
  unfold decompressZso
  dsimp only
  split
  · intro he
    cases he
  apply (returns_offsetAt w block).bind
  intro raw
  split
  · apply (returns_offsetAt w (block + 1)).bind
    intro next
    apply (returns_readFrom _ _ _).bind
    intro data
    split
    · exact returns_pure data
    split
    · intro he
      cases he
    · exact returns_lz4Retry _ _ _ _
  · apply (returns_readFrom _ _ _).bind
    intro data
    split
    · exact returns_pure data
    split
    · intro he
      cases he
    · exact returns_lz4Retry _ _ _ _

theorem returns_decompressBlock (w : Wrapper) (block : Nat) :
    Returns (decompressBlock host codecs h w block) := by
  unfold decompressBlock
  split
  · exact returns_decompressCso _ _ _
  · exact returns_decompressZso _ _ _ _
  · unfold decompressChd
    split
    · nofun
    split
    · nofun
    split <;> nofun

/-! ## Open images -/

/-- What the parsers leave behind: blocks of some size that cover the image, and nothing beyond
the last one. -/
structure Wrapper.Opened (host : Host H) (codecs : Codecs H) (h : H) (w : Wrapper) : Prop where
  blockSize_pos : 0 < w.blockSize
  numBlocks : w.numBlocks = ceilDiv w.uncompressedSize w.blockSize
  beyond : ∀ block, w.numBlocks ≤ block → ∃ e, decompressBlock host codecs h w block = .error e
  pos : w.pos = 0
  cache : w.cache = []

theorem Opens.opened {inode : Inode} {cacheSize : Int} {w : Wrapper}
    (ho : Opens host h inode cacheSize w) : w.Opened host codecs h := by
  rcases ho with hcso | hzso
  · unfold parseCso at hcso
    obtain ⟨header, -, hcso⟩ := bind_eq_ok.mp hcso
    dsimp only at hcso
    split at hcso
    · cases hcso
    split at hcso
    · cases hcso
    split at hcso
    · cases hcso
    case isFalse hsize =>
      obtain ⟨offsets, -, hw⟩ := bind_eq_ok.mp hcso
      cases hw
      refine ⟨Nat.pos_of_ne_zero hsize, rfl, ?_, rfl, rfl⟩
      intro block hblock
      refine ⟨.valueError, ?_⟩
      simp only [decompressBlock, decompressCso]
      exact if_pos hblock
  · unfold parseZso at hzso
    obtain ⟨header, -, hzso⟩ := bind_eq_ok.mp hzso
    dsimp only at hzso
    split at hzso
    · cases hzso
    split at hzso
    · cases hzso
    split at hzso
    · cases hzso
    case isFalse hsize =>
      obtain ⟨offsets, -, hw⟩ := bind_eq_ok.mp hzso
      cases hw
      refine ⟨Nat.pos_of_ne_zero hsize, rfl, ?_, rfl, rfl⟩
      intro block hblock
      refine ⟨.valueError, ?_⟩
      simp only [decompressBlock, decompressZso]
      exact if_pos hblock

/-- The cached blocks are those of the file. -/
structure Wrapper.Holds (host : Host H) (codecs : Codecs H) (h : H) (w : Wrapper)
    (cache : List (Nat × Bytes)) : Prop where
  block : ∀ e ∈ cache, decompressBlock host codecs h w e.1 = .ok e.2
  limit : cache ≠ [] → 0 < w.cacheSize

theorem Wrapper.Holds.nil (w : Wrapper) : w.Holds host codecs h [] := ⟨nofun, nofun⟩

theorem decompressBlock_moved (w : Wrapper) (pos : Nat) (cache : List (Nat × Bytes)) (block : Nat) :
    decompressBlock host codecs h { w with pos := pos, cache := cache } block =
      decompressBlock host codecs h w block := rfl

theorem fetch_of_limit {w : Wrapper} (hlimit : 0 < w.cacheSize) {block : Nat} {data : Bytes}
    (hdata : decompressBlock host codecs h w block = .ok data) :
    w.fetch host codecs h block = .ok data := by
  rw [Wrapper.fetch, hdata]
  exact if_neg (Int.not_le.mpr hlimit)

/-- The cache only saves work. -/
theorem getBlock_eq {w : Wrapper} {cache : List (Nat × Bytes)} (hc : w.Holds host codecs h cache)
    (pos block : Nat) : ∃ cache', w.Holds host codecs h cache' ∧
      getBlock host codecs h { w with pos := pos, cache := cache } block =
        (w.fetch host codecs h block, { w with pos := pos, cache := cache' }) := by
  unfold getBlock
  split
  case h_1 data hlookup =>
    have hmem := mem_of_lookup hlookup
    have hlimit := hc.limit (List.ne_nil_of_mem hmem)
    have hdata := hc.block _ hmem
    refine ⟨_, ⟨?_, fun _ => hlimit⟩, Prod.ext (fetch_of_limit hlimit hdata).symm rfl⟩
    intro e he
    rcases List.mem_append.mp he with he | he
    · exact hc.block e (List.mem_filter.mp he).1
    · rw [List.mem_singleton.mp he]
      exact hdata
  case h_2 =>
    rw [decompressBlock_moved, Wrapper.fetch]
    cases hdata : decompressBlock host codecs h w block with
    | error e => exact ⟨cache, hc, rfl⟩
    | ok data =>
      dsimp only
      split
      case isTrue => exact ⟨[], Wrapper.Holds.nil w, rfl⟩
      case isFalse hlimit =>
        refine ⟨_, ⟨?_, fun _ => Int.not_le.mp hlimit⟩, rfl⟩
        intro e he
        rcases List.mem_append.mp he with he | he
        · exact hc.block e (List.mem_of_mem_drop he)
        · rw [List.mem_singleton.mp he]
          exact hdata

/-! ## The loop -/

theorem ceilDiv_eq (a : Nat) {b : Nat} (hb : 0 < b) :
    ceilDiv a b = a / b + if a % b = 0 then 0 else 1 := by
  have hsplit := Nat.div_add_mod a b
  have hlt := Nat.mod_lt a hb
  unfold ceilDiv
  split
  case isTrue hzero =>
    rw [← hsplit, hzero, Nat.add_zero, Nat.add_sub_assoc hb, Nat.mul_add_div hb,
      Nat.div_eq_of_lt (Nat.sub_lt hb Nat.one_pos), Nat.mul_div_cancel_left _ hb]
  case isFalse hne =>
    have hnext : a + b - 1 = b * (a / b + 1) + (a % b - 1) := by
      rw [Nat.mul_add, Nat.mul_one]
      omega
    rw [hnext, Nat.mul_add_div hb, Nat.div_eq_of_lt (Nat.lt_of_le_of_lt (Nat.sub_le _ _) hlt)]

variable {w : Wrapper} {pos : Nat} {cache : List (Nat × Bytes)}

/-- A round goes up to the end of its block, or of the image. -/
theorem readSize_of_lt (ho : w.Opened host codecs h) (hpos : pos < w.uncompressedSize) (n : Nat) :
    ({ w with pos := pos, cache := cache } : Wrapper).readSize n =
      min n (min (w.blockSize * (pos / w.blockSize + 1)) w.uncompressedSize - pos) := by
  have hb := ho.blockSize_pos
  have hN := ho.numBlocks
  rw [ceilDiv_eq _ hb] at hN
  have hsplit := Nat.div_add_mod pos w.blockSize
  have hlt := Nat.mod_lt pos hb
  have hend := Nat.div_add_mod w.uncompressedSize w.blockSize
  have hlast := Nat.mod_lt w.uncompressedSize hb
  have hle : pos / w.blockSize ≤ w.uncompressedSize / w.blockSize :=
    Nat.div_le_div_right (Nat.le_of_lt hpos)
  unfold Wrapper.readSize
  dsimp only
  generalize hd : pos / w.blockSize = d at *
  generalize hq : w.uncompressedSize / w.blockSize = q at *
  rw [Nat.mul_add, Nat.mul_one]
  rcases Nat.lt_or_eq_of_le hle with hdq | rfl
  · -- A block before the last one, or a whole last one.
    have hmul : w.blockSize * (d + 1) ≤ w.blockSize * q := Nat.mul_le_mul_left _ hdq
    rw [Nat.mul_add, Nat.mul_one] at hmul
    split
    case isTrue hlastBlock =>
      have hzero : w.uncompressedSize % w.blockSize = 0 := by
        by_contra hne
        rw [if_neg hne] at hN
        omega
      rw [if_pos hzero]
      omega
    case isFalse => omega
  · -- A partial last block.
    have hne : w.uncompressedSize % w.blockSize ≠ 0 := by omega
    rw [if_neg hne] at hN
    rw [if_pos hN.symm, if_neg hne]
    omega

theorem readSize_end (ho : w.Opened host codecs h)
    (hshort : w.uncompressedSize % w.blockSize ≠ 0) (n : Nat) :
    ({ w with pos := w.uncompressedSize, cache := cache } : Wrapper).readSize n = 0 := by
  have hN := ho.numBlocks
  rw [ceilDiv_eq _ ho.blockSize_pos, if_neg hshort] at hN
  unfold Wrapper.readSize
  dsimp only
  rw [if_pos hN.symm, if_neg hshort, Nat.sub_self, Nat.min_zero]

/-- Behind a whole last block there is none. -/
theorem fetch_beyond (ho : w.Opened host codecs h)
    (hwhole : w.uncompressedSize % w.blockSize = 0) :
    ∃ e, w.fetch host codecs h (w.uncompressedSize / w.blockSize) = .error e := by
  have hN := ho.numBlocks
  rw [ceilDiv_eq _ ho.blockSize_pos, if_pos hwhole, Nat.add_zero] at hN
  obtain ⟨e, he⟩ := ho.beyond _ (Nat.le_of_eq hN)
  rw [Wrapper.fetch, he]
  exact ⟨e, rfl⟩

/-- No block raises from one position up to another. -/
def Wrapper.Comes (host : Host H) (codecs : Codecs H) (h : H) (w : Wrapper) (low high : Nat) : Prop :=
  ∀ x, low ≤ x → x < high → ∃ data, w.fetch host codecs h (x / w.blockSize) = .ok data

/-- How the loop ends that has some bytes and wants `size` of them, and where. -/
inductive Outcome (host : Host H) (codecs : Codecs H) (h : H) (w : Wrapper) (size low : Nat)
    (result : Bytes) : Except Exn Bytes → Nat → Prop
  /-- It goes on to the first position up to which there are enough bytes. -/
  | done (high : Nat) (hlow : low ≤ high) (hhigh : high ≤ w.uncompressedSize)
      (hcomes : w.Comes host codecs h low high)
      (hlength : (result ++ w.imageBytes host codecs h low high).length = size)
      (hleast : ∀ x, low ≤ x → x < high →
        (result ++ w.imageBytes host codecs h low x).length < size) :
      Outcome host codecs h w size low result
        (.ok (result ++ w.imageBytes host codecs h low high)) high
  /-- A block raises before there are enough. -/
  | raised (high : Nat) (e : Exn) (hlow : low ≤ high) (hhigh : high ≤ w.uncompressedSize)
      (hcomes : w.Comes host codecs h low high)
      (hlength : (result ++ w.imageBytes host codecs h low high).length < size)
      (hfetch : w.fetch host codecs h (high / w.blockSize) = .error e) :
      Outcome host codecs h w size low result (.error e) high
  /-- There are not enough, and behind them the last block is taken again and again. -/
  | endless (hlow : low ≤ w.uncompressedSize)
      (hcomes : w.Comes host codecs h low w.uncompressedSize)
      (hlength : (result ++ w.imageBytes host codecs h low w.uncompressedSize).length < size)
      (hshort : w.uncompressedSize % w.blockSize ≠ 0) :
      Outcome host codecs h w size low result (.error .noReturn) w.uncompressedSize

/-- The bytes of a block that comes. -/
theorem imageBytes_block {taken : Nat} {data : Bytes}
    (hfetch : w.fetch host codecs h (pos / w.blockSize) = .ok data)
    (hblock : pos % w.blockSize + taken ≤ w.blockSize) :
    w.imageBytes host codecs h pos (pos + taken) = data.sub (pos % w.blockSize) taken := by
  rw [Wrapper.imageBytes, between_block hblock, Wrapper.blockBytes, hfetch]

theorem comes_block {taken : Nat} {data : Bytes}
    (hfetch : w.fetch host codecs h (pos / w.blockSize) = .ok data)
    (hblock : pos % w.blockSize + taken ≤ w.blockSize) :
    w.Comes host codecs h pos (pos + taken) := by
  intro x hlow hhigh
  obtain ⟨n, rfl⟩ := Nat.exists_eq_add_of_le hlow
  rw [(div_mod_add (show pos % w.blockSize + n < w.blockSize by omega)).1]
  exact ⟨data, hfetch⟩

theorem Wrapper.Comes.append {low middle high : Nat} (hl : w.Comes host codecs h low middle)
    (hm : w.Comes host codecs h middle high) : w.Comes host codecs h low high := by
  intro x hlow hhigh
  rcases Nat.lt_or_ge x middle with hx | hx
  · exact hl x hlow hx
  · exact hm x hx hhigh

/-- One round before the rest of the loop. -/
theorem Outcome.round {size taken : Nat} {result data : Bytes} {r : Except Exn Bytes} {last : Nat}
    (hfetch : w.fetch host codecs h (pos / w.blockSize) = .ok data)
    (hblock : pos % w.blockSize + taken ≤ w.blockSize)
    (hfits : result.length + taken ≤ size)
    (ho : Outcome host codecs h w size (pos + taken) (result ++ data.sub (pos % w.blockSize) taken)
      r last) : Outcome host codecs h w size pos result r last := by
  have hcomes := comes_block hfetch hblock
  have hbytes := imageBytes_block hfetch hblock
  have hjoin {high : Nat} (hhigh : pos + taken ≤ high) :
      result ++ data.sub (pos % w.blockSize) taken ++
        w.imageBytes host codecs h (pos + taken) high =
      result ++ w.imageBytes host codecs h pos high := by
    rw [← hbytes, List.append_assoc, Wrapper.imageBytes, Wrapper.imageBytes,
      between_append (Nat.le_add_right _ _) hhigh]
    rfl
  cases ho with
  | done last hlow hhigh hcomes' hlength hleast =>
      rw [hjoin hlow] at hlength ⊢
      refine .done last (by omega) hhigh (hcomes.append hcomes') hlength ?_
      intro x hx hx'
      rcases Nat.lt_or_ge x (pos + taken) with hfirst | hlater
      · have hle := @length_between_le w.blockSize (w.blockBytes host codecs h) pos x
        rw [List.length_append, Wrapper.imageBytes]
        omega
      · rw [← hjoin hlater]
        exact hleast x hlater hx'
  | raised last e hlow hhigh hcomes' hlength hfetch' =>
      rw [hjoin hlow] at hlength
      exact .raised last e (by omega) hhigh (hcomes.append hcomes') hlength hfetch'
  | endless hlow hcomes' hlength hshort =>
      rw [hjoin hlow] at hlength
      exact .endless (by omega) (hcomes.append hcomes') hlength hshort

/-- At the end of a partial last block a round takes nothing. -/
theorem readLoop_stuck (ho : w.Opened host codecs h)
    (hshort : w.uncompressedSize % w.blockSize ≠ 0) {data : Bytes}
    (hfetch : w.fetch host codecs h (w.uncompressedSize / w.blockSize) = .ok data) {size : Nat}
    {result : Bytes} (hlength : result.length < size) (fuel : Nat)
    (hc : w.Holds host codecs h cache) :
    ∃ cache', w.Holds host codecs h cache' ∧
      readLoop host codecs h size fuel { w with pos := w.uncompressedSize, cache := cache } result =
        (.error .noReturn, { w with pos := w.uncompressedSize, cache := cache' }) := by
  induction fuel generalizing cache with
  | zero => exact ⟨cache, hc, rfl⟩
  | succ fuel ih =>
      obtain ⟨cache', hc', hget⟩ :=
        getBlock_eq hc w.uncompressedSize (w.uncompressedSize / w.blockSize)
      obtain ⟨cache'', hc'', hrest⟩ := ih hc'
      refine ⟨cache'', hc'', ?_⟩
      rw [readLoop, if_neg (Nat.not_le_of_lt hlength), readSize_end ho hshort]
      dsimp only
      rw [hget, hfetch]
      dsimp only
      rw [Bytes.sub_zero, List.append_nil, Nat.add_zero]
      exact hrest

/-- The loop, with rounds enough for every position up to the end. -/
theorem readLoop_outcome (ho : w.Opened host codecs h) {size fuel : Nat}
    (hfuel : w.uncompressedSize - pos + 2 ≤ fuel) (hpos : pos ≤ w.uncompressedSize)
    {result : Bytes} (hresult : result.length ≤ size) (hc : w.Holds host codecs h cache) :
    ∃ r last cache', w.Holds host codecs h cache' ∧
      readLoop host codecs h size fuel { w with pos := pos, cache := cache } result =
        (r, { w with pos := last, cache := cache' }) ∧
      Outcome host codecs h w size pos result r last := by
  induction fuel generalizing pos cache result with
  | zero => omega
  | succ fuel ih =>
      have hself {x : Nat} : w.imageBytes host codecs h x x = [] := between_self x
      rcases Nat.lt_or_ge result.length size with hmore | henough
      · obtain ⟨cache', hc', hget⟩ := getBlock_eq hc pos (pos / w.blockSize)
        cases hfetch : w.fetch host codecs h (pos / w.blockSize) with
        | error e =>
            refine ⟨_, pos, cache', hc', ?_, .raised pos e (Nat.le_refl pos) hpos ?_ ?_ hfetch⟩
            · rw [readLoop, if_neg (Nat.not_le_of_lt hmore)]
              dsimp only
              rw [hget, hfetch]
            · intro x hx hx'
              omega
            · rw [hself, List.append_nil]
              exact hmore
        | ok data =>
            rcases Nat.lt_or_eq_of_le hpos with hlt | rfl
            · have hsize := @readSize_of_lt H host codecs h w pos cache ho hlt (size - result.length)
              generalize htaken : ({ w with pos := pos, cache := cache } : Wrapper).readSize
                (size - result.length) = taken at hsize
              have hsplit := Nat.div_add_mod pos w.blockSize
              have hmod := Nat.mod_lt pos ho.blockSize_pos
              rw [Nat.mul_add, Nat.mul_one] at hsize
              have hfits : result.length + taken ≤ size := by omega
              have hlength := Bytes.sub_length_le data (pos % w.blockSize) taken
              have hfuel' : w.uncompressedSize - (pos + taken) + 2 ≤ fuel := by omega
              have hpos' : pos + taken ≤ w.uncompressedSize := by omega
              have hresult' : (result ++ data.sub (pos % w.blockSize) taken).length ≤ size := by
                rw [List.length_append]
                omega
              obtain ⟨r, last, cache'', hc'', hrest, hout⟩ := ih hfuel' hpos' hresult' hc'
              refine ⟨r, last, cache'', hc'', ?_, hout.round hfetch (by omega) hfits⟩
              rw [readLoop, if_neg (Nat.not_le_of_lt hmore), htaken]
              dsimp only
              rw [hget, hfetch]
              exact hrest
            · have hshort : w.uncompressedSize % w.blockSize ≠ 0 := by
                intro hzero
                obtain ⟨e, he⟩ := fetch_beyond ho hzero
                rw [he] at hfetch
                cases hfetch
              obtain ⟨cache'', hc'', hstuck⟩ :=
                readLoop_stuck ho hshort hfetch hmore (fuel + 1) hc
              refine ⟨_, _, cache'', hc'', hstuck, .endless (Nat.le_refl _) ?_ ?_ hshort⟩
              · intro x hx hx'
                omega
              · rw [hself, List.append_nil]
                exact hmore
      · have hexact : result.length = size := Nat.le_antisymm hresult henough
        have hdone : Outcome host codecs h w size pos result
            (.ok (result ++ w.imageBytes host codecs h pos pos)) pos := by
          refine .done pos (Nat.le_refl pos) hpos ?_ ?_ ?_
          · intro x hx hx'
            omega
          · rw [hself, List.append_nil, hexact]
          · intro x hx hx'
            omega
        refine ⟨_, pos, cache, hc, ?_, hdone⟩
        rw [readLoop, if_pos henough, hself, List.append_nil]

/-! ## Reads of an open image -/

/-- An image after some accesses. -/
def Wrapper.After (host : Host H) (codecs : Codecs H) (h : H) (w₀ w : Wrapper) : Prop :=
  ∃ accesses : List Access, w = accesses.foldl (Wrapper.access host codecs h) w₀

/-- An access moves the position and fills the cache, and nothing else. -/
inductive Wrapper.Moved (host : Host H) (codecs : Codecs H) (h : H) (w : Wrapper) : Wrapper → Prop
  | mk (pos : Nat) (cache : List (Nat × Bytes)) (hpos : pos ≤ w.uncompressedSize)
      (hc : w.Holds host codecs h cache) :
      w.Moved host codecs h { w with pos := pos, cache := cache }

theorem Outcome.high_le {size : Nat} {result : Bytes} {r : Except Exn Bytes} {last : Nat}
    (ho : Outcome host codecs h w size pos result r last) : last ≤ w.uncompressedSize := by
  cases ho with
  | done _ _ hhigh => exact hhigh
  | raised _ _ _ hhigh => exact hhigh
  | endless => exact Nat.le_refl _

/-- A read comes to one of its outcomes, and leaves the image moved. -/
theorem read_outcome {w₀ : Wrapper} (ho : w₀.Opened host codecs h)
    (hm : w₀.Moved host codecs h w) (size : Nat) :
    w₀.Moved host codecs h (w.read host codecs h size).2 ∧
      Outcome host codecs h w₀ (min size (w₀.uncompressedSize - w.pos)) w.pos []
        (w.read host codecs h size).1 (w.read host codecs h size).2.pos := by
  cases hm with
  | mk pos cache hpos hc =>
      unfold Wrapper.read
      dsimp only
      split
      case isTrue hnone =>
        refine ⟨.mk pos cache hpos hc, ?_⟩
        have hself : w₀.imageBytes host codecs h pos pos = [] := between_self pos
        have hdone : Outcome host codecs h w₀ (min size (w₀.uncompressedSize - pos)) pos []
            (.ok ([] ++ w₀.imageBytes host codecs h pos pos)) pos := by
          refine .done pos (Nat.le_refl pos) hpos ?_ ?_ ?_
          · intro x hx hx'
            omega
          · rw [hself, List.append_nil, List.length_nil]
            omega
          · intro x hx hx'
            omega
        rwa [hself] at hdone
      case isFalse =>
        obtain ⟨r, last, cache', hc', hloop, hout⟩ := readLoop_outcome ho (Nat.le_refl _) hpos
          (show ([] : Bytes).length ≤ _ from Nat.zero_le _) hc
        rw [hloop]
        exact ⟨.mk last cache' hout.high_le hc', hout⟩

theorem Wrapper.Moved.access {w₀ : Wrapper} (ho : w₀.Opened host codecs h)
    (hm : w₀.Moved host codecs h w) (a : Access) :
    w₀.Moved host codecs h (w.access host codecs h a) := by
  cases a with
  | read size => exact (read_outcome ho hm size.toNat).1
  | seek offset whence =>
      cases hm with
      | mk pos cache hpos hc =>
          refine .mk _ cache (Int.toNat_le.mpr ?_) hc
          exact Int.max_le.mpr ⟨Int.natCast_nonneg _, Int.min_le_right _ _⟩

/-- However an open image is used, it is only moved. -/
theorem moved_of_after {w₀ : Wrapper} (ho : w₀.Opened host codecs h)
    (ha : w₀.After host codecs h w) : w₀.Moved host codecs h w := by
  obtain ⟨accesses, rfl⟩ := ha
  have hstart : w₀.Moved host codecs h w₀ := by
    have hw : w₀ = { w₀ with pos := 0, cache := [] } := by
      conv_rhs => rw [← ho.pos, ← ho.cache]
    rw [hw]
    exact .mk 0 [] (Nat.zero_le _) (Wrapper.Holds.nil _)
  exact accesses.foldlRecOn _ hstart fun w hw a _ => Wrapper.Moved.access ho hw a

/-! ## The end of a read -/

theorem returns_fetch (w : Wrapper) (block : Nat) : Returns (w.fetch host codecs h block) := by
  have hdecompress := @returns_decompressBlock H host codecs h w block
  unfold Wrapper.fetch
  split
  case h_1 e he =>
    rw [he] at hdecompress
    exact hdecompress
  case h_2 =>
    split <;> nofun

theorem fetch_moved (w : Wrapper) (pos : Nat) (cache : List (Nat × Bytes)) (block : Nat) :
    ({ w with pos := pos, cache := cache } : Wrapper).fetch host codecs h block =
      w.fetch host codecs h block := rfl

/-- Whether a read ends: the last block is whole, a block on the way raises, or the blocks on the way
have as many bytes as are wanted. -/
def Wrapper.ReadEnds (host : Host H) (codecs : Codecs H) (h : H) (w : Wrapper) (size : Nat) : Prop :=
  w.blockSize ∣ w.uncompressedSize ∨
  (∃ x, w.pos ≤ x ∧ x < w.uncompressedSize ∧
    ∃ e, w.fetch host codecs h (x / w.blockSize) = .error e) ∨
  min size (w.uncompressedSize - w.pos) ≤
    (w.imageBytes host codecs h w.pos w.uncompressedSize).length

/-- More positions have at least as many bytes. -/
theorem length_imageBytes_le {low middle high : Nat} (hlow : low ≤ middle) (hhigh : middle ≤ high) :
    (w.imageBytes host codecs h low middle).length ≤
      (w.imageBytes host codecs h low high).length := by
  unfold Wrapper.imageBytes
  rw [← between_append hlow hhigh, List.length_append]
  exact Nat.le_add_right _ _

theorem Outcome.returns_iff (hb : 0 < w.blockSize) {size : Nat} {r : Except Exn Bytes} {last : Nat}
    (hout : Outcome host codecs h w (min size (w.uncompressedSize - pos)) pos [] r last) :
    Returns r ↔ ({ w with pos := pos, cache := cache } : Wrapper).ReadEnds host codecs h size := by
  cases hout with
  | done last hlow hhigh hcomes hlength hleast =>
      refine iff_of_true nofun (Or.inr (Or.inr ?_))
      rw [List.nil_append] at hlength
      dsimp only
      rw [← hlength]
      exact length_imageBytes_le hlow hhigh
  | raised last e hlow hhigh hcomes hlength hfetch =>
      have hreturns : Returns (.error e : Except Exn Bytes) := by
        rw [← hfetch]
        exact returns_fetch w _
      refine iff_of_true hreturns ?_
      rcases Nat.lt_or_eq_of_le hhigh with hlt | rfl
      · exact Or.inr (Or.inl ⟨last, hlow, hlt, e, hfetch⟩)
      · by_cases hwhole : w.blockSize ∣ w.uncompressedSize
        · exact Or.inl hwhole
        · -- The block behind the last position is the one of the last position.
          have hshort : w.uncompressedSize % w.blockSize ≠ 0 :=
            fun hzero => hwhole (Nat.dvd_of_mod_eq_zero hzero)
          have hsplit := Nat.div_add_mod w.uncompressedSize w.blockSize
          have hmod := Nat.mod_lt w.uncompressedSize hb
          have hprevious : w.uncompressedSize - 1 = w.blockSize *
              (w.uncompressedSize / w.blockSize) + (w.uncompressedSize % w.blockSize - 1) := by
            omega
          have hdiv : (w.uncompressedSize - 1) / w.blockSize =
              w.uncompressedSize / w.blockSize := by
            rw [hprevious, Nat.mul_add_div hb,
              Nat.div_eq_of_lt (show w.uncompressedSize % w.blockSize - 1 < w.blockSize by omega),
              Nat.add_zero]
          refine Or.inr (Or.inl ⟨w.uncompressedSize - 1, ?_, ?_, e, ?_⟩)
          · dsimp only
            omega
          · dsimp only
            omega
          · dsimp only
            rw [fetch_moved, hdiv]
            exact hfetch
  | endless hlow hcomes hlength hshort =>
      refine iff_of_false (fun hr => hr rfl) ?_
      rintro (hwhole | ⟨x, hx, hx', e, he⟩ | hbytes)
      · exact hshort (Nat.mod_eq_zero_of_dvd hwhole)
      · obtain ⟨data, hdata⟩ := hcomes x hx hx'
        rw [fetch_moved, hdata] at he
        cases he
      · rw [List.nil_append] at hlength
        exact Nat.not_lt_of_le hbytes hlength

/-- With more rounds a loop that ends does the same. -/
theorem readLoop_mono {size fuel fuel' : Nat} (hfuel : fuel ≤ fuel') {result : Bytes}
    (hr : Returns (readLoop host codecs h size fuel w result).1) :
    readLoop host codecs h size fuel' w result = readLoop host codecs h size fuel w result := by
  induction fuel generalizing fuel' w result with
  | zero => exact absurd rfl hr
  | succ fuel ih =>
      obtain ⟨fuel', rfl⟩ : ∃ k, fuel' = k + 1 := ⟨fuel' - 1, by omega⟩
      unfold readLoop at hr ⊢
      split
      case isTrue => rfl
      case isFalse hmore =>
        rw [if_neg hmore] at hr
        dsimp only at hr ⊢
        split at hr
        case h_1 => rfl
        case h_2 => exact ih (Nat.le_of_succ_le_succ hfuel) hr

theorem returns_read {w₀ : Wrapper} (ho : w₀.Opened host codecs h)
    (hm : w₀.Moved host codecs h w) (size : Nat) :
    Returns (w.read host codecs h size).1 ↔ w.ReadEnds host codecs h size := by
  obtain ⟨-, hout⟩ := read_outcome ho hm size
  cases hm with
  | mk pos cache hpos hc => exact hout.returns_iff ho.blockSize_pos

/-- Where a read does not end, no number of rounds is enough. -/
theorem readLoop_endless {w₀ : Wrapper} (ho : w₀.Opened host codecs h)
    (hm : w₀.Moved host codecs h w) {size : Nat} (hnot : ¬ w.ReadEnds host codecs h size)
    (fuel : Nat) : (readLoop host codecs h (min size (w.uncompressedSize - w.pos)) fuel w []).1 =
      .error .noReturn := by
  cases hm with
  | mk pos cache hpos hc =>
      by_contra hends
      obtain ⟨r, last, cache', -, hloop, hlast⟩ := readLoop_outcome ho
        (Nat.le_max_right fuel (w₀.uncompressedSize - pos + 2)) hpos
        (show ([] : Bytes).length ≤ min size (w₀.uncompressedSize - pos) from Nat.zero_le _) hc
      have hmono := readLoop_mono (Nat.le_max_left fuel (w₀.uncompressedSize - pos + 2)) hends
      rw [hloop] at hmono
      rw [← hmono] at hends
      exact hnot ((hlast.returns_iff ho.blockSize_pos).mp hends)

theorem decompressBlock_of_fetch {block : Nat} {data : Bytes}
    (hfetch : w.fetch host codecs h block = .ok data) :
    decompressBlock host codecs h w block = .ok data := by
  unfold Wrapper.fetch at hfetch
  split at hfetch
  case h_1 => cases hfetch
  case h_2 bytes hbytes =>
    split at hfetch
    · cases hfetch
    · rw [hbytes, Except.ok.inj hfetch]

theorem length_decompressCso {align block : Nat} {data : Bytes}
    (hdata : decompressCso host codecs h w align block = .ok data) :
    w.blockSize ≤ data.length := by
  unfold decompressCso at hdata
  dsimp only at hdata
  split at hdata
  · cases hdata
  obtain ⟨raw, -, hdata⟩ := bind_eq_ok.mp hdata
  obtain ⟨next, -, hdata⟩ := bind_eq_ok.mp hdata
  obtain ⟨stored, -, hdata⟩ := bind_eq_ok.mp hdata
  have hpadded (bytes : Bytes) :
      w.blockSize ≤ (bytes ++ List.replicate (w.blockSize - bytes.length) 0).length := by
    rw [List.length_append, List.length_replicate]
    omega
  split at hdata
  · cases hdata
    exact hpadded _
  · obtain ⟨bytes, -, hdata⟩ := bind_eq_ok.mp hdata
    cases hdata
    exact hpadded _

/-- Blocks of a CSO file are filled up, and so its reads end. -/
theorem cso_readEnds {w₀ : Wrapper} {align : Nat} (hcso : w₀.layout = .cso align)
    (hm : w₀.Moved host codecs h w) (hb : 0 < w₀.blockSize) (size : Nat) :
    w.ReadEnds host codecs h size := by
  cases hm with
  | mk pos cache hpos hc =>
      by_cases hraises : ∃ x, pos ≤ x ∧ x < w₀.uncompressedSize ∧
          ∃ e, w₀.fetch host codecs h (x / w₀.blockSize) = .error e
      · exact Or.inr (Or.inl hraises)
      · refine Or.inr (Or.inr ?_)
        dsimp only
        have hall : ∀ x, pos ≤ x → x < w₀.uncompressedSize →
            (byteAt w₀.blockSize (w₀.blockBytes host codecs h) x).isSome := by
          intro x hx hx'
          cases hfetch : w₀.fetch host codecs h (x / w₀.blockSize) with
          | error e => exact absurd ⟨x, hx, hx', e, hfetch⟩ hraises
          | ok data =>
              have hlength : w₀.blockSize ≤ data.length := by
                have hdata := decompressBlock_of_fetch hfetch
                rw [decompressBlock, hcso] at hdata
                exact length_decompressCso hdata
              rw [byteAt, Wrapper.blockBytes, hfetch]
              dsimp only
              rw [List.getElem?_eq_getElem (Nat.lt_of_lt_of_le (Nat.mod_lt x hb) hlength)]
              rfl
        have hlength := length_between_eq.mpr hall
        exact Nat.le_trans (Nat.min_le_right _ _) (Nat.le_of_eq hlength.symm)

/-- A read of an open image ends just when `ReadEnds` says; else no number of rounds is enough. -/
theorem read_returns_iff {inode : Inode} {cacheSize : Int} {w₀ : Wrapper}
    (hopen : Opens host h inode cacheSize w₀) (hafter : w₀.After host codecs h w) (size : Int) :
    ((w.read host codecs h size.toNat).1 ≠ .error .noReturn ↔
      w.ReadEnds host codecs h size.toNat) ∧
    (¬ w.ReadEnds host codecs h size.toNat → ∀ fuel, (readLoop host codecs h
      (min size.toNat (w.uncompressedSize - w.pos)) fuel w []).1 = .error .noReturn) := by
  have ho : w₀.Opened host codecs h := hopen.opened
  have hm := moved_of_after ho hafter
  exact ⟨returns_read ho hm size.toNat, fun hnot => readLoop_endless ho hm hnot⟩

end

/-- A ZSO file with its table behind the header. -/
def zsoFile (size blockSize : Nat) (offsets : List Nat) (data : Bytes) : Bytes :=
  ZSO_MAGIC ++ Bytes.ofNat 4 24 ++ Bytes.ofNat 8 size ++ Bytes.ofNat 4 blockSize ++ [1, 0, 0, 0] ++
    offsets.flatMap (Bytes.ofNat 4) ++ data

/-- A disk with one file. -/
def zsoDisk (file : Bytes) : Disk := ⟨[], [(5, file)]⟩

/-- Codecs of a host with lz4, on which no stream decompresses. -/
def lz4Codecs (H : Type) : Codecs H := ⟨fun _ => none, fun _ => none, some fun _ _ => none, none⟩

/-- The last block, one byte, is missing: the file ends behind the first. -/
def truncatedZso : Disk := zsoDisk (zsoFile 3 2 [0x80000020, 0x80000022] [1, 2])

def openTruncated : Wrapper :=
  ⟨5, .zso false 0, 0, 3, 2, 2, [0x80000020, 0x80000022], [], DEFAULT_CACHE_SIZE⟩

theorem opens_truncated : Opens diskHost truncatedZso 5 0 openTruncated :=
  Or.inr (by decide +kernel)

theorem read_returns_iff_truncated :
    ((openTruncated.read diskHost (lz4Codecs Disk) truncatedZso (Int.toNat 2)).1 ≠
        .error .noReturn ↔
      openTruncated.ReadEnds diskHost (lz4Codecs Disk) truncatedZso (Int.toNat 2)) ∧
    (¬ openTruncated.ReadEnds diskHost (lz4Codecs Disk) truncatedZso (Int.toNat 2) → ∀ fuel,
      (readLoop diskHost (lz4Codecs Disk) truncatedZso
        (min (Int.toNat 2) (openTruncated.uncompressedSize - openTruncated.pos)) fuel
        openTruncated []).1 = .error .noReturn) :=
  read_returns_iff opens_truncated ⟨[], rfl⟩ 2

/-- Reading all of it goes on for ever. -/
theorem truncated_read_endless :
    Opens diskHost truncatedZso 5 0 openTruncated ∧
      (openTruncated.read diskHost (lz4Codecs Disk) truncatedZso 3).1 = .error .noReturn ∧
      ∀ fuel, (readLoop diskHost (lz4Codecs Disk) truncatedZso 3 fuel openTruncated []).1 =
        .error .noReturn := by
  have hread : (openTruncated.read diskHost (lz4Codecs Disk) truncatedZso 3).1 =
      .error .noReturn := by decide +kernel
  have ho : openTruncated.Opened diskHost (lz4Codecs Disk) truncatedZso := opens_truncated.opened
  have hm : openTruncated.Moved diskHost (lz4Codecs Disk) truncatedZso openTruncated :=
    moved_of_after ho ⟨[], rfl⟩
  have hnot : ¬ openTruncated.ReadEnds diskHost (lz4Codecs Disk) truncatedZso 3 :=
    fun hends => (returns_read ho hm 3).mpr hends hread
  exact ⟨opens_truncated, hread, readLoop_endless ho hm hnot⟩

section

variable {H : Type} {host : Host H} {codecs : Codecs H} {h : H} {w : Wrapper} {pos : Nat}

/-! ## Reads as slices -/

/-- What a read should do: hand out a slice of the decoded image and go on behind it, or raise and
stay. -/
def Wrapper.ReadsSlice (host : Host H) (codecs : Codecs H) (h : H) (w₀ w : Wrapper) (size : Nat) :
    Prop :=
  let n := min size (w.uncompressedSize - w.pos)
  (∃ out, (w.read host codecs h size).1 = .ok out ∧ out.length = n ∧
    (∀ i, i < n → out[i]? = w₀.imageByte host codecs h (w.pos + i)) ∧
    (w.read host codecs h size).2.pos = w.pos + n) ∨
  ∃ e, e ≠ .noReturn ∧ (w.read host codecs h size).1 = .error e ∧
    (w.read host codecs h size).2.pos = w.pos

theorem byteAt_isSome_of_fetch {x : Nat}
    (hx : (w.imageByte host codecs h x).isSome) :
    ∃ data, w.fetch host codecs h (x / w.blockSize) = .ok data := by
  unfold Wrapper.imageByte byteAt Wrapper.blockBytes at hx
  split at hx
  case h_1 => cases hx
  case h_2 data hdata => exact ⟨data, hdata⟩

/-- The outcomes that are slices. -/
theorem Outcome.slice_iff {n : Nat} {r : Except Exn Bytes} {last : Nat}
    (hn : n ≤ w.uncompressedSize - pos) (hout : Outcome host codecs h w n pos [] r last) :
    ((∃ out, r = .ok out ∧ out.length = n ∧
        (∀ i, i < n → out[i]? = w.imageByte host codecs h (pos + i)) ∧ last = pos + n) ∨
      ∃ e, e ≠ .noReturn ∧ r = .error e ∧ last = pos) ↔
    (∃ e, w.fetch host codecs h (pos / w.blockSize) = .error e) ∨
      ∀ i, i < n → (w.imageByte host codecs h (pos + i)).isSome := by
  constructor
  · rintro (⟨out, -, hlength, himage, -⟩ | ⟨e, he, hr, hlast⟩)
    · refine Or.inr fun i hi => ?_
      rw [← himage i hi, List.getElem?_eq_getElem (by omega)]
      rfl
    · cases hout with
      | done => cases hr
      | endless => exact absurd (Except.error.inj hr).symm he
      | raised last e' hlow hhigh hcomes hlength hfetch =>
          rw [hlast] at hfetch
          exact Or.inl ⟨e', hfetch⟩
  · rintro (⟨e, he⟩ | hall)
    · -- Nothing comes, so either nothing is read or the first block raises.
      have hnone {high : Nat} (hhigh : w.Comes host codecs h pos high) : high ≤ pos := by
        by_contra hlt
        obtain ⟨data, hdata⟩ := hhigh pos (Nat.le_refl _) (Nat.lt_of_not_le hlt)
        rw [he] at hdata
        cases hdata
      have hself : w.imageBytes host codecs h pos pos = [] := between_self pos
      cases hout with
      | done last hlow hhigh hcomes hlength hleast =>
          obtain rfl := Nat.le_antisymm (hnone hcomes) hlow
          rw [hself] at hlength ⊢
          refine Or.inl ⟨_, rfl, hlength, fun i hi => ?_, ?_⟩
          · rw [← hlength] at hi
            cases hi
          · rw [← hlength]
            rfl
      | raised last e' hlow hhigh hcomes hlength hfetch =>
          obtain rfl := Nat.le_antisymm (hnone hcomes) hlow
          refine Or.inr ⟨e', ?_, rfl, rfl⟩
          rintro rfl
          exact returns_fetch w _ hfetch
      | endless hlow hcomes hlength =>
          obtain rfl := Nat.le_antisymm (hnone hcomes) hlow
          omega
    · have hlengthN : (w.imageBytes host codecs h pos (pos + n)).length = n := by
        have hfull := (@length_between_eq w.blockSize (w.blockBytes host codecs h) pos (pos + n)).mpr
          fun x hx hx' => by
            have hbyte := hall (x - pos) (by omega)
            rwa [Nat.add_sub_cancel' hx] at hbyte
        rwa [Nat.add_sub_cancel_left] at hfull
      cases hout with
      | done last hlow hhigh hcomes hlength hleast =>
          have hle := @length_between_le w.blockSize (w.blockBytes host codecs h) pos last
          have hlast : last = pos + n := by
            apply Nat.le_antisymm
            · by_contra hlt
              have hmore := hleast (pos + n) (Nat.le_add_right _ _) (Nat.lt_of_not_le hlt)
              rw [List.nil_append, hlengthN] at hmore
              exact Nat.lt_irrefl n hmore
            · have hread : (w.imageBytes host codecs h pos last).length = n := hlength
              rw [Wrapper.imageBytes] at hread
              omega
          subst hlast
          refine Or.inl ⟨_, rfl, hlength, fun i hi => ?_, rfl⟩
          apply getElem?_between
          · intro x hx hx'
            have hbyte := hall (x - pos) (by omega)
            rwa [Nat.add_sub_cancel' hx] at hbyte
          · omega
      | raised last e' hlow hhigh hcomes hlength hfetch =>
          exfalso
          rw [List.nil_append] at hlength
          rcases Nat.lt_or_ge last (pos + n) with hlt | hge
          · have hbyte := hall (last - pos) (by omega)
            rw [Nat.add_sub_cancel' hlow] at hbyte
            obtain ⟨data, hdata⟩ := byteAt_isSome_of_fetch hbyte
            rw [hfetch] at hdata
            cases hdata
          · have hle := @length_imageBytes_le H host codecs h w pos _ _ (Nat.le_add_right pos n) hge
            omega
      | endless hlow hcomes hlength =>
          exfalso
          rw [List.nil_append] at hlength
          have hle := @length_imageBytes_le H host codecs h w pos _ _ (Nat.le_add_right pos n)
            (show pos + n ≤ w.uncompressedSize by omega)
          omega

/-- A read of an open image is a slice of the image just when its first block raises or each of the
positions it should read has a byte. -/
theorem readsSlice_iff {inode : Inode} {cacheSize : Int} {w₀ : Wrapper}
    (hopen : Opens host h inode cacheSize w₀) (hafter : w₀.After host codecs h w) (size : Int) :
    w₀.ReadsSlice host codecs h w size.toNat ↔
      (∃ e, w₀.fetch host codecs h (w.pos / w.blockSize) = .error e) ∨
      ∀ i, i < min size.toNat (w.uncompressedSize - w.pos) →
        (w₀.imageByte host codecs h (w.pos + i)).isSome := by
  have ho : w₀.Opened host codecs h := hopen.opened
  have hm := moved_of_after ho hafter
  obtain ⟨-, hout⟩ := read_outcome ho hm size.toNat
  unfold Wrapper.ReadsSlice
  cases hm with
  | mk pos cache hpos hc => exact hout.slice_iff (Nat.min_le_right _ _)

end

/-- The first block has one byte instead of two. -/
def shortZso : Disk := zsoDisk (zsoFile 4 2 [0x80000020, 0x80000021] [1, 2, 3])

def openShort : Wrapper :=
  ⟨5, .zso false 0, 0, 4, 2, 2, [0x80000020, 0x80000021], [], DEFAULT_CACHE_SIZE⟩

theorem opens_short : Opens diskHost shortZso 5 0 openShort := Or.inr (by decide +kernel)

theorem readsSlice_iff_short :
    openShort.ReadsSlice diskHost (lz4Codecs Disk) shortZso openShort (Int.toNat 1) ↔
      (∃ e, openShort.fetch diskHost (lz4Codecs Disk) shortZso
        (openShort.pos / openShort.blockSize) = .error e) ∨
      ∀ i, i < min (Int.toNat 1) (openShort.uncompressedSize - openShort.pos) →
        (openShort.imageByte diskHost (lz4Codecs Disk) shortZso (openShort.pos + i)).isSome :=
  readsSlice_iff opens_short ⟨[], rfl⟩ 1

/-- Three bytes are handed out, and the position is four. -/
theorem short_read_skips :
    Opens diskHost shortZso 5 0 openShort ∧
      ¬ openShort.ReadsSlice diskHost (lz4Codecs Disk) shortZso openShort 3 := by
  have hread : (openShort.read diskHost (lz4Codecs Disk) shortZso 3).1 = .ok [1, 2, 3] := by
    decide +kernel
  refine ⟨opens_short, ?_⟩
  rintro (⟨out, -, -, -, hpos⟩ | ⟨e, -, he, -⟩)
  · exact absurd hpos (by decide +kernel)
  · rw [hread] at he
    cases he

end Ps2Servers.Udpfs
