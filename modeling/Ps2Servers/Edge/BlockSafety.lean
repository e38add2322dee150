import Ps2Servers.Edge.Blocks

/-!
# Edge block access stays in range

The checks of a request compute values that fit, and accept exactly the sectors inside
the image. From there one invariant carries a write through its chunks: the offset and
the length of a pending BWRITE are those of its request. A handler that decides nothing
leaves a world quiet, and only a completed write reports.
-/

namespace Ps2Servers.Edge.Blocks

open Effects Runs

variable {F : Type}

/-! ## Arithmetic -/

theorem Fits.int64 {n : Int} (h : Fits n) : int64 n = n := by
  unfold Fits MaxInt64 at h
  rw [Blocks.int64, Int.bmod_def]
  split <;> omega

theorem fits_int64 (n : Int) : Fits (int64 n) := by
  rw [Fits, MaxInt64, Blocks.int64, Int.bmod_def]
  split <;> omega

theorem int32_of_le {n : Int} (h0 : 0 ≤ n) (h : n ≤ preferredTransfer) : int32 n = n := by
  unfold preferredTransfer at h
  rw [int32, Int.bmod_def]
  split <;> omega

theorem errno_neg (err : HostError) : errno err < 0 := by
  cases err <;> decide

theorem Config.transferCap_le (cfg : Config F) : cfg.transferCap ≤ preferredTransfer := by
  unfold Config.transferCap Blocks.transferCap
  split
  · exact Int.le_refl _
  · split
    · exact Int.le_refl _
    · split
      · decide
      · omega

theorem Config.transferCap_pos (cfg : Config F) : 0 < cfg.transferCap := by
  unfold Config.transferCap Blocks.transferCap
  split
  · decide
  · split
    · decide
    · split
      · decide
      · unfold minTransferCap at *
        omega

/-- What a request header can say. -/
theorem bounds_of_blockRequest {p : Bytes} {r : Request} (h : blockRequest p = some r) :
    0 ≤ r.count ∧ r.count ≤ 65535 ∧ Fits r.sector := by
  unfold blockRequest at h
  split at h
  · cases h
  · cases h
    have hcount : p.field 2 2 < 65536 := p.field_lt 2 2
    dsimp only
    exact ⟨by omega, by omega, fits_int64 _⟩

/-- The device was opened on an image that it still has the size of. -/
structure BlockDevice.Ok (dev : BlockDevice F) (files : F → Bytes) : Prop where
  pos : 0 < dev.sectorSize
  lt : dev.sectorSize < 2147483648
  size : dev.size = (files dev.file).length
  le : dev.size ≤ MaxInt64

theorem BlockDevice.Ok.fits_total {dev : BlockDevice F} {files : F → Bytes} (h : dev.Ok files)
    {count : Int} (h0 : 0 ≤ count) (hle : count ≤ 65535) : Fits (count * dev.sectorSize) := by
  have hlow : 0 ≤ count * dev.sectorSize := Int.mul_nonneg h0 (Int.le_of_lt h.pos)
  have hhigh : count * dev.sectorSize ≤ 65535 * 2147483648 :=
    Int.mul_le_mul hle (Int.le_of_lt h.lt) (Int.le_of_lt h.pos) (by decide)
  unfold Fits MaxInt64
  omega

/-- Sectors inside the image have offsets that fit. -/
theorem BlockDevice.Ok.fits_offset {dev : BlockDevice F} {files : F → Bytes} (h : dev.Ok files)
    {sector count : Int} (h0 : 0 ≤ sector) (hcount : 0 < count)
    (hin : (sector + count) * dev.sectorSize ≤ dev.size) :
    0 ≤ sector * dev.sectorSize ∧ Fits (sector * dev.sectorSize) := by
  have hlow : 0 ≤ sector * dev.sectorSize := Int.mul_nonneg h0 (Int.le_of_lt h.pos)
  have hlen : 0 ≤ count * dev.sectorSize :=
    Int.mul_nonneg (Int.le_of_lt hcount) (Int.le_of_lt h.pos)
  have hle := h.le
  rw [Int.add_mul] at hin
  refine ⟨hlow, ?_⟩
  unfold Fits
  unfold MaxInt64 at hle ⊢
  omega

theorem compute_bind {α : Type} {n : Int} (h : Fits n) (f : Int → Handler F α) (w : World F) :
    (compute n >>= f) w = f n (w.record (.computed n)) := by
  have hrun : compute n w = .ok n (w.record (.computed n)) := by
    change EStateM.Result.ok (Blocks.int64 n) _ = _
    rw [h.int64]
  exact bind_ok hrun

/-- The guard accepts exactly the sectors inside the image, without wrapping. -/
theorem inRange_run {dev : BlockDevice F} {files : F → Bytes} (h : dev.Ok files)
    {sector count : Int} (hcount : count ≤ 65535) (w : World F) :
    ∃ inside acts, inRange dev sector count w = .ok inside { w with trace := w.trace ++ acts } ∧
      (∀ a ∈ acts, ∃ n, Fits n ∧ a = .computed n) ∧
      (inside = true ↔
        0 ≤ sector ∧ 0 < count ∧ (sector + count) * dev.sectorSize ≤ dev.size) := by
  unfold inRange
  by_cases hneg : sector < 0 ∨ count ≤ 0
  · rw [if_pos hneg]
    refine ⟨false, [], by rw [List.append_nil]; rfl, by simp, ?_⟩
    constructor
    · intro h
      cases h
    · intro h
      omega
  · rw [if_neg hneg]
    have hsize : 0 ≤ dev.size := by
      rw [h.size]
      exact Int.natCast_nonneg _
    have hdiv : dev.size.tdiv dev.sectorSize = dev.size / dev.sectorSize :=
      Int.tdiv_eq_ediv_of_nonneg hsize
    have hlow : 0 ≤ dev.size / dev.sectorSize := Int.ediv_nonneg hsize (Int.le_of_lt h.pos)
    have hhigh : dev.size / dev.sectorSize ≤ dev.size := Int.ediv_le_self _ hsize
    have hle := h.le
    have hsectors : Fits (dev.size.tdiv dev.sectorSize) := by
      rw [hdiv]
      unfold Fits
      unfold MaxInt64 at hle ⊢
      omega
    have hlast : Fits (dev.size.tdiv dev.sectorSize - count) := by
      rw [hdiv]
      unfold Fits
      unfold MaxInt64 at hle ⊢
      omega
    refine ⟨decide (sector ≤ dev.size.tdiv dev.sectorSize - count),
      [.computed (dev.size.tdiv dev.sectorSize),
        .computed (dev.size.tdiv dev.sectorSize - count)], ?_, ?_, ?_⟩
    · unfold sectorCount
      rw [compute_bind hsectors, compute_bind hlast]
      change EStateM.Result.ok _ ((w.record _).record _) = _
      rw [World.record, World.record, List.append_assoc]
      rfl
    · intro a ha
      rcases List.mem_cons.mp ha with rfl | ha
      · exact ⟨_, hsectors, rfl⟩
      · exact ⟨_, hlast, List.mem_singleton.mp ha⟩
    · rw [decide_eq_true_eq, hdiv]
      have hmul := Int.le_ediv_iff_mul_le (a := sector + count) (b := dev.size) h.pos
      constructor
      · intro hs
        exact ⟨by omega, by omega, hmul.mp (by omega)⟩
      · intro hs
        have := hmul.mpr hs.2.2
        omega

/-! ## A message while nothing is decided -/

/-- Every device is open on its image. -/
def Config.Ok (cfg : Config F) (files : F → Bytes) : Prop :=
  ∀ dev, cfg.blockDev = some dev → dev.Ok files

/-- The pending write is the one the request asked for. -/
structure Armed (cfg : Config F) (r : Request) (st : State F) : Prop where
  handle : st.handle = r.handle
  offset : st.offset = r.sector * cfg.sectorSize r.handle
  expected : st.expectedLen = r.count * cfg.sectorSize r.handle
  pos : 0 < st.expectedLen
  inside : r.handle = blockHandle → ∃ dev, cfg.blockDev = some dev ∧ 0 ≤ st.offset ∧
    (r.sector + r.count) * dev.sectorSize ≤ dev.size

structure State.Inv (cfg : Config F) (st : State F) : Prop where
  armed : ∀ r, st.request = some r → st.isBlock = true ∧ Armed cfg r st
  block : st.isBlock = true → ∃ r, st.request = some r
  buffer : (st.buffer.length : Int) ≤ cfg.transferCap
  apart : cfg.Apart st.handles

theorem State.Inv.resetWrite {cfg : Config F} {st : State F} (h : st.Inv cfg) :
    st.resetWrite.Inv cfg := by
  constructor
  · intro r hr
    cases hr
  · intro hb
    cases hb
  · exact Int.le_of_lt cfg.transferCap_pos
  · exact h.apart

variable {cfg : Config F} {files : F → Bytes} {r : Option Request} {w : World F}

/-- What an act may be while the message of `r` is served. -/
def Act.Ok (cfg : Config F) (files : F → Bytes) (r : Option Request) : Act → Prop
  | .computed n => Fits n
  | .readAt offset size => ∃ q, r = some q ∧ q.Covers cfg files offset size
  | .wroteAt handle offset data _ =>
      handle = blockHandle → ∃ q, r = some q ∧ q.Covers cfg files offset data.length
  | _ => True

/-- A write or sync that succeeded, or its report. -/
def Act.Decides : Act → Prop
  | .wroteAt _ _ _ done => done = true
  | .synced done => done = true
  | .writeDone n => 0 ≤ n
  | _ => False

/-- Nothing was written, and nothing reported as done. -/
structure Quiet (cfg : Config F) (files : F → Bytes) (r : Option Request) (w : World F) :
    Prop where
  acts : ∀ a ∈ w.trace, a.Ok cfg files r
  mute : ∀ a ∈ w.trace, ¬ a.Decides
  st : w.st.Inv cfg
  files : w.files = files

/-- A message was served: what was reported is what was written. -/
structure Served (cfg : Config F) (files : F → Bytes) (r : Option Request) (data : Bytes)
    (w : World F) : Prop where
  acts : ∀ a ∈ w.trace, a.Ok cfg files r
  st : w.st.Inv cfg
  size : ∀ dev, cfg.blockDev = some dev → (w.files dev.file).length = (files dev.file).length
  reported : ∀ q, r = some q →
    ((∃ n, 0 ≤ n ∧ .writeDone n ∈ w.trace) ↔
      (data.length : Int) = q.count * cfg.sectorSize q.handle ∧
      (∃ offset, .wroteAt q.handle offset data true ∈ w.trace) ∧ .synced true ∈ w.trace)

theorem served_of_mute (hacts : ∀ a ∈ w.trace, a.Ok cfg files r)
    (hmute : ∀ a ∈ w.trace, ¬ a.Decides) (hst : w.st.Inv cfg)
    (hsize : ∀ dev, cfg.blockDev = some dev →
      (w.files dev.file).length = (files dev.file).length) (data : Bytes) :
    Served cfg files r data w := by
  refine ⟨hacts, hst, hsize, fun q _ => ?_⟩
  constructor
  · rintro ⟨n, hn, hmem⟩
    exact absurd hn (hmute _ hmem)
  · rintro ⟨-, ⟨offset, hmem⟩, -⟩
    exact absurd rfl (hmute _ hmem)

theorem Quiet.served (h : Quiet cfg files r w) (data : Bytes) : Served cfg files r data w :=
  served_of_mute h.acts h.mute h.st (fun dev _ => by rw [h.files]) data

theorem Served.of_none {data : Bytes} (h : Served cfg files none data w) (data' : Bytes) :
    Served cfg files none data' w :=
  ⟨h.acts, h.st, h.size, fun q hq => by cases hq⟩

@[simp] theorem mem_record {a b : Act} : b ∈ (w.record a).trace ↔ b ∈ w.trace ∨ b = a := by
  rw [World.record, List.mem_append, List.mem_singleton]

theorem Quiet.record (h : Quiet cfg files r w) {a : Act} (ha : a.Ok cfg files r)
    (hd : ¬ a.Decides) : Quiet cfg files r (w.record a) := by
  constructor
  · intro b hb
    rcases mem_record.mp hb with hb | rfl
    · exact h.acts b hb
    · exact ha
  · intro b hb
    rcases mem_record.mp hb with hb | rfl
    · exact h.mute b hb
    · exact hd
  · exact h.st
  · exact h.files

theorem Quiet.computed (h : Quiet cfg files r w) {n : Int} (hn : Fits n) :
    Quiet cfg files r (w.record (.computed n)) :=
  h.record hn id

theorem Quiet.state (h : Quiet cfg files r w) {st : State F} (hst : st.Inv cfg) :
    Quiet cfg files r { w with st := st } :=
  ⟨h.acts, h.mute, hst, h.files⟩

/-- A refusal is a negative result. -/
theorem Quiet.refuse (h : Quiet cfg files r w) {result : Int} (hneg : result < 0) :
    Quiet cfg files r (final (sendWriteDone result w)) :=
  h.record trivial (Int.not_le.mpr hneg)

theorem Quiet.result (h : Quiet cfg files r w) (result : Int) (data : Bytes) :
    Quiet cfg files r (final (sendResult result data w)) :=
  h.record trivial id

theorem Quiet.ack (h : Quiet cfg files r w) : Quiet cfg files r (final (act .ack w)) :=
  h.record trivial id

/-- The guard of a range leaves the world quiet. -/
theorem Quiet.inRange (h : Quiet cfg files r w) {dev : BlockDevice F} (hdev : dev.Ok files)
    {sector count : Int} (hcount : count ≤ 65535) :
    ∃ inside w', inRange dev sector count w = .ok inside w' ∧ Quiet cfg files r w' ∧
      w'.st = w.st ∧
      (inside = true ↔
        0 ≤ sector ∧ 0 < count ∧ (sector + count) * dev.sectorSize ≤ dev.size) := by
  obtain ⟨inside, acts, hrun, hacts, hiff⟩ := inRange_run hdev hcount w
  refine ⟨inside, _, hrun, ?_, rfl, hiff⟩
  constructor
  · intro a ha
    rcases List.mem_append.mp ha with ha | ha
    · exact h.acts a ha
    · obtain ⟨n, hn, rfl⟩ := hacts a ha
      exact hn
  · intro a ha
    rcases List.mem_append.mp ha with ha | ha
    · exact h.mute a ha
    · obtain ⟨n, hn, rfl⟩ := hacts a ha
      exact id
  · exact h.st
  · exact h.files

/-! ## Sessions between two messages -/

theorem State.Inv.closeHandle {st : State F} (h : st.Inv cfg) (id : HandleId) :
    (st.closeHandle id).Inv cfg := by
  have hclosed : ({ st with handles := Function.update st.handles id none } : State F).Inv cfg := by
    constructor
    · intro q hq
      obtain ⟨hblock, harmed⟩ := h.armed q hq
      exact ⟨hblock, ⟨harmed.handle, harmed.offset, harmed.expected, harmed.pos, harmed.inside⟩⟩
    · exact h.block
    · exact h.buffer
    · intro dev hdev id' opened hopened
      by_cases hid : id' = id
      · change Function.update st.handles id none id' = _ at hopened
        rw [hid, Function.update_self] at hopened
        cases hopened
      · change Function.update st.handles id none id' = _ at hopened
        rw [Function.update_of_ne hid] at hopened
        exact h.apart dev hdev id' opened hopened
  unfold State.closeHandle
  dsimp only
  split
  · exact hclosed.resetWrite
  · exact hclosed

theorem State.Inv.after {st : State F} (h : st.Inv cfg)
    {handles : HandleId → Option (Handle F)} (hapart : cfg.Apart handles) (reset : Bool) :
    (st.after handles reset).Inv cfg := by
  unfold State.after
  split
  · constructor
    · intro q hq
      cases hq
    · intro hblock
      cases hblock
    · exact Int.le_of_lt cfg.transferCap_pos
    · exact hapart
  · constructor
    · intro q hq
      obtain ⟨hblock, harmed⟩ := h.armed q hq
      exact ⟨hblock, ⟨harmed.handle, harmed.offset, harmed.expected, harmed.pos, harmed.inside⟩⟩
    · exact h.block
    · exact h.buffer
    · exact hapart

theorem BlockDevice.Ok.of_length {dev : BlockDevice F} {files files' : F → Bytes}
    (h : dev.Ok files) (hlen : (files' dev.file).length = (files dev.file).length) :
    dev.Ok files' :=
  ⟨h.pos, h.lt, by rw [hlen]; exact h.size, h.le⟩

variable {P : Type} {s : Server P F}

/-- The sessions and the device of a server between two messages. -/
structure Server.Inv (s : Server P F) : Prop where
  device : s.cfg.Ok s.files
  sessions : ∀ peer, (s.sessions peer).Inv s.cfg

theorem Server.Starts.inv (h : s.Starts) : s.Inv := by
  constructor
  · intro dev hdev
    obtain ⟨sectorSize, readOnly, hlt, hmax, hopen⟩ := h.device dev hdev
    rw [hopen]
    constructor
    · change 0 < if sectorSize ≤ 0 then DefaultSectorSize else sectorSize
      split
      · decide
      · omega
    · change (if sectorSize ≤ 0 then DefaultSectorSize else sectorSize) < _
      split
      · decide
      · exact hlt
    · rfl
    · exact hmax
  · intro peer
    rw [h.sessions peer]
    constructor
    · intro q hq
      cases hq
    · intro hblock
      cases hblock
    · exact Int.le_of_lt s.cfg.transferCap_pos
    · intro dev _ id opened hopened
      cases hopened

/-! ## Reads -/

variable {host : Host}

/-- A count of sectors of 512 bytes fits. -/
theorem fits_sectors {count : Int} (h0 : 0 ≤ count) (hle : count ≤ 65535) :
    Fits (count * DefaultSectorSize) := by
  unfold Fits MaxInt64 DefaultSectorSize
  omega

theorem Quiet.handleBReadFile (h : Quiet cfg files r w) {q : Request} (h0 : 0 ≤ q.count)
    (hle : q.count ≤ 65535) : Quiet cfg files r (final (handleBReadFile cfg host q w)) := by
  unfold Blocks.handleBReadFile
  rw [get_bind]
  cases w.st.handles q.handle with
  | none => exact h.result _ _
  | some handle =>
      dsimp only
      split
      · exact h.result _ _
      · rw [compute_bind (fits_sectors h0 hle)]
        have h := h.computed (fits_sectors h0 hle)
        split
        · exact h.result _ _
        · rename_i hchecks
          have hoffset : Fits (q.sector * DefaultSectorSize) := by
            have hmax : MaxInt64.tdiv DefaultSectorSize = 18014398509481983 := by decide
            rw [hmax] at hchecks
            unfold Fits MaxInt64 DefaultSectorSize
            omega
          rw [compute_bind hoffset]
          have h := (h.computed hoffset).record (a := .seek q.handle (q.sector * DefaultSectorSize))
            trivial id
          cases host.seek with
          | some err => exact h.result _ _
          | none =>
              cases host.readFull with
              | error err => exact h.result _ _
              | ok data => exact h.result _ _

/-- What a request for sectors of the image covers. -/
theorem covers_of_inside {dev : BlockDevice F} (hdev : dev.Ok files)
    (hblock : cfg.blockDev = some dev) {q : Request} (hq : q.handle = blockHandle)
    (hin : (q.sector + q.count) * dev.sectorSize ≤ dev.size) {n : Nat}
    (hn : (n : Int) = q.count * dev.sectorSize) :
    q.Covers cfg files (q.sector * dev.sectorSize) n := by
  refine ⟨dev, hblock, hq, Int.le_refl _, ?_, ?_⟩
  · apply Int.le_of_eq
    rw [hn, Int.add_mul]
  · rw [← hdev.size]
    exact hin

theorem readAt_run (host : Host) (dev : BlockDevice F) (offset : Int) (size : Nat) (w : World F) :
    ∃ data, readAt host dev offset size w = .ok data (w.record (.readAt offset size)) := by
  have hact : act (.readAt offset size) w = .ok () (w.record (.readAt offset size)) := rfl
  unfold readAt
  rw [bind_ok hact, get_bind]
  split
  · exact ⟨_, rfl⟩
  · cases host.readAt with
    | some err => exact ⟨_, rfl⟩
    | none => exact ⟨_, rfl⟩

theorem Quiet.handleBRead {p : Bytes} (h : Quiet cfg files (blockRequest p) w)
    (hcfg : cfg.Ok files) : Quiet cfg files (blockRequest p) (final (handleBRead cfg host p w)) := by
  unfold Blocks.handleBRead
  cases hreq : blockRequest p with
  | none => exact (hreq ▸ h).result _ _
  | some q =>
      obtain ⟨h0, hle, -⟩ := bounds_of_blockRequest hreq
      rw [hreq] at h
      dsimp only
      split
      · exact h.result _ _
      · split
        · exact h.handleBReadFile h0 hle
        · rename_i hzero
          cases hblock : cfg.blockDev with
          | none => exact h.result _ _
          | some dev =>
              have hdev := hcfg dev hblock
              dsimp only
              rw [compute_bind (hdev.fits_total h0 hle)]
              have h := h.computed (hdev.fits_total h0 hle)
              split
              · exact h.result _ _
              · obtain ⟨inside, w', hrun, h', hst, hiff⟩ := @Quiet.inRange _ _ _ _ _ h dev hdev
                  q.sector q.count hle
                rw [bind_ok hrun]
                split
                · exact h'.result _ _
                · rename_i hinside
                  obtain ⟨hsector, hcount, hin⟩ := hiff.mp (Bool.not_eq_false _ ▸ hinside)
                  have hoffset := hdev.fits_offset hsector hcount hin
                  rw [compute_bind hoffset.2]
                  have hcover : q.Covers cfg files (q.sector * dev.sectorSize)
                      (q.count * dev.sectorSize).toNat := by
                    apply covers_of_inside hdev hblock (not_not.mp hzero) hin
                    exact Int.toNat_of_nonneg (Int.mul_nonneg h0 (Int.le_of_lt hdev.pos))
                  have h := (h'.computed hoffset.2).record
                    (a := .readAt (q.sector * dev.sectorSize) (q.count * dev.sectorSize).toNat)
                    ⟨q, rfl, hcover⟩ id
                  obtain ⟨data, hread⟩ := readAt_run host dev (q.sector * dev.sectorSize)
                    (q.count * dev.sectorSize).toNat
                    (w'.record (.computed (q.sector * dev.sectorSize)))
                  rw [bind_ok hread]
                  cases data with
                  | error err => exact h.result _ _
                  | ok data => exact h.result _ _

/-! ## Completed writes -/

theorem final_finishWrite_failed {err : HostError} (hsync : host.sync = some err) (result : Int)
    (w : World F) : final (finishWrite host none result w) =
      (w.record (.synced false)).record (.writeDone (errno err)) := by
  have hrun : sync host w = .ok (some err) (w.record (.synced false)) := by
    unfold sync
    rw [hsync]
    rfl
  unfold finishWrite
  dsimp only
  rw [bind_ok hrun]
  rfl

theorem final_finishWrite_synced (hsync : host.sync = none) (result : Int) (w : World F) :
    final (finishWrite host none result w) =
      (w.record (.synced true)).record (.writeDone result) := by
  have hrun : sync host w = .ok none (w.record (.synced true)) := by
    unfold sync
    rw [hsync]
    rfl
  unfold finishWrite
  dsimp only
  rw [bind_ok hrun]
  rfl

theorem Quiet.handleClose (h : Quiet cfg files none w) (p : Bytes) :
    Quiet cfg files none (final (handleClose p w)) := by
  have hreply : ∀ {w : World F} (_ : Quiet cfg files none w) (result : Int),
      Quiet cfg files none (w.record (.closeReply result)) := fun h _ => h.record trivial id
  unfold Blocks.handleClose
  rw [get_bind]
  split
  · exact hreply h _
  · split
    · exact hreply h _
    · cases w.st.handles (BitVec.ofNat 32 (p.field 4 4)) with
      | none => exact hreply h _
      | some opened => exact hreply (h.state (h.st.closeHandle _)) _

variable [DecidableEq F]

/-- A write to the file of another name, or inside the image, keeps the size of the image. -/
theorem size_put {dev : BlockDevice F} {f : F} {offset : Nat} {data : Bytes}
    (hfits : dev.file = f → offset + data.length ≤ (w.files f).length) :
    ((w.put host f offset data).files dev.file).length = (w.files dev.file).length := by
  change (Function.update w.files f ((w.files f).splice offset (taken host data))
    dev.file).length = _
  by_cases hf : dev.file = f
  · have htaken : (taken host data).length ≤ data.length := by
      unfold taken
      split
      · exact Nat.le_refl _
      · exact Nat.le_trans (List.length_take_le' _ _) (by rw [List.length_dropLast]; omega)
    have := hfits hf
    rw [hf, Function.update_self, Bytes.length_splice (by omega)]
  · rw [Function.update_of_ne hf]

/-- The write of a request, its sync and its report. -/
theorem Quiet.finish {q : Request} (h : Quiet cfg files (some q) w) {f : F} {append : Bool}
    {offset : Int} {buf : Bytes} (hlen : (buf.length : Int) = q.count * cfg.sectorSize q.handle)
    (hcap : (buf.length : Int) ≤ cfg.transferCap)
    (hcover : q.handle = blockHandle → q.Covers cfg files offset buf.length)
    (hsize : ∀ dev, cfg.blockDev = some dev → dev.file = f → 0 ≤ offset →
      offset.toNat + buf.length ≤ (files f).length) :
    Served cfg files (some q) buf (final ((writeAt host q.handle f append offset buf >>=
      fun written => finishWrite host written (int32 buf.length)) w)) := by
  have hok : ∀ done, Act.Ok cfg files (some q) (.wroteAt q.handle offset buf done) :=
    fun _ hq => ⟨q, rfl, hcover hq⟩
  unfold writeAt
  by_cases hrefused : append = true ∨ offset < 0
  · rw [if_pos hrefused]
    exact ((h.record (hok false) Bool.false_ne_true).refuse (errno_neg .other)).served buf
  · rw [if_neg hrefused]
    have hquiet := h.record (hok false) Bool.false_ne_true
    have hkept : ∀ dev, cfg.blockDev = some dev →
        ((w.put host f offset.toNat buf).files dev.file).length = (files dev.file).length := by
      intro dev hdev
      rw [size_put, h.files]
      intro hf
      rw [h.files]
      exact hsize dev hdev hf (by omega)
    cases hwrite : host.write with
    | some failed =>
        -- bytes may have reached the file, and the error is reported
        have hrefuse := hquiet.record (a := .writeDone (errno failed.2)) trivial
          (Int.not_le.mpr (errno_neg _))
        apply served_of_mute
        · exact hrefuse.acts
        · exact hrefuse.mute
        · exact hrefuse.st
        · exact hkept
    | none =>
        let written := (w.record (.wroteAt q.handle offset buf true)).put host f offset.toNat buf
        change Served _ _ _ _ (final (finishWrite host none (int32 buf.length) written))
        have hacts : ∀ done result, ∀ a ∈ ((written.record (.synced done)).record
            (.writeDone result)).trace, a.Ok cfg files (some q) := by
          intro done result a ha
          rcases mem_record.mp ha with ha | rfl
          · rcases mem_record.mp ha with ha | rfl
            · rcases mem_record.mp ha with ha | rfl
              · exact h.acts a ha
              · exact hok true
            · trivial
          · trivial
        cases hsync : host.sync with
        | some err =>
            rw [final_finishWrite_failed hsync]
            refine ⟨hacts _ _, h.st, hkept, fun q' _ => ?_⟩
            constructor
            · rintro ⟨n, hn, hmem⟩
              have hneg := errno_neg err
              rcases mem_record.mp hmem with hmem | hlast
              · rcases mem_record.mp hmem with hmem | hlast
                · rcases mem_record.mp hmem with hmem | hlast
                  · exact absurd hn (h.mute _ hmem)
                  · cases hlast
                · cases hlast
              · cases hlast
                omega
            · rintro ⟨-, -, hmem⟩
              rcases mem_record.mp hmem with hmem | hlast
              · rcases mem_record.mp hmem with hmem | hlast
                · rcases mem_record.mp hmem with hmem | hlast
                  · exact absurd rfl (h.mute _ hmem)
                  · cases hlast
                · cases hlast
              · cases hlast
        | none =>
            rw [final_finishWrite_synced hsync]
            refine ⟨hacts _ _, h.st, hkept, fun q' hq' => ?_⟩
            cases hq'
            have hresult : int32 buf.length = buf.length :=
              int32_of_le (Int.natCast_nonneg _) (Int.le_trans hcap cfg.transferCap_le)
            constructor
            · intro _
              refine ⟨hlen, ⟨offset, ?_⟩, ?_⟩
              · apply mem_record.mpr ∘ Or.inl ∘ mem_record.mpr ∘ Or.inl
                exact mem_record.mpr (Or.inr rfl)
              · exact mem_record.mpr (Or.inl (mem_record.mpr (Or.inr rfl)))
            · intro _
              refine ⟨int32 buf.length, ?_, mem_record.mpr (Or.inr rfl)⟩
              rw [hresult]
              exact Int.natCast_nonneg _

theorem Quiet.completeFileBlockWrite {q : Request} (h : Quiet cfg files (some q) w) {buf : Bytes}
    {offset : Int} (hq : q.handle ≠ blockHandle)
    (hlen : (buf.length : Int) = q.count * cfg.sectorSize q.handle)
    (hcap : (buf.length : Int) ≤ cfg.transferCap) :
    Served cfg files (some q) buf
      (final (completeFileBlockWrite host q.handle buf offset w)) := by
  unfold Blocks.completeFileBlockWrite
  rw [get_bind]
  cases hhandle : w.st.handles q.handle with
  | none => exact (h.refuse (by decide)).served buf
  | some handle =>
      dsimp only
      cases hwriter : handle.writer with
      | none => exact (h.refuse (by decide)).served buf
      | some f =>
          apply h.finish hlen hcap
          · exact fun hzero => absurd hzero hq
          · intro dev hdev hf
            have hother := h.st.apart dev hdev _ _ hhandle
            rw [hwriter, hf] at hother
            exact absurd rfl hother

/-- A collected BWRITE: of its declared length it is written, otherwise refused. -/
theorem Quiet.completeBlockWrite {q : Request} (h : Quiet cfg files (some q) w)
    (hcfg : cfg.Ok files) {st : State F} (harmed : Armed cfg q st) {buf : Bytes}
    (hcap : (buf.length : Int) ≤ cfg.transferCap) :
    Served cfg files (some q) buf
      (final (completeBlockWrite cfg host st.handle buf st.offset st.expectedLen w)) := by
  unfold Blocks.completeBlockWrite
  split
  · exact (h.refuse (by decide)).served buf
  · rename_i hlen
    have hlen : (buf.length : Int) = q.count * cfg.sectorSize q.handle :=
      (not_not.mp hlen).trans harmed.expected
    rw [harmed.handle]
    split
    · rename_i hq
      exact h.completeFileBlockWrite hq hlen hcap
    · rename_i hq
      have hzero := not_not.mp hq
      cases hblock : cfg.blockDev with
      | none => exact (h.refuse (by decide)).served buf
      | some dev =>
          dsimp only
          split
          · exact (h.refuse (errno_neg _)).served buf
          · have hsector : cfg.sectorSize q.handle = dev.sectorSize := by
              rw [Config.sectorSize, if_pos hzero, hblock]
              rfl
            obtain ⟨dev', hdev', -, hin⟩ := harmed.inside hzero
            obtain rfl : dev' = dev := Option.some.inj (hdev'.symm.trans hblock)
            have hcover : q.Covers cfg files st.offset buf.length := by
              rw [harmed.offset, hsector]
              exact covers_of_inside (hcfg dev' hblock) hblock hzero hin (hsector ▸ hlen)
            apply h.finish hlen hcap
            · exact fun _ => hcover
            · intro dev hdev hf hpos
              obtain ⟨d, hd, -, -, hend, himage⟩ := hcover
              obtain rfl : d = dev := Option.some.inj (hd.symm.trans hdev)
              rw [hf] at himage
              omega

/-- A WRITE goes to the file of its handle, which is not the image. -/
theorem Quiet.completeFileWrite (h : Quiet cfg files none w) (handle : HandleId) (buf data : Bytes) :
    Served cfg files none data (final (completeFileWrite host handle buf w)) := by
  unfold Blocks.completeFileWrite
  rw [get_bind]
  cases hhandle : w.st.handles handle with
  | none => exact (h.refuse (by decide)).served data
  | some opened =>
      dsimp only
      cases hwriter : opened.writer with
      | none => exact (h.refuse (by decide)).served data
      | some f =>
          let written := (w.record (.wrote handle buf)).put host f
            (if opened.append then (w.files f).length else host.position) buf
          change Served _ _ _ _ (final (finishWrite host (host.write.map Prod.snd)
            (int32 buf.length) written))
          have hkept : ∀ dev, cfg.blockDev = some dev →
              (written.files dev.file).length = (files dev.file).length := by
            intro dev hdev
            have hother : dev.file ≠ f := by
              intro hf
              apply h.st.apart dev hdev _ _ hhandle
              rw [hwriter, hf]
            change (Function.update w.files f _ dev.file).length = _
            rw [Function.update_of_ne hother, h.files]
          have hacts : ∀ done result, ∀ a ∈ ((written.record (.synced done)).record
              (.writeDone result)).trace, a.Ok cfg files none := by
            intro done result a ha
            rcases mem_record.mp ha with ha | rfl
            · rcases mem_record.mp ha with ha | rfl
              · rcases mem_record.mp ha with ha | rfl
                · exact h.acts a ha
                · trivial
              · trivial
            · trivial
          cases hwrite : host.write with
          | some failed =>
              constructor
              · intro a ha
                rcases mem_record.mp ha with ha | rfl
                · rcases mem_record.mp ha with ha | rfl
                  · exact h.acts a ha
                  · trivial
                · trivial
              · exact h.st
              · exact hkept
              · intro q hq
                cases hq
          | none =>
              cases hsync : host.sync with
              | some err =>
                  rw [Option.map_none, final_finishWrite_failed hsync]
                  exact ⟨hacts _ _, h.st, hkept, fun q hq => by cases hq⟩
              | none =>
                  rw [Option.map_none, final_finishWrite_synced hsync]
                  exact ⟨hacts _ _, h.st, hkept, fun q hq => by cases hq⟩

/-! ## Chunks -/

theorem length_chunkBody (msg : Bytes) : (chunkBody msg).length < 65536 :=
  Nat.lt_of_le_of_lt (List.length_take_le _ _) (msg.field_lt 4 2)

/-- A write that is whole is over: its state is reset before it is written. -/
theorem Quiet.completeWrite (h : Quiet cfg files r w) (hcfg : cfg.Ok files)
    (hr : w.st.request = r) :
    Served cfg files r w.st.buffer (final (completeWrite cfg host w)) := by
  have hreset := h.state h.st.resetWrite
  have hrun : Blocks.resetWrite w = .ok () { w with st := w.st.resetWrite } := rfl
  unfold Blocks.completeWrite
  rw [get_bind, bind_ok hrun]
  cases hblock : w.st.isBlock with
  | true =>
      obtain ⟨q, hq⟩ := h.st.block hblock
      obtain rfl : some q = r := hq.symm.trans hr
      exact hreset.completeBlockWrite hcfg (h.st.armed q hq).2 h.st.buffer
  | false =>
      have hnone : w.st.request = none := by
        cases hq : w.st.request with
        | none => rfl
        | some q =>
            have htrue := (h.st.armed q hq).1
            rw [hblock] at htrue
            cases htrue
      obtain rfl : none = r := hnone.symm.trans hr
      exact hreset.completeFileWrite _ _ _

/-- A chunk is dropped, refused with the whole write, kept, or the last of its write. -/
theorem Quiet.handleWriteData (h : Quiet cfg files r w) (hcfg : cfg.Ok files)
    (hr : w.st.request = r) (msg : Bytes) :
    Served cfg files r (w.st.buffer ++ chunkBody msg)
      (final (handleWriteData cfg host msg w)) := by
  have hreset := h.state h.st.resetWrite
  unfold Blocks.handleWriteData
  rw [get_bind]
  split
  · exact h.ack.served _
  · split
    · exact (hreset.refuse (by decide)).served _
    · have hbody := length_chunkBody msg
      have hbuffer := h.st.buffer
      have hcap := cfg.transferCap_le
      have hfits : Fits (w.st.buffer.length + (chunkBody msg).length) := by
        unfold Fits MaxInt64
        unfold preferredTransfer at hcap
        omega
      rw [compute_bind hfits]
      have h := h.computed hfits
      have hreset := h.state h.st.resetWrite
      split
      · exact (hreset.refuse (by decide)).served _
      · split
        · exact (hreset.refuse (by decide)).served _
        · rename_i hroom _
          let st : State F := { w.st with
            buffer := w.st.buffer ++ chunkBody msg
            totalChunks := msg.field 6 2
            receivedChunk := (w.st.receivedChunk + 1) % 65536 }
          have hst : st.Inv cfg := by
            constructor
            · intro q hq
              obtain ⟨hblock, harmed⟩ := h.st.armed q hq
              exact ⟨hblock, ⟨harmed.handle, harmed.offset, harmed.expected, harmed.pos,
                harmed.inside⟩⟩
            · exact h.st.block
            · change ((w.st.buffer ++ chunkBody msg).length : Int) ≤ _
              rw [List.length_append]
              omega
            · exact h.st.apart
          have h := h.state hst
          have hrun : (modify fun w => { w with st := { w.st with
              buffer := w.st.buffer ++ chunkBody msg
              totalChunks := msg.field 6 2
              receivedChunk := (w.st.receivedChunk + 1) % 65536 } } : Handler F Unit)
              (w.record (.computed (w.st.buffer.length + (chunkBody msg).length))) =
              .ok () { (w.record (.computed (w.st.buffer.length + (chunkBody msg).length))) with
                st := st } := rfl
          rw [bind_ok hrun]
          split
          · exact h.ack.served _
          · exact h.completeWrite hcfg hr

theorem Quiet.firstChunk (h : Quiet cfg files r w) (hcfg : cfg.Ok files)
    (hr : w.st.request = r) (hempty : w.st.buffer = []) (p : Bytes) (header : Nat) :
    Served cfg files r (chunkBody (p.drop header)) (final (firstChunk cfg host p header w)) := by
  unfold Blocks.firstChunk
  split
  · have hdata : Served cfg files r _ (final (Blocks.handleWriteData cfg host (p.drop header) w)) :=
      h.handleWriteData hcfg hr (p.drop header)
    rw [hempty] at hdata
    exact hdata
  · exact h.ack.served _

theorem Quiet.startBlockWrite {q : Request} (h : Quiet cfg files (some q) w)
    (hcfg : cfg.Ok files) {offset total : Int}
    (harmed : Armed cfg q ⟨w.st.handles, true, q.handle, [], 0, 0, true, offset, total, some q⟩)
    (p : Bytes) : Served cfg files (some q) (chunkBody (p.drop 16))
      (final (startBlockWrite cfg host q offset total p w)) := by
  let st : State F := ⟨w.st.handles, true, q.handle, [], 0, 0, true, offset, total, some q⟩
  have hst : st.Inv cfg := by
    constructor
    · intro q' hq'
      cases hq'
      exact ⟨rfl, harmed⟩
    · exact fun _ => ⟨q, rfl⟩
    · exact Int.le_of_lt cfg.transferCap_pos
    · exact h.st.apart
  exact (h.state hst).firstChunk hcfg rfl rfl p 16

theorem Quiet.handleFileBWriteRequest {q : Request} (h : Quiet cfg files (some q) w)
    (hcfg : cfg.Ok files) (h0 : 0 ≤ q.count) (hle : q.count ≤ 65535)
    (hq : q.handle ≠ blockHandle) (p : Bytes) :
    Served cfg files (some q) (chunkBody (p.drop 16))
      (final (handleFileBWriteRequest cfg host q p w)) := by
  unfold Blocks.handleFileBWriteRequest
  rw [get_bind]
  cases w.st.handles q.handle with
  | none => exact (h.refuse (by decide)).served _
  | some handle =>
      dsimp only
      split
      · exact (h.refuse (by decide)).served _
      · split
        · exact (h.refuse (by decide)).served _
        · rw [compute_bind (fits_sectors h0 hle)]
          have h := h.computed (fits_sectors h0 hle)
          split
          · exact (h.refuse (by decide)).served _
          · rename_i hcount
            have hroom : Fits (MaxInt64 - q.count * DefaultSectorSize) := by
              unfold Fits MaxInt64 DefaultSectorSize
              omega
            rw [compute_bind hroom]
            have h := h.computed hroom
            split
            · exact (h.refuse (by decide)).served _
            · rename_i hsector
              have hdiv : (MaxInt64 - q.count * DefaultSectorSize).tdiv DefaultSectorSize =
                  (MaxInt64 - q.count * DefaultSectorSize) / DefaultSectorSize := by
                apply Int.tdiv_eq_ediv_of_nonneg
                unfold MaxInt64 DefaultSectorSize
                omega
              rw [hdiv] at hsector
              have hoffset : Fits (q.sector * DefaultSectorSize) := by
                unfold MaxInt64 DefaultSectorSize at hsector
                unfold Fits MaxInt64 DefaultSectorSize
                omega
              rw [compute_bind hoffset]
              have hsize : cfg.sectorSize q.handle = DefaultSectorSize := if_neg hq
              apply (h.computed hoffset).startBlockWrite hcfg
              constructor
              · rfl
              · rw [hsize]
              · rw [hsize]
              · change 0 < q.count * DefaultSectorSize
                unfold DefaultSectorSize
                omega
              · exact fun hzero => absurd hzero hq

theorem Quiet.handleBWriteRequest {p : Bytes} (h : Quiet cfg files (blockRequest p) w)
    (hcfg : cfg.Ok files) : Served cfg files (blockRequest p) (chunkBody (p.drop 16))
      (final (handleBWriteRequest cfg host p w)) := by
  have h := h.state h.st.resetWrite
  have hrun : Blocks.resetWrite w = .ok () { w with st := w.st.resetWrite } := rfl
  unfold Blocks.handleBWriteRequest
  rw [bind_ok hrun]
  cases hreq : blockRequest p with
  | none => exact ((hreq ▸ h).refuse (by decide)).served _
  | some q =>
      obtain ⟨h0, hle, -⟩ := bounds_of_blockRequest hreq
      rw [hreq] at h
      dsimp only
      split
      · exact (h.refuse (by decide)).served _
      · split
        · rename_i hq
          exact h.handleFileBWriteRequest hcfg h0 hle hq p
        · rename_i hq
          have hzero := not_not.mp hq
          cases hblock : cfg.blockDev with
          | none => exact (h.refuse (by decide)).served _
          | some dev =>
              have hdev := hcfg dev hblock
              dsimp only
              split
              · exact (h.refuse (by decide)).served _
              · rw [compute_bind (hdev.fits_total h0 hle)]
                have h := h.computed (hdev.fits_total h0 hle)
                split
                · exact (h.refuse (by decide)).served _
                · obtain ⟨inside, w', hrun, h', hst, hiff⟩ := @Quiet.inRange _ _ _ _ _ h dev hdev
                    q.sector q.count hle
                  rw [bind_ok hrun]
                  split
                  · exact (h'.refuse (by decide)).served _
                  · rename_i hinside
                    obtain ⟨hsector, hcount, hin⟩ := hiff.mp (Bool.not_eq_false _ ▸ hinside)
                    have hoffset := hdev.fits_offset hsector hcount hin
                    have hsize : cfg.sectorSize q.handle = dev.sectorSize := by
                      rw [Config.sectorSize, if_pos hzero, hblock]
                      rfl
                    rw [compute_bind hoffset.2]
                    apply (h'.computed hoffset.2).startBlockWrite hcfg
                    constructor
                    · rfl
                    · rw [hsize]
                    · rw [hsize]
                    · exact Int.mul_pos hcount hdev.pos
                    · exact fun _ => ⟨dev, hblock, hoffset.1, hin⟩

theorem Quiet.handleWriteRequest (h : Quiet cfg files none w) (hcfg : cfg.Ok files)
    (p data : Bytes) : Served cfg files none data (final (handleWriteRequest cfg host p w)) := by
  have h := h.state h.st.resetWrite
  have hrun : Blocks.resetWrite w = .ok () { w with st := w.st.resetWrite } := rfl
  unfold Blocks.handleWriteRequest
  rw [bind_ok hrun]
  split
  · exact (h.refuse (by decide)).served _
  · split
    · exact (h.refuse (by decide)).served _
    · split
      · exact (h.refuse (by decide)).served _
      · rw [get_bind]
        dsimp only
        cases w.st.resetWrite.handles (BitVec.ofNat 32 (p.field 4 4)) with
        | none => exact (h.refuse (by decide)).served _
        | some opened =>
            dsimp only
            split
            · exact (h.refuse (by decide)).served _
            · split
              · exact (h.refuse (by decide)).served _
              · let st : State F := { w.st.resetWrite with
                  active := true
                  handle := BitVec.ofNat 32 (p.field 4 4)
                  buffer := []
                  totalChunks := 0
                  receivedChunk := 0 }
                have hst : st.Inv cfg := by
                  constructor
                  · intro q hq
                    cases hq
                  · intro hblock
                    cases hblock
                  · exact Int.le_of_lt cfg.transferCap_pos
                  · exact h.st.apart
                exact ((h.state hst).firstChunk hcfg rfl rfl p 12).of_none data

/-! ## Every message of every run -/

/-- One message: which request it belongs to, and what serving it leaves. -/
theorem Server.Inv.serve (h : s.Inv) (peer : P) (p : Bytes) (host : Host) :
    Served s.cfg s.files (s.governing peer p) (s.gathered peer p) (s.serve peer p host) := by
  have hstart : ∀ r, Quiet s.cfg s.files r ⟨s.files, s.sessions peer, []⟩ := by
    intro r
    refine ⟨?_, ?_, h.sessions peer, rfl⟩
    · intro a ha
      cases ha
    · intro a ha
      cases ha
  have hdevice := h.device
  unfold Server.serve handleMessage Server.governing Server.gathered
  generalize p.field 0 1 = opcode
  by_cases hclose : opcode = CloseRequest
  · subst hclose
    exact ((hstart none).handleClose p).served _
  · rw [if_neg hclose]
    by_cases hwrite : opcode = WriteRequest
    · subst hwrite
      exact (hstart none).handleWriteRequest hdevice p _
    · rw [if_neg hwrite]
      by_cases hdata : opcode = WriteData
      · subst hdata
        exact (hstart _).handleWriteData hdevice rfl p
      · rw [if_neg hdata, if_neg hdata]
        by_cases hread : opcode = BReadRequest
        · subst hread
          exact ((hstart _).handleBRead hdevice).served _
        · rw [if_neg hread]
          by_cases hbwrite : opcode = BWriteRequest
          · subst hbwrite
            exact (hstart _).handleBWriteRequest hdevice
          · rw [if_neg hbwrite, if_neg hbwrite]
            exact (hstart _).served _

theorem Server.Inv.sound (h : s.Inv) (peer : P) (p : Bytes) (host : Host) :
    Sound s peer p host := by
  have hserved := h.serve peer p host
  constructor
  · exact fun n hn => hserved.acts _ hn
  · exact fun offset size hread => hserved.acts _ hread
  · exact fun offset data done hwrite => hserved.acts _ hwrite rfl
  · exact hserved.size
  · exact fun r hr _ => hserved.reported r hr

variable [DecidableEq P]

theorem Server.Inv.next (h : s.Inv) {e : Event P F} (ha : Apart s e) : (s.next e).Inv := by
  cases e with
  | message peer p host =>
      have hserved := h.serve peer p host
      constructor
      · exact fun dev hdev => (h.device dev hdev).of_length (hserved.size dev hdev)
      · intro other
        change (Function.update s.sessions peer _ other).Inv s.cfg
        by_cases hother : other = peer
        · rw [hother, Function.update_self]
          exact hserved.st
        · rw [Function.update_of_ne hother]
          exact h.sessions other
  | other peer handles reset files =>
      constructor
      · intro dev hdev
        exact (h.device dev hdev).of_length (congrArg List.length (ha.2 dev hdev))
      · intro other
        change (Function.update s.sessions peer _ other).Inv s.cfg
        by_cases hother : other = peer
        · rw [hother, Function.update_self]
          exact (h.sessions peer).after ha.1 reset
        · rw [Function.update_of_ne hother]
          exact h.sessions other

/-- In every run that opens no other writer on the image, every message computes what fits,
stays inside its sectors and the image, and reports a BWRITE exactly when it was delivered,
written and synced. -/
theorem sound_of_reached (h : (runs (P := P) (F := F)).ReachedWhen Apart s) (peer : P) (p : Bytes)
    (host : Host) : Sound s peer p host := by
  have hinv : s.Inv := by
    refine h.invariant ?_ ?_
    · exact fun s hs => hs.inv
    · rintro s e t hs ha rfl
      exact hs.next ha
  exact hinv.sound peer p host

/-- A writable image of two sectors, the only file of its server. -/
def twoSectors : Server Unit Unit where
  cfg := ⟨false, 0, some (openBlockDevice () 1024 512 false)⟩
  files := fun _ => List.replicate 1024 0
  sessions := fun _ => State.new

/-- A BWRITE of one sector with its data in the same datagram. -/
def bwriteSector (handle sector : Nat) : Bytes :=
  Bytes.ofNat 2 BWriteRequest ++ Bytes.ofNat 2 1 ++ Bytes.ofNat 4 handle ++ Bytes.ofNat 8 sector ++
    (Bytes.ofNat 4 WriteData ++ Bytes.ofNat 2 512 ++ Bytes.ofNat 2 1 ++ List.replicate 512 7)

/-- Every call succeeds but maybe the sync. -/
def hostWith (sync : Option HostError) : Host := ⟨none, none, .ok [], none, 0, sync⟩

theorem starts_twoSectors : twoSectors.Starts := by
  constructor
  · exact fun _ => rfl
  · intro dev hdev
    cases hdev
    exact ⟨512, false, by decide, by decide +kernel, by decide +kernel⟩

theorem sound_twoSectors : Sound twoSectors () (bwriteSector 0 1) (hostWith none) :=
  sound_of_reached (.init starts_twoSectors) () (bwriteSector 0 1) (hostWith none)

/-- The image after a peer has opened its file for writing, as handle 1. -/
def openedTwice : Server Unit Unit :=
  twoSectors.next (.other () (fun id => if id = 1 then some ⟨true, some (), false, false⟩ else none)
    false twoSectors.files)

/-- What a sector that is written but cannot be synced leaves behind. -/
def unsynced : World Unit := twoSectors.serve () (bwriteSector 0 1) (hostWith (some .other))

/-- All the bytes of a BWRITE were delivered and written, but it is not reported as done, and
who has opened the file of the image for writing extends it. -/
theorem not_reported_unsynced :
    .wroteAt blockHandle 512 (List.replicate 512 7) true ∈ unsynced.trace ∧
      (unsynced.files ()).sub 512 512 = List.replicate 512 7 ∧
      (¬ ∃ n, 0 ≤ n ∧ .writeDone n ∈ unsynced.trace) ∧
      ((openedTwice.serve () (bwriteSector 1 2) (hostWith none)).files ()).length = 1536 := by
  have htrace : unsynced.trace = [.computed 512, .computed 2, .computed 1, .computed 512,
      .computed 512, .wroteAt blockHandle 512 (List.replicate 512 7) true, .synced false,
      .writeDone (-5)] := by
    decide +kernel
  refine ⟨?_, by decide +kernel, ?_, by decide +kernel⟩
  · rw [htrace]
    decide +kernel
  · rw [htrace]
    rintro ⟨n, hn, hmem⟩
    simp only [List.mem_cons, reduceCtorEq, false_or, Act.writeDone.injEq, List.not_mem_nil,
      or_false] at hmem
    omega

end Ps2Servers.Edge.Blocks
