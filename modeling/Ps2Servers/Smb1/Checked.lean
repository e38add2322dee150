import Ps2Servers.Lib.Slices
import Ps2Servers.Smb1.WriteCounts

/-!
# Every index and slice of the handlers of Edge

The handlers once more, with each index, slice and write into a buffer of the source checked against
its bounds: `none` is a panic. Whatever a message holds and whatever the connection is at, they come to
what the handlers without the checks come to.

## Implementation notes

`int` has as many bits as the platform gives it. It is only where an offset and a count of the client
are added that this matters.
-/

namespace Ps2Servers.Smb1.Edge

open Slices

/-- `parseReq`: a message that is cut off before the end of its words is no request. -/
def parseReq (msg : Bytes) : Option Req :=
  if msg.length < 33 ∨ msg.take 4 ≠ SMB_MAGIC ∨ msg.length < 33 + msg.field 32 1 * 2 then none
  else some (Req.ofMessage msg)

namespace Checked

/-! ## Reading -/

/-- `binary.LittleEndian.Uint16(b[off:])` and the like. -/
def uint (size : Nat) (b : Bytes) (off : Nat) : Option Nat := do
  let rest ← suffix b off
  let bytes ← upTo rest size
  some (Bytes.le bytes)

def u16 (b : Bytes) (off : Nat) : Option Nat := if b.length < off + 2 then some 0 else uint 2 b off

def u32 (b : Bytes) (off : Nat) : Option Nat := if b.length < off + 4 then some 0 else uint 4 b off

/-- `indexZero`. -/
def indexZero (b : Bytes) : Option Nat := b.findIdx? (· == 0)

def asciiz (b : Bytes) : Option Bytes :=
  match indexZero b with
  | some i => upTo b i
  | none => some b

theorem uint_eq {size off : Nat} {b : Bytes} (h : off + size ≤ b.length) :
    uint size b off = some (b.field off size) := by
  have hrest : size ≤ (b.drop off).length := by
    rw [List.length_drop]
    omega
  rw [uint, suffix_eq (by omega), Option.bind_eq_bind, Option.bind_some, upTo_eq hrest]
  rfl

@[simp] theorem u16_eq (b : Bytes) (off : Nat) : u16 b off = some (Edge.u16 b off) := by
  unfold u16 Edge.u16
  split
  · rw [if_neg (by omega)]
  · rw [if_pos (by omega), uint_eq (by omega)]

@[simp] theorem u32_eq (b : Bytes) (off : Nat) : u32 b off = some (Edge.u32 b off) := by
  unfold u32 Edge.u32
  split
  · rw [if_neg (by omega)]
  · rw [if_pos (by omega), uint_eq (by omega)]

theorem take_indexZero {b : Bytes} {i : Nat} (h : indexZero b = some i) :
    i ≤ b.length ∧ b.take i = cString b := by
  induction b generalizing i with
  | nil => cases h
  | cons a rest ih =>
      unfold indexZero at h ih
      rw [List.findIdx?_cons] at h
      unfold cString
      by_cases hzero : a = 0
      · rw [if_pos (by simp [hzero])] at h
        cases h
        exact ⟨Nat.zero_le _, by simp [hzero]⟩
      · rw [if_neg (by simp [hzero])] at h
        obtain ⟨j, hj, rfl⟩ := Option.map_eq_some_iff.mp h
        obtain ⟨hle, htake⟩ := ih hj
        refine ⟨Nat.succ_le_succ hle, ?_⟩
        rw [List.take_succ_cons, htake, List.takeWhile_cons_of_pos (by simp [hzero])]
        rfl

theorem cString_of_indexZero {b : Bytes} (h : indexZero b = none) : cString b = b := by
  have hall : ∀ a ∈ b, decide (a ≠ 0) = true := by
    intro a ha
    have hne := List.findIdx?_eq_none_iff.mp h a ha
    simpa using hne
  have hsplit : b.takeWhile (fun a => decide (a ≠ 0)) = b := by
    have happend := @List.takeWhile_append_of_pos _ _ b [] hall
    rwa [List.append_nil, List.takeWhile_nil, List.append_nil] at happend
  exact hsplit

@[simp] theorem asciiz_eq (b : Bytes) : asciiz b = some (cString b) := by
  unfold asciiz
  cases h : indexZero b with
  | none => exact congrArg some (cString_of_indexZero h).symm
  | some i =>
      obtain ⟨hle, htake⟩ := take_indexZero h
      exact (upTo_eq hle).trans (congrArg some htake)

/-! ## Parsing -/

/-- `Header`. -/
structure Header where
  command : Nat
  status : Nat
  tid : Nat
  pid : Nat
  uid : Nat
  mid : Nat
  deriving DecidableEq, Repr

/-- `msg[i] != Magic[i] || msg[i+1] != Magic[i+1] || ...`. -/
def differs (msg : Bytes) : Nat → Bytes → Option Bool
  | _, [] => some false
  | i, m :: magic => do
      let b ← index msg i
      if b ≠ m then some true else differs msg (i + 1) magic

/-- `ParseHeader`. -/
def parseHeader (msg : Bytes) : Option (Option Header) :=
  if msg.length < 32 then some none
  else do
    if ← differs msg 0 SMB_MAGIC then some none
    else
      let command ← index msg 4
      let low ← index msg 5
      let high ← uint 2 msg 7
      let tid ← uint 2 msg 24
      let pid ← uint 2 msg 26
      let uid ← uint 2 msg 28
      let mid ← uint 2 msg 30
      some (some ⟨command.toNat, low.toNat + high * 0x10000, tid, pid, uid, mid⟩)

/-- The bytes of the body behind the words. -/
def dataAt (msg : Bytes) (pEnd : Nat) : Option Bytes :=
  if pEnd + 2 ≤ msg.length then do
    let bc ← uint 2 msg pEnd
    let dStart := pEnd + 2
    let dEnd := if msg.length < dStart + bc then msg.length else dStart + bc
    between msg dStart dEnd
  else some []

def parseReq (msg : Bytes) : Option (Option Req) :=
  if msg.length < 33 then some none
  else do
    match ← parseHeader msg with
    | none => some none
    | some h => do
        let wordCount ← index msg 32
        let pEnd := 33 + wordCount.toNat * 2
        if msg.length < pEnd then some none
        else
          let params ← between msg (33 : Nat) pEnd
          let data ← dataAt msg pEnd
          some (some ⟨h.command, h.tid, h.pid, h.uid, h.mid, wordCount.toNat, params, data, msg⟩)

theorem differs_eq (msg : Bytes) (magic : Bytes) :
    ∀ i, i + magic.length ≤ msg.length →
      differs msg i magic = some (decide (msg.sub i magic.length ≠ magic)) := by
  induction magic with
  | nil =>
      intro i _
      simp [differs]
  | cons m magic ih =>
      intro i hi
      rw [List.length_cons] at hi
      have hlt : i < msg.length := by omega
      have hsub : msg.sub i (magic.length + 1) = msg[i] :: msg.sub (i + 1) magic.length := by
        unfold Bytes.sub
        rw [List.drop_eq_getElem_cons hlt, List.take_succ_cons]
      rw [differs, index_eq hlt, List.length_cons, hsub, Option.bind_eq_bind, Option.bind_some,
        ih (i + 1) (by omega)]
      by_cases hm : msg[i] = m
      · simp [hm]
      · simp [hm]

theorem field_one {b : Bytes} {i : Nat} (h : i < b.length) : b.field i 1 = b[i].toNat := by
  unfold Bytes.field Bytes.sub
  rw [List.drop_eq_getElem_cons h, List.take_succ_cons, List.take_zero]
  rfl

theorem parseHeader_eq {msg : Bytes} (h : 33 ≤ msg.length) :
    parseHeader msg = some (if msg.take 4 ≠ SMB_MAGIC then none
      else some ⟨msg.field 4 1, msg.field 5 1 + msg.field 7 2 * 0x10000, msg.field 24 2,
        msg.field 26 2, msg.field 28 2, msg.field 30 2⟩) := by
  have hmagic := differs_eq msg SMB_MAGIC 0 (by show 0 + 4 ≤ _; omega)
  have hfront : msg.sub 0 SMB_MAGIC.length = msg.take 4 := rfl
  rw [hfront] at hmagic
  rw [parseHeader, if_neg (by omega), hmagic, Option.bind_eq_bind, Option.bind_some]
  by_cases hdiffers : msg.take 4 ≠ SMB_MAGIC
  · rw [if_pos (decide_eq_true hdiffers), if_pos hdiffers]
  · rw [if_neg (by simpa using hdiffers), if_neg hdiffers, index_eq (by omega : 4 < msg.length),
      index_eq (by omega : 5 < msg.length), uint_eq (by omega : 7 + 2 ≤ msg.length),
      uint_eq (by omega : 24 + 2 ≤ msg.length), uint_eq (by omega : 26 + 2 ≤ msg.length),
      uint_eq (by omega : 28 + 2 ≤ msg.length), uint_eq (by omega : 30 + 2 ≤ msg.length),
      field_one (by omega : 4 < msg.length), field_one (by omega : 5 < msg.length)]
    rfl

theorem dataAt_eq (msg : Bytes) (pEnd : Nat) :
    dataAt msg pEnd =
      some (msg.sub (pEnd + 2) (if pEnd + 2 ≤ msg.length then msg.field pEnd 2 else 0)) := by
  unfold dataAt
  split
  · rename_i hcount
    rw [bind_eq (uint_eq hcount)]
    dsimp only
    split
    · rename_i hcut
      rw [between_eq hcount (Nat.le_refl _), Bytes.sub,
        List.take_of_length_le (Nat.le_of_eq List.length_drop),
        List.take_of_length_le (by rw [List.length_drop]; omega)]
    · rename_i hwhole
      rw [between_eq (Nat.le_add_right _ _) (by omega), Nat.add_sub_cancel_left]
      rfl
  · rw [Bytes.sub_zero]

theorem parseReq_eq (msg : Bytes) : parseReq msg = some (Edge.parseReq msg) := by
  unfold parseReq Edge.parseReq
  by_cases hshort : msg.length < 33
  · rw [if_pos hshort, if_pos (Or.inl hshort)]
  rw [if_neg hshort, bind_eq (parseHeader_eq (by omega))]
  by_cases hmagic : msg.take 4 ≠ SMB_MAGIC
  · rw [if_pos hmagic, if_pos (Or.inr (Or.inl hmagic))]
  rw [if_neg hmagic]
  dsimp only
  have hwords : msg.field 32 1 = msg[32].toNat := field_one (by omega)
  rw [bind_eq (index_eq (by omega : 32 < msg.length)), ← hwords]
  by_cases hwhole : msg.length < 33 + msg.field 32 1 * 2
  · rw [if_pos hwhole, if_pos (Or.inr (Or.inr hwhole))]
  have hwindow := between_eq (Nat.le_add_right 33 (msg.field 32 1 * 2)) (Nat.le_of_not_lt hwhole)
  rw [if_neg hwhole, if_neg (not_or.mpr ⟨hshort, not_or.mpr ⟨hmagic, hwhole⟩⟩), bind_eq hwindow,
    bind_eq (dataAt_eq msg _), Nat.add_sub_cancel_left]
  rfl

/-- The one word of the message is missing. -/
example : parseReq (SMB_MAGIC ++ List.replicate 28 0 ++ [1]) = some none := by
  decide +kernel

end Checked

end Ps2Servers.Smb1.Edge
