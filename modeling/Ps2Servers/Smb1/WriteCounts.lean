import Ps2Servers.Smb1.Ages
import Ps2Servers.Smb1.Pages

/-!
# Counts of a WRITE_ANDX

The count a WRITE_ANDX declares stands in two halves of 16 bits and is put together in an `int`, as
wide as the platform makes it. What is written is cut to what the message holds, and the reply reports
its count in two halves again.

## Implementation notes

`writeAndX` of the connection is the handler where an `int` has 64 bits.
-/

namespace Ps2Servers.Smb1.Edge

def MaxMessage : Nat := 0x20000

/-- What an `int` of so many bits holds of a number. -/
def int (width : Nat) (n : Int) : Int := n.bmod (2 ^ width)

/-- `slice` with its arithmetic in an `int`. -/
def sliceIn (width : Nat) (msg : Bytes) (off n : Int) : Bytes :=
  if off < 0 ∨ (msg.length : Int) < off ∨ n ≤ 0 then []
  else
    let end_ := int width (off + n)
    let end_ := if (msg.length : Int) < end_ ∨ end_ < off then (msg.length : Int) else end_
    msg.sub off.toNat (end_ - off).toNat

/-- The count a request declares. -/
def declared (r : Req) : Nat := u16 r.params 20 + u16 r.params 18 * 0x10000

/-- The bytes a request has written. -/
def payloadIn (width : Nat) (r : Req) : Bytes :=
  sliceIn width r.msg (u16 r.params 22) (int width (declared r))

variable {H : Type} (ops : Ops H) (cfg : Config)

/-- The write of a request, if it comes to one: what it leaves of the host, and the bytes written. -/
def writeOf (width : Nat) (r : Req) (w : World H) : Option (H × Option Nat) :=
  if cfg.readOnly then none
  else
    (w.conn.files.entries.lookup (UInt16.ofNat (u16 r.params 4))).bind fun file =>
      if ops.openWrite w.host file.path then
        let offHigh := if 28 ≤ r.params.length then u32 r.params 24 else 0
        some (ops.writeAt w.host file.path (offset64 (u32 r.params 6) offHigh) (payloadIn width r))
      else none

/-- The reply to a write. -/
def writeReply (w : World H) (result : H × Option Nat) : Reply × World H :=
  (match result.2 with
    | none => .fail STATUS_ACCESS_DENIED
    | some n => .done ([ComNone, 0] ++ le16 0 ++ le16 (n % 0x10000) ++ le16 0 ++ le16 0 ++ le16 0) [],
    { w.transient with host := result.1 })

/-- `writeAndX` where an `int` has so many bits. -/
def writeAndXIn (width : Nat) (r : Req) (w : World H) : Reply × World H :=
  match writeOf ops cfg width r w with
  | none => (.fail STATUS_ACCESS_DENIED, w)
  | some result => writeReply w result

variable {ops cfg} {r : Req} {w : World H}

/-! ## Slices -/

/-- A number that needs no more than the bits of the `int` is itself, or wraps once. -/
theorem int_cases {width : Nat} {n : Int} (h : 0 ≤ n) (hlt : n < (2 ^ width : Nat)) :
    (2 * n < (2 ^ width : Nat) ∧ int width n = n) ∨
      ((2 ^ width : Nat) ≤ 2 * n ∧ int width n = n - (2 ^ width : Nat)) := by
  unfold int
  have hmod : n % ((2 ^ width : Nat) : Int) = n := Int.emod_eq_of_lt h hlt
  rw [Int.bmod_def, hmod]
  generalize 2 ^ width = m at hlt
  split
  · exact Or.inl ⟨by omega, rfl⟩
  · exact Or.inr ⟨by omega, rfl⟩

theorem int_of_lt {width n : Nat} (h : 2 * n < 2 ^ width) : int width n = n := by
  rcases @int_cases width n (Int.natCast_nonneg n) (by omega) with ⟨-, heq⟩ | ⟨hge, -⟩
  · exact heq
  · omega

/-- A slice is cut to the message, however its end comes out. -/
theorem sliceIn_eq {width : Nat} (hwidth : 32 ≤ width) {msg : Bytes}
    (hlength : msg.length ≤ MaxMessage) {off : Nat} (hoff : off < 0x10000) {n : Int}
    (hn : 2 * n < (2 ^ width : Nat)) : sliceIn width msg off n = msg.sub off n.toNat := by
  have hpow : 2 ^ 32 ≤ 2 ^ width := Nat.pow_le_pow_right (by decide) hwidth
  have hmessage : MaxMessage = 0x20000 := rfl
  unfold sliceIn
  split
  · rename_i hempty
    rcases hempty with hneg | hpast | hzero
    · omega
    · have hdrop : msg.drop off = [] := List.drop_eq_nil_of_le (by omega)
      rw [Bytes.sub, hdrop, List.take_nil]
    · have htoNat : n.toNat = 0 := by omega
      rw [htoNat, Bytes.sub_zero]
  · rename_i hsome
    have hrange : 0 ≤ off + n ∧ off + n < (2 ^ width : Nat) := by omega
    have hwhole : msg.sub off n.toNat = msg.sub off (msg.length - off) ∨
        off + n ≤ (msg.length : Int) := by
      by_cases hfits : off + n ≤ (msg.length : Int)
      · exact Or.inr hfits
      · apply Or.inl
        have hrest : (msg.drop off).length = msg.length - off := List.length_drop
        rw [Bytes.sub, Bytes.sub, List.take_of_length_le (by omega),
          List.take_of_length_le (by omega)]
    have hstart : (off : Int).toNat = off := rfl
    dsimp only
    rcases int_cases hrange.1 hrange.2 with ⟨-, hend⟩ | ⟨hwrap, hend⟩
    · rw [hend, hstart]
      split
      · rename_i hcut
        have hcount : ((msg.length : Int) - off).toNat = msg.length - off := by omega
        rw [hcount]
        rcases hwhole with hwhole | hfits
        · exact hwhole.symm
        · omega
      · have hcount : ((off : Int) + n - off).toNat = n.toNat := by omega
        rw [hcount]
    · rw [hend, hstart, if_pos (by omega)]
      have hcount : ((msg.length : Int) - off).toNat = msg.length - off := by omega
      rw [hcount]
      rcases hwhole with hwhole | hfits
      · exact hwhole.symm
      · omega

theorem u16_lt (b : Bytes) (off : Nat) : u16 b off < 0x10000 := by
  unfold u16
  split
  · exact Bytes.field_lt b off 2
  · decide

theorem declared_lt (r : Req) : declared r < 2 ^ 32 := by
  have hlow := u16_lt r.params 20
  have hhigh := u16_lt r.params 18
  unfold declared
  omega

/-- Where an `int` has 64 bits the declared bytes are taken, as far as the message has them. -/
theorem payloadIn_64 (hlength : r.msg.length ≤ MaxMessage) :
    payloadIn 64 r = r.msg.sub (u16 r.params 22) (declared r) := by
  have hdeclared := declared_lt r
  have hint : int 64 (declared r) = declared r := int_of_lt (by omega)
  unfold payloadIn
  rw [hint, sliceIn_eq (by decide) hlength (u16_lt _ _) (by omega), Int.toNat_natCast]

/-- Where it has 32, nothing is written when the highest bit of the count is set. -/
theorem payloadIn_32 (hlength : r.msg.length ≤ MaxMessage) :
    payloadIn 32 r =
      r.msg.sub (u16 r.params 22) (if declared r < 0x80000000 then declared r else 0) := by
  have hdeclared := declared_lt r
  have hpow : ((2 ^ 32 : Nat) : Int) = 0x100000000 := rfl
  have hrange : (declared r : Int) < (2 ^ 32 : Nat) := by
    rw [hpow]
    omega
  unfold payloadIn
  rcases @int_cases 32 (declared r) (Int.natCast_nonneg _) hrange with ⟨hlow, hint⟩ | ⟨hhigh, hint⟩
  · rw [hint, sliceIn_eq (by decide) hlength (u16_lt _ _) hlow, Int.toNat_natCast]
    rw [hpow] at hlow
    rw [if_pos (by omega)]
  · rw [hpow] at hhigh
    have hneg : (declared r - 0x100000000 : Int).toNat = 0 := by omega
    rw [hint, hpow, sliceIn_eq (by decide) hlength (u16_lt _ _) (by rw [hpow]; omega), hneg,
      if_neg (by omega)]

theorem writeAndXIn_64 (hlength : r.msg.length ≤ MaxMessage) :
    writeAndXIn ops cfg 64 r w = writeAndX ops cfg r w := by
  have hpayload : slice r (u16 r.params 22) (u16 r.params 20 + u16 r.params 18 * 0x10000) =
      payloadIn 64 r := (payloadIn_64 hlength).symm
  unfold writeAndXIn writeOf writeAndX
  cases cfg.readOnly with
  | true => rfl
  | false =>
      cases hfile : w.conn.files.entries.lookup (UInt16.ofNat (u16 r.params 4)) with
      | none => simp [hfile]
      | some file =>
          cases hopen : ops.openWrite w.host file.path with
          | false => simp [hfile, hopen]
          | true =>
              simp only [hfile, hopen, hpayload, Bool.false_eq_true, if_false, if_true,
                Option.bind_some]
              rfl

/-! ## What a reply reports -/

/-- The count a reply reports, put together of its two halves. -/
def reported (reply : Reply) : Nat := reply.params.field 4 2 + reply.params.field 8 2 * 0x10000

/-- What the library promises of `fh.WriteAt`: without an error everything has been written. -/
def WritesAll (ops : Ops H) : Prop :=
  ∀ host path offset payload n,
    (ops.writeAt host path offset payload).2 = some n → n = payload.length

/-- The reply is an error; or it reports the number of bytes written, and it is the count that was
declared. -/
def CountsRight (ops : Ops H) (cfg : Config) (width : Nat) (r : Req) (w : World H) : Prop :=
  (writeAndXIn ops cfg width r w).1.status ≠ STATUS_SUCCESS ∨
    ∃ host n, writeOf ops cfg width r w = some (host, some n) ∧
      reported (writeAndXIn ops cfg width r w).1 = n ∧ n = declared r

/-- The request comes to no write: the server is read-only, nothing is open under the FID, the file
cannot be opened for writing, or the write fails. -/
def Refused (ops : Ops H) (cfg : Config) (width : Nat) (r : Req) (w : World H) : Prop :=
  cfg.readOnly = true ∨
    ∀ file, w.conn.files.entries.lookup (UInt16.ofNat (u16 r.params 4)) = some file →
      ops.openWrite w.host file.path = false ∨
        (ops.writeAt w.host file.path
          (offset64 (u32 r.params 6) (if 28 ≤ r.params.length then u32 r.params 24 else 0))
          (payloadIn width r)).2 = none

/-- The declared count needs no high half, and the bytes are all in the message. -/
def Whole (r : Req) : Prop :=
  declared r < 0x10000 ∧ (declared r = 0 ∨ u16 r.params 22 + declared r ≤ r.msg.length)

theorem writeOf_cases (width : Nat) :
    (Refused ops cfg width r w ∧ ∀ host n, writeOf ops cfg width r w ≠ some (host, some n)) ∨
      ¬ Refused ops cfg width r w ∧ ∃ host n, ∃ file : OpenFile,
        writeOf ops cfg width r w = some (host, some n) ∧ ops.writeAt w.host file.path
          (offset64 (u32 r.params 6) (if 28 ≤ r.params.length then u32 r.params 24 else 0))
          (payloadIn width r) = (host, some n) := by
  unfold writeOf Refused
  cases hreadOnly : cfg.readOnly with
  | true => exact Or.inl ⟨Or.inl rfl, by intro host n h; cases h⟩
  | false =>
      cases hfile : w.conn.files.entries.lookup (UInt16.ofNat (u16 r.params 4)) with
      | none =>
          refine Or.inl ⟨Or.inr ?_, by intro host n h; cases h⟩
          intro file h
          cases h
      | some file =>
          cases hopen : ops.openWrite w.host file.path with
          | false =>
              refine Or.inl ⟨Or.inr ?_, ?_⟩
              · intro file' h
                cases h
                exact Or.inl hopen
              · intro host n h
                simp [hopen] at h
          | true =>
              cases hwrite : ops.writeAt w.host file.path
                  (offset64 (u32 r.params 6) (if 28 ≤ r.params.length then u32 r.params 24 else 0))
                  (payloadIn width r) with
              | mk host written =>
                  cases written with
                  | none =>
                      refine Or.inl ⟨Or.inr ?_, ?_⟩
                      · intro file' h
                        cases h
                        exact Or.inr (congrArg Prod.snd hwrite)
                      · intro host n h
                        simp [hopen, hwrite] at h
                  | some n =>
                      refine Or.inr ⟨?_, host, n, file, ?_, hwrite⟩
                      · rintro (h | h)
                        · cases h
                        · rcases h file rfl with h | h
                          · rw [hopen] at h
                            cases h
                          · rw [hwrite] at h
                            cases h
                      · simp [hopen, hwrite]

theorem length_payloadIn {width : Nat} (hwidth : width = 32 ∨ width = 64)
    (hlength : r.msg.length ≤ MaxMessage) (hsmall : declared r < 0x80000000) :
    (payloadIn width r).length = min (declared r) (r.msg.length - u16 r.params 22) := by
  have hsub : payloadIn width r = r.msg.sub (u16 r.params 22) (declared r) := by
    rcases hwidth with rfl | rfl
    · rw [payloadIn_32 hlength, if_pos hsmall]
    · exact payloadIn_64 hlength
  rw [hsub, Bytes.sub, List.length_take, List.length_drop]

theorem reported_done (n : Nat) :
    reported (.done ([ComNone, 0] ++ le16 0 ++ le16 (n % 0x10000) ++ le16 0 ++ le16 0 ++ le16 0) []) =
      n % 0x10000 := by
  have hlow := field_even ([ComNone, 0] ++ le16 0) (le16 0 ++ (le16 0 ++ le16 0)) (n % 0x10000)
  rw [Nat.mod_mod] at hlow
  have hhigh := field_even ([ComNone, 0] ++ le16 0 ++ le16 (n % 0x10000) ++ le16 0) (le16 0) 0
  unfold reported Reply.done
  simp only [List.append_assoc] at hlow hhigh ⊢
  calc
    _ = n % 0x10000 + 0 * 0x10000 := congrArg₂ (fun low high => low + high * 0x10000) hlow hhigh
    _ = n % 0x10000 := by rw [Nat.zero_mul, Nat.add_zero]

/-- A success reply reports the bytes written and they are those declared, on either platform, exactly
if the request declares less than 65536 bytes and brings them all. -/
theorem write_counts_iff (hops : WritesAll ops) (width : Nat) (hwidth : width = 32 ∨ width = 64)
    (r : Req) (hlength : r.msg.length ≤ MaxMessage) (w : World H) :
    CountsRight ops cfg width r w ↔ Refused ops cfg width r w ∨ Whole r := by
  rcases @writeOf_cases H ops cfg r w width with ⟨hrefused, hnone⟩ | ⟨hserved, host, n, file, hwrite, hat⟩
  · refine iff_of_true (Or.inl ?_) (Or.inl hrefused)
    have hstatus : STATUS_ACCESS_DENIED ≠ STATUS_SUCCESS := by decide
    unfold writeAndXIn
    split
    · exact hstatus
    · rename_i result hwrite
      obtain ⟨host, written⟩ := result
      cases written with
      | none => exact hstatus
      | some n => exact absurd hwrite (hnone host n)
  · have hn : n = (payloadIn width r).length := hops _ _ _ _ _ (congrArg Prod.snd hat)
    have hreply : (writeAndXIn ops cfg width r w).1 =
        .done ([ComNone, 0] ++ le16 0 ++ le16 (n % 0x10000) ++ le16 0 ++ le16 0 ++ le16 0) [] := by
      unfold writeAndXIn
      rw [hwrite]
      rfl
    have hright : CountsRight ops cfg width r w ↔ n % 0x10000 = n ∧ n = declared r := by
      unfold CountsRight
      rw [hreply, reported_done, hwrite]
      constructor
      · rintro (hstatus | ⟨host', n', heq, hcount, hall⟩)
        · exact absurd rfl hstatus
        · cases heq
          exact ⟨hcount, hall⟩
      · rintro ⟨hcount, hall⟩
        exact Or.inr ⟨host, n, rfl, hcount, hall⟩
    rw [hright]
    constructor
    · rintro ⟨hcount, hall⟩
      right
      have hsmall : declared r < 0x10000 := by omega
      rw [length_payloadIn hwidth hlength (by omega)] at hn
      exact ⟨hsmall, by omega⟩
    · rintro (hrefused | ⟨hsmall, hbytes⟩)
      · exact absurd hrefused hserved
      · rw [length_payloadIn hwidth hlength (by omega)] at hn
        omega

/-! ## A write with a high half -/

/-- A host whose files take every write. -/
def takesWrites : Ops Unit := { oneFile with writeAt host _ _ payload := (host, some payload.length) }

def writableShare : Config := { oneShare with readOnly := false }

/-- A file is open under 0x1001. -/
def fileOpened : World Unit :=
  { World.new () with
    conn := { Conn.new with files := Aged.empty.put 0x1001 ⟨"/srv/game.iso", some 0, false, 4, 1⟩ }
    opened := 1
    opens := 1 }

/-- A WRITE_ANDX of the bytes behind its words, which declares a count of these halves. -/
def writeRequest (low high : Nat) (payload : Bytes) : Req :=
  Req.ofMessage (clientMessage 0x2f 2 (List.replicate 4 0 ++ le16 0x1001 ++ List.replicate 12 0 ++
    le16 high ++ le16 low ++ le16 63 ++ List.replicate 4 0) payload)

theorem writesAll_takesWrites : WritesAll takesWrites := by
  intro host path offset payload n h
  exact (Option.some.inj h).symm

theorem write_counts_whole :
    CountsRight takesWrites writableShare 32 (writeRequest 4 0 [1, 2, 3, 4]) fileOpened ↔
      Refused takesWrites writableShare 32 (writeRequest 4 0 [1, 2, 3, 4]) fileOpened ∨
        Whole (writeRequest 4 0 [1, 2, 3, 4]) :=
  write_counts_iff writesAll_takesWrites 32 (Or.inl rfl) _ (Nat.le_of_ble_eq_true rfl) fileOpened

/-- A request for 2147483652 bytes that brings four: where an `int` has 32 bits nothing is written,
where it has 64 the four bytes are, and both replies are a success. -/
theorem write_counts_short :
    let r := writeRequest 4 0x8000 [1, 2, 3, 4]
    let reply (width : Nat) : Reply := (writeAndXIn takesWrites writableShare width r fileOpened).1
    declared r = 2147483652 ∧ (reply 32).status = STATUS_SUCCESS ∧ reported (reply 32) = 0 ∧
      (reply 64).status = STATUS_SUCCESS ∧ reported (reply 64) = 4 ∧
      ¬ CountsRight takesWrites writableShare 32 r fileOpened ∧
      ¬ CountsRight takesWrites writableShare 64 r fileOpened := by
  have hrefused : ∀ width, width = 32 ∨ width = 64 →
      ¬ CountsRight takesWrites writableShare width (writeRequest 4 0x8000 [1, 2, 3, 4]) fileOpened := by
    intro width hwidth h
    rcases (write_counts_iff writesAll_takesWrites width hwidth _ (by decide +kernel) fileOpened).mp h
      with hrefused | hwhole
    · rcases hrefused with hreadOnly | hfile
      · cases hreadOnly
      · have hopen := hfile ⟨"/srv/game.iso", some 0, false, 4, 1⟩ (by decide +kernel)
        rcases hopen with hopen | hopen
        · cases hopen
        · cases hopen
    · exact absurd hwhole.1 (by decide +kernel)
  exact ⟨by decide +kernel, by decide +kernel, by decide +kernel, by decide +kernel, by decide +kernel,
    hrefused 32 (Or.inl rfl), hrefused 64 (Or.inr rfl)⟩

end Ps2Servers.Smb1.Edge
