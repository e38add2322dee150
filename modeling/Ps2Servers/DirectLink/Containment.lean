import Ps2Servers.DirectLink.Dhcp
import Mathlib.Tactic.Set

/-!
# Containment of the direct-link responder

Whatever it hears, the responder offers and acknowledges its one address, to one client, and
raises nothing but its refusal. Its replies stay inside the subnet in wildcard mode unless a
client that gives an address of its own sends from outside.
-/

namespace Ps2Servers.DirectLink

open Struct (Item)

/-! ## The subnet -/

theorem testBit_ones (i : Nat) : Nat.testBit 0xFFFFFFFF i = decide (i < 32) :=
  Nat.testBit_two_pow_sub_one 32 i

theorem testBit_maskOf (prefixlen i : Nat) :
    (maskOf prefixlen).testBit i = (decide (32 - prefixlen ≤ i) && decide (i < 32)) := by
  unfold maskOf
  by_cases hzero : prefixlen = 0
  · rw [if_neg (not_not_intro hzero), hzero, Nat.zero_testBit]
    symm
    simp
  · rw [if_pos hzero, Nat.testBit_and, Nat.testBit_shiftLeft, testBit_ones, testBit_ones]
    by_cases hi : i < 32
    · have hj : i - (32 - prefixlen) < 32 := by omega
      simp [hi, hj]
    · simp [hi]

/-- The subnet-directed broadcast address is in the subnet. -/
theorem networkOf_broadcastOf (ip : Nat) {prefixlen : Nat} (h : prefixlen ≤ 32) :
    networkOf (broadcastOf ip prefixlen) prefixlen = networkOf ip prefixlen := by
  apply Nat.eq_of_testBit_eq
  intro i
  unfold networkOf broadcastOf networkOf
  rw [Nat.testBit_and, Nat.testBit_and, Nat.testBit_or, Nat.testBit_and, Nat.testBit_shiftRight,
    testBit_ones, testBit_ones, testBit_maskOf]
  by_cases hi : 32 - prefixlen ≤ i ∧ i < 32
  · have hlow : ¬prefixlen + i < 32 := by omega
    simp [hi.1, hi.2, hlow]
  · rw [← Bool.decide_and, decide_eq_false hi, Bool.and_false, Bool.and_false]

/-! ## Reading options -/

theorem readOptions_end (fuel : Nat) (rest : Bytes) (options : Options) :
    readOptions (fuel + 1) (255 :: rest) options = options := by
  unfold readOptions
  exact (if_neg (by decide)).trans (if_pos rfl)

theorem readOptions_length (fuel : Nat) {tag : UInt8} (hpad : tag ≠ 0) (hend : tag ≠ 255)
    (length : UInt8) (rest : Bytes) (options : Options) :
    readOptions (fuel + 1) (tag :: length :: rest) options =
      readOptions fuel (rest.drop length.toNat)
        (Function.update options tag (some (rest.take length.toNat))) := by
  conv => lhs; unfold readOptions
  exact (if_neg hpad).trans (if_neg hend)

/-- An option that is there in full. -/
theorem readOptions_option (fuel : Nat) {tag : UInt8} (hpad : tag ≠ 0) (hend : tag ≠ 255)
    {length : UInt8} {value : Bytes} (hvalue : value.length = length.toNat) (rest : Bytes)
    (options : Options) :
    readOptions (fuel + 1) (tag :: length :: (value ++ rest)) options =
      readOptions fuel rest (Function.update options tag (some value)) := by
  rw [readOptions_length fuel hpad hend, ← hvalue, List.drop_left, List.take_left]

/-! ## Building replies -/

/-- What the fields of a packet were read from fits the fields of a reply. -/
structure Packet.Fits (pkt : Packet) : Prop where
  xid : pkt.xid < 0x100000000
  flags : pkt.flags < 0x10000
  ciaddr : pkt.ciaddr < 0x100000000
  giaddr : pkt.giaddr < 0x100000000
  chaddr : pkt.chaddr.length = 16
  mac : pkt.mac = macOf pkt.hlen.toNat pkt.chaddr

theorem fits_of_parsePacket {data : Bytes} {pkt : Packet} (h : parsePacket data = some pkt) :
    pkt.Fits := by
  unfold parsePacket at h
  split at h
  · cases h
  · rename_i hlength
    split at h
    · cases h
    · cases h
      have hchaddr : (data.sub 28 16).length = 16 := by
        rw [Bytes.sub, List.length_take, List.length_drop]
        omega
      exact ⟨data.fieldBE_lt 4 4, data.fieldBE_lt 10 2, data.fieldBE_lt 12 4,
        data.fieldBE_lt 24 4, hchaddr, rfl⟩

/-- The client a reply names. -/
def replyMac (reply : Bytes) : Bytes := macOf (reply.fieldBE 2 1) (reply.sub 28 16)

/-- What a reply of the responder says. -/
structure Leases (c : Config) (pkt : Packet) (msgType : UInt8) (reply : Bytes) : Prop where
  messageType : optionsOf reply 53 = some [msgType]
  address : reply.fieldBE 16 4 = c.clientIp
  client : replyMac reply = pkt.mac

theorem replyOptions_fits {msgType : UInt8} {server mask : Nat} (hserver : server < 0x100000000)
    (hmask : mask < 0x100000000) :
    (replyOptions msgType server LEASE_SECONDS mask).all Item.fits = true := by
  have htype := msgType.toNat_lt
  unfold replyOptions
  split <;> simp [Item.fits, LEASE_SECONDS, hserver, hmask, htype]

theorem replyHeader_fits {pkt : Packet} (hpkt : pkt.Fits) {ciaddr yiaddr server : Nat}
    (hciaddr : ciaddr < 0x100000000) (hyiaddr : yiaddr < 0x100000000)
    (hserver : server < 0x100000000) :
    (replyHeader pkt ciaddr yiaddr server).all Item.fits = true := by
  have htype := pkt.htype.toNat_lt
  have hlen := pkt.hlen.toNat_lt
  simp [replyHeader, Item.fits, hpkt.xid, hpkt.flags, hpkt.giaddr, hciaddr, hyiaddr, hserver,
    htype, hlen]

/-- The options of a reply that is no refusal, behind its header. -/
theorem optionsOf_reply {front : Bytes} (hfront : front.length = 240) {msgType : UInt8}
    (htype : msgType ≠ MSG_NAK) (server mask : Nat) (rest : Bytes) :
    optionsOf (front ++ ((replyOptions msgType server LEASE_SECONDS mask).flatMap Item.bytesBE ++
      rest)) 53 = some [msgType] := by
  have hlength : (Bytes.ofNatBE 4 server).length = (4 : UInt8).toNat := Bytes.length_ofNatBE 4 _
  have hlease : (Bytes.ofNatBE 4 LEASE_SECONDS).length = (4 : UInt8).toNat :=
    Bytes.length_ofNatBE 4 _
  have hmask : (Bytes.ofNatBE 4 mask).length = (4 : UInt8).toNat := Bytes.length_ofNatBE 4 _
  have hbyte : (Item.B msgType.toNat).bytesBE = [msgType] := by
    change [UInt8.ofNat (msgType.toNat % 256)] = [msgType]
    rw [Nat.mod_eq_of_lt msgType.toNat_lt, UInt8.ofNat_toNat]
  have hoptions : (replyOptions msgType server LEASE_SECONDS mask).flatMap Item.bytesBE ++ rest =
      53 :: 1 :: ([msgType] ++ (54 :: 4 :: (Bytes.ofNatBE 4 server ++
        (51 :: 4 :: (Bytes.ofNatBE 4 LEASE_SECONDS ++ (1 :: 4 :: (Bytes.ofNatBE 4 mask ++
          (3 :: 4 :: (Bytes.ofNatBE 4 server ++ (255 :: rest)))))))))) := by
    unfold replyOptions
    rw [if_pos htype]
    simp only [List.flatMap_append, List.flatMap_cons, List.flatMap_nil, List.append_nil,
      List.append_assoc, hbyte]
    rfl
  unfold optionsOf
  rw [← hfront, List.drop_left, hoptions]
  obtain ⟨fuel, hfuel⟩ : ∃ fuel, (front ++ (53 :: 1 :: ([msgType] ++ (54 :: 4 ::
      (Bytes.ofNatBE 4 server ++ (51 :: 4 :: (Bytes.ofNatBE 4 LEASE_SECONDS ++ (1 :: 4 ::
        (Bytes.ofNatBE 4 mask ++ (3 :: 4 :: (Bytes.ofNatBE 4 server ++
          (255 :: rest))))))))))) : Bytes).length = fuel + 6 := by
    apply Nat.exists_eq_add_of_le'
    rw [List.length_append]
    omega
  rw [hfuel, readOptions_option _ (by decide) (by decide) rfl,
    readOptions_option _ (by decide) (by decide) hlength,
    readOptions_option _ (by decide) (by decide) hlease,
    readOptions_option _ (by decide) (by decide) hmask,
    readOptions_option _ (by decide) (by decide) hlength, readOptions_end]
  rfl

theorem length_replyHeader (pkt : Packet) (ciaddr yiaddr server : Nat) :
    ((replyHeader pkt ciaddr yiaddr server).flatMap Item.bytesBE).length = 240 := by
  rw [Struct.length_flatMapBE]
  simp [Struct.calcsize, replyHeader, Item.size]

theorem address_of_header (pkt : Packet) (ciaddr server : Nat) {yiaddr : Nat}
    (hyiaddr : yiaddr < 0x100000000) (rest : Bytes) :
    Bytes.fieldBE ((replyHeader pkt ciaddr yiaddr server).flatMap Item.bytesBE ++ rest) 16 4 =
      yiaddr := by
  have h := @Struct.fieldBE_flatMapBE [.B 2, .B pkt.htype.toNat, .B pkt.hlen.toNat, .B 0,
    .I pkt.xid, .H 0, .H pkt.flags, .I ciaddr] (.I yiaddr) rfl [.I server,
      .I pkt.giaddr, .s 16 pkt.chaddr, .s 64 [], .s 128 [], .s 4 MAGIC_COOKIE] rest
  exact h.trans ((Bytes.le_ofNat 4 yiaddr).trans (Nat.mod_eq_of_lt hyiaddr))

theorem client_of_header {pkt : Packet} (hpkt : pkt.Fits) (ciaddr yiaddr server : Nat)
    (rest : Bytes) :
    replyMac ((replyHeader pkt ciaddr yiaddr server).flatMap Item.bytesBE ++ rest) = pkt.mac := by
  have hhlen := @Struct.fieldBE_flatMapBE [.B 2, .B pkt.htype.toNat] (.B pkt.hlen.toNat)
    rfl [.B 0, .I pkt.xid, .H 0, .H pkt.flags, .I ciaddr, .I yiaddr, .I server,
      .I pkt.giaddr, .s 16 pkt.chaddr, .s 64 [], .s 128 [], .s 4 MAGIC_COOKIE] rest
  have hchaddr := Struct.sub_flatMapBE [.B 2, .B pkt.htype.toNat, .B pkt.hlen.toNat, .B 0,
    .I pkt.xid, .H 0, .H pkt.flags, .I ciaddr, .I yiaddr, .I server, .I pkt.giaddr]
    (.s 16 pkt.chaddr) [.s 64 [], .s 128 [], .s 4 MAGIC_COOKIE] rest
  have hbyte : Bytes.le (Item.B pkt.hlen.toNat).bytes = pkt.hlen.toNat :=
    (Bytes.le_ofNat 1 _).trans (Nat.mod_eq_of_lt pkt.hlen.toNat_lt)
  have hall : (Item.s 16 pkt.chaddr).bytesBE = pkt.chaddr := by
    change pkt.chaddr.takeD 16 0 = pkt.chaddr
    rw [List.takeD_eq_take 0 (Nat.le_of_eq hpkt.chaddr.symm), ← hpkt.chaddr, List.take_length]
  rw [hpkt.mac]
  exact congrArg₂ macOf (hhlen.trans hbyte) (hchaddr.trans hall)

/-- An offer or an acknowledgement is built, and leases the address to the client. -/
theorem exists_buildReply (c : Config) {pkt : Packet} (hpkt : pkt.Fits) {msgType : UInt8}
    (htype : msgType = MSG_OFFER ∨ msgType = MSG_ACK) :
    ∃ reply, buildReply pkt msgType c.serverIp c.clientIp c.prefixlen = some reply ∧
      Leases c pkt msgType reply := by
  have hnak : msgType ≠ MSG_NAK := by
    rcases htype with rfl | rfl <;> decide
  obtain ⟨ciaddr, hciaddr, hfits⟩ : ∃ ciaddr, (if msgType = MSG_ACK then pkt.ciaddr else 0) =
      ciaddr ∧ ciaddr < 0x100000000 := by
    refine ⟨_, rfl, ?_⟩
    split
    · exact hpkt.ciaddr
    · decide
  obtain ⟨mask, hmask, hmaskfits⟩ : ∃ mask, (0xFFFFFFFF <<< (32 - c.prefixlen)) &&& 0xFFFFFFFF =
      mask ∧ mask < 0x100000000 :=
    ⟨_, rfl, Nat.lt_of_le_of_lt Nat.and_le_right (by decide)⟩
  have hpack : Struct.packBE (replyHeader pkt ciaddr c.clientIp c.serverIp ++
      replyOptions msgType c.serverIp LEASE_SECONDS mask) =
      some ((replyHeader pkt ciaddr c.clientIp c.serverIp).flatMap Item.bytesBE ++
        (replyOptions msgType c.serverIp LEASE_SECONDS mask).flatMap Item.bytesBE) := by
    rw [Struct.packBE, List.all_append, replyHeader_fits hpkt hfits c.clientIp_lt c.serverIp_lt,
      replyOptions_fits c.serverIp_lt hmaskfits, List.flatMap_append]
    rfl
  obtain ⟨padding, hbuild⟩ : ∃ padding, buildReply pkt msgType c.serverIp c.clientIp c.prefixlen =
      some ((replyHeader pkt ciaddr c.clientIp c.serverIp).flatMap Item.bytesBE ++
        ((replyOptions msgType c.serverIp LEASE_SECONDS mask).flatMap Item.bytesBE ++
          padding)) := by
    unfold buildReply
    rw [if_pos htype, if_neg (Nat.not_lt.mpr c.prefixlen_le), hciaddr, hmask]
    dsimp only
    rw [hpack, Option.bind_eq_bind, Option.bind_some]
    exact ⟨_, congrArg some (List.append_assoc _ _ _)⟩
  refine ⟨_, hbuild, ?_, ?_, ?_⟩
  · exact optionsOf_reply (length_replyHeader pkt ciaddr c.clientIp c.serverIp) hnak c.serverIp
      mask padding
  · exact address_of_header pkt ciaddr c.serverIp c.clientIp_lt _
  · exact client_of_header hpkt ciaddr c.clientIp c.serverIp _

/-! ## Destinations -/

/-- The address is in the subnet of the direct link. -/
def Config.Inside (c : Config) (ip : Nat) : Prop :=
  networkOf ip c.prefixlen = networkOf c.serverIp c.prefixlen

/-- A reply of wildcard mode leaves the subnet for a client with an address of its own that sends
from outside, and for no other. -/
theorem inside_replyDest_iff (c : Config) (pkt : Packet) (src : Option Host) :
    c.Inside (replyDest c .wildcard pkt src).ip ↔
      (pkt.ciaddr ≠ 0 → ∀ ip, src = some (.ip ip) → ip ≠ 0 → c.Inside ip) := by
  have hbroadcast : c.Inside (broadcastOf c.serverIp c.prefixlen) :=
    networkOf_broadcastOf c.serverIp c.prefixlen_le
  unfold replyDest
  by_cases hciaddr : pkt.ciaddr = 0
  · rw [if_pos hciaddr]
    exact iff_of_true hbroadcast fun h => absurd hciaddr h
  · rw [if_neg hciaddr, forall_prop_of_true hciaddr]
    match src with
    | none => exact iff_of_true hbroadcast fun ip h => by cases h
    | some .empty => exact iff_of_true hbroadcast fun ip h => by cases h
    | some (.ip address) =>
        dsimp only
        by_cases hzero : address = 0
        · rw [if_pos hzero]
          refine iff_of_true hbroadcast fun ip h hip => ?_
          cases h
          exact absurd hzero hip
        · rw [if_neg hzero]
          constructor
          · intro h ip hip _
            cases hip
            exact h
          · intro h
            exact h address rfl hzero

/-! ## What a datagram does -/

/-- The type of the answer a packet asks for. -/
def Packet.wants (c : Config) (pkt : Packet) : Option UInt8 :=
  if pkt.messageType = some MSG_DISCOVER then some MSG_OFFER
  else if pkt.messageType = some MSG_REQUEST ∧ pkt.namesOther c = false ∧
      pkt.requested = some (Bytes.ofNatBE 4 c.clientIp) then some MSG_ACK
  else none

/-- The datagram is answered, with a message of the type. -/
structure Answerable (c : Config) (s : State) (d : Datagram) (pkt : Packet) (msgType : UInt8) :
    Prop where
  parsed : parsePacket d.data = some pkt
  foreign : pkt.mac ≠ c.probeMac
  admitted : (trackMac s pkt.mac).2 = none
  token : d.token = true
  wants : pkt.wants c = some msgType

/-- Everything a datagram can do. -/
inductive Handled (c : Config) (mode : Mode) (s : State) (d : Datagram) : State × Result → Prop
  | silent : Handled c mode s d (s, .nothing)
  | tracked {t : State} {pkt : Packet} (foreign : pkt.mac ≠ c.probeMac)
      (admitted : (trackMac s pkt.mac).2 = none)
      (seen : t.macsSeen = (trackMac s pkt.mac).1.macsSeen) : Handled c mode s d (t, .nothing)
  | refused {pkt : Packet} {devices : Nat} (parsed : parsePacket d.data = some pkt)
      (foreign : pkt.mac ≠ c.probeMac) (tracked : (trackMac s pkt.mac).2 = some devices) :
      Handled c mode s d ((trackMac s pkt.mac).1, .refused devices)
  | answered {t : State} {pkt : Packet} {msgType : UInt8}
      (answerable : Answerable c s d pkt msgType)
      (seen : t.macsSeen = (trackMac s pkt.mac).1.macsSeen) :
      Handled c mode s d (t, answer c mode pkt msgType d.src)

theorem handled_handlePacket (c : Config) (mode : Mode) (s : State) (d : Datagram) :
    Handled c mode s d (handlePacket c mode s d) := by
  unfold handlePacket
  cases hparse : parsePacket d.data with
  | none => exact .silent
  | some pkt =>
      dsimp only
      cases htype : pkt.messageType with
      | none => exact .silent
      | some mtype =>
          dsimp only
          by_cases hknown : mtype ∉ [MSG_DISCOVER, MSG_REQUEST, MSG_DECLINE, MSG_RELEASE,
              MSG_INFORM]
          · rw [if_pos hknown]
            exact .silent
          by_cases hprobe : pkt.mac = c.probeMac
          · rw [if_neg hknown, if_pos hprobe]
            exact .silent
          rw [if_neg hknown, if_neg hprobe]
          have htrack : ∀ devices, (trackMac s pkt.mac).2 = devices →
            trackMac s pkt.mac = ((trackMac s pkt.mac).1, devices) := fun _ h => h ▸ rfl
          cases hdevices : (trackMac s pkt.mac).2 with
          | some devices =>
              rw [htrack _ hdevices]
              exact .refused hparse hprobe hdevices
          | none =>
              rw [htrack _ hdevices]
              dsimp only
              by_cases hdecline : mtype = MSG_DECLINE
              · rw [if_pos hdecline]
                exact .tracked hprobe hdevices rfl
              by_cases hrelease : mtype = MSG_RELEASE
              · rw [if_neg hdecline, if_pos hrelease]
                refine .tracked hprobe hdevices ?_
                split <;> rfl
              by_cases hinform : mtype = MSG_INFORM
              · rw [if_neg hdecline, if_neg hrelease, if_pos hinform]
                exact .tracked hprobe hdevices rfl
              rw [if_neg hdecline, if_neg hrelease, if_neg hinform]
              by_cases htoken : (!d.token) = true
              · rw [if_pos htoken]
                exact .tracked hprobe hdevices rfl
              have htoken' : d.token = true := by
                cases hd : d.token with
                | true => rfl
                | false => exact absurd (by rw [hd]; rfl) htoken
              rw [if_neg htoken]
              by_cases hdiscover : mtype = MSG_DISCOVER
              · rw [if_pos hdiscover]
                refine .answered ⟨hparse, hprobe, hdevices, htoken', ?_⟩ rfl
                exact if_pos (htype.trans (congrArg some hdiscover))
              rw [if_neg hdiscover]
              cases hother : pkt.namesOther c with
              | true =>
                  rw [if_pos rfl]
                  exact .tracked hprobe hdevices rfl
              | false =>
                  rw [if_neg Bool.false_ne_true]
                  by_cases hrequested : pkt.requested = some (Bytes.ofNatBE 4 c.clientIp)
                  · rw [if_pos hrequested]
                    refine .answered ⟨hparse, hprobe, hdevices, htoken', ?_⟩ rfl
                    have hrequest : mtype = MSG_REQUEST := by
                      simpa [hdecline, hrelease, hinform, hdiscover] using hknown
                    unfold Packet.wants
                    rw [htype, hrequest, if_neg (by decide), if_pos ⟨rfl, hother, hrequested⟩]
                  · rw [if_neg hrequested]
                    exact .tracked hprobe hdevices rfl

/-- What is answerable is answered. -/
theorem handlePacket_of_answerable {c : Config} {s : State} {d : Datagram} {pkt : Packet}
    {msgType : UInt8} (h : Answerable c s d pkt msgType) (mode : Mode) :
    (handlePacket c mode s d).2 = answer c mode pkt msgType d.src := by
  have htrack : trackMac s pkt.mac = ((trackMac s pkt.mac).1, none) := h.admitted ▸ rfl
  have hwants := h.wants
  unfold Packet.wants at hwants
  unfold handlePacket
  rw [h.parsed]
  dsimp only
  split at hwants
  · rename_i htype
    cases hwants
    rw [htype]
    dsimp only
    rw [if_neg (by decide), if_neg h.foreign, htrack]
    dsimp only
    rw [if_neg (by decide), if_neg (by decide), if_neg (by decide), h.token, if_neg (by decide),
      if_pos rfl]
  · split at hwants
    · rename_i hrequest
      cases hwants
      rw [hrequest.1]
      dsimp only
      rw [if_neg (by decide), if_neg h.foreign, htrack]
      dsimp only
      rw [if_neg (by decide), if_neg (by decide), if_neg (by decide), h.token, if_neg (by decide),
        if_neg (by decide), hrequest.2.1, if_neg Bool.false_ne_true, if_pos hrequest.2.2]
    · cases hwants

/-! ## The tripwire -/

theorem mem_trackMac {s : State} {mac other : Bytes} (h : other ∈ (trackMac s mac).1.macsSeen) :
    other ∈ s.macsSeen ∨ other = mac := by
  unfold trackMac at h
  split at h
  · exact .inl h
  · rcases List.mem_append.mp h with h | h
    · exact .inl h
    · exact .inr (List.mem_singleton.mp h)

/-- A client that is let in is the only one. -/
theorem macsSeen_of_admitted {s : State} (hseen : s.macsSeen.length ≤ MAX_DISTINCT_MACS)
    {mac : Bytes} (h : (trackMac s mac).2 = none) : (trackMac s mac).1.macsSeen = [mac] := by
  unfold MAX_DISTINCT_MACS at hseen
  unfold trackMac at h ⊢
  split
  · rename_i hmem
    rw [if_pos hmem] at h
    match hmacs : s.macsSeen, hseen with
    | [], _ =>
        rw [hmacs] at hmem
        cases hmem
    | [one], _ =>
        rw [hmacs] at hmem
        rw [List.mem_singleton.mp hmem]
  · rename_i hmem
    rw [if_neg hmem] at h
    match hmacs : s.macsSeen, hseen with
    | [], _ => rfl
    | [one], _ =>
        rw [hmacs] at h
        cases h

/-! ## Containment -/

theorem wants_cases {c : Config} {pkt : Packet} {msgType : UInt8}
    (h : pkt.wants c = some msgType) :
    msgType = MSG_OFFER ∨ msgType = MSG_ACK ∧ pkt.messageType = some MSG_REQUEST ∧
      pkt.namesOther c = false ∧ pkt.requested = some (Bytes.ofNatBE 4 c.clientIp) := by
  unfold Packet.wants at h
  split at h
  · exact .inl (Option.some.inj h).symm
  · split at h
    · rename_i hrequest
      exact .inr ⟨(Option.some.inj h).symm, hrequest⟩
    · cases h

/-- An answer is a reply that leases the address. -/
theorem Answerable.reply {c : Config} {s : State} {d : Datagram} {pkt : Packet} {msgType : UInt8}
    (h : Answerable c s d pkt msgType) (mode : Mode) :
    ∃ reply, answer c mode pkt msgType d.src = .reply reply (replyDest c mode pkt d.src) ∧
      Leases c pkt msgType reply := by
  have htype : msgType = MSG_OFFER ∨ msgType = MSG_ACK :=
    (wants_cases h.wants).imp_right And.left
  obtain ⟨reply, hbuild, hleases⟩ := exists_buildReply c (fits_of_parsePacket h.parsed) htype
  refine ⟨reply, ?_, hleases⟩
  unfold answer
  rw [hbuild]

/-- What a datagram led to, apart from where the reply went. -/
inductive Exchange.Fine (c : Config) (x : Exchange) : Prop
  | nothing (h : x.result = .nothing)
  | refused {pkt : Packet} {devices : Nat} (parsed : parsePacket x.datagram.data = some pkt)
      (foreign : pkt.mac ≠ c.probeMac) (h : x.result = .refused devices)
  | reply {pkt : Packet} {msgType : UInt8} {reply : Bytes} {dest : Dest}
      (parsed : parsePacket x.datagram.data = some pkt) (foreign : pkt.mac ≠ c.probeMac)
      (wants : pkt.wants c = some msgType) (leases : Leases c pkt msgType reply)
      (h : x.result = .reply reply dest)

/-- What every run keeps. -/
structure Trace.Keeps (c : Config) (t : Trace) : Prop where
  probe : c.probeMac ∉ t.state.macsSeen
  one : t.stopped = false → t.state.macsSeen.length ≤ MAX_DISTINCT_MACS
  fine : ∀ x ∈ t.exchanges, x.Fine c
  seen : ∀ x ∈ t.exchanges, ∀ reply dest, x.result = .reply reply dest →
    replyMac reply ∈ t.state.macsSeen
  client : ∀ x ∈ t.exchanges, ∀ y ∈ t.exchanges, ∀ reply dest reply' dest',
    x.result = .reply reply dest → y.result = .reply reply' dest' → replyMac reply = replyMac reply'

theorem keeps_init (c : Config) : Trace.init.Keeps c := by
  refine ⟨List.not_mem_nil, fun _ => Nat.zero_le _, ?_, ?_, ?_⟩
  all_goals
    intro x hx
    cases hx

/-- One more exchange. Its reply goes to the only client there is. -/
theorem Trace.Keeps.push {c : Config} {t : Trace} (h : t.Keeps c) {s : State} {x : Exchange}
    (hsub : ∀ mac ∈ t.state.macsSeen, mac ∈ s.macsSeen) (hprobe : c.probeMac ∉ s.macsSeen)
    (hone : x.result.stops = false → s.macsSeen.length ≤ MAX_DISTINCT_MACS) (hfine : x.Fine c)
    (hreply : ∀ reply dest, x.result = .reply reply dest → s.macsSeen = [replyMac reply]) :
    Trace.Keeps c ⟨s, t.exchanges ++ [x], x.result.stops⟩ := by
  have hold : ∀ y ∈ t.exchanges, ∀ reply dest reply' dest', x.result = .reply reply dest →
      y.result = .reply reply' dest' → replyMac reply' = replyMac reply := by
    intro y hy reply dest reply' dest' hx hy'
    have hmem := hsub _ (h.seen y hy reply' dest' hy')
    rw [hreply reply dest hx] at hmem
    exact List.mem_singleton.mp hmem
  refine ⟨hprobe, hone, ?_, ?_, ?_⟩
  · intro y hy
    rcases List.mem_append.mp hy with hy | hy
    · exact h.fine y hy
    · exact List.mem_singleton.mp hy ▸ hfine
  · intro y hy reply dest hresult
    rcases List.mem_append.mp hy with hy | hy
    · exact hsub _ (h.seen y hy reply dest hresult)
    · rw [List.mem_singleton.mp hy] at hresult
      dsimp only
      rw [hreply reply dest hresult]
      exact List.mem_singleton_self _
  · intro y hy z hz reply dest reply' dest' hy' hz'
    rcases List.mem_append.mp hy with hy | hy <;> rcases List.mem_append.mp hz with hz | hz
    · exact h.client y hy z hz reply dest reply' dest' hy' hz'
    · rw [List.mem_singleton.mp hz] at hz'
      exact hold y hy reply' dest' reply dest hz' hy'
    · rw [List.mem_singleton.mp hy] at hy'
      exact (hold z hz reply dest reply' dest' hy' hz').symm
    · rw [List.mem_singleton.mp hy] at hy'
      rw [List.mem_singleton.mp hz, hy'] at hz'
      cases hz'
      rfl

theorem mem_trackMac_of_mem (s : State) {mac other : Bytes} (h : other ∈ s.macsSeen) :
    other ∈ (trackMac s mac).1.macsSeen := by
  unfold trackMac
  split
  · exact h
  · exact List.mem_append_left _ h

theorem keeps_next {c : Config} {t : Trace} (h : t.Keeps c) (mode : Mode) (d : Datagram) :
    (t.next c mode d).Keeps c := by
  have hforeign : ∀ {pkt : Packet}, pkt.mac ≠ c.probeMac →
      c.probeMac ∉ (trackMac t.state pkt.mac).1.macsSeen := by
    intro pkt hne hmem
    rcases mem_trackMac hmem with hmem | hmem
    · exact h.probe hmem
    · exact hne hmem.symm
  unfold Trace.next
  cases hstopped : t.stopped with
  | true =>
      rw [if_pos rfl]
      exact h
  | false =>
      rw [if_neg Bool.false_ne_true]
      have hone := h.one hstopped
      have hhandled := handled_handlePacket c mode t.state d
      generalize handlePacket c mode t.state d = outcome at hhandled ⊢
      cases hhandled with
      | silent =>
          exact h.push (x := ⟨d, .nothing⟩) (fun _ hmac => hmac) h.probe (fun _ => hone)
            (.nothing rfl) fun _ _ hresult => by cases hresult
      | tracked foreign admitted seen =>
          refine h.push (x := ⟨d, .nothing⟩) ?_ ?_ ?_ (.nothing rfl)
            fun _ _ hresult => by cases hresult
          · intro mac hmac
            rw [seen]
            exact mem_trackMac_of_mem _ hmac
          · rw [seen]
            exact hforeign foreign
          · intro _
            rw [seen, macsSeen_of_admitted hone admitted]
            exact Nat.le_refl 1
      | refused parsed foreign tracked =>
          exact h.push (x := ⟨d, .refused _⟩) (fun _ hmac => mem_trackMac_of_mem _ hmac)
            (hforeign foreign) (fun hstops => by cases hstops) (.refused parsed foreign rfl)
            fun _ _ hresult => by cases hresult
      | answered answerable seen =>
          obtain ⟨reply, hreply, hleases⟩ := answerable.reply mode
          have hseen := macsSeen_of_admitted hone answerable.admitted
          rw [hreply]
          refine h.push (x := ⟨d, .reply reply _⟩) ?_ ?_ ?_
            (.reply answerable.parsed answerable.foreign answerable.wants hleases rfl) ?_
          · intro mac hmac
            rw [seen]
            exact mem_trackMac_of_mem _ hmac
          · rw [seen]
            exact hforeign answerable.foreign
          · intro _
            rw [seen, hseen]
            exact Nat.le_refl 1
          · intro reply' dest hresult
            cases hresult
            rw [seen, hseen, hleases.client]

theorem keeps_run (c : Config) (mode : Mode) (datagrams : List Datagram) :
    (datagrams.foldl (Trace.next c mode) .init).Keeps c := by
  suffices ∀ t : Trace, t.Keeps c → (datagrams.foldl (Trace.next c mode) t).Keeps c from
    this _ (keeps_init c)
  induction datagrams with
  | nil => exact fun _ h => h
  | cons d rest ih => exact fun t h => ih _ (keeps_next h mode d)

/-! ## Where replies go -/

/-- Replies of wildcard mode stay in the subnet. -/
def Trace.Inside (c : Config) (mode : Mode) (t : Trace) : Prop :=
  mode = .wildcard → ∀ x ∈ t.exchanges, ∀ reply dest, x.result = .reply reply dest →
    c.Inside dest.ip

/-- In wildcard mode, no client that has an address of its own is answered outside the subnet. -/
def StaysInside (c : Config) (mode : Mode) (t : Trace) (d : Datagram) : Prop :=
  mode = .wildcard → t.stopped = false → ∀ pkt msgType, Answerable c t.state d pkt msgType →
    pkt.ciaddr ≠ 0 → ∀ ip, d.src = some (.ip ip) → ip ≠ 0 → c.Inside ip

theorem inside_next_iff (c : Config) (mode : Mode) (t : Trace) (d : Datagram) :
    (t.next c mode d).Inside c mode ↔ t.Inside c mode ∧ StaysInside c mode t d := by
  unfold Trace.next
  cases hstopped : t.stopped with
  | true =>
      rw [if_pos rfl]
      exact (and_iff_left fun _ hrun => by
        rw [hstopped] at hrun
        cases hrun).symm
  | false =>
      rw [if_neg Bool.false_ne_true]
      dsimp only
      constructor
      · intro h
        refine ⟨fun hmode x hx => h hmode x (List.mem_append_left _ hx), ?_⟩
        intro hmode _ pkt msgType hanswerable
        obtain ⟨reply, hreply, -⟩ := hanswerable.reply mode
        have hinside := h hmode _ (List.mem_append_right _ (List.mem_singleton_self _)) reply _
          ((handlePacket_of_answerable hanswerable mode).trans hreply)
        rw [hmode] at hinside
        exact (inside_replyDest_iff c pkt d.src).mp hinside
      · rintro ⟨h, hstays⟩ hmode x hx reply dest hresult
        rcases List.mem_append.mp hx with hx | hx
        · exact h hmode x hx reply dest hresult
        · rw [List.mem_singleton.mp hx] at hresult
          have hhandled := handled_handlePacket c mode t.state d
          generalize handlePacket c mode t.state d = outcome at hhandled hresult
          cases hhandled with
          | silent => cases hresult
          | tracked => cases hresult
          | refused => cases hresult
          | @answered _ pkt msgType answerable =>
              obtain ⟨reply', hreply, -⟩ := answerable.reply mode
              rw [hreply] at hresult
              cases hresult
              rw [hmode]
              exact (inside_replyDest_iff c pkt d.src).mpr
                (hstays hmode hstopped pkt msgType answerable)

theorem inside_run_iff (c : Config) (mode : Mode) (t : Trace) (datagrams : List Datagram) :
    (datagrams.foldl (Trace.next c mode) t).Inside c mode ↔
      t.Inside c mode ∧ Runs.Along (Trace.next c mode) (StaysInside c mode) t datagrams := by
  induction datagrams generalizing t with
  | nil => exact (and_iff_left trivial).symm
  | cons d rest ih =>
      rw [List.foldl_cons, ih, inside_next_iff, and_assoc]
      rfl

/-- The responder is contained: replies lease the one address, to one client, acknowledgements
answer requests for it, the probe's client is neither seen nor answered, no error occurs, and
replies stay in the subnet. -/
structure Contained (c : Config) (mode : Mode) (t : Trace) : Prop where
  leases : ∀ x ∈ t.exchanges, ∀ reply dest, x.result = .reply reply dest →
    (optionsOf reply 53 = some [MSG_OFFER] ∨ optionsOf reply 53 = some [MSG_ACK]) ∧
      reply.fieldBE 16 4 = c.clientIp
  client : ∀ x ∈ t.exchanges, ∀ y ∈ t.exchanges, ∀ reply dest reply' dest',
    x.result = .reply reply dest → y.result = .reply reply' dest' → replyMac reply = replyMac reply'
  requested : ∀ x ∈ t.exchanges, ∀ reply dest, x.result = .reply reply dest →
    optionsOf reply 53 = some [MSG_ACK] → ∃ pkt, parsePacket x.datagram.data = some pkt ∧
      pkt.messageType = some MSG_REQUEST ∧ pkt.namesOther c = false ∧
      pkt.requested = some (Bytes.ofNatBE 4 c.clientIp)
  probe : c.probeMac ∉ t.state.macsSeen
  unanswered : ∀ x ∈ t.exchanges, ∀ pkt, parsePacket x.datagram.data = some pkt →
    pkt.mac = c.probeMac → x.result = .nothing
  safe : ∀ x ∈ t.exchanges, x.result ≠ .error
  inside : t.Inside c mode

/-- The responder is contained in every run in which no client with an address of its own is
answered outside the subnet, and in no other. -/
theorem contained_iff (c : Config) (mode : Mode) (datagrams : List Datagram) :
    Contained c mode (datagrams.foldl (Trace.next c mode) .init) ↔
      Runs.Along (Trace.next c mode) (StaysInside c mode) .init datagrams := by
  have hkeeps := keeps_run c mode datagrams
  have hinside := inside_run_iff c mode .init datagrams
  have hinit : Trace.init.Inside c mode := by
    intro _ x hx
    cases hx
  rw [and_iff_right hinit] at hinside
  rw [← hinside]
  refine ⟨Contained.inside, fun h => ⟨?_, hkeeps.client, ?_, hkeeps.probe, ?_, ?_, h⟩⟩
  · intro x hx reply dest hresult
    cases hkeeps.fine x hx with
    | nothing h => cases hresult.symm.trans h
    | refused _ _ h => cases hresult.symm.trans h
    | reply _ _ wants leases h =>
        cases hresult.symm.trans h
        refine ⟨?_, leases.address⟩
        rw [leases.messageType]
        rcases wants_cases wants with rfl | ⟨rfl, -⟩
        · exact .inl rfl
        · exact .inr rfl
  · intro x hx reply dest hresult hack
    cases hkeeps.fine x hx with
    | nothing h => cases hresult.symm.trans h
    | refused _ _ h => cases hresult.symm.trans h
    | reply parsed _ wants leases h =>
        cases hresult.symm.trans h
        rw [leases.messageType] at hack
        rcases wants_cases wants with rfl | ⟨-, hrequest⟩
        · cases hack
        · exact ⟨_, parsed, hrequest⟩
  · intro x hx pkt hparsed hprobe
    cases hkeeps.fine x hx with
    | nothing h => exact h
    | refused parsed foreign _ =>
        cases hparsed.symm.trans parsed
        exact absurd hprobe foreign
    | reply parsed foreign _ _ _ =>
        cases hparsed.symm.trans parsed
        exact absurd hprobe foreign
  · intro x hx herror
    cases hkeeps.fine x hx with
    | nothing h => cases herror.symm.trans h
    | refused _ _ h => cases herror.symm.trans h
    | reply _ _ _ _ h => cases herror.symm.trans h

/-! A renewal for the address of the link that comes from 192.168.1.23. -/

/-- 192.168.137.1 leases 192.168.137.10. -/
def icsConfig : Config where
  serverIp := 0xC0A88901
  clientIp := 0xC0A8890A
  prefixlen := 24
  probeMac := [2, 0, 0, 0, 0, 1]
  serverIp_lt := by decide
  clientIp_lt := by decide
  prefixlen_le := by decide

def foreignRenewal : Datagram where
  data := [1, 1, 6, 0, 0, 0, 0, 1, 0, 0, 0, 0, 192, 168, 137, 10] ++ List.replicate 12 0 ++
    [0, 4, 0x1F, 1, 2, 3] ++ List.replicate 202 0 ++ MAGIC_COOKIE ++ [53, 1, 3, 255]
  src := some (.ip 0xC0A80117)
  token := true

theorem renewal_leaves_subnet :
    ¬Contained icsConfig .wildcard
      ([foreignRenewal].foldl (Trace.next icsConfig .wildcard) .init) := by
  intro h
  have hstays := ((inside_run_iff icsConfig .wildcard .init [foreignRenewal]).mp h.inside).2.1
  obtain ⟨pkt, hpkt⟩ := Option.isSome_iff_exists.mp
    (by decide +kernel : (parsePacket foreignRenewal.data).isSome = true)
  have hanswerable : Answerable icsConfig .init foreignRenewal pkt MSG_ACK := by
    refine ⟨hpkt, ?_, ?_, rfl, ?_⟩
    all_goals
      rw [← Option.get_of_eq_some (by decide +kernel) hpkt]
      decide +kernel
  have hciaddr : pkt.ciaddr ≠ 0 := by
    rw [← Option.get_of_eq_some (by decide +kernel) hpkt]
    decide +kernel
  have hinside : icsConfig.Inside 0xC0A80117 :=
    hstays rfl rfl pkt MSG_ACK hanswerable hciaddr 0xC0A80117 rfl (by decide)
  exact absurd hinside (by unfold Config.Inside; decide +kernel)

end Ps2Servers.DirectLink
