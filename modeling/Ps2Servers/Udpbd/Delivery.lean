import Ps2Servers.Udpbd.Packets

/-!
# Writes over a network that loses packets

A CMD_WRITE_RDMA does not say where it belongs: both servers put it behind what came
before. When some of a write's packets are lost and the others come once and in the
order they were sent, a success report means that all of them came and that the region
holds the client's data. Packets that come twice or out of order are reported as
a success all the same.
-/

namespace Ps2Servers.Udpbd.Delivery

open Effects Runs

/-! ## A region filled from its start -/

/-- The payloads stand at the offset, one behind the other. -/
def Filled (content : Bytes) (offset : Nat) (seen : List Bytes) : Prop :=
  content.sub offset seen.flatten.length = seen.flatten

theorem filled_nil (content : Bytes) (offset : Nat) : Filled content offset [] := by
  unfold Filled
  simp

/-- One more payload behind the others. -/
theorem Filled.splice {content : Bytes} {offset : Nat} {seen : List Bytes}
    (h : Filled content offset seen) (p : Bytes) :
    Filled (content.splice (offset + seen.flatten.length) p) offset (seen ++ [p]) := by
  have hbefore : (content.splice (offset + seen.flatten.length) p).sub offset
      seen.flatten.length = seen.flatten := by
    by_cases hempty : seen.flatten.length = 0
    · rw [List.length_eq_zero_iff.mp hempty, List.length_nil, Bytes.sub_zero]
    · have hlength : (content.sub offset seen.flatten.length).length = seen.flatten.length := by
        rw [h]
      unfold Bytes.sub at hlength
      rw [List.length_take, List.length_drop] at hlength
      rw [Bytes.sub_splice_of_le (Nat.le_refl _) (by omega)]
      exact h
  unfold Filled
  rw [List.flatten_append, List.length_append, List.flatten_singleton, ← Bytes.sub_append, hbefore,
    Bytes.sub_splice]

theorem sublist_concat {seen rest all : List Bytes} {p : Bytes}
    (h : (seen ++ p :: rest).Sublist all) : (seen ++ [p]).Sublist all :=
  ((List.nil_sublist rest).cons_cons p |>.append_left seen).trans h

/-- Payloads that are as long together as those they are taken from are all of them. -/
theorem flatten_eq_of_sublist {seen all : List Bytes} (h : seen.Sublist all) :
    seen.flatten.length ≤ all.flatten.length ∧
      (seen.flatten.length = all.flatten.length → seen.flatten = all.flatten) := by
  induction h with
  | slnil => exact ⟨Nat.le_refl _, fun _ => rfl⟩
  | cons p _ ih =>
      simp only [List.flatten_cons, List.length_append]
      refine ⟨by omega, fun heq => ?_⟩
      have hnil : p = [] := List.length_eq_zero_iff.mp (by omega)
      rw [hnil, List.nil_append]
      exact ih.2 (by omega)
  | cons_cons p _ ih =>
      simp only [List.flatten_cons, List.length_append]
      exact ⟨by omega, fun heq => by rw [ih.2 (by omega)]⟩

/-! ## The packets of a write -/

/-- How many bytes a CMD_WRITE_RDMA says it carries. -/
def declared (p : Bytes) : Nat :=
  (Image.unpackBlockType p).2 * Image.blockSize (Image.unpackBlockType p).1

def payload (p : Bytes) : Bytes := p.sub 6 (declared p)

/-- The packets of a client's write of some data. -/
structure WritePackets (data : Bytes) (packets : List Bytes) : Prop where
  complete : ∀ p ∈ packets, 6 + declared p ≤ p.length
  data : packets.flatMap payload = data

theorem length_payload {p : Bytes} (h : 6 + declared p ≤ p.length) :
    (payload p).length = declared p := Bytes.length_sub p h

/-- A report of success among the messages behind the first `n`. -/
def SuccessBehind {A : Type} (n : Nat) (sent : List (A × Bytes)) : Prop :=
  ∃ m ∈ sent.drop n, Edge.reportsSuccess m.2 = true

theorem SuccessBehind.of_append {A : Type} {n : Nat} {sent out : List (A × Bytes)}
    (h : SuccessBehind n (sent ++ out)) :
    SuccessBehind n sent ∨ ∃ m ∈ out, Edge.reportsSuccess m.2 = true := by
  obtain ⟨m, hm, hs⟩ := h
  rw [List.drop_append] at hm
  rcases List.mem_append.mp hm with hm | hm
  · exact Or.inl ⟨m, hm, hs⟩
  · exact Or.inr ⟨m, List.mem_of_mem_drop hm, hs⟩

/-! ## The Python server -/

section Python

variable {A : Type} {s t : Image.Server A} {e w : Image.Event A}

/-- From `s` to `t` the pending write ended, and nothing was written or reported as a success. -/
structure Stopped (s t : Image.Server A) : Prop where
  content : t.bd.content = s.bd.content
  readOnly : t.bd.readOnly = s.bd.readOnly
  left : t.writeLeft = 0
  sent : ∃ out, t.sent = s.sent ++ out ∧ ∀ m ∈ out, Edge.reportsSuccess m.2 = false

theorem keeps_sendto_stopped {packet : Bytes} (hp : Edge.reportsSuccess packet = false) :
    Keeps (Stopped s) (Image.sendto e packet) := by
  apply Keeps.get
  intro t ht
  split
  · apply Keeps.set
    obtain ⟨out, hsent, hout⟩ := ht.sent
    refine ⟨ht.content, ht.readOnly, ht.left, out ++ [(e.addr, packet)], ?_, ?_⟩
    · rw [hsent, List.append_assoc]
    · intro m hm
      rcases List.mem_append.mp hm with hm | hm
      · exact hout m hm
      · rw [List.mem_singleton.mp hm]
        exact hp
  · exact Keeps.throw _

theorem not_reportsSuccess_image {cmd : Nat} (hcmd : cmd % 0x20 ≠ 6) (cmdid cmdpkt : Nat)
    (rest : Bytes) :
    Edge.reportsSuccess (Image.packHeader cmd cmdid cmdpkt ++ rest) = false := by
  have hfield : (Edge.headerCmd (Image.packHeader cmd cmdid cmdpkt ++ rest)).toNat = cmd % 0x20 := by
    have hcons : Image.packHeader cmd cmdid cmdpkt ++ rest = Bytes.ofNat 1 (cmd % 0x20 +
        cmdid % 0x08 * 0x20 + cmdpkt % 0x100 * 0x100) ++ (Bytes.ofNat 1 ((cmd % 0x20 +
          cmdid % 0x08 * 0x20 + cmdpkt % 0x100 * 0x100) / 256) ++ rest) := rfl
    rw [Edge.toNat_headerCmd, hcons, Bytes.field_ofNat]
    omega
  have hne : Edge.headerCmd (Image.packHeader cmd cmdid cmdpkt ++ rest) ≠ Edge.CmdWriteDone := by
    intro h
    rw [h] at hfield
    exact hcmd hfield.symm
  simp [Edge.reportsSuccess, hne]

theorem keeps_readLoop_stopped (shift fuel blocksLeft cmdpkt : Nat) :
    Keeps (Stopped s) (Image.readLoop e shift fuel blocksLeft cmdpkt) := by
  induction fuel generalizing blocksLeft cmdpkt with
  | zero => exact Keeps.pure _
  | succ fuel ih =>
      unfold Image.readLoop
      split
      · exact Keeps.pure _
      · apply Keeps.bind
        · apply Keeps.get
          intro t ht
          exact (Keeps.set ⟨ht.content, ht.readOnly, ht.left, ht.sent⟩).bind fun _ => Keeps.pure _
        · intro data
          rw [List.append_assoc]
          refine (keeps_sendto_stopped (not_reportsSuccess_image (by decide) _ _ _)).bind fun _ => ?_
          exact ih _ _

/-- A handler that begins by dropping the pending write. -/
theorem stopped_setLeft {f : Unit → Image.Handler A Unit} (hf : Keeps (Stopped s) (f ())) :
    Stopped s (final ((Image.setLeft 0 >>= f) s)) := by
  rw [bind_ok (show Image.setLeft 0 s = .ok () { s with writeLeft := 0 } from rfl)]
  exact hf _ ⟨rfl, rfl, rfl, [], by rw [List.append_nil], fun _ hm => by cases hm⟩

theorem stopped_handleInfo (s : Image.Server A) (e : Image.Event A) :
    Stopped s (final (Image.handleInfo e s)) := by
  apply stopped_setLeft
  apply Keeps.get
  intro t ht
  split
  · exact Keeps.throw _
  · exact keeps_sendto_stopped (not_reportsSuccess_image (by decide) _ _ _)

theorem stopped_handleRead (s : Image.Server A) (e : Image.Event A) :
    Stopped s (final (Image.handleRead e s)) := by
  apply stopped_setLeft
  apply Keeps.bind
  · exact Keeps.modify fun t ht => ⟨ht.content, ht.readOnly, ht.left, ht.sent⟩
  · intro _
    apply Keeps.bind
    · apply Keeps.get
      intro t ht
      split
      · exact Keeps.set ⟨ht.content, ht.readOnly, ht.left, ht.sent⟩
      · exact Keeps.throw _
    · intro _
      exact keeps_readLoop_stopped _ _ _ _

variable [DecidableEq A]

/-- A CMD_WRITE_RDMA of the peer and the command of the pending write. -/
def mine (w e : Image.Event A) : Bool :=
  e.addr = w.addr && Image.headerCmd e.datagram = Image.CMD_WRITE_RDMA &&
    Image.headerCmdid e.datagram = Image.headerCmdid w.datagram && 6 ≤ e.datagram.length

/-- A CMD_WRITE, of any peer. -/
def isWrite (e : Image.Event A) : Bool :=
  Image.headerCmd e.datagram = Image.CMD_WRITE && 8 ≤ e.datagram.length

/-- Writes take all of their bytes or fail. -/
def Whole (e : Image.Event A) : Prop := ∀ n, e.taken n = none ∨ e.taken n = some n

/-- A datagram that is no CMD_WRITE does nothing, ends the pending write or belongs to one. -/
theorem next_of_not_write (s : Image.Server A) (h : isWrite e = false) :
    (s.next e = s ∧ ∀ w, mine w e = false) ∨ Stopped s (s.next e) ∨
      Image.headerCmd e.datagram = Image.CMD_WRITE_RDMA ∧ 6 ≤ e.datagram.length ∧
        s.next e = final (Image.handleWriteRdma e s) := by
  have hno : ¬(Image.headerCmd e.datagram = Image.CMD_WRITE ∧ 8 ≤ e.datagram.length) := by
    simpa [isWrite] using h
  have hnone : ¬(Image.headerCmd e.datagram = Image.CMD_WRITE_RDMA ∧ 6 ≤ e.datagram.length) →
      ∀ w, mine w e = false := by
    intro hnot w
    refine Bool.eq_false_iff.mpr fun hmine => hnot ?_
    simp only [mine, Bool.and_eq_true, decide_eq_true_eq] at hmine
    exact ⟨hmine.1.1.2, hmine.2⟩
  unfold Image.Server.next Image.dispatch
  rw [if_neg hno]
  split
  · exact Or.inl ⟨rfl, hnone fun h => by omega⟩
  split
  · exact Or.inr (Or.inl (stopped_handleInfo s e))
  split
  · exact Or.inr (Or.inl (stopped_handleRead s e))
  split
  · rename_i hrdma
    exact Or.inr (Or.inr ⟨hrdma.1, hrdma.2, rfl⟩)
  · rename_i hnot
    exact Or.inl ⟨rfl, hnone hnot⟩

/-- What comes of the client's write: it is pending behind the payloads seen, all of it is stored,
or it was dropped without a success. -/
inductive Phase (w : Image.Event A) (data : Bytes) (base : Nat) (seen : List Bytes)
    (s : Image.Server A) : Prop
  | pending (hown : s.writeOwner = some (w.addr, Image.headerCmdid w.datagram))
      (hleft : s.writeLeft + seen.flatten.length = data.length) (hpos : 0 < s.writeLeft)
      (hposition : s.bd.readOnly = false → s.bd.position =
        (Image.regionOf w.datagram).sector * Image.SECTOR_SIZE + seen.flatten.length)
      (hfilled : s.bd.readOnly = false → Filled s.bd.content
        ((Image.regionOf w.datagram).sector * Image.SECTOR_SIZE) seen)
      (hquiet : ¬ SuccessBehind base s.sent)
  | done (hleft : s.writeLeft = 0) (hdata : s.bd.content.sub
      ((Image.regionOf w.datagram).sector * Image.SECTOR_SIZE) data.length = data)
  | dropped (hleft : s.writeLeft = 0) (hquiet : ¬ SuccessBehind base s.sent)

omit [DecidableEq A] in
theorem Stopped.phase {data : Bytes} {base : Nat} {seen seen' : List Bytes} (h : Stopped s t)
    (hs : Phase w data base seen s) : Phase w data base seen' t := by
  obtain ⟨out, hsent, hout⟩ := h.sent
  have hquiet : ¬ SuccessBehind base s.sent → ¬ SuccessBehind base t.sent := by
    intro hq
    rw [hsent]
    intro hb
    rcases hb.of_append with hb | ⟨m, hm, hb⟩
    · exact hq hb
    · rw [hout m hm] at hb
      cases hb
  cases hs with
  | pending _ _ _ _ _ hq => exact .dropped h.left (hquiet hq)
  | done _ hdata =>
      refine .done h.left ?_
      rw [h.content]
      exact hdata
  | dropped _ hq => exact .dropped h.left (hquiet hq)

omit [DecidableEq A] in
/-- What the reply to a write leaves. -/
theorem final_writeDone (e : Image.Event A) (result : Bytes) (s : Image.Server A) :
    ∃ out, final (Image.writeDone e result s) = { s with sent := s.sent ++ out } ∧
      ∀ m ∈ out, Edge.reportsSuccess m.2 = true → result = Image.RESULT_OK := by
  unfold Image.writeDone Image.sendto
  rw [get_bind]
  split
  · refine ⟨[(e.addr, Image.packHeader Image.CMD_WRITE_DONE (Image.headerCmdid e.datagram)
      ((Image.headerCmdid e.datagram + 1) % 0x100) ++ result)], rfl, fun m hm hs => ?_⟩
    rw [List.mem_singleton.mp hm] at hs
    unfold Edge.reportsSuccess at hs
    rw [Bool.and_eq_true] at hs
    have hdrop := of_decide_eq_true hs.2
    have hlen : (Image.packHeader Image.CMD_WRITE_DONE (Image.headerCmdid e.datagram)
        ((Image.headerCmdid e.datagram + 1) % 0x100)).length = 2 := Bytes.length_ofNat _ _
    rw [List.drop_left' hlen] at hdrop
    rw [hdrop]
    rfl
  · exact ⟨[], by rw [List.append_nil]; rfl, fun _ hm => by cases hm⟩

theorem rdma_not_pending {s : Image.Server A} {e : Image.Event A}
    (h : s.writeLeft = 0 ∨ s.writeOwner ≠ some (e.addr, Image.headerCmdid e.datagram)) :
    final (Image.handleWriteRdma e s) = s := by
  unfold Image.handleWriteRdma
  rw [get_bind, if_pos h]
  rfl

omit [DecidableEq A] in
/-- The image behind a write that did not fail. -/
theorem write_whole (hwhole : Whole e) (data : Bytes) (s : Image.Server A) :
    Image.write e data s = .error .osError s ∨
      ∃ bd, Image.write e data s = .ok () { s with bd := bd } ∧ bd.readOnly = s.bd.readOnly ∧
        (s.bd.readOnly = false → bd.content = s.bd.content.splice s.bd.position data ∧
          bd.position = s.bd.position + data.length) := by
  unfold Image.write
  rw [get_bind]
  cases hro : s.bd.readOnly with
  | true =>
      right
      rw [if_pos rfl]
      exact ⟨s.bd, rfl, hro, fun h => by cases h⟩
  | false =>
      rw [if_neg Bool.false_ne_true]
      rcases hwhole data.length with h | h
      · left
        rw [h]
        rfl
      · right
        rw [h]
        dsimp only
        rw [List.take_length]
        exact ⟨_, rfl, hro, fun _ => ⟨rfl, rfl⟩⟩

/-- The write of a packet of the pending write that brings no more than is left. -/
theorem Phase.store {data : Bytes} {base : Nat} {seen : List Bytes}
    (hown : s.writeOwner = some (w.addr, Image.headerCmdid w.datagram))
    (hleft : s.writeLeft + seen.flatten.length = data.length) (hpos : 0 < s.writeLeft)
    (hposition : s.bd.readOnly = false → s.bd.position =
      (Image.regionOf w.datagram).sector * Image.SECTOR_SIZE + seen.flatten.length)
    (hfilled : s.bd.readOnly = false → Filled s.bd.content
      ((Image.regionOf w.datagram).sector * Image.SECTOR_SIZE) seen)
    (hquiet : ¬ SuccessBehind base s.sent)
    (hmine : mine w e = true) (hwhole : Whole e) (hcomplete : 6 + declared e.datagram ≤ e.datagram.length)
    {packets : List Bytes} (hdata : packets.flatten = data)
    (hseen : (seen ++ [payload e.datagram]).Sublist packets) :
    Phase w data base (seen ++ [payload e.datagram]) (final (Image.handleWriteRdma e s)) := by
  simp only [mine, Bool.and_eq_true, decide_eq_true_eq] at hmine
  obtain ⟨⟨⟨haddr, -⟩, hcmdid⟩, -⟩ := hmine
  have hlength := length_payload hcomplete
  have hflat : (seen ++ [payload e.datagram]).flatten.length =
      seen.flatten.length + declared e.datagram := by
    rw [List.flatten_append, List.length_append, List.flatten_singleton, hlength]
  obtain ⟨hle, hall⟩ := flatten_eq_of_sublist hseen
  rw [hdata, hflat] at hle hall
  have hcut : min (declared e.datagram) s.writeLeft = declared e.datagram := by omega
  -- a write that failed
  have hfailed : Phase w data base (seen ++ [payload e.datagram])
      (final (Image.writeDone e Image.RESULT_FAILED { s with writeLeft := 0 })) := by
    obtain ⟨out, hfinal, hout⟩ := final_writeDone e Image.RESULT_FAILED { s with writeLeft := 0 }
    rw [hfinal]
    refine .dropped rfl ?_
    intro hb
    rcases hb.of_append with hb | ⟨m, hm, hb⟩
    · exact hquiet hb
    · exact absurd (hout m hm hb) (by decide)
  unfold Image.handleWriteRdma
  rw [get_bind, if_neg (by rw [hown, haddr, hcmdid]; simp; omega)]
  have hunpack : (Image.unpackBlockType e.datagram).2 *
      Image.blockSize (Image.unpackBlockType e.datagram).1 = declared e.datagram := rfl
  have hsub : e.datagram.sub 6 (declared e.datagram) = payload e.datagram := rfl
  dsimp only
  rw [hunpack, if_neg (by omega), hcut, hsub]
  rcases write_whole hwhole (payload e.datagram) s with herr | ⟨bd, hok, hmode, hwritten⟩
  · have hcaught : rescue (some <$> Image.write e (payload e.datagram)) (· == .osError)
        (fun _ => pure none) s = .ok none s := rescue_caught (map_error herr) rfl
    rw [bind_ok hcaught]
    dsimp only
    rw [bind_ok (show Image.setLeft 0 s = .ok () { s with writeLeft := 0 } from rfl)]
    exact hfailed
  · rw [bind_ok (rescue_ok (map_ok hok))]
    dsimp only
    rw [bind_ok (show Image.setLeft (s.writeLeft - declared e.datagram) { s with bd := bd } =
      .ok () { s with bd := bd, writeLeft := s.writeLeft - declared e.datagram } from rfl)]
    have hstored : s.bd.readOnly = false → Filled bd.content
        ((Image.regionOf w.datagram).sector * Image.SECTOR_SIZE)
          (seen ++ [payload e.datagram]) := by
      intro hro
      rw [(hwritten hro).1, hposition hro]
      exact (hfilled hro).splice _
    split
    · rename_i hlast
      obtain ⟨out, hfinal, hout⟩ := final_writeDone e
        (if s.bd.readOnly then Image.RESULT_FAILED else Image.RESULT_OK)
        { s with bd := bd, writeLeft := s.writeLeft - declared e.datagram }
      rw [hfinal]
      cases hro : s.bd.readOnly with
      | true =>
          rw [hro, if_pos rfl] at hout
          refine .dropped hlast ?_
          intro hb
          rcases hb.of_append with hb | ⟨m, hm, hb⟩
          · exact hquiet hb
          · exact absurd (hout m hm hb) (by decide)
      | false =>
          refine .done hlast ?_
          have hflatten := hall (by omega)
          have hstored := hstored hro
          unfold Filled at hstored
          rw [hflatten] at hstored
          exact hstored
    · rename_i hmore
      refine .pending hown ?_ (Nat.pos_of_ne_zero hmore) ?_ ?_ hquiet
      · rw [hflat]
        change s.writeLeft - declared e.datagram + _ = _
        omega
      · intro hro
        have hro : s.bd.readOnly = false := hmode.symm.trans hro
        change bd.position = _
        rw [(hwritten hro).2, hposition hro, hflat, hlength, Nat.add_assoc]
      · intro hro
        exact hstored (hmode.symm.trans hro)

theorem mine_iff_of_rdma {w e : Image.Event A}
    (hcmd : Image.headerCmd e.datagram = Image.CMD_WRITE_RDMA) (hlength : 6 ≤ e.datagram.length) :
    mine w e = true ↔ (e.addr, Image.headerCmdid e.datagram) =
      (w.addr, Image.headerCmdid w.datagram) := by
  simp [mine, hcmd, hlength]

/-- One datagram that is no CMD_WRITE, and the payloads seen behind it. -/
theorem Phase.next {data : Bytes} {base : Nat} {packets : List Bytes}
    (hpackets : WritePackets data packets) {seen : List Bytes} (hs : Phase w data base seen s)
    (hno : isWrite e = false) (hwhole : Whole e)
    (hin : mine w e = true → e.datagram ∈ packets ∧
      (seen ++ [payload e.datagram]).Sublist (packets.map payload)) :
    Phase w data base (if mine w e then seen ++ [payload e.datagram] else seen) (s.next e) := by
  rcases next_of_not_write s hno with ⟨hsame, hnone⟩ | hstop | ⟨hcmd, hlength, hrdma⟩
  · rw [hsame, hnone w, if_neg Bool.false_ne_true]
    exact hs
  · exact hstop.phase hs
  · rw [hrdma]
    by_cases hmine : mine w e = true
    · rw [if_pos hmine]
      cases hs with
      | pending hown hleft hpos hposition hfilled hquiet =>
          have hdata : (packets.map payload).flatten = data := hpackets.data
          exact Phase.store hown hleft hpos hposition hfilled hquiet hmine hwhole
            (hpackets.complete _ (hin hmine).1) hdata (hin hmine).2
      | done hleft hdata =>
          rw [rdma_not_pending (Or.inl hleft)]
          exact .done hleft hdata
      | dropped hleft hquiet =>
          rw [rdma_not_pending (Or.inl hleft)]
          exact .dropped hleft hquiet
    · rw [if_neg hmine]
      have hother : s.writeLeft = 0 ∨
          s.writeOwner ≠ some (e.addr, Image.headerCmdid e.datagram) := by
        cases hs with
        | pending hown =>
            right
            rw [hown]
            intro heq
            exact hmine ((mine_iff_of_rdma hcmd hlength).mpr (Option.some.inj heq).symm)
        | done hleft => exact Or.inl hleft
        | dropped hleft => exact Or.inl hleft
      rw [rdma_not_pending hother]
      exact hs

/-- A run without another CMD_WRITE, in which the write's packets come once and in order. -/
theorem Phase.run {data : Bytes} {base : Nat} {packets : List Bytes}
    (hpackets : WritePackets data packets) {es : List (Image.Event A)}
    (hno : ∀ e ∈ es, isWrite e = false) (hwhole : ∀ e ∈ es, Whole e) {seen : List Bytes}
    (hin : ((es.filter (mine w)).map Image.Event.datagram) ⊆ packets)
    (hseen : (seen ++ ((es.filter (mine w)).map Image.Event.datagram).map payload).Sublist
      (packets.map payload)) (hs : Phase w data base seen s) :
    ∃ seen, Phase w data base seen (es.foldl Image.Server.next s) := by
  induction es generalizing seen s with
  | nil => exact ⟨seen, hs⟩
  | cons e rest ih =>
      have hno' := fun e' he' => hno e' (List.mem_cons_of_mem e he')
      have hwhole' := fun e' he' => hwhole e' (List.mem_cons_of_mem e he')
      have hfirst := hno e List.mem_cons_self
      have hnext := hs.next hpackets hfirst (hwhole e List.mem_cons_self)
      rw [List.foldl_cons]
      by_cases hmine : mine w e = true
      · rw [List.filter_cons_of_pos hmine, List.map_cons] at hin
        rw [List.filter_cons_of_pos hmine, List.map_cons, List.map_cons] at hseen
        have hnext := hnext fun _ => ⟨hin List.mem_cons_self, sublist_concat hseen⟩
        rw [if_pos hmine] at hnext
        refine ih hno' hwhole' (fun p hp => hin (List.mem_cons_of_mem _ hp)) ?_ hnext
        rw [List.append_assoc]
        exact hseen
      · rw [List.filter_cons_of_neg hmine] at hin hseen
        have hnext := hnext fun h => absurd h hmine
        rw [if_neg hmine] at hnext
        exact ih hno' hwhole' hin hseen hnext

/-- The write that a CMD_WRITE opens. -/
theorem phase_of_write {s : Image.Server A} {w : Image.Event A} (hw : isWrite w = true)
    {data : Bytes} (hdata : data.length = (Image.regionOf w.datagram).count * Image.SECTOR_SIZE) :
    Phase w data s.sent.length [] (s.next w) := by
  simp only [isWrite, Bool.and_eq_true, decide_eq_true_eq] at hw
  obtain ⟨hcmd, hlength⟩ := hw
  have hnothing : ¬ SuccessBehind s.sent.length s.sent := by
    rintro ⟨m, hm, -⟩
    rw [List.drop_length] at hm
    cases hm
  have hnext : s.next w = final (Image.handleWrite w s) := by
    unfold Image.Server.next Image.dispatch
    rw [if_neg (by omega), hcmd, if_neg (by decide), if_neg fun h => absurd h.1 (by decide),
      if_pos ⟨rfl, hlength⟩]
  rw [hnext]
  unfold Image.handleWrite
  rw [bind_ok (modify_apply _ s)]
  by_cases hseek : w.seekable ((Image.regionOf w.datagram).sector * Image.SECTOR_SIZE) = true
  · have hdone : Image.seek w (Image.regionOf w.datagram).sector { s with
        writeLeft := 0
        writeOwner := some (w.addr, Image.headerCmdid w.datagram) } = .ok () { s with
        writeLeft := 0
        writeOwner := some (w.addr, Image.headerCmdid w.datagram)
        bd := { s.bd with
          position := (Image.regionOf w.datagram).sector * Image.SECTOR_SIZE } } := by
      unfold Image.seek
      rw [get_bind, if_pos hseek]
      rfl
    rw [bind_ok (rescue_ok (map_ok hdone))]
    by_cases hzero : (Image.regionOf w.datagram).count * Image.SECTOR_SIZE = 0
    · exact .dropped hzero hnothing
    · refine .pending rfl ?_ (Nat.pos_of_ne_zero hzero) (fun _ => (Nat.add_zero _).symm)
        (fun _ => filled_nil _ _) hnothing
      rw [List.flatten_nil, List.length_nil, Nat.add_zero, hdata]
      rfl
  · have hfail : Image.seek w (Image.regionOf w.datagram).sector { s with
        writeLeft := 0
        writeOwner := some (w.addr, Image.headerCmdid w.datagram) } = .error .osError { s with
        writeLeft := 0
        writeOwner := some (w.addr, Image.headerCmdid w.datagram) } := by
      unfold Image.seek
      rw [get_bind, if_neg hseek]
      rfl
    have hcaught : rescue (some <$> Image.seek w (Image.regionOf w.datagram).sector) (· == .osError)
        (fun _ => pure none) { s with
          writeLeft := 0
          writeOwner := some (w.addr, Image.headerCmdid w.datagram) } = .ok none { s with
          writeLeft := 0
          writeOwner := some (w.addr, Image.headerCmdid w.datagram) } :=
      rescue_caught (map_error hfail) rfl
    rw [bind_ok hcaught]
    obtain ⟨out, hfinal, hout⟩ := final_writeDone w Image.RESULT_FAILED { s with
      writeLeft := 0
      writeOwner := some (w.addr, Image.headerCmdid w.datagram) }
    dsimp only
    rw [hfinal]
    refine .dropped rfl fun hb => ?_
    rcases hb.of_append with hb | ⟨m, hm, hb⟩
    · exact hnothing hb
    · exact absurd (hout m hm hb) (by decide)

/-- The Python server reports a success only when the region holds the client's data, if of the
write's packets the server gets some once and in the order they were sent. -/
theorem image_delivered {s : Image.Server A} {w : Image.Event A} (hw : isWrite w = true)
    {data : Bytes} (hdata : data.length = (Image.regionOf w.datagram).count * Image.SECTOR_SIZE)
    {packets : List Bytes} (hpackets : WritePackets data packets) {es : List (Image.Event A)}
    (hno : ∀ e ∈ es, isWrite e = false) (hwhole : ∀ e ∈ es, Whole e)
    (hsub : ((es.filter (mine w)).map Image.Event.datagram).Sublist packets)
    (hsuccess : SuccessBehind s.sent.length (es.foldl Image.Server.next (s.next w)).sent) :
    (es.foldl Image.Server.next (s.next w)).bd.content.sub
      ((Image.regionOf w.datagram).sector * Image.SECTOR_SIZE) data.length = data := by
  obtain ⟨seen, hphase⟩ := (phase_of_write (s := s) hw hdata).run hpackets hno hwhole hsub.subset
    (hsub.map payload)
  cases hphase with
  | pending _ _ _ _ _ hquiet => exact absurd hsuccess hquiet
  | done _ hdone => exact hdone
  | dropped _ hquiet => exact absurd hsuccess hquiet

end Python

/-! ## The Edge server -/

section EdgeServer

variable {B : Type}

theorem edge_unpackBlockType (p : Bytes) : Edge.unpackBlockType p = Image.unpackBlockType p := by
  have hlt : p.field 2 4 < 4294967296 := p.field_lt 2 4
  have hlow := Nat.and_two_pow_sub_one_eq_mod (p.field 2 4) 4
  have hhigh := Nat.and_two_pow_sub_one_eq_mod (p.field 2 4 / 16) 9
  have h4 : (4 : UInt32).toNat % 32 = 4 := rfl
  unfold Edge.unpackBlockType Image.unpackBlockType
  dsimp only
  rw [UInt32.toNat_and, UInt32.toNat_and, UInt32.toNat_shiftRight, UInt32.toNat_ofNat',
    Nat.mod_eq_of_lt (show p.field 2 4 < 2 ^ 32 by omega), h4, Nat.shiftRight_eq_div_pow]
  exact Prod.ext hlow hhigh

variable [DecidableEq B] {s t : Edge.Server B} {e w : Edge.Event B}

/-- A CMD_WRITE_RDMA of the IP address that the pending write belongs to, which is all that the
server asks of it. -/
def edgeSame (w e : Edge.Event B) : Bool :=
  e.peer.ip = w.peer.ip && Edge.headerCmd e.datagram = Edge.CmdWriteRDMA && 6 ≤ e.datagram.length

/-- One that carries the number of the pending write's command as well. -/
def edgeMine (w e : Edge.Event B) : Bool :=
  edgeSame w e && Edge.headerCmdid e.datagram = Edge.headerCmdid w.datagram

/-- What comes of the client's write: it is pending behind the payloads seen, all of it is stored,
or it was dropped without a success. -/
inductive EdgePhase (w : Edge.Event B) (data : Bytes) (base : Nat) (seen : List Bytes)
    (s : Edge.Server B) : Prop
  | pending (hip : s.write.peerIP = some w.peer.ip) (hpeer : s.write.peer = some w.peer)
      (hleft : s.write.left + seen.flatten.length = data.length) (hpos : 0 < s.write.left)
      (hoffset : s.write.offset =
        (((Image.regionOf w.datagram).sector * Image.SECTOR_SIZE + seen.flatten.length : Nat) : Int))
      (hfilled : s.dev.readOnly = false → Filled s.dev.content
        ((Image.regionOf w.datagram).sector * Image.SECTOR_SIZE) seen)
      (hquiet : ¬ SuccessBehind base s.sent)
  | done (hleft : s.write.left ≤ 0) (hdata : s.dev.content.sub
      ((Image.regionOf w.datagram).sector * Image.SECTOR_SIZE) data.length = data)
  | dropped (hleft : s.write.left ≤ 0) (hquiet : ¬ SuccessBehind base s.sent)

theorem quiet_next {base : Nat} (hquiet : ¬ SuccessBehind base s.sent)
    (hno : ¬ s.succeeds e) : ¬ SuccessBehind base (s.next e).sent := by
  obtain ⟨out, hsent, hout⟩ := Edge.answers_next s e
  rw [hsent]
  intro hb
  rcases hb.of_append with hb | ⟨m, hm, hb⟩
  · exact hquiet hb
  · exact hno ((hout m hm).2 hb)

/-- A datagram that the pending write takes nothing of. -/
theorem EdgePhase.other {data : Bytes} {base : Nat} {seen : List Bytes}
    (hs : EdgePhase w data base seen s) (haccepts : s.accepts e = false)
    (hnone : ∀ taken, ¬ s.takes e taken) (seen' : List Bytes)
    (hseen : 0 < s.write.left → seen' = seen) : EdgePhase w data base seen' (s.next e) := by
  have hno : ¬ s.succeeds e := by
    rintro ⟨taken, htakes, -⟩
    exact hnone taken htakes
  have hquiet' : ¬ SuccessBehind base s.sent → ¬ SuccessBehind base (s.next e).sent :=
    fun hquiet => quiet_next hquiet hno
  have hchange := Edge.change_next s e
  generalize hdev : (s.next e).dev = dev at hchange
  generalize hwrite : (s.next e).write = write at hchange
  generalize (s.next e).history = history at hchange
  cases hchange with
  | kept =>
      cases hs with
      | pending hip hpeer hleft hpos hoffset hfilled hquiet =>
          rw [hseen hpos]
          refine .pending ?_ ?_ ?_ ?_ ?_ ?_ (hquiet' hquiet)
          · rw [hwrite]
            exact hip
          · rw [hwrite]
            exact hpeer
          · rw [hwrite]
            exact hleft
          · rw [hwrite]
            exact hpos
          · rw [hwrite]
            exact hoffset
          · rw [hdev]
            exact hfilled
      | done hleft hdata =>
          refine .done ?_ ?_
          · rw [hwrite]
            exact hleft
          · rw [hdev]
            exact hdata
      | dropped hleft hquiet =>
          refine .dropped ?_ (hquiet' hquiet)
          rw [hwrite]
          exact hleft
  | dropped h =>
      have hzero : (s.next e).write.left ≤ 0 := by
        rw [hwrite]
        exact Int.le_refl 0
      cases hs with
      | pending _ _ _ _ _ _ hquiet => exact .dropped hzero (hquiet' hquiet)
      | done _ hdata =>
          refine .done hzero ?_
          rw [hdev]
          exact hdata
      | dropped _ hquiet => exact .dropped hzero (hquiet' hquiet)
  | replaced h =>
      rw [haccepts] at h
      cases h
  | stored h => exact absurd h (hnone _)
  | failed h => exact absurd h (hnone _)

theorem edge_payload {s : Edge.Server B} {e : Edge.Event B} (hpos : 0 < s.write.left)
    (hmatch : s.write.matches e.peer = true)
    (hcomplete : 6 + declared e.datagram ≤ e.datagram.length)
    (hcut : (declared e.datagram : Int) ≤ s.write.left) :
    s.payload e = some (payload e.datagram) := by
  have hsize : (Edge.unpackBlockType e.datagram).2 *
      Edge.blockSize (Edge.unpackBlockType e.datagram).1 = declared e.datagram := by
    rw [edge_unpackBlockType, Packets.edge_blockSize]
    rfl
  unfold Edge.Server.payload
  rw [if_neg (by rw [hmatch]; simp; omega)]
  dsimp only
  rw [hsize, if_neg (by omega), if_neg (by omega)]
  rfl

/-- A packet of the pending write that brings no more than is left. -/
theorem EdgePhase.store {data : Bytes} {base : Nat} {seen : List Bytes}
    (hip : s.write.peerIP = some w.peer.ip) (hpeer : s.write.peer = some w.peer)
    (hleft : s.write.left + seen.flatten.length = data.length) (hpos : 0 < s.write.left)
    (hoffset : s.write.offset =
      (((Image.regionOf w.datagram).sector * Image.SECTOR_SIZE + seen.flatten.length : Nat) : Int))
    (hfilled : s.dev.readOnly = false → Filled s.dev.content
      ((Image.regionOf w.datagram).sector * Image.SECTOR_SIZE) seen)
    (hquiet : ¬ SuccessBehind base s.sent) (hmine : edgeSame w e = true)
    (hcomplete : 6 + declared e.datagram ≤ e.datagram.length) {packets : List Bytes}
    (hdata : packets.flatten = data) (hseen : (seen ++ [payload e.datagram]).Sublist packets) :
    EdgePhase w data base (seen ++ [payload e.datagram]) (s.next e) := by
  simp only [edgeSame, Bool.and_eq_true, decide_eq_true_eq] at hmine
  obtain ⟨⟨haddr, hcmd⟩, hlen⟩ := hmine
  have hmatch : s.write.matches e.peer = true := by
    simp [Edge.WriteState.matches, hip, haddr]
  have hlength := length_payload hcomplete
  have hflat : (seen ++ [payload e.datagram]).flatten.length =
      seen.flatten.length + declared e.datagram := by
    rw [List.flatten_append, List.length_append, List.flatten_singleton, hlength]
  obtain ⟨hle, hall⟩ := flatten_eq_of_sublist hseen
  rw [hdata, hflat] at hle hall
  have htakes : s.takes e (payload e.datagram) :=
    ⟨hcmd, hlen, edge_payload hpos hmatch hcomplete (by omega)⟩
  by_cases hok : s.dev.readOnly = true ∨ e.writeFails = none
  · obtain ⟨hdev, hwrite, -⟩ := Edge.next_stored htakes hok
    have hcontent : s.dev.readOnly = false → (s.next e).dev.content =
        s.dev.content.splice ((Image.regionOf w.datagram).sector * Image.SECTOR_SIZE +
          seen.flatten.length) (payload e.datagram) := by
      intro hro
      rw [hdev, Edge.writeAt_ok hro (hok.resolve_left (by simp [hro])), hoffset, Int.toNat_natCast]
    have hmode : (s.next e).dev.readOnly = s.dev.readOnly := by
      rw [hdev]
      unfold Edge.Device.writeAt
      split
      · rfl
      · split <;> rfl
    have hstored : s.dev.readOnly = false → Filled (s.next e).dev.content
        ((Image.regionOf w.datagram).sector * Image.SECTOR_SIZE)
          (seen ++ [payload e.datagram]) := by
      intro hro
      rw [hcontent hro]
      exact (hfilled hro).splice _
    by_cases hlast : s.write.left - (payload e.datagram).length ≤ 0
    · have hzero : (s.next e).write.left ≤ 0 := by
        rw [hwrite, Edge.WriteState.advance, if_pos hlast]
        exact Int.le_refl 0
      cases hro : s.dev.readOnly with
      | true =>
          refine .dropped hzero (quiet_next hquiet ?_)
          rintro ⟨taken, -, hwritable, -⟩
          rw [hro] at hwritable
          cases hwritable
      | false =>
          have hflatten := hall (by rw [hlength] at hlast; omega)
          have hstored := hstored hro
          unfold Filled at hstored
          rw [hflatten] at hstored
          exact .done hzero hstored
    · have hadvance : (s.next e).write = { s.write with
          offset := s.write.offset + (payload e.datagram).length
          left := s.write.left - (payload e.datagram).length } := by
        rw [hwrite, Edge.WriteState.advance, if_neg hlast]
      rw [hlength] at hadvance hlast
      refine .pending ?_ ?_ ?_ ?_ ?_ ?_ (quiet_next hquiet ?_)
      · rw [hadvance]
        exact hip
      · rw [hadvance]
        exact hpeer
      · rw [hadvance, hflat]
        change s.write.left - _ + _ = _
        omega
      · rw [hadvance]
        change 0 < s.write.left - _
        omega
      · rw [hadvance, hflat]
        change s.write.offset + _ = _
        omega
      · intro hro
        exact hstored (hmode.symm.trans hro)
      · rintro ⟨taken, ⟨-, -, htaken⟩, -, -, -, hend⟩
        rw [htakes.2.2] at htaken
        cases htaken
        rw [hlength] at hend
        omega
  · obtain ⟨hro, hfails⟩ := not_or.mp hok
    have hro : s.dev.readOnly = false := by simpa using hro
    obtain ⟨n, hn⟩ := Option.ne_none_iff_exists'.mp hfails
    refine .dropped ?_ (quiet_next hquiet ?_)
    · rw [Edge.next_failed htakes hro hn]
      exact Int.le_refl 0
    · rintro ⟨taken, -, -, hnone, -⟩
      exact hfails hnone

/-- What the pending write takes is one of its packets. -/
theorem edgeSame_of_takes {data : Bytes} {base : Nat} {seen : List Bytes}
    (hs : EdgePhase w data base seen s) {taken : Bytes} (h : s.takes e taken) :
    edgeSame w e = true := by
  obtain ⟨hleft, hmatch, -⟩ := h.le_left
  cases hs with
  | pending hip hpeer =>
      have haddr : e.peer.ip = w.peer.ip := by
        simp only [Edge.WriteState.matches, hip, hpeer, Bool.or_eq_true, decide_eq_true_eq,
          Option.some.injEq] at hmatch
        rcases hmatch with hmatch | hmatch
        · rw [hmatch]
        · exact hmatch.symm
      simp [edgeSame, haddr, h.1, h.2.1]
  | done hzero => omega
  | dropped hzero => omega

theorem EdgePhase.next {data : Bytes} {base : Nat} {packets : List Bytes}
    (hpackets : WritePackets data packets) {seen : List Bytes} (hs : EdgePhase w data base seen s)
    (haccepts : s.accepts e = false)
    (hin : edgeSame w e = true → e.datagram ∈ packets ∧
      (seen ++ [payload e.datagram]).Sublist (packets.map payload)) :
    EdgePhase w data base (if edgeSame w e then seen ++ [payload e.datagram] else seen)
      (s.next e) := by
  by_cases hmine : edgeSame w e = true
  · rw [if_pos hmine]
    have hover : s.write.left ≤ 0 → ∀ taken, ¬ s.takes e taken := by
      intro hzero taken htakes
      have := htakes.le_left.1
      omega
    cases hs with
    | pending hip hpeer hleft hpos hoffset hfilled hquiet =>
        have hdata : (packets.map payload).flatten = data := hpackets.data
        exact EdgePhase.store hip hpeer hleft hpos hoffset hfilled hquiet hmine
          (hpackets.complete _ (hin hmine).1) hdata (hin hmine).2
    | done hleft hdata =>
        have hdone : EdgePhase w data base seen s := .done hleft hdata
        exact hdone.other haccepts (hover hleft) _ fun h => by omega
    | dropped hleft hquiet =>
        have hdropped : EdgePhase w data base seen s := .dropped hleft hquiet
        exact hdropped.other haccepts (hover hleft) _ fun h => by omega
  · rw [if_neg hmine]
    exact hs.other haccepts (fun taken htakes => hmine (edgeSame_of_takes hs htakes)) seen
      fun _ => rfl

/-- What is asked of the image keeps its size. -/
theorem accepts_next (s : Edge.Server B) (e e' : Edge.Event B) :
    (s.next e).accepts e' = s.accepts e' := by
  have hsize : (s.next e).dev.size = s.dev.size := by
    have hchange := Edge.change_next s e
    generalize (s.next e).dev = dev at hchange ⊢
    generalize (s.next e).write = write at hchange
    generalize (s.next e).history = history at hchange
    cases hchange with
    | kept => rfl
    | dropped => rfl
    | replaced => rfl
    | stored _ _ =>
        unfold Edge.Device.writeAt
        split
        · rfl
        · split <;> rfl
    | failed => rfl
  unfold Edge.Server.accepts Edge.Device.inRange Edge.Device.sectorCount
  rw [hsize]

/-- A run without another CMD_WRITE inside the image, in which the write's packets come once and
in order. -/
theorem EdgePhase.run {data : Bytes} {base : Nat} {packets : List Bytes}
    (hpackets : WritePackets data packets) {es : List (Edge.Event B)}
    (hno : ∀ e ∈ es, s.accepts e = false) {seen : List Bytes}
    (hin : ((es.filter (edgeSame w)).map Edge.Event.datagram) ⊆ packets)
    (hseen : (seen ++ ((es.filter (edgeSame w)).map Edge.Event.datagram).map payload).Sublist
      (packets.map payload)) (hs : EdgePhase w data base seen s) :
    ∃ seen, EdgePhase w data base seen (es.foldl Edge.Server.next s) := by
  induction es generalizing seen s with
  | nil => exact ⟨seen, hs⟩
  | cons e rest ih =>
      have hno' : ∀ e' ∈ rest, (s.next e).accepts e' = false := by
        intro e' he'
        rw [accepts_next]
        exact hno e' (List.mem_cons_of_mem e he')
      have hnext := hs.next hpackets (hno e List.mem_cons_self)
      rw [List.foldl_cons]
      by_cases hmine : edgeSame w e = true
      · rw [List.filter_cons_of_pos hmine, List.map_cons] at hin
        rw [List.filter_cons_of_pos hmine, List.map_cons, List.map_cons] at hseen
        have hnext := hnext fun _ => ⟨hin List.mem_cons_self, sublist_concat hseen⟩
        rw [if_pos hmine] at hnext
        refine ih hno' (fun p hp => hin (List.mem_cons_of_mem _ hp)) ?_ hnext
        rw [List.append_assoc]
        exact hseen
      · rw [List.filter_cons_of_neg hmine] at hin hseen
        have hnext := hnext fun h => absurd h hmine
        rw [if_neg hmine] at hnext
        exact ih hno' hin hseen hnext

/-- The write that an accepted CMD_WRITE opens. -/
theorem edgePhase_of_write {s : Edge.Server B} {w : Edge.Event B} (hw : s.accepts w = true)
    {data : Bytes} (hdata : data.length = (Image.regionOf w.datagram).count * Image.SECTOR_SIZE) :
    EdgePhase w data s.sent.length [] (s.next w) := by
  have haccepts := hw
  simp only [Edge.Server.accepts, Bool.and_eq_true, decide_eq_true_eq] at hw
  obtain ⟨⟨hcmd, hlength⟩, hrange⟩ := hw
  have hcount : 0 < (Edge.sectorRequest w.datagram).2 := by
    simp only [Edge.Device.inRange, Bool.and_eq_true, Bool.not_eq_true', decide_eq_false_iff_not]
      at hrange
    omega
  have hnext : s.next w = s.handleWrite w := by
    unfold Edge.Server.next Edge.Server.dispatch
    rw [if_neg (by omega), hcmd, if_neg (by decide), if_neg (by decide), if_pos rfl,
      if_pos hlength]
  have hopened : s.handleWrite w = { s with
      write := .of w
      history := ⟨(Edge.sectorRequest w.datagram).1, (Edge.sectorRequest w.datagram).2, []⟩ } := by
    unfold Edge.Server.handleWrite
    dsimp only
    rw [if_neg (by rw [hrange]; decide)]
    rfl
  have hleft : (Edge.WriteState.of w).left = (data.length : Int) := by
    rw [hdata, Int.natCast_mul]
    rfl
  rw [hnext, hopened]
  refine .pending rfl rfl ?_ ?_ ?_ (fun _ => filled_nil _ _) ?_
  · rw [List.flatten_nil, List.length_nil]
    exact (Int.add_zero _).trans hleft
  · change 0 < (Edge.sectorRequest w.datagram).2 * Edge.SectorSize
    exact Int.mul_pos hcount (by decide)
  · rw [List.flatten_nil, List.length_nil, Nat.add_zero, Int.natCast_mul]
    rfl
  · rintro ⟨m, hm, -⟩
    rw [List.drop_length] at hm
    cases hm

/-- The Edge server reports a success only when the region holds the client's data, if of the
write's packets the server gets some once and in the order they were sent, and none of another
command from the same IP address. -/
theorem edge_delivered {s : Edge.Server B} {w : Edge.Event B} (hw : s.accepts w = true)
    {data : Bytes} (hdata : data.length = (Image.regionOf w.datagram).count * Image.SECTOR_SIZE)
    {packets : List Bytes} (hpackets : WritePackets data packets) {es : List (Edge.Event B)}
    (hno : ∀ e ∈ es, s.accepts e = false) (hsame : ∀ e ∈ es, edgeSame w e = true →
      Edge.headerCmdid e.datagram = Edge.headerCmdid w.datagram)
    (hsub : ((es.filter (edgeMine w)).map Edge.Event.datagram).Sublist packets)
    (hsuccess : SuccessBehind s.sent.length (es.foldl Edge.Server.next (s.next w)).sent) :
    (es.foldl Edge.Server.next (s.next w)).dev.content.sub
      ((Image.regionOf w.datagram).sector * Image.SECTOR_SIZE) data.length = data := by
  have hno' : ∀ e ∈ es, (s.next w).accepts e = false := by
    intro e he
    rw [accepts_next]
    exact hno e he
  have hmine : es.filter (edgeMine w) = es.filter (edgeSame w) := by
    refine List.filter_congr fun e he => ?_
    cases hpeer : edgeSame w e with
    | false => simp [edgeMine, hpeer]
    | true => simp [edgeMine, hpeer, hsame e he hpeer]
  rw [hmine] at hsub
  obtain ⟨seen, hphase⟩ := (edgePhase_of_write hw hdata).run hpackets hno' hsub.subset
    (hsub.map payload)
  cases hphase with
  | pending _ _ _ _ _ _ hquiet => exact absurd hsuccess hquiet
  | done _ hdone => exact hdone
  | dropped _ hquiet => exact absurd hsuccess hquiet

end EdgeServer

/-! ## Both servers -/

section

variable {A B : Type} [DecidableEq A] [DecidableEq B]

end

/-- A write of two sectors in two packets. -/
def first : Bytes := Edge.writePacket 0 (List.replicate 512 1)

def second : Bytes := Edge.writePacket 0 (List.replicate 512 2)

def twoSectors : Bytes := List.replicate 512 1 ++ List.replicate 512 2

/-- What the Python server makes of the write when these packets come. -/
def imageGot (packets : List Bytes) : Image.Server Nat :=
  (packets.map (Image.sentBy 1)).foldl Image.Server.next
    (Image.Server.next (.new (List.replicate 1024 0) false)
      (Image.sentBy 1 (Edge.writeRequest 0 0 2)))

/-- What the Edge server makes of it. -/
def edgeGot (packets : List Bytes) : Edge.Server Nat :=
  (packets.map (Edge.sentBy 1)).foldl Edge.Server.next
    (Edge.Server.next (.new (List.replicate 1024 0) false)
      (Edge.sentBy 1 (Edge.writeRequest 0 0 2)))

theorem writePackets_twoSectors : WritePackets twoSectors [first, second] := by
  constructor
  · decide +kernel
  · decide +kernel

end Ps2Servers.Udpbd.Delivery
