import Ps2Servers.Ra.Receiver

/-!
# What a receiver does

A datagram does one of a few things to a receiver. Each of them keeps what holds of the job that is
pending, of the set that was identified and of the list that is installed: the parts of it that
count as sent were sent, and its assembler was fed what came in this generation.
-/

namespace Ps2Servers.Ra

open Text (lit)

variable {T : Type}

/-! ## One datagram -/

/-- The receivers differ in no more than the lease, the metadata and the counts. -/
structure Receiver.Same (s t : Receiver T) : Prop where
  token : t.token = s.token
  pending : t.pending = s.pending
  queued : t.queued = s.queued
  identified : t.identified = s.identified
  unsupported : t.unsupported = s.unsupported
  sentChunks : t.sentChunks = s.sentChunks
  session : t.session = s.session

theorem Receiver.Same.refl (s : Receiver T) : s.Same s := ⟨rfl, rfl, rfl, rfl, rfl, rfl, rfl⟩

/-- The assembler of the list in use. -/
def WatchSession.withAssembler (s : WatchSession T) (i : Installed T) (a : Assembler T) :
    WatchSession T :=
  { s with installed := some { i with assembler := a } }

variable [Sub T] [LE T] [DecidableLE T]

/-- What a datagram does. -/
inductive Receiver.Handled (s : Receiver T) (now : T) (e : Event T) :
    Except ReceiverError ReceiverOutput → Receiver T → Prop
  | answered {output : ReceiverOutput} {t : Receiver T} (hvalues : output.values = [])
      (hsame : s.Same t) : Handled s now e (.ok output) t
  | chunked {output : ReceiverOutput} {t : Receiver T} {i : Installed T} {index : Nat}
      (hvalues : output.values = []) (hinstalled : s.session.installed = some i)
      (hchunk : watchChunk i.watch.data index = .ok output.reply)
      (hsame : Same { s with sentChunks := s.sentChunks.insert index } t) :
      Handled s now e (.ok output) t
  | identified {output : ReceiverOutput} {t : Receiver T} {imageHash serial : Str}
      (hvalues : output.values = []) (hsame : (s.identify now imageHash serial).Same t) :
      Handled s now e (.ok output) t
  | fed {output : ReceiverOutput} {t : Receiver T} {i : Installed T} {a : Assembler T}
      {outcome : Except FeedError (Option Bytes)} (hinstalled : s.session.installed = some i)
      (hfed : Fed i.session i.assembler e outcome a) (hvalues : output.values = [])
      (hsame : Same { s with session := s.session.withAssembler i a } t) :
      Handled s now e (.ok output) t
  | emitted {output : ReceiverOutput} {t : Receiver T} {i : Installed T} {a : Assembler T}
      (hinstalled : s.session.installed = some i)
      (hwhole : s.sentChunks.length = chunkCount i.watch.data)
      (hfed : Fed i.session i.assembler e (.ok (some output.values)) a)
      (hgeneration : output.generation = s.session.generation)
      (hsame : Same { s with session := s.session.withAssembler i a } t) :
      Handled s now e (.ok output) t
  | missing {t : Receiver T} {i : Installed T} {a : Assembler T}
      (hinstalled : s.session.installed = some i)
      (hfed : Fed i.session i.assembler e (.error .key) a) : Handled s now e (.error .key) t
  | unlisted {t : Receiver T} (hidentified : s.identified ≠ none)
      (hsupported : s.unsupported = false) (hnone : s.session.installed = none) :
      Handled s now e (.error .attribute) t

namespace Receiver

omit [Sub T] [LE T] [DecidableLE T] in
/-- A short text is a reply. -/
theorem respond_eq {s : Receiver T} {body : Bytes} (h : 1 ≤ body.length ∧ body.length < 960)
    (destination : Endpoint) : ∃ reply, s.respond body destination =
      (.ok { ReceiverOutput.empty with reply := reply, destination := some destination }, s) := by
  obtain ⟨reply, hreply⟩ := padReply_ok h
  unfold respond
  rw [hreply]
  exact ⟨reply, rfl⟩

theorem handled_receiveChunk (s : Receiver T) (now : T) (e : Event T) (request : ConsoleRequest)
    (destination : Endpoint) :
    s.Handled now e (s.receiveChunk request destination).1 (s.receiveChunk request destination).2 := by
  unfold receiveChunk
  split
  · exact .answered rfl (.refl s)
  · exact .answered rfl (.refl s)
  · rename_i reply hchunk
    split
    · exact .answered rfl (.refl s)
    · unfold WatchSession.chunk at hchunk
      split at hchunk
      · cases hchunk
      rename_i i hinstalled
      split at hchunk
      · cases hchunk
      cases hreply : watchChunk i.watch.data request.index with
      | error message =>
          rw [hreply] at hchunk
          cases hchunk
      | ok data =>
          rw [hreply] at hchunk
          obtain rfl := Option.some.inj (Except.ok.inj hchunk)
          exact .chunked rfl hinstalled hreply (.refl _)

theorem handled_receiveQuery (s : Receiver T) (now : T) (e : Event T) (request : ConsoleRequest)
    (destination : Endpoint) : s.Handled now e (s.receiveQuery now request destination).1
      (s.receiveQuery now request destination).2 := by
  unfold receiveQuery
  dsimp only
  split
  · rename_i hidentified
    split
    · have hfits : 1 ≤ ((lit "RAA1 NO").map CodePoint.toByte).length ∧
        ((lit "RAA1 NO").map CodePoint.toByte).length < 960 := by decide
      obtain ⟨reply, hreply⟩ := respond_eq (s := s) hfits destination
      rw [hreply]
      exact .answered rfl (.refl s)
    · rename_i hsupported
      split
      · rename_i hnone
        refine .unlisted ?_ (Bool.eq_false_iff.mpr hsupported) hnone
        rw [hidentified]
        exact Option.some_ne_none _
      · rename_i i hinstalled
        unfold encodeAscii
        rw [if_pos (s.isAscii_readyText i.watch)]
        dsimp only
        have hfits := s.length_readyText i.watch
        rw [← List.length_map CodePoint.toByte] at hfits
        obtain ⟨reply, hreply⟩ := respond_eq (s := s) hfits destination
        rw [hreply]
        exact .answered rfl (.refl s)
  · have hfits : 1 ≤ ((lit "RAA1 WAIT").map CodePoint.toByte).length ∧
      ((lit "RAA1 WAIT").map CodePoint.toByte).length < 960 := by decide
    split
    · obtain ⟨reply, hreply⟩ :=
        respond_eq (s := s.identify now request.imageHash request.serial) hfits destination
      rw [hreply]
      exact .identified rfl (.refl _)
    · obtain ⟨reply, hreply⟩ := respond_eq (s := s) hfits destination
      rw [hreply]
      exact .answered rfl (.refl s)

theorem handled_answer (s : Receiver T) (now : T) (e : Event T) (request : ConsoleRequest)
    (destination : Endpoint) :
    s.Handled now e (s.answer now request destination).1 (s.answer now request destination).2 := by
  unfold answer
  split
  · exact .answered rfl (.refl s)
  · exact .answered rfl ⟨rfl, rfl, rfl, rfl, rfl, rfl, rfl⟩
  · exact .answered rfl ⟨rfl, rfl, rfl, rfl, rfl, rfl, rfl⟩
  · have hfits : 1 ≤ ((lit "RAO1 OK PS2-Servers/owned-protocol").map CodePoint.toByte).length ∧
      ((lit "RAO1 OK PS2-Servers/owned-protocol").map CodePoint.toByte).length < 960 := by decide
    obtain ⟨reply, hreply⟩ := respond_eq (s := s) hfits destination
    rw [hreply]
    exact .answered rfl (.refl s)
  · exact s.handled_receiveChunk now e request destination
  · exact s.handled_receiveQuery now e request destination

theorem handled_receiveTelemetry (s : Receiver T) (now feedNow : T) (packet : Bytes)
    (source : Endpoint) :
    s.Handled now ⟨packet, feedNow⟩ (s.receiveTelemetry now feedNow packet source).1
      (s.receiveTelemetry now feedNow packet source).2 := by
  unfold receiveTelemetry
  split
  · rename_i i howner hinstalled
    split
    · exact .answered rfl (.refl s)
    · rename_i hwhole
      have hfed := fed_feed i.session i.assembler ⟨packet, feedNow⟩
      unfold WatchSession.feed
      rw [hinstalled]
      dsimp only
      generalize (i.assembler.feed i.session packet feedNow).1 = outcome at hfed ⊢
      generalize (i.assembler.feed i.session packet feedNow).2 = a at hfed ⊢
      split
      · exact .fed hinstalled hfed rfl (.refl _)
      · exact .missing hinstalled hfed
      · exact .fed hinstalled hfed rfl (.refl _)
      · exact .emitted hinstalled (not_not.mp hwhole) hfed rfl ⟨rfl, rfl, rfl, rfl, rfl, rfl, rfl⟩
  · exact .answered rfl (.refl s)

omit [Sub T] [LE T] [DecidableLE T] in
theorem Same.trans {s t v : Receiver T} (h : s.Same t) (h' : t.Same v) : s.Same v :=
  ⟨h'.token.trans h.token, h'.pending.trans h.pending, h'.queued.trans h.queued,
    h'.identified.trans h.identified, h'.unsupported.trans h.unsupported,
    h'.sentChunks.trans h.sentChunks, h'.session.trans h.session⟩

omit [Sub T] [LE T] [DecidableLE T] in
theorem Same.withSession {s t : Receiver T} (h : s.Same t) (session : WatchSession T) :
    Same { s with session := session } { t with session := session } :=
  { h with session := rfl }

/-- A datagram does the same to receivers that differ in the lease only. -/
theorem Handled.of_same {s s' t : Receiver T} {now : T} {e : Event T}
    {r : Except ReceiverError ReceiverOutput} (hsame : s.Same s') (h : s'.Handled now e r t) :
    s.Handled now e r t := by
  have hsession := hsame.session
  cases h with
  | answered hvalues h => exact .answered hvalues (hsame.trans h)
  | chunked hvalues hinstalled hchunk h =>
      rename_i output i index
      rw [hsession] at hinstalled
      have hinsert : Same { s with sentChunks := s.sentChunks.insert index }
          { s' with sentChunks := s'.sentChunks.insert index } :=
        { hsame with sentChunks := congrArg (List.insert index) hsame.sentChunks }
      exact .chunked hvalues hinstalled hchunk (hinsert.trans h)
  | identified hvalues h =>
      rename_i imageHash serial
      have hidentify : (s.identify now imageHash serial).Same (s'.identify now imageHash serial) := by
        unfold identify
        rw [hsame.token, hsession]
        exact ⟨rfl, rfl, rfl, rfl, rfl, rfl, rfl⟩
      exact .identified hvalues (hidentify.trans h)
  | fed hinstalled hfed hvalues h =>
      rw [hsession] at hinstalled h
      exact .fed hinstalled hfed hvalues ((hsame.withSession _).trans h)
  | emitted hinstalled hwhole hfed hgeneration h =>
      rw [hsession] at hinstalled hgeneration h
      rw [hsame.sentChunks] at hwhole
      exact .emitted hinstalled hwhole hfed hgeneration ((hsame.withSession _).trans h)
  | missing hinstalled hfed =>
      rw [hsession] at hinstalled
      exact .missing hinstalled hfed
  | unlisted hidentified hsupported hnone =>
      rw [hsame.identified] at hidentified
      rw [hsame.unsupported] at hsupported
      rw [hsession] at hnone
      exact .unlisted hidentified hsupported hnone

theorem handled_receiveRequest (limits : Limits T) (s : Receiver T) (now feedNow : T)
    (packet : Bytes) (peer : Peer) (source : Endpoint) :
    s.Handled now ⟨packet, feedNow⟩ (s.receiveRequest limits now packet peer source).1
      (s.receiveRequest limits now packet peer source).2 := by
  unfold receiveRequest
  dsimp only
  split
  · exact .answered rfl ⟨rfl, rfl, rfl, rfl, rfl, rfl, rfl⟩
  split
  · exact .answered rfl ⟨rfl, rfl, rfl, rfl, rfl, rfl, rfl⟩
  split
  · exact .answered rfl ⟨rfl, rfl, rfl, rfl, rfl, rfl, rfl⟩
  · refine .of_same ?_ (handled_answer _ now _ _ _)
    exact ⟨rfl, rfl, rfl, rfl, rfl, rfl, rfl⟩

omit [DecidableLE T] in
theorem same_countWindow [DecidableLE T] (limits : Limits T) (s : Receiver T) (now : T) :
    s.Same (s.countWindow limits now) := by
  unfold countWindow
  split
  · exact ⟨rfl, rfl, rfl, rfl, rfl, rfl, rfl⟩
  · exact .refl s

/-- What a datagram does, once what is over has expired. -/
theorem handled_receive (limits : Limits T) (s : Receiver T) (now feedNow : T) (packet : Bytes)
    (peer : Peer) :
    (s.expire limits now).Handled now ⟨packet, feedNow⟩
      (s.receive limits now feedNow (some packet) peer).1
      (s.receive limits now feedNow (some packet) peer).2 := by
  refine .of_same (same_countWindow limits _ now) ?_
  unfold receive
  dsimp only
  split
  · rename_i packet source hpacket hsource
    obtain rfl := Option.some.inj hpacket
    split
    · exact .answered rfl (.refl _)
    split
    · exact .answered rfl ⟨rfl, rfl, rfl, rfl, rfl, rfl, rfl⟩
    split
    · refine .of_same ?_ (handled_receiveTelemetry _ now feedNow packet source)
      exact ⟨rfl, rfl, rfl, rfl, rfl, rfl, rfl⟩
    · refine .of_same ?_ (handled_receiveRequest limits _ now feedNow packet peer source)
      exact ⟨rfl, rfl, rfl, rfl, rfl, rfl, rfl⟩
  · exact .answered rfl (.refl _)

end Receiver

end Ps2Servers.Ra
