import Ps2Servers.Http.Response
import Ps2Servers.Lib.Effects

/-!
# Sending the body of a game

What `_send_bytes` puts on the wire is always an initial part of the requested
range. Where it ends early, the host file stopped it after a number of bytes that
depends on the file alone, or the connection broke before that.
-/

namespace Ps2Servers.Http

open Effects

/-! ## Writes -/

/-- The wire of `c'` is that of `c` with `bytes` more of body data. -/
def Emitted (c : Conn) (bytes : Bytes) (c' : Conn) : Prop :=
  ∃ chunks : List Bytes, c'.wire = c.wire ++ chunks.map Event.data ∧ chunks.flatten = bytes

theorem Emitted.trans {c c' c'' : Conn} {b b' : Bytes} (h : Emitted c b c')
    (h' : Emitted c' b' c'') : Emitted c (b ++ b') c'' := by
  obtain ⟨xs, hx, hxb⟩ := h
  obtain ⟨ys, hy, hyb⟩ := h'
  exact ⟨xs ++ ys, by simp [hx, hy], by simp [hxb, hyb]⟩

/-- `c'` is `c` after all of `bytes` went out as body data. -/
structure Wrote (c : Conn) (bytes : Bytes) (c' : Conn) : Prop where
  wire : Emitted c bytes c'
  fits : ∀ r, c.room = some r → bytes.length ≤ r
  room : c'.room = c.room.map (· - bytes.length)
  breaks : c'.breaks = c.breaks

/-- `c'` is `c` after the connection broke behind `bytes`. -/
structure Broke (c : Conn) (bytes : Bytes) (c' : Conn) : Prop where
  wire : Emitted c bytes c'
  room : c.room = some bytes.length
  empty : c'.room = some 0

theorem Wrote.refl (c : Conn) : Wrote c [] c := by
  refine ⟨⟨[], by simp, rfl⟩, by simp, ?_, rfl⟩
  cases c.room <;> rfl

theorem Wrote.trans {c c' c'' : Conn} {b b' : Bytes} (h : Wrote c b c') (h' : Wrote c' b' c'') :
    Wrote c (b ++ b') c'' := by
  refine ⟨h.wire.trans h'.wire, ?_, ?_, h'.breaks.trans h.breaks⟩
  · intro r hr
    have h₁ := h.fits r hr
    have h₂ := h'.fits (r - b.length) (by simp [h.room, hr])
    simp only [List.length_append]
    omega
  · rw [h'.room, h.room]
    cases c.room with
    | none => rfl
    | some r =>
        simp only [Option.map_some, List.length_append]
        congr 1
        omega

theorem Wrote.broke {c c' c'' : Conn} {b b' : Bytes} (h : Wrote c b c') (h' : Broke c' b' c'') :
    Broke c (b ++ b') c'' := by
  refine ⟨h.wire.trans h'.wire, ?_, h'.empty⟩
  have hroom := h'.room
  rw [h.room] at hroom
  cases hr : c.room with
  | none => simp [hr] at hroom
  | some r =>
      have hle := h.fits r hr
      simp only [hr, Option.map_some, Option.some.injEq] at hroom
      simp only [List.length_append, Option.some.injEq]
      omega

/-- Fields a write does not touch may change freely. -/
theorem Wrote.congr {c c' d : Conn} {b : Bytes} (h : Wrote c b c') (hw : d.wire = c'.wire)
    (hr : d.room = c'.room) (hb : d.breaks = c'.breaks) : Wrote c b d :=
  ⟨by simpa only [Emitted, hw] using h.wire, h.fits, hr.trans h.room, hb.trans h.breaks⟩

theorem writeData_cases (bytes : Bytes) (c : Conn) :
    (∃ c', writeData bytes c = .ok () c' ∧ Wrote c bytes c' ∧
        c'.closeConnection = c.closeConnection) ∨
      ∃ c' r, writeData bytes c = .error (.host c.breaks) c' ∧ r < bytes.length ∧
        Broke c (bytes.take r) c' := by
  unfold writeData write
  cases hr : c.room with
  | none =>
      refine Or.inl ⟨_, rfl, ⟨⟨[bytes], rfl, by simp⟩, by simp [hr], by simp [hr], rfl⟩, rfl⟩
  | some r =>
      by_cases hle : bytes.length ≤ r
      · simp only [hle, if_true]
        refine Or.inl ⟨_, rfl, ⟨⟨[bytes], rfl, by simp⟩, ?_, by simp [hr], rfl⟩, rfl⟩
        intro r' hr'
        obtain rfl : r = r' := by simpa [hr] using hr'
        exact hle
      · simp only [hle, if_false]
        refine Or.inr ⟨_, r, rfl, by omega, ⟨⟨[bytes.take r], rfl, by simp⟩, ?_, rfl⟩⟩
        rw [hr, List.length_take]
        congr 1
        omega

/-! ## Reading the image -/

/-- What a read gives starts at its position and is no longer than asked for. -/
theorem Handle.readAt_ok {h : Handle} {pos n : Nat} {bytes : Bytes}
    (hr : h.readAt pos n = .ok bytes) :
    bytes = h.image.sub pos bytes.length ∧ bytes.length ≤ n := by
  unfold Handle.readAt at hr
  split at hr
  · rename_i k _
    obtain rfl : h.image.sub pos (min k n) = bytes := by simpa using hr
    have hlen := h.image.sub_length_le pos (min k n)
    refine ⟨?_, by omega⟩
    rw [← h.image.take_sub pos hlen, List.take_length]
  · simp at hr

/-- Where reading `remaining` bytes from `pos` chunk by chunk stops early, after how many
bytes and with what. An empty read is a file that ended, an `OSError`. -/
def Handle.readFault (h : Handle) (fuel pos remaining : Nat) : Option (Nat × Fault) :=
  match fuel with
  | 0 => none
  | fuel + 1 =>
      if remaining = 0 then none
      else
        match h.readAt pos (min remaining chunkSize) with
        | .error e => some (0, e)
        | .ok [] => some (0, .os)
        | .ok (_ :: chunk) =>
            (h.readFault fuel (pos + (chunk.length + 1)) (remaining - (chunk.length + 1))).map
              fun f => (chunk.length + 1 + f.1, f.2)

def Handle.manualFault (h : Handle) (offset length : Nat) : Option (Nat × Fault) :=
  match h.seek offset with
  | some e => some (0, e)
  | none => h.readFault length offset length

/-- How sending `[pos, pos + n)` ends when what stops the reading is `fault`. -/
inductive Sent (image : Bytes) (pos n : Nat) (fault : Option (Nat × Fault)) (c : Conn) :
    EStateM.Result Exc Conn Unit → Prop
  | all {c' : Conn} (hf : fault = none) (hlen : (image.sub pos n).length = n)
      (hw : Wrote c (image.sub pos n) c') (hc : c'.closeConnection = c.closeConnection) :
      Sent image pos n fault c (.ok () c')
  | stopped {c' : Conn} {k : Nat} {e : Fault} (hf : fault = some (k, e)) (hk : k ≤ n)
      (hlen : (image.sub pos k).length = k) (hw : Wrote c (image.sub pos k) c') :
      Sent image pos n fault c (.error (.host e) c')
  | broke {c' : Conn} {r : Nat} (hr : r < n) (hlen : (image.sub pos r).length = r)
      (hf : ∀ k e, fault = some (k, e) → r < k) (hb : Broke c (image.sub pos r) c') :
      Sent image pos n fault c (.error (.host c.breaks) c')

theorem Sent.after {image : Bytes} {pos a n : Nat} {fault : Option (Nat × Fault)} {c c' : Conn}
    {res : EStateM.Result Exc Conn Unit} (hw : Wrote c (image.sub pos a) c')
    (hlen : (image.sub pos a).length = a) (hc : c'.closeConnection = c.closeConnection)
    (hs : Sent image (pos + a) n fault c' res) :
    Sent image pos (a + n) (fault.map fun f => (a + f.1, f.2)) c res := by
  have hjoin := image.sub_append pos a
  have hlen' : ∀ k, (image.sub (pos + a) k).length = k → (image.sub pos (a + k)).length = a + k := by
    intro k hk
    rw [← hjoin k, List.length_append, hlen, hk]
  cases hs with
  | all hf hl hw' hc' =>
      refine .all (by simp [hf]) (hlen' n hl) ?_ (hc'.trans hc)
      rw [← hjoin n]
      exact hw.trans hw'
  | @stopped _ k e hf hk hl hw' =>
      refine .stopped (k := a + k) (by simp [hf]) (by omega) (hlen' k hl) ?_
      rw [← hjoin k]
      exact hw.trans hw'
  | @broke _ r hr hl hf hb =>
      rw [hw.breaks]
      refine .broke (r := a + r) (by omega) (hlen' r hl) ?_ ?_
      · intro k e hk
        obtain ⟨f, hfault, heq⟩ := Option.map_eq_some_iff.mp hk
        have := hf f.1 f.2 hfault
        have hk' : a + f.1 = k := congrArg Prod.fst heq
        omega
      · rw [← hjoin r]
        exact hw.broke hb

theorem Sent.zero (image : Bytes) (pos : Nat) (c : Conn) : Sent image pos 0 none c (.ok () c) := by
  have hz : image.sub pos 0 = [] := by simp [Bytes.sub]
  exact .all rfl (by simp [hz]) (hz ▸ Wrote.refl c) rfl

/-- The loop sends the image up to where reading it or the connection stops. -/
theorem sent_sendChunks (h : Handle) (fuel : Nat) : ∀ (pos remaining : Nat) (c : Conn),
    remaining ≤ fuel →
      Sent h.image pos remaining (h.readFault fuel pos remaining) c
        (sendChunks h fuel pos remaining c) := by
  induction fuel with
  | zero =>
      intro pos remaining c hle
      obtain rfl : remaining = 0 := by omega
      exact Sent.zero h.image pos c
  | succ fuel ih =>
      intro pos remaining c hle
      unfold sendChunks Handle.readFault
      by_cases hz : remaining = 0
      · subst hz
        exact Sent.zero h.image pos c
      · simp only [hz, if_false]
        have hempty : h.image.sub pos 0 = [] := by simp [Bytes.sub]
        cases hread : h.readAt pos (min remaining chunkSize) with
        | error e =>
            exact .stopped (k := 0) rfl (by omega) (by simp [hempty]) (hempty ▸ Wrote.refl c)
        | ok bytes =>
            obtain ⟨hslice, hlen⟩ := Handle.readAt_ok hread
            cases bytes with
            | nil =>
                refine .stopped (k := 0) rfl (by omega) (by simp [hempty]) ?_
                rw [hempty]
                exact (Wrote.refl c).congr rfl rfl rfl
            | cons b chunk =>
                have hn : chunk.length + 1 ≤ remaining := by
                  simp only [List.length_cons] at hlen
                  omega
                have hsum : chunk.length + 1 + (remaining - (chunk.length + 1)) = remaining := by
                  omega
                simp only [List.length_cons] at hslice
                have hfull : (h.image.sub pos (chunk.length + 1)).length = chunk.length + 1 := by
                  rw [← hslice, List.length_cons]
                rcases writeData_cases (b :: chunk) c with
                  ⟨c', hok, hw, hc⟩ | ⟨c', r, herr, hr, hb⟩
                · have hrest := ih (pos + (chunk.length + 1)) (remaining - (chunk.length + 1)) c'
                    (by omega)
                  have hs := Sent.after (hslice ▸ hw) hfull hc hrest
                  rw [hsum] at hs
                  simpa only [bind_ok hok] using hs
                · simp only [bind_error herr]
                  have htake : (b :: chunk).take r = h.image.sub pos r := by
                    rw [hslice]
                    exact h.image.take_sub pos (by simpa using Nat.le_of_lt hr)
                  have hrl : (h.image.sub pos r).length = r := by
                    rw [← htake, List.length_take]
                    omega
                  simp only [List.length_cons] at hr
                  refine .broke (by omega) hrl ?_ (htake ▸ hb)
                  intro k e hk
                  obtain ⟨f, -, hf⟩ := Option.map_eq_some_iff.mp hk
                  have hk' : chunk.length + 1 + f.1 = k := congrArg Prod.fst hf
                  omega

theorem sent_sendManual (h : Handle) (offset length : Nat) (c : Conn) :
    Sent h.image offset length (h.manualFault offset length) c (sendManual h offset length c) := by
  unfold sendManual Handle.manualFault
  cases h.seek offset with
  | none => exact sent_sendChunks h length offset length c (Nat.le_refl _)
  | some e =>
      have hempty : h.image.sub offset 0 = [] := by simp [Bytes.sub]
      exact .stopped (k := 0) rfl (by omega) (by simp [hempty]) (hempty ▸ Wrote.refl c)

/-! ## Bodies -/

/-- The handle `_handle_for` gives. -/
def World.handle (w : World) (cachedPath : Option Str) (entry : GameEntry) :
    Except Fault Handle :=
  if cachedPath = some entry.path then .ok w.cached else w.openEntry entry

/-- Where reading stops what `connection.sendfile` left of a plain file. -/
def Handle.plainFault (h : Handle) (offset length : Nat) : Option (Nat × Fault) :=
  match h.sendfile offset length with
  | .failed _ => none
  | .refused => if length = 0 then none else h.manualFault offset length
  | .sent k =>
      let sent := (h.image.sub offset (min k length)).length
      if sent = length then none
      else (h.manualFault (offset + sent) (length - sent)).map fun f => (sent + f.1, f.2)

/-- Where sending `[offset, offset + length)` stops early because of the host, and with what. -/
def World.bodyFault (w : World) (cachedPath : Option Str) (entry : GameEntry)
    (offset length : Nat) : Option (Nat × Fault) :=
  match w.handle cachedPath entry with
  | .error e => some (0, e)
  | .ok h =>
      if entry.compressed then h.manualFault offset length else h.plainFault offset length

/-- How `_send_bytes` ends. -/
inductive Body (image : Bytes) (pos n : Nat) (fault : Option (Nat × Fault)) (c : Conn) :
    EStateM.Result Exc Conn Unit → Prop
  | sent {res : EStateM.Result Exc Conn Unit} (hs : Sent image pos n fault c res) :
      Body image pos n fault c res
  | dropped {c' : Conn} {k : Nat} (hk : k ≤ n) (hlen : (image.sub pos k).length = k)
      (hw : Emitted c (image.sub pos k) c') (hc : c'.closeConnection = true)
      (hf : ∀ k' e, fault = some (k', e) → ∃ r, c.room = some r ∧ r < k') :
      Body image pos n fault c (.ok () c')

/-- The cached handle plays no part in what goes out. -/
theorem Body.of_cachedPath {image : Bytes} {pos n : Nat} {fault : Option (Nat × Fault)} {c : Conn}
    (path : Option Str) {res : EStateM.Result Exc Conn Unit}
    (hb : Body image pos n fault { c with cachedPath := path } res) : Body image pos n fault c res := by
  cases hb with
  | sent hs =>
      cases hs with
      | all hf hlen hw hc => exact .sent (.all hf hlen ⟨hw.wire, hw.fits, hw.room, hw.breaks⟩ hc)
      | stopped hf hk hlen hw =>
          exact .sent (.stopped hf hk hlen ⟨hw.wire, hw.fits, hw.room, hw.breaks⟩)
      | broke hr hlen hf hb => exact .sent (.broke hr hlen hf ⟨hb.wire, hb.room, hb.empty⟩)
  | dropped hk hlen hw hc hf => exact .dropped hk hlen hw hc hf

theorem handleFor_eq (w : World) (entry : GameEntry) (c : Conn) :
    ∃ cached, handleFor w entry c =
      match w.handle c.cachedPath entry with
      | .ok h => .ok h { c with cachedPath := cached }
      | .error e => .error (.host e) { c with cachedPath := cached } := by
  unfold handleFor World.handle
  by_cases hc : c.cachedPath = some entry.path
  · exact ⟨some entry.path, by simp [← hc]⟩
  · simp only [hc, if_false]
    cases w.openEntry entry with
    | ok h => exact ⟨some entry.path, rfl⟩
    | error e => exact ⟨none, rfl⟩

/-- What a connection that breaks inside `bytes` of the image lets through. -/
theorem Broke.of_slice {image : Bytes} {pos n r : Nat} {c c' : Conn}
    (hb : Broke c ((image.sub pos n).take r) c') (hr : r < (image.sub pos n).length) :
    Emitted c (image.sub pos r) c' ∧ (image.sub pos r).length = r ∧ c.room = some r := by
  have hlen := image.sub_length_le pos n
  have htake : (image.sub pos n).take r = image.sub pos r := image.take_sub pos (by omega)
  have hrl : (image.sub pos r).length = r := by
    rw [← htake, List.length_take]
    omega
  refine ⟨htake ▸ hb.wire, hrl, ?_⟩
  rw [hb.room, htake, hrl]

theorem body_sendPlain (h : Handle) (offset length : Nat) (c : Conn) :
    Body h.image offset length (h.plainFault offset length) c (sendPlain h offset length c) := by
  unfold sendPlain Handle.plainFault
  rw [bind_apply, sendFile]
  cases h.sendfile offset length with
  | refused =>
      by_cases hz : length = 0
      · subst hz
        exact .sent (Sent.zero h.image offset c)
      · simpa only [hz, Ne.symm hz, if_false, Nat.add_zero, Nat.sub_zero]
          using Body.sent (sent_sendManual h offset length c)
  | sent k =>
      dsimp only
      generalize hbytes : h.image.sub offset (min k length) = bytes
      have hb : h.image.sub offset bytes.length = bytes := hbytes ▸ h.image.sub_length offset _
      have hle : bytes.length ≤ length := by
        have := h.image.sub_length_le offset (min k length)
        rw [hbytes] at this
        omega
      rcases writeData_cases bytes c with ⟨c', hok, hw, hc⟩ | ⟨c', r, herr, hr, hbr⟩
      · rw [hok]
        by_cases hfull : bytes.length = length
        · simp only [hfull, if_true]
          exact .sent (.all rfl (by rw [← hfull, hb]) (by rwa [← hfull, hb]) hc)
        · simp only [hfull, if_false]
          have hrest := sent_sendManual h (offset + bytes.length) (length - bytes.length) c'
          have hs := Sent.after (hb.symm ▸ hw) (by rw [hb]) hc hrest
          rw [Nat.add_sub_cancel' hle] at hs
          exact .sent hs
      · rw [herr]
        subst hbytes
        obtain ⟨hem, hrl, hroom⟩ := hbr.of_slice hr
        refine .dropped (by omega) hrl hem rfl ?_
        intro k' e hk'
        refine ⟨r, hroom, ?_⟩
        split at hk'
        · simp at hk'
        · obtain ⟨f, -, hf⟩ := Option.map_eq_some_iff.mp hk'
          have : (h.image.sub offset (min k length)).length + f.1 = k' := congrArg Prod.fst hf
          omega
  | failed k =>
      dsimp only
      have hle : (h.image.sub offset (min k length)).length ≤ length := by
        have := h.image.sub_length_le offset (min k length)
        omega
      rcases writeData_cases (h.image.sub offset (min k length)) c with
        ⟨c', hok, hw, -⟩ | ⟨c', r, herr, hr, hbr⟩
      · rw [hok]
        have hb := h.image.sub_length offset (min k length)
        exact .dropped hle (by rw [hb]) (hb.symm ▸ hw.wire) rfl (by simp)
      · rw [herr]
        obtain ⟨hem, hrl, -⟩ := hbr.of_slice hr
        exact .dropped (by omega) hrl hem rfl (by simp)

/-- The image behind an entry, empty when it cannot be opened. -/
def World.image (w : World) (cachedPath : Option Str) (entry : GameEntry) : Bytes :=
  match w.handle cachedPath entry with
  | .ok h => h.image
  | .error _ => []

theorem body_sendBytes (w : World) (entry : GameEntry) (offset length : Nat) (c : Conn) :
    Body (w.image c.cachedPath entry) offset length
      (w.bodyFault c.cachedPath entry offset length) c (sendBytes w entry offset length c) := by
  obtain ⟨cached, heq⟩ := handleFor_eq w entry c
  unfold sendBytes World.bodyFault World.image
  apply Body.of_cachedPath cached
  cases hh : w.handle c.cachedPath entry with
  | ok h =>
      rw [hh] at heq
      rw [bind_ok heq]
      dsimp only
      split
      · exact .sent (sent_sendManual h offset length _)
      · exact body_sendPlain h offset length _
  | error e =>
      rw [hh] at heq
      rw [bind_error heq]
      have hempty : Bytes.sub [] offset 0 = [] := by simp [Bytes.sub]
      exact .sent (.stopped (k := 0) rfl (by omega) (by simp [hempty]) (hempty ▸ Wrote.refl _))

end Ps2Servers.Http
