import Ps2Servers.Http.Framing

/-!
# Framing of responses

A header block that declares `n` bytes is followed by these bytes, or by fewer of
them and the end of the connection. This is what the driver relies on, which
reads a fixed count. It holds for a request exactly when no `OSError` other than
a broken connection stops the body: `_dispatch` answers such an error with a
second response, which lands inside the body already declared.
-/

namespace Ps2Servers.Http

open Effects

/-! ## Requests -/

/-- The header block of a game response, and the range of the image it announces. -/
structure Answer where
  code : Nat
  message : String
  fields : List (String × String)
  offset : Nat
  length : Nat

/-- What `_serve_game` answers with. -/
def answer (w : World) (r : Request) (entry : GameEntry) : Except Exc Answer :=
  match parseRange entry.size r.range with
  | .error e => .error e
  | .ok none => .ok ⟨200, "OK", gameFields w entry.size [], 0, entry.size⟩
  | .ok (some (start, stop)) =>
      .ok ⟨206, "Partial Content",
        gameFields w (stop - start + 1)
          [("Content-Range", "bytes " ++ toString start ++ "-" ++ toString stop ++ "/" ++
            toString entry.size)],
        start, stop - start + 1⟩

theorem serveGame_eq (w : World) (r : Request) (entry : GameEntry) :
    serveGame w r entry =
      match answer w r entry with
      | .error e => throw e
      | .ok a =>
          (do
            sendHead a.code a.message a.fields a.length
            if r.body then sendBytes w entry a.offset a.length) := by
  unfold serveGame answer
  cases parseRange entry.size r.range with
  | error e => rfl
  | ok span =>
      cases span with
      | none => rfl
      | some s => rfl

/-- What follows a header block for `count` bytes of `source`: these bytes, or fewer of them
and the end of the connection. -/
def BodyFramed (source : Bytes) (count : Nat) (rest : List Event) : Prop :=
  ∃ (chunks : List Bytes) (tail : List Event) (k : Nat),
    rest = chunks.map Event.data ++ tail ∧ chunks.flatten = source.take k ∧
      chunks.flatten.length = k ∧
      (k = count ∧ (tail = [] ∨ tail = [.close]) ∨ k < count ∧ tail = [.close])

/-- What the response to `r` declares: the bytes it counts from, and how many. -/
def declared (w : World) (r : Request) (c : Conn) : Bytes × Nat :=
  match r.target with
  | .gamesCsv payload => (payload, payload.length)
  | .game entry =>
      match answer w r entry with
      | .ok a => ((w.image c.cachedPath entry).drop a.offset, a.length)
      | .error _ => ([], 0)
  | _ => ([], 0)

/-- Every 200 or 206 header block of the response declares its body's length, and is
followed by its body. A `HEAD` request has none. -/
def Framed (w : World) (r : Request) (c : Conn) : Prop :=
  ∀ code n rest, (respond w r c).wire = c.wire ++ .head code n :: rest →
    code = 200 ∨ code = 206 →
      n = (declared w r c).2 ∧
        BodyFramed (declared w r c).1 (if r.body then n else 0) rest

/-- No `OSError` stops the body of a game on a connection that would still take a byte. -/
def Undisturbed (w : World) (r : Request) (c : Conn) : Prop :=
  ∀ entry a k, r.body = true → r.target = .game entry → answer w r entry = .ok a →
    w.bodyFault c.cachedPath entry a.offset a.length = some (k, .os) →
      ∃ room, c.room = some room ∧ room ≤ (headerText a.code a.message a.fields).length + k

theorem headerText_length_pos (code : Nat) (message : String) (fields : List (String × String)) :
    0 < (headerText code message fields).length := by
  have h : 0 < "HTTP/1.1 ".length := by decide
  simp only [headerText, String.length_append]
  omega

theorem sendHead_cases (code : Nat) (message : String) (fields : List (String × String))
    (n : Nat) (c : Conn) :
    (∃ c', sendHead code message fields n c = .ok () c' ∧
        c'.wire = c.wire ++ [.head code n] ∧
        (∀ room, c.room = some room → (headerText code message fields).length ≤ room) ∧
        c'.room = c.room.map (· - (headerText code message fields).length) ∧
        c'.cachedPath = c.cachedPath ∧ c'.closeConnection = c.closeConnection) ∨
      ∃ c' room, sendHead code message fields n c = .error (.host c.breaks) c' ∧
        c.room = some room ∧ room < (headerText code message fields).length ∧
        c'.room = some 0 ∧ c'.wire = c.wire ++ if room = 0 then [] else [.cut] := by
  unfold sendHead write
  cases hr : c.room with
  | none => exact Or.inl ⟨_, rfl, rfl, by simp, by simp, rfl, rfl⟩
  | some room =>
      by_cases hle : (headerText code message fields).length ≤ room
      · simp only [hle, if_true]
        refine Or.inl ⟨_, rfl, rfl, ?_, by simp, rfl, rfl⟩
        intro room' hroom
        obtain rfl : room = room' := by simpa using hroom
        exact hle
      · simp only [hle, if_false]
        exact Or.inr ⟨_, room, rfl, rfl, by omega, rfl, rfl⟩

theorem sendHead_of_broken (code : Nat) (message : String) (fields : List (String × String))
    (n : Nat) {c : Conn} (hr : c.room = some 0) :
    ∃ c', sendHead code message fields n c = .error (.host c.breaks) c' ∧ c'.wire = c.wire := by
  rcases sendHead_cases code message fields n c with
    ⟨c', -, -, hfits, -⟩ | ⟨c', room, herr, hroom, -, -, hw⟩
  · have hle := hfits 0 hr
    have hpos := headerText_length_pos code message fields
    omega
  · obtain rfl : 0 = room := by simpa [hr] using hroom
    exact ⟨c', herr, by simpa using hw⟩

/-- On a broken connection a short response leaves no trace. -/
theorem sendShort_of_broken (w : World) (body : Bool) (code : Nat) (message : String) {c : Conn}
    (hr : c.room = some 0) :
    ∃ c' e, sendShort w body code message c = .error e c' ∧ c'.wire = c.wire := by
  obtain ⟨c', herr, hw⟩ := sendHead_of_broken code message _ _ hr
  exact ⟨c', _, bind_error herr, hw⟩

/-- Otherwise it starts with a header block, or a part of one. -/
theorem sendShort_of_live (w : World) (body : Bool) (code : Nat) (message : String) {c : Conn}
    (hr : c.room ≠ some 0) :
    ∃ ev rest c', (ev = Event.cut ∨ ∃ n, ev = .head code n) ∧
      (sendShort w body code message c = .ok () c' ∨
        ∃ e, sendShort w body code message c = .error e c') ∧
      c'.wire = c.wire ++ ev :: rest := by
  unfold sendShort
  rcases sendHead_cases code message _ _ c with
    ⟨c', hok, hw, -⟩ | ⟨c', room, herr, hroom, -, -, hw⟩
  · rw [bind_ok hok]
    cases body with
    | false => exact ⟨_, [], c', Or.inr ⟨_, rfl⟩, Or.inl rfl, hw⟩
    | true =>
        rcases writeData_cases (message ++ "\n").toUTF8.toList c' with
          ⟨c'', hok', hw', -⟩ | ⟨c'', room, herr, -, hb⟩
        · obtain ⟨chunks, hchunks, -⟩ := hw'.wire
          exact ⟨_, _, c'', Or.inr ⟨_, rfl⟩, Or.inl hok', by rw [hchunks, hw, List.append_assoc]; rfl⟩
        · obtain ⟨chunks, hchunks, -⟩ := hb.wire
          exact ⟨_, _, c'', Or.inr ⟨_, rfl⟩, Or.inr ⟨_, herr⟩,
            by rw [hchunks, hw, List.append_assoc]; rfl⟩
  · have hne : room ≠ 0 := by
      rintro rfl
      exact hr hroom
    exact ⟨.cut, [], c', Or.inl rfl, Or.inr ⟨_, bind_error herr⟩, by simpa [hne] using hw⟩

/-! ## The end of a response -/

theorem bodyFramed_closed {image : Bytes} {pos n k : Nat} {c c' d : Conn} (hk : k ≤ n)
    (hlen : (image.sub pos k).length = k) (hw : Emitted c (image.sub pos k) c')
    (hd : d.wire = c'.wire ++ [.close]) :
    ∃ rest, d.wire = c.wire ++ rest ∧ BodyFramed (image.drop pos) n rest := by
  obtain ⟨chunks, hchunks, hflat⟩ := hw
  refine ⟨chunks.map Event.data ++ [.close], by rw [hd, hchunks, List.append_assoc], ?_⟩
  refine ⟨chunks, [.close], k, rfl, hflat, by rw [hflat, hlen], ?_⟩
  by_cases hkn : k = n
  · exact Or.inl ⟨hkn, Or.inr rfl⟩
  · exact Or.inr ⟨by omega, rfl⟩

/-- An `OSError` on a broken connection cannot be answered, and ends the connection. -/
theorem ended_of_broken (w : World) (r : Request) (e : Fault) {c : Conn}
    (hr : c.room = some 0) :
    (ended (handled w r (.error (.host e) c))).wire = c.wire ++ [.close] := by
  cases e with
  | reset => rfl
  | other => rfl
  | os =>
      obtain ⟨c', e', herr, hw⟩ := sendShort_of_broken w r.body 500 "Internal Server Error" hr
      simp only [handled, herr, ended, hw]

/-- A body that no answerable `OSError` stops is framed. -/
theorem bodyFramed_of_body (w : World) (r : Request) {image : Bytes} {pos n : Nat}
    {fault : Option (Nat × Fault)} {c : Conn} {res : EStateM.Result Exc Conn Unit}
    (hb : Body image pos n fault c res)
    (hq : ∀ k, fault = some (k, .os) → ∃ room, c.room = some room ∧ room ≤ k) :
    ∃ rest, (ended (handled w r res)).wire = c.wire ++ rest ∧
      BodyFramed (image.drop pos) n rest := by
  cases hb with
  | @dropped c' k hk hlen hw hc hf =>
      exact bodyFramed_closed hk hlen hw (by simp [handled, ended, hc])
  | sent hs =>
      cases hs with
      | @all c' hf hlen hw hc =>
          by_cases hclose : c'.closeConnection = true
          · exact bodyFramed_closed (Nat.le_refl n) hlen hw.wire (by simp [handled, ended, hclose])
          · obtain ⟨chunks, hchunks, hflat⟩ := hw.wire
            refine ⟨chunks.map Event.data, ?_, chunks, [], n, by simp, hflat, ?_, ?_⟩
            · simp [handled, ended, hclose, hchunks]
            · rw [hflat, hlen]
            · exact Or.inl ⟨rfl, Or.inl rfl⟩
      | @stopped c' k e hf hk hlen hw =>
          refine bodyFramed_closed hk hlen hw.wire ?_
          cases e with
          | reset => rfl
          | other => rfl
          | os =>
              obtain ⟨room, hroom, hle⟩ := hq k hf
              have hfits := hw.fits room hroom
              apply ended_of_broken
              rw [hw.room, hroom, Option.map_some, hlen]
              congr 1
              omega
      | @broke c' k hk hlen hf hb =>
          exact bodyFramed_closed (Nat.le_of_lt hk) hlen hb.wire (ended_of_broken w r _ hb.empty)

/-- An `OSError` that stops a body on a live connection puts a second response behind it. -/
theorem spoiled_of_body (w : World) (r : Request) {image : Bytes} {pos n k : Nat}
    {fault : Option (Nat × Fault)} {c : Conn} {res : EStateM.Result Exc Conn Unit}
    (hb : Body image pos n fault c res) (hf : fault = some (k, .os))
    (hlive : ∀ room, c.room = some room → k < room) :
    ∃ rest, (ended (handled w r res)).wire = c.wire ++ rest ∧
      ∃ ev ∈ rest, ev = Event.cut ∨ ∃ m, ev = .head 500 m := by
  cases hb with
  | dropped _ _ _ _ hd =>
      obtain ⟨room, hroom, hlt⟩ := hd k _ hf
      have := hlive room hroom
      omega
  | sent hs =>
      cases hs with
      | all hn => simp [hn] at hf
      | @broke c' room _ hlen hd hb =>
          have h₁ := hd k _ hf
          have h₂ := hlive room (by rw [hb.room, hlen])
          omega
      | @stopped c' k' e hs hk hlen hw =>
          obtain ⟨rfl, rfl⟩ : k' = k ∧ e = .os := by simpa [hs] using hf
          have hroom : c'.room ≠ some 0 := by
            rw [hw.room]
            intro hz
            obtain ⟨room, hr, hz⟩ := Option.map_eq_some_iff.mp hz
            have := hlive room hr
            omega
          obtain ⟨ev, rest, d, hev, hres, hd⟩ :=
            sendShort_of_live w r.body 500 "Internal Server Error" hroom
          obtain ⟨chunks, hchunks, -⟩ := hw.wire
          have hended : ∃ tail, (ended (handled w r (.error (.host .os) c'))).wire =
              c.wire ++ (chunks.map Event.data ++ ev :: rest ++ tail) := by
            rw [handled]
            rcases hres with hok | ⟨e, herr⟩
            · rw [hok, ended]
              split
              · exact ⟨[.close], by simp [hd, hchunks]⟩
              · exact ⟨[], by simp [hd, hchunks]⟩
            · exact ⟨[.close], by simp [herr, ended, hd, hchunks]⟩
          obtain ⟨tail, htail⟩ := hended
          exact ⟨_, htail, ev, by simp, hev⟩

theorem BodyFramed.no_head {source : Bytes} {count : Nat} {rest : List Event}
    (h : BodyFramed source count rest) {ev : Event} (hev : ev ∈ rest) :
    ev ≠ .cut ∧ ∀ code n, ev ≠ .head code n := by
  obtain ⟨chunks, tail, k, rfl, -, -, htail⟩ := h
  have hcases : (∃ bytes, ev = .data bytes) ∨ ev = .close := by
    rcases List.mem_append.mp hev with hev | hev
    · obtain ⟨bytes, -, rfl⟩ := List.mem_map.mp hev
      exact Or.inl ⟨bytes, rfl⟩
    · rcases htail with ⟨-, rfl | rfl⟩ | ⟨-, rfl⟩
      · simp at hev
      · exact Or.inr (by simpa using hev)
      · exact Or.inr (by simpa using hev)
  rcases hcases with ⟨bytes, rfl⟩ | rfl <;> simp

/-- A header block and a body behind it: framed exactly when no answerable `OSError` stops
the body. -/
theorem framed_head_iff (w : World) (r : Request) {code n : Nat} {message : String}
    {fields : List (String × String)} {body : Action Unit} {image : Bytes} {pos count : Nat}
    {fault : Option (Nat × Fault)} {c : Conn} (hcode : code = 200 ∨ code = 206)
    (hbody : ∀ c', c'.cachedPath = c.cachedPath → Body image pos count fault c' (body c')) :
    (∀ code' n' rest,
        (ended (handled w r ((sendHead code message fields n >>= fun _ => body) c))).wire =
            c.wire ++ .head code' n' :: rest →
          code' = 200 ∨ code' = 206 → n' = n ∧ BodyFramed (image.drop pos) count rest) ↔
      ∀ k, fault = some (k, .os) → ∃ room, c.room = some room ∧
        room ≤ (headerText code message fields).length + k := by
  rcases sendHead_cases code message fields n c with
    ⟨c', hok, hw, hfits, hroom, hpath, -⟩ | ⟨c', room, herr, hroom, hlt, hempty, hw⟩
  · rw [bind_ok hok]
    have hb := hbody c' hpath
    constructor
    · intro hall k hf
      by_contra hno
      have hlive : ∀ room, c'.room = some room → k < room := by
        intro room' hroom'
        rw [hroom] at hroom'
        obtain ⟨room, hr, rfl⟩ := Option.map_eq_some_iff.mp hroom'
        by_contra hle
        exact hno ⟨room, hr, by omega⟩
      obtain ⟨rest, hrest, ev, hev, hjunk⟩ := spoiled_of_body w r hb hf hlive
      rw [hw, List.append_assoc] at hrest
      obtain ⟨-, hframed⟩ := hall code n rest hrest hcode
      obtain ⟨hcut, hhead⟩ := hframed.no_head hev
      rcases hjunk with h | ⟨m, h⟩
      · exact hcut h
      · exact hhead _ _ h
    · intro hq code' n' rest hwire _
      obtain ⟨rest', hrest', hframed⟩ := bodyFramed_of_body w r hb (by
        intro k hf
        obtain ⟨room, hr, hle⟩ := hq k hf
        exact ⟨_, by rw [hroom, hr, Option.map_some], by omega⟩)
      rw [hrest', hw, List.append_assoc] at hwire
      have heq := List.append_cancel_left hwire
      simp only [List.singleton_append, List.cons.injEq, Event.head.injEq] at heq
      exact ⟨heq.1.2.symm, heq.2 ▸ hframed⟩
  · rw [bind_error herr, ended_of_broken w r _ hempty, hw]
    constructor
    · intro _ k _
      exact ⟨room, hroom, by omega⟩
    · intro _ code' n' rest hwire
      rw [List.append_assoc] at hwire
      have heq := List.append_cancel_left hwire
      split at heq <;> simp at heq

/-- A body given as bytes. -/
theorem body_writeData (payload : Bytes) (c : Conn) :
    Body payload 0 payload.length none c (writeData payload c) := by
  have hall : payload.sub 0 payload.length = payload := by simp [Bytes.sub]
  rcases writeData_cases payload c with ⟨c', hok, hw, hc⟩ | ⟨c', r, herr, hr, hb⟩
  · rw [hok]
    exact .sent (.all rfl (by rw [hall]) (hall.symm ▸ hw) hc)
  · rw [herr]
    have htake : payload.sub 0 r = payload.take r := by simp [Bytes.sub]
    refine .sent (.broke hr ?_ (by simp) (htake.symm ▸ hb))
    rw [htake, List.length_take]
    omega

/-- A `HEAD` response has no body. -/
theorem body_none (image : Bytes) (pos : Nat) (c : Conn) :
    Body image pos 0 none c ((pure () : Action Unit) c) :=
  .sent (Sent.zero image pos c)

/-- A short response fails only on a broken connection. -/
theorem sendShort_error {w : World} {body : Bool} {code : Nat} {message : String} {c c' : Conn}
    {e : Exc} (h : sendShort w body code message c = .error e c') :
    ∃ fault, e = .host fault ∧ c'.room = some 0 := by
  unfold sendShort at h
  rcases sendHead_cases code message _ _ c with
    ⟨c₁, hok, -⟩ | ⟨c₁, room, herr, -, -, hempty, -⟩
  · rw [bind_ok hok] at h
    cases body with
    | false => simp at h
    | true =>
        rcases writeData_cases (message ++ "\n").toUTF8.toList c₁ with
          ⟨c₂, hok', -⟩ | ⟨c₂, room, herr, -, hb⟩
        · simp only [if_true, hok', reduceCtorEq] at h
        · simp only [if_true, herr, EStateM.Result.error.injEq] at h
          exact ⟨_, h.1.symm, h.2 ▸ hb.empty⟩
  · rw [bind_error herr, EStateM.Result.error.injEq] at h
    exact ⟨_, h.1.symm, h.2 ▸ hempty⟩

theorem ended_handled_sendShort (w : World) (r : Request) (code : Nat) (message : String)
    (c : Conn) :
    (ended (handled w r (sendShort w r.body code message c))).wire =
      (ended (sendShort w r.body code message c)).wire := by
  cases h : sendShort w r.body code message c with
  | ok _ c' => rfl
  | error e c' =>
      obtain ⟨fault, rfl, hroom⟩ := sendShort_error h
      exact ended_of_broken w r fault hroom

/-- The first header block of a short response carries its own code. -/
theorem sendShort_code {w : World} {body : Bool} {code code' n : Nat} {message : String}
    {c : Conn} {rest : List Event}
    (h : (ended (sendShort w body code message c)).wire = c.wire ++ .head code' n :: rest) :
    code' = code := by
  by_cases hr : c.room = some 0
  · obtain ⟨c', e, herr, hw⟩ := sendShort_of_broken w body code message hr
    simp [herr, ended, hw] at h
  · obtain ⟨ev, rest', c', hev, hres, hw⟩ := sendShort_of_live w body code message hr
    have hended : ∃ tail, (ended (sendShort w body code message c)).wire =
        c.wire ++ ev :: (rest' ++ tail) := by
      rcases hres with hok | ⟨e, herr⟩
      · rw [hok, ended]
        split
        · exact ⟨[.close], by simp [hw]⟩
        · exact ⟨[], by simp [hw]⟩
      · exact ⟨[.close], by simp [herr, ended, hw]⟩
    obtain ⟨tail, htail⟩ := hended
    rw [htail] at h
    have heq := List.append_cancel_left h
    rw [List.cons.injEq] at heq
    rcases hev with rfl | ⟨m, rfl⟩
    · simp at heq
    · exact (Event.head.inj heq.1).1.symm

/-- A short response is none of those the framing speaks about. -/
theorem framed_of_short {w : World} {r : Request} {c : Conn} {code : Nat} {message : String}
    (h : (respond w r c).wire =
      (ended (sendShort w r.body code message { c with closeConnection := r.closes })).wire)
    (hcode : code ≠ 200 ∧ code ≠ 206) : Framed w r c := by
  intro code' n rest hwire hgame
  rw [h] at hwire
  have : code' = code := sendShort_code hwire
  omega

/-- A response that announces a body and sends it unless the request is a `HEAD`. -/
theorem framed_iff_of_head {w : World} {r : Request} {c : Conn} {code n : Nat}
    {message : String} {fields : List (String × String)} {body : Action Unit} {image : Bytes}
    {pos : Nat} {fault : Option (Nat × Fault)} (hcode : code = 200 ∨ code = 206)
    (hroute : route w r =
      sendHead code message fields n >>= fun _ => if r.body then body else pure ())
    (hdecl : declared w r c = (image.drop pos, n))
    (hbody : ∀ c', c'.cachedPath = c.cachedPath → Body image pos n fault c' (body c')) :
    Framed w r c ↔ (r.body = true → ∀ k, fault = some (k, .os) → ∃ room,
      c.room = some room ∧ room ≤ (headerText code message fields).length + k) := by
  unfold Framed respond dispatch
  rw [hroute, hdecl]
  cases hb : r.body with
  | true =>
      simp only [if_true, forall_const]
      rw [← framed_head_iff w r (c := { c with closeConnection := r.closes }) hcode hbody]
      constructor
      · intro h code' n' rest hwire hcode'
        obtain ⟨rfl, hf⟩ := h code' n' rest hwire hcode'
        exact ⟨rfl, hf⟩
      · intro h code' n' rest hwire hcode'
        obtain ⟨rfl, hf⟩ := h code' n' rest hwire hcode'
        exact ⟨rfl, hf⟩
  | false =>
      simp only [Bool.false_eq_true, if_false, false_implies, iff_true]
      exact (framed_head_iff w r (c := { c with closeConnection := r.closes }) hcode
        fun c' _ => body_none image pos c').mpr (by simp)

/-- A request that fails before any header block is not answered by one of these either. -/
theorem framed_of_throw {w : World} {r : Request} {c : Conn} {e : Exc}
    (hroute : route w r = throw e) : Framed w r c := by
  have hres : (respond w r c).wire =
      (ended (handled w r (.error e { c with closeConnection := r.closes }))).wire := by
    simp only [respond, dispatch, hroute, throw_apply]
  have hclosed : (respond w r c).wire = c.wire ++ [.close] → Framed w r c := by
    intro hw code n rest hwire
    rw [hw] at hwire
    have := List.append_cancel_left hwire
    simp at this
  match e with
  | .range => exact framed_of_short hres (by decide)
  | .host .os => exact framed_of_short hres (by decide)
  | .host .reset => exact hclosed hres
  | .host .other => exact hclosed hres

theorem answer_code {w : World} {r : Request} {entry : GameEntry} {a : Answer}
    (h : answer w r entry = .ok a) : a.code = 200 ∨ a.code = 206 := by
  unfold answer at h
  split at h
  · simp at h
  · exact Or.inl (by rw [← Except.ok.inj h])
  · exact Or.inr (by rw [← Except.ok.inj h])

/-- A file of two bytes. -/
def twoBytes : Handle where
  image := [1, 2]
  read _ n := .ok n
  seek _ := none
  sendfile _ n := .sent n

/-- A file that was four bytes long when the folder was scanned and has shrunk to two. -/
def shrunk : World where
  date := "Thu, 01 Jan 2026 00:00:00 GMT"
  cached := twoBytes
  openFile _ := .ok twoBytes
  openCompressed _ := .ok none

end Ps2Servers.Http
