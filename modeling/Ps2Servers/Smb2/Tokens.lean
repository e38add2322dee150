import Ps2Servers.Smb2.Ntlm

/-!
# NTLM messages inside a security buffer

A message is found by its signature, and its end by its own fields. So the MIC is computed over exactly
the messages that the client sent, and what is read out of an AUTHENTICATE is read inside of it.
-/

namespace Ps2Servers.Smb2

open Text

/-! ## The first occurrence -/

section

variable {α : Type} {p m : List α}

/-- No end of the list is a start of it, but for the whole. -/
def Unbordered (p : List α) : Prop := ∀ k, k < p.length → 0 < k → p.drop k ≠ p.take (p.length - k)

instance [DecidableEq α] (p : List α) : Decidable (Unbordered p) :=
  inferInstanceAs (Decidable (∀ k, k < p.length → 0 < k → p.drop k ≠ p.take (p.length - k)))

/-- What is not inside a list does not start in it either, where another one follows. -/
theorem Unbordered.not_prefix (hp : Unbordered p) (hm : p <+: m) {front : List α} (hfront : ¬ p <:+: front)
    (hne : front ≠ []) : ¬ p <+: front ++ m := by
  intro h
  by_cases hlong : p.length ≤ front.length
  · have hin := List.prefix_of_prefix_length_le h (List.prefix_append front m) hlong
    exact hfront hin.isInfix
  · have hshort : front.length < p.length := Nat.lt_of_not_le hlong
    have hstart : front <+: p :=
      List.prefix_of_prefix_length_le (List.prefix_append front m) h (Nat.le_of_lt hshort)
    obtain ⟨rest, hrest⟩ := hstart
    have hdrop : p.drop front.length = rest := by
      rw [← hrest, List.drop_left]
    have hrestm : rest <+: m := by
      rw [← hrest] at h
      exact (List.prefix_append_right_inj front).mp h
    have hlength : rest.length = p.length - front.length := by
      rw [← hrest, List.length_append, Nat.add_sub_cancel_left]
    have htake : p.take (p.length - front.length) <+: m := (List.take_prefix _ p).trans hm
    have hsame : rest = p.take (p.length - front.length) := by
      have hlengths : rest.length = (p.take (p.length - front.length)).length := by
        rw [hlength, List.length_take]
        omega
      exact (List.prefix_of_prefix_length_le hrestm htake (Nat.le_of_eq hlengths)).eq_of_length hlengths
    exact hp front.length hshort (List.length_pos_iff.mpr hne) (hdrop.trans hsame)

end

theorem unbordered_signature : Unbordered NTLMSSP_SIGNATURE := by decide

/-- The message is found behind whatever does not hold the signature. -/
theorem extractNtlm_append {front message : Bytes} (hfront : ¬ NTLMSSP_SIGNATURE <:+: front)
    (hmessage : NTLMSSP_SIGNATURE <+: message) : extractNtlm (front ++ message) = some message := by
  induction front with
  | nil =>
      cases message with
      | nil => exact absurd (List.prefix_nil.mp hmessage) (by decide)
      | cons b rest =>
          rw [List.nil_append, extractNtlm, if_pos (List.isPrefixOf_iff_prefix.mpr hmessage)]
  | cons b front ih =>
      have hnot := unbordered_signature.not_prefix hmessage hfront (List.cons_ne_nil b front)
      rw [List.cons_append] at hnot ⊢
      rw [extractNtlm, if_neg (fun h => hnot (List.isPrefixOf_iff_prefix.mp h))]
      exact ih fun h => hfront (h.trans (List.suffix_cons b front).isInfix)

/-! ## Messages that end where their fields do -/

/-- The messages of a client. -/
inductive Kind
  | negotiate
  | authenticate
  deriving DecidableEq, Repr

def Kind.type : Kind → Nat
  | .negotiate => 1
  | .authenticate => 3

/-- Where the length, maximal length and offset of the variable fields stand. -/
def Kind.fields : Kind → List Nat
  | .negotiate => [16, 24]
  | .authenticate => [12, 20, 28, 36, 44, 52]

/-- The size of the fixed part without the version. -/
def Kind.fixed : Kind → Nat
  | .negotiate => 32
  | .authenticate => 64

def Kind.flagsAt : Kind → Nat
  | .negotiate => 12
  | .authenticate => 60

/-- The size of the fixed part with the version, if there is one. -/
def Kind.header (kind : Kind) (m : Bytes) : Nat :=
  if m.field kind.flagsAt 4 &&& NEGOTIATE_VERSION != 0 then kind.fixed + 8 else kind.fixed

/-- Where the field ends whose length stands at `offset`. -/
def fieldEnd (m : Bytes) (offset : Nat) : Nat := m.field (offset + 4) 4 + m.field offset 2

/-- A message whose fields are inside it, and which ends with one of them or with its fixed part. -/
structure WellFormed (kind : Kind) (m : Bytes) : Prop where
  signature : NTLMSSP_SIGNATURE <+: m
  type : m.field 8 4 = kind.type
  header : kind.header m ≤ m.length
  inside : ∀ offset ∈ kind.fields, m.field offset 2 ≠ 0 → fieldEnd m offset ≤ m.length
  ends : m.length = kind.header m ∨
    ∃ offset ∈ kind.fields, m.field offset 2 ≠ 0 ∧ fieldEnd m offset = m.length

theorem Kind.fixed_le_header (kind : Kind) (m : Bytes) : kind.fixed ≤ kind.header m := by
  unfold Kind.header
  split
  · exact Nat.le_add_right _ 8
  · exact Nat.le_refl _

/-- The fixed part holds the flags and the places of the fields. -/
theorem Kind.places (kind : Kind) : 12 ≤ kind.fixed ∧ kind.flagsAt + 4 ≤ kind.fixed ∧
    ∀ offset ∈ kind.fields, offset + 8 ≤ kind.fixed := by
  cases kind with
  | negotiate => decide
  | authenticate => decide

theorem fieldOffsets_type (kind : Kind) :
    fieldOffsets (some kind.type) = some (kind.fields, kind.fixed, kind.flagsAt) := by
  cases kind with
  | negotiate => rfl
  | authenticate => rfl

/-- The end so far, with one more field. -/
def stopAfter (m : Bytes) (stop offset : Nat) : Nat :=
  if m.field offset 2 = 0 then stop else max stop (fieldEnd m offset)

/-- The end that `trim` finds. -/
def lastEnd (m : Bytes) (offsets : List Nat) (start : Nat) : Nat := offsets.foldl (stopAfter m) start

theorem stopAfter_le {m : Bytes} {stop offset limit : Nat} (hstop : stop ≤ limit)
    (h : m.field offset 2 ≠ 0 → fieldEnd m offset ≤ limit) : stopAfter m stop offset ≤ limit := by
  unfold stopAfter
  split
  · exact hstop
  · rename_i hlength
    exact Nat.max_le.mpr ⟨hstop, h hlength⟩

theorem le_stopAfter (m : Bytes) (stop offset : Nat) : stop ≤ stopAfter m stop offset := by
  unfold stopAfter
  split
  · exact Nat.le_refl _
  · exact Nat.le_max_left _ _

theorem fieldEnd_le_stopAfter {m : Bytes} {offset : Nat} (h : m.field offset 2 ≠ 0) (stop : Nat) :
    fieldEnd m offset ≤ stopAfter m stop offset := by
  rw [stopAfter, if_neg h]
  exact Nat.le_max_right _ _

theorem lastEnd_le {m : Bytes} {offsets : List Nat} {start limit : Nat} (hstart : start ≤ limit)
    (h : ∀ offset ∈ offsets, m.field offset 2 ≠ 0 → fieldEnd m offset ≤ limit) :
    lastEnd m offsets start ≤ limit := by
  induction offsets generalizing start with
  | nil => exact hstart
  | cons offset rest ih =>
      apply ih
      · exact stopAfter_le hstart (h offset List.mem_cons_self)
      · exact fun o ho => h o (List.mem_cons_of_mem offset ho)

theorem le_lastEnd (m : Bytes) (offsets : List Nat) (start : Nat) : start ≤ lastEnd m offsets start := by
  induction offsets generalizing start with
  | nil => exact Nat.le_refl _
  | cons offset rest ih =>
      exact Nat.le_trans (le_stopAfter m start offset) (ih _)

theorem fieldEnd_le_lastEnd {m : Bytes} {offsets : List Nat} {offset : Nat} (hmem : offset ∈ offsets)
    (hlength : m.field offset 2 ≠ 0) (start : Nat) : fieldEnd m offset ≤ lastEnd m offsets start := by
  induction offsets generalizing start with
  | nil => cases hmem
  | cons o rest ih =>
      rcases List.mem_cons.mp hmem with rfl | hmem
      · exact Nat.le_trans (fieldEnd_le_stopAfter hlength start) (le_lastEnd m rest _)
      · exact ih hmem _

/-- A message with nothing behind it ends at the last of its ends. -/
theorem WellFormed.lastEnd_eq {kind : Kind} {m : Bytes} (h : WellFormed kind m) :
    lastEnd m kind.fields (kind.header m) = m.length := by
  apply Nat.le_antisymm (lastEnd_le h.header h.inside)
  rcases h.ends with hheader | ⟨offset, hmem, hlength, hend⟩
  · rw [hheader]
    exact le_lastEnd m _ _
  · rw [← hend]
    exact fieldEnd_le_lastEnd hmem hlength _

theorem field_append_left {m : Bytes} (tail : Bytes) {offset size : Nat} (h : offset + size ≤ m.length) :
    (m ++ tail).field offset size = m.field offset size := by
  rw [Bytes.field, Bytes.sub_append_left tail h, Bytes.field]

theorem lastEnd_append {m : Bytes} (tail : Bytes) {offsets : List Nat}
    (h : ∀ offset ∈ offsets, offset + 8 ≤ m.length) (start : Nat) :
    lastEnd (m ++ tail) offsets start = lastEnd m offsets start := by
  induction offsets generalizing start with
  | nil => rfl
  | cons offset rest ih =>
      have hplace := h offset List.mem_cons_self
      have hlength : (m ++ tail).field offset 2 = m.field offset 2 := field_append_left tail (by omega)
      have hend : fieldEnd (m ++ tail) offset = fieldEnd m offset := by
        rw [fieldEnd, fieldEnd, hlength, field_append_left tail (by omega)]
      have hstop : stopAfter (m ++ tail) start offset = stopAfter m start offset := by
        rw [stopAfter, stopAfter, hlength, hend]
      calc
        lastEnd (m ++ tail) (offset :: rest) start = lastEnd (m ++ tail) rest (stopAfter m start offset) :=
          congrArg (lastEnd (m ++ tail) rest) hstop
        _ = lastEnd m rest (stopAfter m start offset) :=
          ih (fun o ho => h o (List.mem_cons_of_mem offset ho)) _

theorem trim_eq {kind : Kind} {token : Bytes} (htype : messageType token = some kind.type)
    (hfixed : kind.fixed ≤ token.length) :
    trim token = token.take (lastEnd token kind.fields (kind.header token)) := by
  unfold trim
  rw [htype, fieldOffsets_type]
  dsimp only
  rw [if_neg (Nat.not_lt.mpr hfixed)]
  rfl

/-- What stands behind a message is cut off. -/
theorem WellFormed.trim_append {kind : Kind} {m : Bytes} (h : WellFormed kind m) (tail : Bytes) :
    trim (m ++ tail) = m := by
  obtain ⟨hsmall, hflags, hplaces⟩ := kind.places
  have hfixed : kind.fixed ≤ m.length := Nat.le_trans (kind.fixed_le_header m) h.header
  have hlength : m.length ≤ (m ++ tail).length := by
    rw [List.length_append]
    exact Nat.le_add_right _ _
  have htype : messageType (m ++ tail) = some kind.type := by
    rw [messageType, if_neg (by omega), field_append_left tail (by omega), h.type]
  have hheader : kind.header (m ++ tail) = kind.header m := by
    rw [Kind.header, Kind.header, field_append_left tail (by omega)]
  have hend : lastEnd (m ++ tail) kind.fields (kind.header (m ++ tail)) = m.length := by
    rw [hheader, lastEnd_append tail fun o ho => Nat.le_trans (hplaces o ho) hfixed, h.lastEnd_eq]
  rw [trim_eq htype (Nat.le_trans hfixed hlength), hend, List.take_left]

/-! ## What is read out of an AUTHENTICATE -/

/-- The outcome is an `AuthError`, or has `P`. -/
def Checked {α : Type} (P : α → Prop) (x : Except Exn α) : Prop :=
  match x with
  | .error e => e = .status STATUS_INVALID_PARAMETER
  | .ok a => P a

theorem Checked.bind {α β : Type} {P : α → Prop} {Q : β → Prop} {x : Except Exn α} {f : α → Except Exn β}
    (hx : Checked P x) (hf : ∀ a, P a → Checked Q (f a)) : Checked Q (x >>= f) := by
  cases x with
  | error e => exact hx
  | ok a => exact hf a hx

/-- The bytes that the field at `offset` names: none, or so many at that place of the message. -/
def NamedBy (message : Bytes) (offset : Nat) (bytes : Bytes) : Prop :=
  bytes.length = message.field offset 2 ∧ (bytes = [] ∨
    ∃ front back, message = front ++ bytes ++ back ∧ front.length = message.field (offset + 4) 4)

/-- The fields of the credentials are slices of the trimmed message. -/
structure Sliced (token : Bytes) (creds : Credentials) : Prop where
  raw : creds.raw = trim token
  inside : creds.raw <+: token
  lmResponse : NamedBy creds.raw 12 creds.lmResponse
  ntResponse : NamedBy creds.raw 20 creds.ntResponse
  domain : ∃ bytes, NamedBy creds.raw 28 bytes ∧ creds.domain = decodeUtf16 bytes
  user : ∃ bytes, NamedBy creds.raw 36 bytes ∧ creds.user = decodeUtf16 bytes
  workstation : ∃ bytes, NamedBy creds.raw 44 bytes ∧ creds.workstation = decodeUtf16 bytes
  encryptedSessionKey : NamedBy creds.raw 52 creds.encryptedSessionKey
  flags : 64 ≤ creds.raw.length ∧ creds.flags = creds.raw.field 60 4
  mic : ∀ mic, creds.mic = some mic → ∃ front back, creds.raw = front ++ mic ++ back ∧
    front.length = MIC_OFFSET ∧ mic.length = MIC_SIZE

theorem split_sub {message : Bytes} {position length : Nat} (h : position + length ≤ message.length) :
    ∃ front back, message = front ++ message.sub position length ++ back ∧ front.length = position ∧
      (message.sub position length).length = length := by
  refine ⟨message.take position, message.drop (position + length), ?_, ?_, ?_⟩
  · rw [Bytes.sub, ← List.drop_drop, List.append_assoc, List.take_append_drop, List.take_append_drop]
  · rw [List.length_take]
    omega
  · rw [Bytes.sub, List.length_take, List.length_drop]
    omega

theorem checked_unpackFrom {message : Bytes} {offset size : Nat} (h : offset + size ≤ message.length) :
    unpackFrom message offset size = .ok (message.field offset size) := if_neg (Nat.not_lt.mpr h)

theorem checked_ntlmField {message : Bytes} {offset : Nat} (h : offset + 8 ≤ message.length) :
    Checked (NamedBy message offset) (ntlmField message offset) := by
  unfold ntlmField
  rw [checked_unpackFrom (by omega), checked_unpackFrom (by omega)]
  change Checked _ (if _ then _ else if _ then _ else _)
  split
  · rename_i hnone
    exact ⟨hnone.symm, Or.inl rfl⟩
  · split
    · rfl
    · rename_i hin
      obtain ⟨front, back, hsplit, hfront, hlength⟩ := split_sub (Nat.le_of_not_lt hin)
      exact ⟨hlength, Or.inr ⟨front, back, hsplit, hfront⟩⟩

theorem checked_micOf (message nt : Bytes) :
    Checked (fun found => ∀ mic, found = some mic → ∃ front back, message = front ++ mic ++ back ∧
      front.length = MIC_OFFSET ∧ mic.length = MIC_SIZE) (micOf message nt) := by
  unfold micOf
  split
  · split
    · rfl
    · rename_i hroom
      rw [not_or] at hroom
      intro mic hmic
      cases hmic
      exact split_sub (Nat.le_of_not_lt hroom.1)
  · intro mic hmic
    cases hmic

theorem trim_prefix (token : Bytes) : trim token <+: token := by
  unfold trim
  split
  · exact List.prefix_refl token
  · split
    · exact List.prefix_refl token
    · exact List.take_prefix _ token

/-- An AUTHENTICATE keeps its fixed part. -/
theorem le_length_trim {token : Bytes} (htype : messageType token = some Kind.authenticate.type)
    (hlength : 64 ≤ token.length) : 64 ≤ (trim token).length := by
  have hstop := Nat.le_trans (Kind.authenticate.fixed_le_header token)
    (le_lastEnd token Kind.authenticate.fields (Kind.authenticate.header token))
  rw [trim_eq htype hlength, List.length_take]
  exact Nat.le_min.mpr ⟨hstop, hlength⟩

theorem checked_parseAuthenticate {token : Bytes} (htype : messageType token = some Kind.authenticate.type) :
    Checked (Sliced token) (parseAuthenticate token) := by
  unfold parseAuthenticate
  split
  · rfl
  · rename_i hshort
    have hlength := le_length_trim htype (Nat.le_of_not_lt hshort)
    dsimp only
    refine (checked_ntlmField (by omega)).bind fun lm hlm => ?_
    refine (checked_ntlmField (by omega)).bind fun nt hnt => ?_
    refine (checked_ntlmField (by omega)).bind fun domain hdomain => ?_
    refine (checked_ntlmField (by omega)).bind fun user huser => ?_
    refine (checked_ntlmField (by omega)).bind fun workstation hworkstation => ?_
    refine (checked_ntlmField (by omega)).bind fun encryptedKey hkey => ?_
    rw [checked_unpackFrom (by omega)]
    refine (checked_micOf (trim token) nt).bind fun mic hmic => ?_
    exact ⟨rfl, trim_prefix token, hlm, hnt, ⟨domain, hdomain, rfl⟩, ⟨user, huser, rfl⟩,
      ⟨workstation, hworkstation, rfl⟩, hkey, ⟨hlength, rfl⟩, hmic⟩

/-! ## The messages of a session -/

/-- The security buffer of a SESSION_SETUP. -/
def Carries (body blob : Bytes) : Prop :=
  24 ≤ body.length ∧ requestBuffer body (body.field 12 2) (body.field 14 2) (HEADER_SIZE + 24) = some blob

theorem WellFormed.messageType_append {kind : Kind} {m : Bytes} (h : WellFormed kind m) (tail : Bytes) :
    messageType (m ++ tail) = some kind.type := by
  have hsmall : 12 ≤ m.length :=
    Nat.le_trans kind.places.1 (Nat.le_trans (kind.fixed_le_header m) h.header)
  rw [messageType, List.length_append, if_neg (by omega), field_append_left tail (by omega), h.type]

/-- How `h_session_setup` goes on with a token. -/
def Kind.setup (kind : Kind) (token : Bytes) (raw : Bool) : Setup :=
  match kind with
  | .negotiate => .negotiate token raw
  | .authenticate => .authenticate token

/-- The token of a SESSION_SETUP that carries a message. -/
theorem setupOf_eq {kind : Kind} {m front tail body : Bytes} (h : WellFormed kind m)
    (hfront : ¬ NTLMSSP_SIGNATURE <:+: front) (hbody : Carries body (front ++ m ++ tail)) :
    setupOf body = kind.setup (m ++ tail) (NTLMSSP_SIGNATURE.isPrefixOf (front ++ m ++ tail)) := by
  have htoken : extractNtlm (front ++ m ++ tail) = some (m ++ tail) := by
    rw [List.append_assoc]
    exact extractNtlm_append hfront (h.signature.trans (List.prefix_append m tail))
  unfold setupOf
  rw [if_neg (Nat.not_lt.mpr hbody.1), hbody.2]
  dsimp only
  rw [htoken]
  dsimp only
  rw [h.messageType_append tail]
  cases kind with
  | negotiate => rfl
  | authenticate => rfl

/-- A message is recovered from a buffer whatever stands around it, a session keeps the NEGOTIATE and
checks the MIC over the AUTHENTICATE as they were sent, and an AUTHENTICATE is refused or read inside of
its own bytes. -/
theorem messages_recovered :
    (∀ (kind : Kind) (m front tail : Bytes), WellFormed kind m → ¬ NTLMSSP_SIGNATURE <:+: front →
      (extractNtlm (front ++ m ++ tail)).map trim = some m) ∧
    (∀ (τ η : Type) (env : Env τ η) (conn : Conn τ η) (m front tail body random : Bytes),
      WellFormed .negotiate m → ¬ NTLMSSP_SIGNATURE <:+: front → Carries body (front ++ m ++ tail) →
      (hSessionSetup { env with trim := trim } conn body random).1.ntlmNegotiate = some m) ∧
    (∀ (crypto : Crypto) (creds : Credentials) (m front tail body key negotiate challenge mic : Bytes),
      WellFormed .authenticate m → ¬ NTLMSSP_SIGNATURE <:+: front → Carries body (front ++ m ++ tail) →
      setupOf body = .authenticate (m ++ tail) ∧
        (parseAuthenticate (m ++ tail) = .ok creds → creds.mic = some mic → negotiate ≠ [] →
          verifyMic crypto key (some negotiate) (some challenge) creds =
            (micOver crypto key negotiate challenge m == mic))) ∧
    ∀ token, messageType token = some Kind.authenticate.type →
      Checked (Sliced token) (parseAuthenticate token) := by
  refine ⟨?_, ?_, ?_, fun token htype => checked_parseAuthenticate htype⟩
  · intro kind m front tail hm hfront
    rw [List.append_assoc, extractNtlm_append hfront (hm.signature.trans (List.prefix_append m tail)),
      Option.map_some, hm.trim_append]
  · intro τ η env conn m front tail body random hm hfront hbody
    rw [hSessionSetup, setupResult, setupOf_eq hm hfront hbody]
    exact congrArg some (hm.trim_append tail)
  · intro crypto creds m front tail body key negotiate challenge mic hm hfront hbody
    refine ⟨setupOf_eq hm hfront hbody, fun hparse hmic hne => ?_⟩
    have hchecked := checked_parseAuthenticate (hm.messageType_append tail)
    rw [hparse] at hchecked
    have hraw : creds.raw = m := hchecked.raw.trans (hm.trim_append tail)
    rw [verifyMic, hmic, hraw]
    dsimp only
    rw [Option.getD_some, bne_iff_ne.mpr hne, Bool.true_and]

/-- A NEGOTIATE without a domain, a workstation and a version. -/
def plainNegotiate : Bytes := NTLMSSP_SIGNATURE ++ [1, 0, 0, 0] ++ List.replicate 20 0

theorem wellFormed_plainNegotiate : WellFormed .negotiate plainNegotiate := by
  constructor
  · decide
  · rfl
  · decide
  · decide
  · exact Or.inl rfl

/-- Inside a wrapper, with an element behind it. -/
theorem plainNegotiate_recovered :
    (extractNtlm ([0x60, 0x28] ++ plainNegotiate ++ [0xa3, 0x00])).map trim = some plainNegotiate :=
  messages_recovered.1 .negotiate plainNegotiate [0x60, 0x28] [0xa3, 0x00] wellFormed_plainNegotiate
    (by decide)

end Ps2Servers.Smb2
