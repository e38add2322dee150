import Ps2Servers.Smb2.Crypto
import Ps2Servers.Smb2.Md4
import Ps2Servers.Smb2.Tokens

/-!
# Logging on with a password

The parts of an NTLM logon put together: what a client reads out of the challenge, what its answer
has to prove, and the key that both sides then sign with. A client that knows the password gets in with
the key it chose, and nobody else does.

## Implementation notes

HMAC-MD5 and HMAC-SHA256 are parameters with the lengths of their codes, as Python's library has them.
MD4, AES-CMAC, RC4 and the key derivation are the server's own.
-/

namespace Ps2Servers.Smb2

open Text

/-! ## The key wrap -/

/-- What a byte is added to, and the state behind it, do not depend on the byte. -/
theorem rc4Stream_cons (st : Rc4) : ∃ (k : UInt8) (st' : Rc4), ∀ (byte : UInt8) (rest : Bytes),
    rc4Stream st (byte :: rest) = (byte ^^^ k) :: rc4Stream st' rest := ⟨_, _, fun _ _ => rfl⟩

theorem rc4Stream_rc4Stream (st : Rc4) (data : Bytes) : rc4Stream st (rc4Stream st data) = data := by
  induction data generalizing st with
  | nil => rfl
  | cons byte rest ih =>
      obtain ⟨k, st', hstep⟩ := rc4Stream_cons st
      rw [hstep, hstep, ih, UInt8.xor_assoc, UInt8.xor_self, UInt8.xor_zero]

/-- Wrapping and unwrapping are the same. -/
theorem rc4_rc4 (key data : Bytes) : rc4 key (rc4 key data) = data :=
  rc4Stream_rc4Stream ⟨rc4Schedule key, 0, 0⟩ data

theorem length_rc4Stream (st : Rc4) (data : Bytes) : (rc4Stream st data).length = data.length := by
  induction data generalizing st with
  | nil => rfl
  | cons byte rest ih =>
      obtain ⟨k, st', hstep⟩ := rc4Stream_cons st
      rw [hstep, List.length_cons, ih, List.length_cons]

theorem length_rc4 (key data : Bytes) : (rc4 key data).length = data.length :=
  length_rc4Stream ⟨rc4Schedule key, 0, 0⟩ data

/-! ## The codes -/

/-- What is taken from Python's library. -/
structure Hashes where
  hmacMd5 : Bytes → Bytes → Bytes
  hmacSha256 : Bytes → Bytes → Bytes
  length_hmacMd5 : ∀ key message, (hmacMd5 key message).length = 16
  length_hmacSha256 : ∀ key message, (hmacSha256 key message).length = 32

/-- The hash functions with the server's own MD4 and AES-CMAC. The code of a key that has not 16 bytes,
for which there is none, is never asked for. -/
def Hashes.crypto (hashes : Hashes) : Crypto where
  md4 data := (md4 data).getD []
  hmacMd5 := hashes.hmacMd5
  hmacSha256 := hashes.hmacSha256
  aesCmac key message := (aesCmacPure key message).getD (List.replicate 16 0)
  length_hmacSha256 := hashes.length_hmacSha256
  length_aesCmac key message := by
    cases h : aesCmacPure key message with
    | none => rfl
    | some code => exact length_aesCmacPure h

theorem length_kdf (crypto : Crypto) (key label context : Bytes) :
    (kdf crypto key label context).length = 16 := by
  rw [kdf, List.length_take, crypto.length_hmacSha256]
  rfl

/-! ## What a client reads out of the challenge -/

/-- A list of pairs, with its end. -/
def avList (pairs : List (Nat × Bytes)) : Bytes :=
  (pairs.flatMap fun p => avPair p.1 p.2) ++ avPair MSV_AV_EOL []

/-- A pair whose kind and length fit their fields and whose kind is not the end. -/
def Pairable (p : Nat × Bytes) : Prop := p.1 ≠ MSV_AV_EOL ∧ p.1 < 2 ^ 16 ∧ p.2.length < 2 ^ 16

theorem length_avPair (kind : Nat) (value : Bytes) : (avPair kind value).length = 4 + value.length := by
  rw [avPair, List.length_append, List.length_append, Bytes.length_ofNat, Bytes.length_ofNat]

/-- The numbers and the value at the start of a pair. -/
theorem avPair_reads {p : Nat × Bytes} (hkind : p.1 < 2 ^ 16) (hlength : p.2.length < 2 ^ 16)
    (front rest : Bytes) :
    (front ++ (avPair p.1 p.2 ++ rest)).field front.length 2 = p.1 ∧
      (front ++ (avPair p.1 p.2 ++ rest)).field (front.length + 2) 2 = p.2.length ∧
      (front ++ (avPair p.1 p.2 ++ rest)).sub (front.length + 4) p.2.length = p.2 := by
  refine ⟨?_, ?_, ?_⟩
  · have hfield := Bytes.field_append front (avPair p.1 p.2 ++ rest) 0 2
    rw [Nat.add_zero] at hfield
    rw [hfield, avPair, List.append_assoc, List.append_assoc, Bytes.field_ofNat]
    exact Nat.mod_eq_of_lt hkind
  · rw [Bytes.field_append, avPair, List.append_assoc, List.append_assoc]
    have hfield := Bytes.field_append (Bytes.ofNat 2 p.1) (Bytes.ofNat 2 p.2.length ++ (p.2 ++ rest)) 0 2
    rw [Bytes.length_ofNat] at hfield
    rw [hfield, Bytes.field_ofNat]
    exact Nat.mod_eq_of_lt hlength
  · have hhead : (Bytes.ofNat 2 p.1 ++ Bytes.ofNat 2 p.2.length).length = 4 := by
      rw [List.length_append, Bytes.length_ofNat, Bytes.length_ofNat]
    rw [avPair, Bytes.sub_append_right _ _ (Nat.le_add_right _ _), Nat.add_sub_cancel_left,
      List.append_assoc, Bytes.sub_append_right _ _ (Nat.le_of_eq hhead), hhead, Nat.sub_self,
      Bytes.sub_append_left _ (by omega), Bytes.sub_of_length rfl]

/-- The value of the last pair of a kind. -/
def avLast (kind : Nat) (pairs : List (Nat × Bytes)) : Option Bytes :=
  pairs.foldl (fun found p => if p.1 = kind then some p.2 else found) none

theorem avLast_concat (kind : Nat) (pairs : List (Nat × Bytes)) (value : Bytes) :
    avLast kind (pairs ++ [(kind, value)]) = some value := by
  rw [avLast, List.foldl_append, List.foldl_cons, List.foldl_nil, if_pos rfl]

theorem length_le_avList (pairs : List (Nat × Bytes)) : pairs.length ≤ (avList pairs).length := by
  induction pairs with
  | nil => exact Nat.zero_le _
  | cons p pairs ih =>
      unfold avList at ih ⊢
      rw [List.flatMap_cons, List.append_assoc, List.length_append, length_avPair, List.length_cons]
      omega

theorem avValue_avList (kind : Nat) {pairs : List (Nat × Bytes)} (hpairs : ∀ p ∈ pairs, Pairable p)
    (front rest : Bytes) {fuel : Nat} (hfuel : pairs.length < fuel) (found : Option Bytes) :
    avValue kind (front ++ (avList pairs ++ rest)) fuel front.length found =
      pairs.foldl (fun found p => if p.1 = kind then some p.2 else found) found := by
  induction pairs generalizing front fuel found with
  | nil =>
      cases fuel with
      | zero => exact absurd hfuel (Nat.not_lt_zero _)
      | succ fuel =>
          have hend : (front ++ (avList [] ++ rest)).field front.length 2 = MSV_AV_EOL :=
            (@avPair_reads (MSV_AV_EOL, []) (by decide) (by decide) front rest).1
          rw [avValue, if_pos (Or.inr hend)]
          rfl
  | cons p pairs ih =>
      obtain ⟨⟨hkind, hfits, hlength⟩, hpairs⟩ := List.forall_mem_cons.mp hpairs
      cases fuel with
      | zero => exact absurd hfuel (Nat.not_lt_zero _)
      | succ fuel =>
          have hsplit : avList (p :: pairs) ++ rest = avPair p.1 p.2 ++ (avList pairs ++ rest) := by
            rw [avList, List.flatMap_cons, List.append_assoc, List.append_assoc, avList, List.append_assoc]
          obtain ⟨hread, hsize, hvalue⟩ := avPair_reads hfits hlength front (avList pairs ++ rest)
          have hroom : ¬ (front ++ (avPair p.1 p.2 ++ (avList pairs ++ rest))).length < front.length + 4 := by
            rw [List.length_append, List.length_append, length_avPair]
            omega
          have hnext : front.length + 4 + p.2.length = (front ++ avPair p.1 p.2).length := by
            rw [List.length_append, length_avPair, Nat.add_assoc]
          rw [hsplit, avValue, if_neg (not_or.mpr ⟨hroom, hread.trans_ne hkind⟩)]
          dsimp only
          rw [hread, hsize, hvalue, hnext, ← List.append_assoc front,
            ih hpairs _ (Nat.lt_of_succ_lt_succ hfuel), List.foldl_cons]

/-- The value of a field that names the place of these bytes. -/
theorem ntlmField_eq {message front value back : Bytes} {offset : Nat}
    (hsplit : message = front ++ (value ++ back)) (hroom : offset + 8 ≤ message.length)
    (hlength : message.field offset 2 = value.length)
    (hplace : message.field (offset + 4) 4 = front.length) : ntlmField message offset = .ok value := by
  unfold ntlmField
  rw [checked_unpackFrom (by omega), checked_unpackFrom (by omega), hlength, hplace]
  change (if value.length = 0 then _ else if message.length < front.length + value.length then _ else _) = _
  split
  · rename_i hempty
    rw [List.length_eq_zero_iff.mp hempty]
  · have hinside : ¬ message.length < front.length + value.length := by
      rw [hsplit, List.length_append, List.length_append]
      omega
    rw [if_neg hinside, hsplit, Bytes.sub_append_right _ _ (Nat.le_refl _), Nat.sub_self,
      Bytes.sub_append_left _ (by omega), Bytes.sub_of_length rfl]

/-- The pairs with the server's names. -/
def namePairs (target host : Bytes) (compact : Bool) : List (Nat × Bytes) :=
  [(MSV_AV_NB_DOMAIN_NAME, target), (MSV_AV_NB_COMPUTER_NAME, host)] ++
    if compact then [] else [(MSV_AV_DNS_DOMAIN_NAME, target), (MSV_AV_DNS_COMPUTER_NAME, host)]

/-- The fixed part of a CHALLENGE. -/
def challengeItems (target info challenge : Bytes) (flags : Nat) : List Struct.Item :=
  [.s 8 NTLMSSP_SIGNATURE, .I NTLM_CHALLENGE, .H target.length, .H target.length, .I 56, .I flags,
    .s 8 challenge, .zeros 8, .H info.length, .H info.length, .I (56 + target.length),
    .s 8 [6, 1, 0xb1, 0x1d, 0, 0, 0, 15]]

theorem buildChallenge_eq {targetName computer : Str} {target host : Bytes}
    (htarget : encodeUtf16 targetName = some target) (hhost : encodeUtf16 computer = some host)
    {challenge : Bytes} (hchallenge : challenge.length = 8) (compact : Bool) (clientFlags : Nat) :
    buildChallenge targetName computer challenge compact clientFlags =
      (challengeItems target (avList (namePairs target host compact)) challenge
        (CHALLENGE_FLAGS ||| (clientFlags &&& ECHOED_FLAGS))).flatMap Struct.Item.bytes ++
          (target ++ avList (namePairs target host compact)) := by
  have hinfo : avPair MSV_AV_NB_DOMAIN_NAME target ++ avPair MSV_AV_NB_COMPUTER_NAME host ++
      (if compact = true then []
        else avPair MSV_AV_DNS_DOMAIN_NAME target ++ avPair MSV_AV_DNS_COMPUTER_NAME host) ++
      avPair MSV_AV_EOL [] = avList (namePairs target host compact) := by
    cases compact with
    | true => simp [avList, namePairs]
    | false => simp [avList, namePairs]
  have hdrawn : challenge.takeD 8 0 = challenge := by
    rw [List.takeD_eq_take 0 (Nat.le_of_eq hchallenge.symm), ← hchallenge, List.take_length]
  unfold buildChallenge
  rw [htarget, hhost]
  dsimp only [Option.getD_some]
  rw [hinfo]
  simp only [challengeItems, List.flatMap_cons, List.flatMap_nil, Struct.Item.bytes, hdrawn,
    List.append_assoc, List.append_nil]
  rfl

/-- What a client reads out of a CHALLENGE. -/
structure Challenged (message challenge target info : Bytes) (flags : Nat) : Prop where
  signature : NTLMSSP_SIGNATURE <+: message
  type : messageType message = some NTLM_CHALLENGE
  flags : message.field 20 4 = flags
  challenge : message.sub 24 8 = challenge
  target : ntlmField message 12 = .ok target
  info : ntlmField message 40 = .ok info

/-- The challenge, the server's names and the flags that both sides know are read as they were written. -/
theorem challenged_buildChallenge {targetName computer : Str} {target host : Bytes}
    (htarget : encodeUtf16 targetName = some target) (hhost : encodeUtf16 computer = some host)
    {challenge : Bytes} (hchallenge : challenge.length = 8) (compact : Bool) (clientFlags : Nat)
    (hfits : target.length < 2 ^ 16 ∧ (avList (namePairs target host compact)).length < 2 ^ 16) :
    Challenged (buildChallenge targetName computer challenge compact clientFlags) challenge target
      (avList (namePairs target host compact)) (CHALLENGE_FLAGS ||| (clientFlags &&& ECHOED_FLAGS)) := by
  have hflags : CHALLENGE_FLAGS ||| (clientFlags &&& ECHOED_FLAGS) < 2 ^ 32 :=
    Nat.or_lt_two_pow (by decide) (Nat.and_lt_two_pow clientFlags (by decide))
  rw [buildChallenge_eq htarget hhost hchallenge]
  generalize avList (namePairs target host compact) = info at hfits ⊢
  generalize CHALLENGE_FLAGS ||| (clientFlags &&& ECHOED_FLAGS) = flags at hflags ⊢
  have hdrawn : challenge.takeD 8 0 = challenge := by
    rw [List.takeD_eq_take 0 (Nat.le_of_eq hchallenge.symm), ← hchallenge, List.take_length]
  have hall : (challengeItems target info challenge flags).all Struct.Item.fits = true := by
    simp only [challengeItems, List.all_cons, List.all_nil, Struct.Item.fits, Bool.and_true,
      Bool.true_and, Bool.and_eq_true, decide_eq_true_eq]
    unfold NTLM_CHALLENGE
    omega
  have hitems : ((challengeItems target info challenge flags).flatMap Struct.Item.bytes).length = 56 := by
    rw [Struct.length_flatMap]
    rfl
  have hlength : ((challengeItems target info challenge flags).flatMap Struct.Item.bytes ++
      (target ++ info)).length = 56 + (target.length + info.length) := by
    rw [List.length_append, hitems, List.length_append]
  constructor
  · exact ⟨_, rfl⟩
  · rw [messageType, if_neg (by omega)]
    exact congrArg some (Struct.field_item hall (show 1 < 12 by decide) (target ++ info))
  · exact Struct.field_item hall (show 5 < 12 by decide) (target ++ info)
  · refine (Struct.sub_flatMap ((challengeItems target info challenge flags).take 6) (.s 8 challenge)
      ((challengeItems target info challenge flags).drop 7) (target ++ info)).trans hdrawn
  · exact ntlmField_eq rfl (by omega) (Struct.field_item hall (show 2 < 12 by decide) (target ++ info))
      ((Struct.field_item hall (show 4 < 12 by decide) (target ++ info)).trans hitems.symm)
  · have hplace := Struct.field_item hall (show 10 < 12 by decide) (target ++ info)
    refine @ntlmField_eq _ ((challengeItems target info challenge flags).flatMap Struct.Item.bytes ++ target)
      info [] 40 ?_ (by omega)
      (Struct.field_item hall (show 8 < 12 by decide) (target ++ info)) (hplace.trans ?_)
    · rw [List.append_nil, List.append_assoc]
    · rw [List.length_append, hitems]
      rfl

/-- Whether a client says that it computed a MIC, by the pairs in its response. -/
theorem claimsMic_avList {front : Bytes} (hfront : front.length = 16 + 28) {pairs : List (Nat × Bytes)}
    (hpairs : ∀ p ∈ pairs, Pairable p) (rest : Bytes) :
    claimsMic (front ++ (avList pairs ++ rest)) =
      (((avLast MSV_AV_FLAGS pairs).getD []).length ≥ 4 &&
        ((avLast MSV_AV_FLAGS pairs).getD []).field 0 4 &&& AV_FLAG_MIC_PRESENT != 0) := by
  have hfuel : pairs.length < (front ++ (avList pairs ++ rest)).length := by
    have hlong := length_le_avList pairs
    rw [List.length_append, List.length_append]
    omega
  have hvalue := avValue_avList MSV_AV_FLAGS hpairs front rest hfuel none
  rw [hfront] at hvalue
  unfold claimsMic
  rw [hvalue]
  rfl

theorem pairable_namePairs {target host : Bytes} (htarget : target.length < 2 ^ 16)
    (hhost : host.length < 2 ^ 16) (compact : Bool) : ∀ p ∈ namePairs target host compact, Pairable p := by
  have hkinds : ∀ kind ∈ [MSV_AV_NB_DOMAIN_NAME, MSV_AV_NB_COMPUTER_NAME, MSV_AV_DNS_DOMAIN_NAME,
      MSV_AV_DNS_COMPUTER_NAME], kind ≠ MSV_AV_EOL ∧ kind < 2 ^ 16 := by decide
  have hall : ∀ p ∈ namePairs target host compact, p.1 ∈ [MSV_AV_NB_DOMAIN_NAME, MSV_AV_NB_COMPUTER_NAME,
      MSV_AV_DNS_DOMAIN_NAME, MSV_AV_DNS_COMPUTER_NAME] ∧ (p.2 = target ∨ p.2 = host) := by
    cases compact with
    | true => simp [namePairs]
    | false => simp [namePairs]
  intro p hp
  obtain ⟨hkind, hvalue⟩ := hall p hp
  refine ⟨(hkinds _ hkind).1, (hkinds _ hkind).2, ?_⟩
  rcases hvalue with h | h
  · rw [h]
    exact htarget
  · rw [h]
    exact hhost

/-- A client that copies the server's pairs claims no MIC, and one that adds the flag does. -/
theorem claimsMic_namePairs {front target host : Bytes} (hfront : front.length = 16 + 28)
    (htarget : target.length < 2 ^ 16) (hhost : host.length < 2 ^ 16) (compact : Bool) (rest : Bytes) :
    claimsMic (front ++ (avList (namePairs target host compact) ++ rest)) = false ∧
      claimsMic (front ++ (avList (namePairs target host compact ++
        [(MSV_AV_FLAGS, Bytes.ofNat 4 AV_FLAG_MIC_PRESENT)]) ++ rest)) = true := by
  have hpairs := pairable_namePairs htarget hhost compact
  constructor
  · rw [claimsMic_avList hfront hpairs]
    cases compact with
    | true => rfl
    | false => rfl
  · rw [claimsMic_avList hfront]
    · rw [avLast_concat]
      decide
    · intro p hp
      rcases List.mem_append.mp hp with hp | hp
      · exact hpairs p hp
      · rw [List.mem_singleton.mp hp]
        exact ⟨by decide, by decide, by decide⟩

/-! ## What an answer proves -/

theorem parseNtlmv2Response_ok {data proof blob : Bytes} :
    parseNtlmv2Response data = .ok (proof, blob) ↔
      data = proof ++ blob ∧ proof.length = 16 ∧ NTLMV2_HEADER <+: blob := by
  have hheader : NTLMV2_HEADER.length = 8 := rfl
  unfold parseNtlmv2Response
  constructor
  · intro h
    split at h
    · cases h
    · rename_i hdata
      rw [not_or, not_not] at hdata
      cases h
      refine ⟨(List.take_append_drop 16 data).symm, ?_, ?_⟩
      · rw [List.length_take]
        omega
      · rw [← hdata.2]
        exact List.take_prefix 8 _
  · rintro ⟨rfl, hproof, ⟨rest, rfl⟩⟩
    have hdrop : (proof ++ (NTLMV2_HEADER ++ rest)).drop 16 = NTLMV2_HEADER ++ rest :=
      List.drop_left' hproof
    rw [hdrop, List.take_left' hheader, List.take_left' hproof, if_neg]
    rw [not_or, List.length_append, List.length_append]
    exact ⟨by omega, fun h => h rfl⟩

section

variable (crypto : Crypto) (letters : Letters) (auth : Authenticator)

/-- The key that both sides get from a password that the response proves, before the key wrap. -/
def BaseKey (user domain : Str) (response challenge baseKey : Bytes) : Prop :=
  ∃ password ntowf blob, auth.users.lookup (letters.casefold user) = some password ∧
    ntowfv2 crypto letters password user domain = some ntowf ∧ NTLMV2_HEADER <+: blob ∧
    response = ntlmv2Proof crypto ntowf challenge blob ++ blob ∧
    baseKey = sessionBaseKey crypto ntowf (ntlmv2Proof crypto ntowf challenge blob)

/-- The check of a response gives a key if and only if the response proves the password of the user. -/
theorem verify_key_iff (hlength : ∀ key message, (crypto.hmacMd5 key message).length = 16)
    {user domain : Str} {response challenge baseKey : Bytes} :
    auth.verify crypto letters user response challenge domain = .ok (some baseKey) ↔
      auth.isOpen = false ∧ BaseKey crypto letters auth user domain response challenge baseKey := by
  unfold Authenticator.verify
  cases hopen : auth.isOpen with
  | true => exact iff_of_false (fun h => by cases h) fun h => Bool.noConfusion h.1
  | false =>
      rw [if_neg Bool.false_ne_true, and_iff_right rfl]
      constructor
      · intro h
        cases hparse : parseNtlmv2Response response with
        | error e =>
            rw [hparse] at h
            cases h
        | ok parts =>
            obtain ⟨proof, blob⟩ := parts
            rw [hparse] at h
            dsimp only [bind, Except.bind] at h
            split at h
            · cases h
            · rename_i password hpassword
              split at h
              · cases h
              · rename_i ntowf hntowf
                split at h
                · rename_i hproof
                  cases h
                  obtain ⟨hresponse, -, hblob⟩ := parseNtlmv2Response_ok.mp hparse
                  exact ⟨password, ntowf, blob, hpassword, hntowf, hblob, hproof ▸ hresponse, by rw [hproof]⟩
                · cases h
      · rintro ⟨password, ntowf, blob, hpassword, hntowf, hblob, rfl, rfl⟩
        have hparse : parseNtlmv2Response (ntlmv2Proof crypto ntowf challenge blob ++ blob) =
            .ok (ntlmv2Proof crypto ntowf challenge blob, blob) :=
          parseNtlmv2Response_ok.mpr ⟨rfl, hlength ntowf (challenge ++ blob), hblob⟩
        rw [hparse]
        dsimp only [bind, Except.bind]
        rw [hpassword]
        dsimp only
        rw [hntowf]
        dsimp only
        rw [if_pos rfl]

/-- No key comes without a refusal only where no password is configured. -/
theorem verify_none_iff {user domain : Str} {response challenge : Bytes} :
    auth.verify crypto letters user response challenge domain = .ok none ↔ auth.isOpen = true := by
  unfold Authenticator.verify
  cases hopen : auth.isOpen with
  | true => exact iff_of_true rfl rfl
  | false =>
      refine iff_of_false (fun h => ?_) Bool.false_ne_true
      rw [if_neg Bool.false_ne_true] at h
      cases hparse : parseNtlmv2Response response with
      | error e =>
          rw [hparse] at h
          cases h
      | ok parts =>
          rw [hparse] at h
          dsimp only [bind, Except.bind] at h
          split at h
          · cases h
          · split at h
            · cases h
            · split at h
              · cases h
              · cases h

/-- The message proves a password with its response and agrees on a key, and it was not altered. -/
def Proven (token challenge : Bytes) (negotiate ntlmChallenge : Option Bytes) (key : Bytes) : Prop :=
  ∃ creds baseKey, parseAuthenticate token = .ok creds ∧
    BaseKey crypto letters auth creds.user creds.domain creds.ntResponse challenge baseKey ∧
    key = exportedSessionKey baseKey creds ∧ verifyMic crypto key negotiate ntlmChallenge creds = true

variable {crypto letters auth}

theorem BaseKey.not_anonymous (hlength : ∀ key message, (crypto.hmacMd5 key message).length = 16)
    {creds : Credentials} {challenge baseKey : Bytes}
    (h : BaseKey crypto letters auth creds.user creds.domain creds.ntResponse challenge baseKey) :
    creds.isAnonymous = false := by
  obtain ⟨password, ntowf, blob, -, -, -, hresponse, -⟩ := h
  have hproof : (ntlmv2Proof crypto ntowf challenge blob).length = 16 := hlength ntowf (challenge ++ blob)
  have hsome : creds.ntResponse.length ≠ 0 := by
    rw [hresponse, List.length_append]
    omega
  rw [Credentials.isAnonymous, beq_false_of_ne hsome, Bool.and_false]

/-- A key is agreed on if and only if a password is proved. -/
theorem proveNtlm_key_iff (hlength : ∀ key message, (crypto.hmacMd5 key message).length = 16)
    {token challenge key : Bytes} {negotiate ntlmChallenge : Option Bytes} :
    proveNtlm crypto letters auth token challenge negotiate ntlmChallenge = .key key ↔
      auth.isOpen = false ∧ Proven crypto letters auth token challenge negotiate ntlmChallenge key := by
  unfold proveNtlm Proven
  cases hparse : parseAuthenticate token with
  | error e =>
      refine iff_of_false (fun h => by cases h) ?_
      rintro ⟨-, creds, baseKey, h, -⟩
      cases h
  | ok creds =>
      dsimp only
      constructor
      · intro h
        split at h
        · split at h
          · cases h
          · cases h
        · split at h
          · cases h
          · cases h
          · rename_i baseKey hverify
            obtain ⟨hclosed, hbase⟩ := (verify_key_iff crypto letters auth hlength).mp hverify
            split at h
            · rename_i hmic
              cases h
              exact ⟨hclosed, creds, baseKey, rfl, hbase, rfl, hmic⟩
            · cases h
      · rintro ⟨hclosed, creds', baseKey, hcreds, hbase, rfl, hmic⟩
        cases hcreds
        rw [if_neg (ne_true_of_eq_false (hbase.not_anonymous hlength)),
          (verify_key_iff crypto letters auth hlength).mpr ⟨hclosed, hbase⟩]
        exact if_pos hmic

/-- Without a proof a client gets in where no password is configured, and only there. -/
theorem proveNtlm_unproved_iff {token challenge : Bytes} {negotiate ntlmChallenge : Option Bytes} :
    proveNtlm crypto letters auth token challenge negotiate ntlmChallenge = .unproved ↔
      auth.isOpen = true ∧ ∃ creds, parseAuthenticate token = .ok creds := by
  unfold proveNtlm
  cases hparse : parseAuthenticate token with
  | error e =>
      refine iff_of_false (fun h => by cases h) ?_
      rintro ⟨-, creds, h⟩
      cases h
  | ok creds =>
      dsimp only
      have hverify := @verify_none_iff crypto letters auth creds.user creds.domain creds.ntResponse challenge
      cases hopen : auth.isOpen with
      | true =>
          refine iff_of_true ?_ ⟨rfl, creds, rfl⟩
          rw [hverify.mpr hopen]
          split
          · rfl
          · rfl
      | false =>
          refine iff_of_false (fun h => ?_) (fun h => Bool.noConfusion h.1)
          split at h
          · cases h
          · split at h
            · cases h
            · rename_i hnone
              rw [hverify, hopen] at hnone
              cases hnone
            · split at h
              · cases h
              · cases h

end

/-! ## The answer of a client -/

/-- What a client puts into its AUTHENTICATE. -/
structure Authenticate where
  lm : Bytes
  nt : Bytes
  domain : Bytes
  user : Bytes
  workstation : Bytes
  encryptedKey : Bytes
  flags : Nat
  version : Bytes

/-- What its fields name, in their order. -/
def Authenticate.fields (a : Authenticate) : List Bytes :=
  [a.lm, a.nt, a.domain, a.user, a.workstation, a.encryptedKey]

/-- The lengths and flags fit their fields, and there is a wrapped key. -/
structure Authenticate.Fits (a : Authenticate) : Prop where
  fields : ∀ value ∈ a.fields, value.length < 2 ^ 16
  encryptedKey : a.encryptedKey.length = 16
  flags : a.flags < 2 ^ 32

/-- The lengths and places of values that follow each other. -/
def places : Nat → List Bytes → List Struct.Item
  | _, [] => []
  | start, value :: rest =>
      .H value.length :: .H value.length :: .I start :: places (start + value.length) rest

/-- The fixed part of an AUTHENTICATE, in front of the MIC. -/
def Authenticate.items (a : Authenticate) : List Struct.Item :=
  [.s 8 NTLMSSP_SIGNATURE, .I 3] ++ (places 88 a.fields ++ [.I a.flags, .s 8 a.version])

def Authenticate.message (a : Authenticate) (mic : Bytes) : Bytes :=
  a.items.flatMap Struct.Item.bytes ++ (mic ++ a.fields.flatten)

/-- The credentials that the server reads. -/
def Authenticate.credentials (a : Authenticate) (mic : Bytes) : Credentials :=
  { user := decodeUtf16 a.user, domain := decodeUtf16 a.domain, workstation := decodeUtf16 a.workstation,
    ntResponse := a.nt, lmResponse := a.lm, flags := a.flags, encryptedSessionKey := a.encryptedKey,
    mic := if claimsMic a.nt then some mic else none, raw := a.message mic }

theorem calcsize_places (start : Nat) (values : List Bytes) :
    Struct.calcsize (places start values) = 8 * values.length := by
  induction values generalizing start with
  | nil => rfl
  | cons value rest ih =>
      have hcons : Struct.calcsize (places start (value :: rest)) =
          2 + (2 + (4 + Struct.calcsize (places (start + value.length) rest))) := rfl
      rw [hcons, ih, List.length_cons]
      omega

theorem places_append (start : Nat) (before rest : List Bytes) :
    places start (before ++ rest) = places start before ++ places (start + before.flatten.length) rest := by
  induction before generalizing start with
  | nil => rfl
  | cons value before ih =>
      rw [List.cons_append, places, ih, List.flatten_cons, List.length_append, ← Nat.add_assoc]
      rfl

section

variable {a : Authenticate} (ha : a.Fits) {mic : Bytes}

/-- The value that stands for a field of the message. -/
theorem Authenticate.split_fields (a : Authenticate) {offset : Nat}
    (h : offset ∈ Kind.authenticate.fields) : ∃ before value behind,
      a.fields = before ++ value :: behind ∧ offset = 12 + 8 * before.length := by
  simp only [Kind.fields, List.mem_cons, List.not_mem_nil, or_false] at h
  rcases h with rfl | rfl | rfl | rfl | rfl | rfl
  · exact ⟨[], _, _, rfl, rfl⟩
  · exact ⟨[_], _, _, rfl, rfl⟩
  · exact ⟨[_, _], _, _, rfl, rfl⟩
  · exact ⟨[_, _, _], _, _, rfl, rfl⟩
  · exact ⟨[_, _, _, _], _, _, rfl, rfl⟩
  · exact ⟨[_, _, _, _, _], _, _, rfl, rfl⟩

theorem Authenticate.length_items : (a.items.flatMap Struct.Item.bytes).length = 72 := by
  rw [Struct.length_flatMap, Authenticate.items, Struct.calcsize_append, Struct.calcsize_append,
    calcsize_places]
  rfl

include ha

theorem Authenticate.length_payload : 88 + a.fields.flatten.length < 2 ^ 32 := by
  have hfields := ha.fields
  simp only [Authenticate.fields, List.mem_cons, List.not_mem_nil, or_false, forall_eq_or_imp,
    forall_eq] at hfields
  simp only [Authenticate.fields, List.flatten_cons, List.flatten_nil, List.length_append, List.length_nil]
  omega

omit ha in
theorem calcsize_front (values : List Bytes) :
    Struct.calcsize ([.s 8 NTLMSSP_SIGNATURE, .I 3] ++ places 88 values) = 12 + 8 * values.length := by
  have hhead : Struct.calcsize [.s 8 NTLMSSP_SIGNATURE, .I 3] = 12 := rfl
  rw [Struct.calcsize_append, calcsize_places, hhead]

omit ha in
theorem Authenticate.type_message : (a.message mic).field 8 4 = Kind.authenticate.type := by
  have hhead : Struct.calcsize [.s 8 NTLMSSP_SIGNATURE] = 8 := rfl
  have hfield := @Struct.field_behind [.s 8 NTLMSSP_SIGNATURE] (.I 3) rfl
    (places 88 a.fields ++ [.I a.flags, .s 8 a.version]) (mic ++ a.fields.flatten)
  rw [hhead] at hfield
  exact hfield

/-- Length and place of a value, by what is in front of it. -/
theorem Authenticate.numbers {before behind : List Bytes} {value : Bytes}
    (hsplit : a.fields = before ++ value :: behind) :
    (a.message mic).field (12 + 8 * before.length) 2 = value.length ∧
      (a.message mic).field (12 + 8 * before.length + 4) 4 = 88 + before.flatten.length := by
  have hvalue : value.length < 2 ^ 16 := ha.fields value (by simp [hsplit])
  have hplace : 88 + before.flatten.length < 2 ^ 32 := by
    have htotal := Authenticate.length_payload ha
    rw [hsplit, List.flatten_append, List.length_append] at htotal
    omega
  have hitems : a.items = ([.s 8 NTLMSSP_SIGNATURE, .I 3] ++ places 88 before) ++
      (.H value.length :: .H value.length :: .I (88 + before.flatten.length) ::
        (places (88 + before.flatten.length + value.length) behind ++ [.I a.flags, .s 8 a.version])) := by
    rw [Authenticate.items, hsplit, places_append, places, List.append_assoc, List.append_assoc]
    rfl
  have hfront := calcsize_front before
  unfold Authenticate.message
  rw [hitems]
  constructor
  · rw [← hfront]
    exact @Struct.field_behind _ (.H value.length) (Struct.Item.fits_H hvalue) _ _
  · have hbefore : Struct.calcsize (([.s 8 NTLMSSP_SIGNATURE, .I 3] ++ places 88 before) ++
        [.H value.length, .H value.length]) = 12 + 8 * before.length + 4 := by
      rw [Struct.calcsize_append, hfront]
      rfl
    rw [← hbefore]
    have hfield := @Struct.field_behind (([.s 8 NTLMSSP_SIGNATURE, .I 3] ++ places 88 before) ++
      [.H value.length, .H value.length]) (.I (88 + before.flatten.length)) (Struct.Item.fits_I hplace)
      (places (88 + before.flatten.length + value.length) behind ++ [.I a.flags, .s 8 a.version])
      (mic ++ (before ++ value :: behind).flatten)
    rw [List.append_assoc, ← hsplit] at hfield
    exact hfield

theorem Authenticate.flags_message : (a.message mic).field 60 4 = a.flags := by
  have hfront := calcsize_front a.fields
  have hfield := @Struct.field_behind ([.s 8 NTLMSSP_SIGNATURE, .I 3] ++ places 88 a.fields) (.I a.flags)
    (Struct.Item.fits_I ha.flags) [.s 8 a.version] (mic ++ a.fields.flatten)
  have hsix : a.fields.length = 6 := rfl
  rw [hfront, hsix, List.append_assoc] at hfield
  exact hfield

variable (hmic : mic.length = 16)
include hmic

omit ha in
theorem Authenticate.length_message : (a.message mic).length = 88 + a.fields.flatten.length := by
  rw [Authenticate.message, List.length_append, Authenticate.length_items, List.length_append, hmic,
    ← Nat.add_assoc]

/-- Every value is read where it is. -/
theorem Authenticate.ntlmField_message {before behind : List Bytes} {value : Bytes}
    (hsplit : a.fields = before ++ value :: behind) :
    ntlmField (a.message mic) (12 + 8 * before.length) = .ok value := by
  obtain ⟨hlength, hplace⟩ := @Authenticate.numbers a ha mic before behind value hsplit
  have hsix : before.length + (behind.length + 1) = 6 := by
    have hcount := congrArg List.length hsplit
    rw [List.length_append, List.length_cons] at hcount
    exact hcount.symm
  have hlong := @Authenticate.length_message a mic hmic
  refine @ntlmField_eq _ (a.items.flatMap Struct.Item.bytes ++ (mic ++ before.flatten)) value
    behind.flatten _ ?_ (by omega) hlength ?_
  · rw [Authenticate.message, hsplit, List.flatten_append, List.flatten_cons]
    simp only [List.append_assoc]
  · rw [hplace, List.length_append, Authenticate.length_items, List.length_append, hmic, ← Nat.add_assoc]

/-- Every value ends inside the message, and the last one where the message ends. -/
theorem Authenticate.fieldEnd_message {before behind : List Bytes} {value : Bytes}
    (hsplit : a.fields = before ++ value :: behind) :
    fieldEnd (a.message mic) (12 + 8 * before.length) + behind.flatten.length = (a.message mic).length := by
  obtain ⟨hlength, hplace⟩ := @Authenticate.numbers a ha mic before behind value hsplit
  rw [fieldEnd, hlength, hplace, Authenticate.length_message hmic, hsplit, List.flatten_append,
    List.flatten_cons, List.length_append, List.length_append]
  omega

/-- The message is one that the server finds and cuts off correctly. -/
theorem Authenticate.wellFormed : WellFormed .authenticate (a.message mic) := by
  have hlong := @Authenticate.length_message a mic hmic
  have hheader : Kind.authenticate.header (a.message mic) ≤ 72 := by
    unfold Kind.header
    split
    · exact Nat.le_refl 72
    · decide
  constructor
  · exact ⟨_, rfl⟩
  · exact Authenticate.type_message
  · omega
  · intro offset hoffset _
    obtain ⟨before, value, behind, hsplit, rfl⟩ := a.split_fields hoffset
    exact Nat.le.intro (Authenticate.fieldEnd_message ha hmic hsplit)
  · have hlast : a.fields = [a.lm, a.nt, a.domain, a.user, a.workstation] ++ a.encryptedKey :: [] := rfl
    have hplace : 12 + 8 * [a.lm, a.nt, a.domain, a.user, a.workstation].length = 52 := rfl
    have hlength := (@Authenticate.numbers a ha mic _ _ _ hlast).1
    have hend := Authenticate.fieldEnd_message ha hmic hlast
    rw [hplace, ha.encryptedKey] at hlength
    rw [hplace] at hend
    exact Or.inr ⟨52, by decide, ne_of_eq_of_ne hlength (by decide), hend⟩

/-- The payload begins behind the MIC. -/
theorem Authenticate.payloadStart_message : 88 ≤ payloadStart (a.message mic) := by
  unfold payloadStart
  cases hmin : (([12, 20, 28, 36, 44, 52].filter fun offset => (a.message mic).field offset 2 != 0).map
      fun offset => (a.message mic).field (offset + 4) 4).min? with
  | none =>
      rw [Option.getD_none, Authenticate.length_message hmic]
      exact Nat.le_add_right _ _
  | some start =>
      obtain ⟨offset, hoffset, hstart⟩ := List.mem_map.mp (List.min?_mem hmin)
      obtain ⟨before, value, behind, hsplit, rfl⟩ :=
        a.split_fields (List.mem_of_mem_filter hoffset : offset ∈ Kind.authenticate.fields)
      rw [Option.getD_some, ← hstart, (@Authenticate.numbers a ha mic before behind value hsplit).2]
      exact Nat.le_add_right _ _

theorem Authenticate.micOf_message :
    micOf (a.message mic) a.nt = .ok (if claimsMic a.nt then some mic else none) := by
  have hlong := @Authenticate.length_message a mic hmic
  have hstart := Authenticate.payloadStart_message ha hmic
  have hsub : (a.message mic).sub MIC_OFFSET MIC_SIZE = mic := by
    have hitems := @Authenticate.length_items a
    rw [Authenticate.message, MIC_OFFSET, MIC_SIZE, Bytes.sub_append_right _ _ (Nat.le_of_eq hitems), hitems,
      Nat.sub_self, Bytes.sub_append_left _ (by omega)]
    exact Bytes.sub_of_length hmic
  unfold micOf
  cases claimsMic a.nt with
  | false => rfl
  | true =>
      rw [if_pos rfl, if_pos rfl, hsub, if_neg]
      unfold MIC_OFFSET MIC_SIZE
      omega

/-- The server reads the credentials that the client wrote, whatever stands behind them. -/
theorem Authenticate.parse (tail : Bytes) :
    parseAuthenticate (a.message mic ++ tail) = .ok (a.credentials mic) := by
  have hlong := @Authenticate.length_message a mic hmic
  have hread {before behind : List Bytes} {value : Bytes} (hsplit : a.fields = before ++ value :: behind) :=
    Authenticate.ntlmField_message ha hmic hsplit
  have hlm : ntlmField (a.message mic) 12 = .ok a.lm := @hread [] _ _ rfl
  have hnt : ntlmField (a.message mic) 20 = .ok a.nt := @hread [_] _ _ rfl
  have hdomain : ntlmField (a.message mic) 28 = .ok a.domain := @hread [_, _] _ _ rfl
  have huser : ntlmField (a.message mic) 36 = .ok a.user := @hread [_, _, _] _ _ rfl
  have hworkstation : ntlmField (a.message mic) 44 = .ok a.workstation := @hread [_, _, _, _] _ _ rfl
  have hkey : ntlmField (a.message mic) 52 = .ok a.encryptedKey := @hread [_, _, _, _, _] _ _ rfl
  have hflags : unpackFrom (a.message mic) 60 4 = .ok a.flags := by
    rw [checked_unpackFrom (by omega), Authenticate.flags_message ha]
  have hshort : ¬ (a.message mic ++ tail).length < 64 := by
    rw [List.length_append]
    omega
  unfold parseAuthenticate
  rw [if_neg hshort]
  dsimp only
  rw [(Authenticate.wellFormed ha hmic).trim_append tail, hlm, hnt, hdomain, huser, hworkstation, hkey,
    hflags]
  change (micOf (a.message mic) a.nt >>= _) = _
  rw [Authenticate.micOf_message ha hmic]
  rfl

end

/-- The message with its response to a challenge, and with the wrapped key. -/
def Authenticate.answering (a : Authenticate) (crypto : Crypto) (ntowf challenge blob sessionKey : Bytes) :
    Authenticate :=
  { a with
    nt := ntlmv2Proof crypto ntowf challenge blob ++ blob
    encryptedKey := rc4 (sessionBaseKey crypto ntowf (ntlmv2Proof crypto ntowf challenge blob)) sessionKey }

/-- The message with the MIC of the three messages, which is computed while its field is zero. -/
def Authenticate.withMic (a : Authenticate) (crypto : Crypto) (sessionKey negotiate ntlmChallenge : Bytes) :
    Bytes :=
  a.message (crypto.hmacMd5 sessionKey
    (negotiate ++ ntlmChallenge ++ a.message (List.replicate MIC_SIZE 0)))

theorem Authenticate.micOver_message (a : Authenticate) {mic : Bytes} (hmic : mic.length = 16)
    (crypto : Crypto) (key negotiate ntlmChallenge : Bytes) :
    micOver crypto key negotiate ntlmChallenge (a.message mic) =
      crypto.hmacMd5 key (negotiate ++ ntlmChallenge ++ a.message (List.replicate MIC_SIZE 0)) := by
  have hfront := @Authenticate.length_items a
  have hbehind : (a.items.flatMap Struct.Item.bytes ++ mic).length = MIC_OFFSET + MIC_SIZE := by
    rw [List.length_append, hfront, hmic]
    rfl
  have htake : (a.message mic).take MIC_OFFSET = a.items.flatMap Struct.Item.bytes := List.take_left' hfront
  have hdrop : (a.message mic).drop (MIC_OFFSET + MIC_SIZE) = a.fields.flatten := by
    rw [Authenticate.message, ← List.append_assoc]
    exact List.drop_left' hbehind
  rw [micOver, htake, hdrop, Authenticate.message, List.append_assoc (a.items.flatMap Struct.Item.bytes)]

/-- The server finds the MIC that the client computed. -/
theorem Authenticate.verifyMic_message (a : Authenticate) (crypto : Crypto)
    (hlength : ∀ key message, (crypto.hmacMd5 key message).length = 16) (key : Bytes) {negotiate : Bytes}
    (hnegotiate : negotiate ≠ []) (ntlmChallenge : Bytes) :
    verifyMic crypto key (some negotiate) (some ntlmChallenge) (a.credentials (crypto.hmacMd5 key
      (negotiate ++ ntlmChallenge ++ a.message (List.replicate MIC_SIZE 0)))) = true := by
  unfold verifyMic Authenticate.credentials
  dsimp only
  cases claimsMic a.nt with
  | false => rfl
  | true =>
      rw [if_pos rfl]
      dsimp only
      rw [bne_iff_ne.mpr hnegotiate, Bool.true_and, beq_iff_eq]
      exact a.micOver_message (hlength _ _) crypto key negotiate ntlmChallenge

/-- A client that knows the password gets in, with the key it chose. -/
theorem proveNtlm_answer {crypto : Crypto} {letters : Letters} {auth : Authenticator}
    (hlength : ∀ key message, (crypto.hmacMd5 key message).length = 16) (hclosed : auth.isOpen = false)
    {a : Authenticate} {user domain password : Str} (huser : encodeUtf16 user = some a.user)
    (hdomain : encodeUtf16 domain = some a.domain)
    (hpassword : auth.users.lookup (letters.casefold user) = some password) {ntowf : Bytes}
    (hntowf : ntowfv2 crypto letters password user domain = some ntowf) {challenge blob sessionKey : Bytes}
    (hblob : NTLMV2_HEADER <+: blob) (hkey : sessionKey.length = 16)
    (hfields : ∀ value ∈ (a.answering crypto ntowf challenge blob sessionKey).fields, value.length < 2 ^ 16)
    (hflags : a.flags < 2 ^ 32) (hexchange : a.flags &&& NEGOTIATE_KEY_EXCH ≠ 0) {negotiate : Bytes}
    (hnegotiate : negotiate ≠ []) (ntlmChallenge tail : Bytes) :
    proveNtlm crypto letters auth ((a.answering crypto ntowf challenge blob sessionKey).withMic crypto
      sessionKey negotiate ntlmChallenge ++ tail) challenge (some negotiate) (some ntlmChallenge) =
        .key sessionKey := by
  have hwrapped : (a.answering crypto ntowf challenge blob sessionKey).encryptedKey.length = 16 :=
    (length_rc4 _ sessionKey).trans hkey
  have hmic := (a.answering crypto ntowf challenge blob sessionKey).verifyMic_message crypto hlength sessionKey
    hnegotiate ntlmChallenge
  refine (proveNtlm_key_iff hlength).mpr ⟨hclosed, _, _,
    Authenticate.parse ⟨hfields, hwrapped, hflags⟩ (hlength _ _) tail,
    ⟨password, ntowf, blob, ?_, ?_, hblob, rfl, rfl⟩, ?_, hmic⟩
  · change auth.users.lookup (letters.casefold (decodeUtf16 a.user)) = some password
    rw [decodeUtf16_encodeUtf16 huser, hpassword]
  · change ntowfv2 crypto letters password (decodeUtf16 a.user) (decodeUtf16 a.domain) = _
    rw [decodeUtf16_encodeUtf16 huser, decodeUtf16_encodeUtf16 hdomain, hntowf]
  · unfold exportedSessionKey Authenticate.credentials
    dsimp only
    rw [if_pos]
    · exact (rc4_rc4 _ sessionKey).symm
    · rw [hwrapped, beq_self_eq_true, Bool.and_true]
      exact bne_iff_ne.mpr hexchange

end Ps2Servers.Smb2
