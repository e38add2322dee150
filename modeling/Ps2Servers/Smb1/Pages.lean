import Ps2Servers.Lib.Paging
import Ps2Servers.Smb1.Server

/-!
# Replies of a listing

Both servers answer a FIND_FIRST2 and a FIND_NEXT2 with one entry in the same envelope. A client
reads such a reply by the offsets the envelope declares.
-/

namespace Ps2Servers.Smb1

/-- The envelope of a TRANS2 reply: the parameters and the data, each at a multiple of 4. -/
def envelope (tParams tData : Bytes) : Reply :=
  let paramOff := align4 55
  let dataOff := align4 (paramOff + tParams.length)
  .done (Bytes.ofNat 2 tParams.length ++ Bytes.ofNat 2 tData.length ++ Bytes.ofNat 2 0 ++
      Bytes.ofNat 2 tParams.length ++ Bytes.ofNat 2 paramOff ++ Bytes.ofNat 2 0 ++
      Bytes.ofNat 2 tData.length ++ Bytes.ofNat 2 dataOff ++ Bytes.ofNat 2 0 ++ [0, 0])
    (List.replicate (paramOff - 55) 0 ++ tParams ++
      List.replicate (dataOff - (paramOff + tParams.length)) 0 ++ tData)

/-- A message of a client: the header, the words and the data. -/
def clientMessage (command tid : Nat) (params data : Bytes) : Bytes :=
  SMB_MAGIC ++ Bytes.ofNat 2 command ++ List.replicate 18 0 ++ Bytes.ofNat 2 tid ++
    List.replicate 6 0 ++ [UInt8.ofNat (params.length / 2)] ++ params ++
    Bytes.ofNat 2 data.length ++ data

/-- One reply of a listing: how many entries it carries, whether the search has ended, and the name
of the entry. -/
structure Page where
  count : Nat
  ended : Bool
  name : Bytes
  deriving DecidableEq, Repr

/-- A reply read by its offsets. The parameters of a FIND_FIRST2 reply begin with the SID. -/
def pageOf (front : Nat) (reply : Reply) : Page :=
  let tParams : Bytes := reply.data.drop (reply.params.field 8 2 - 55)
  let tData : Bytes := reply.data.drop (reply.params.field 14 2 - 55)
  ⟨tParams.field front 2, tParams.field (front + 2) 2 != 0, tData.drop 94⟩

theorem field_even (bytes rest : Bytes) (n : Nat) :
    (bytes ++ (Bytes.ofNat 2 n ++ rest)).field bytes.length 2 = n % 65536 := by
  calc
    (bytes ++ (Bytes.ofNat 2 n ++ rest)).field bytes.length 2
        = (Bytes.ofNat 2 n ++ rest).field 0 2 := Bytes.field_append bytes _ 0 2
    _ = n % 65536 := Bytes.field_ofNat 2 n rest

theorem envelope_paramOff (tParams tData : Bytes) : (envelope tParams tData).params.field 8 2 = 56 := by
  have hfront : (Bytes.ofNat 2 tParams.length ++ Bytes.ofNat 2 tData.length ++ Bytes.ofNat 2 0 ++
      Bytes.ofNat 2 tParams.length).length = 8 := rfl
  have hfield := field_even (Bytes.ofNat 2 tParams.length ++ Bytes.ofNat 2 tData.length ++
    Bytes.ofNat 2 0 ++ Bytes.ofNat 2 tParams.length)
    (Bytes.ofNat 2 0 ++ Bytes.ofNat 2 tData.length ++
      Bytes.ofNat 2 (align4 (align4 55 + tParams.length)) ++ Bytes.ofNat 2 0 ++ [0, 0]) (align4 55)
  rw [hfront] at hfield
  unfold envelope Reply.done
  simp only [List.append_assoc] at hfield ⊢
  exact hfield

theorem envelope_dataOff (tParams tData : Bytes) :
    (envelope tParams tData).params.field 14 2 = align4 (56 + tParams.length) % 65536 := by
  have hfront : (Bytes.ofNat 2 tParams.length ++ Bytes.ofNat 2 tData.length ++ Bytes.ofNat 2 0 ++
      Bytes.ofNat 2 tParams.length ++ Bytes.ofNat 2 (align4 55) ++ Bytes.ofNat 2 0 ++
      Bytes.ofNat 2 tData.length).length = 14 := rfl
  have hfield := field_even (Bytes.ofNat 2 tParams.length ++ Bytes.ofNat 2 tData.length ++
    Bytes.ofNat 2 0 ++ Bytes.ofNat 2 tParams.length ++ Bytes.ofNat 2 (align4 55) ++
    Bytes.ofNat 2 0 ++ Bytes.ofNat 2 tData.length) (Bytes.ofNat 2 0 ++ [0, 0])
    (align4 (align4 55 + tParams.length))
  rw [hfront] at hfield
  unfold envelope Reply.done
  simp only [List.append_assoc] at hfield ⊢
  exact hfield

/-- The parameters begin where the envelope says. -/
theorem drop_params (tParams tData : Bytes) : ∃ rest,
    (envelope tParams tData).data.drop (56 - 55) = tParams ++ rest := by
  unfold envelope Reply.done
  dsimp only
  rw [List.append_assoc, List.append_assoc]
  exact ⟨_, List.drop_left' rfl⟩

/-- The data begin where the envelope says. -/
theorem drop_data (tParams tData : Bytes) :
    (envelope tParams tData).data.drop (align4 (56 + tParams.length) - 55) = tData := by
  unfold envelope Reply.done
  dsimp only
  apply List.drop_left'
  have halign : 56 + tParams.length ≤ align4 (56 + tParams.length) := by
    unfold align4
    omega
  rw [List.length_append, List.length_append, List.length_replicate, List.length_replicate]
  show 1 + tParams.length + (align4 (56 + tParams.length) - (56 + tParams.length)) = _
  omega

/-- What a client reads of a reply whose parameters hold these numbers behind `front`. -/
theorem pageOf_envelope (front rest tData : Bytes) (count last : Nat)
    (hlength : front.length + rest.length ≤ 100) :
    pageOf front.length (envelope (front ++ (Bytes.ofNat 2 count ++ (Bytes.ofNat 2 last ++ rest))) tData)
      = ⟨count % 65536, last % 65536 != 0, tData.drop 94⟩ := by
  have hcount := field_even front
  obtain ⟨more, hmore⟩ := drop_params
    (front ++ (Bytes.ofNat 2 count ++ (Bytes.ofNat 2 last ++ rest))) tData
  have hsmall : align4 (56 + (front ++ (Bytes.ofNat 2 count ++
      (Bytes.ofNat 2 last ++ rest))).length) % 65536 =
      align4 (56 + (front ++ (Bytes.ofNat 2 count ++ (Bytes.ofNat 2 last ++ rest))).length) := by
    apply Nat.mod_eq_of_lt
    simp only [List.length_append, Bytes.length_ofNat]
    unfold align4
    omega
  have hlast := field_even (front ++ Bytes.ofNat 2 count) (rest ++ more) last
  have hend : (front ++ Bytes.ofNat 2 count).length = front.length + 2 := List.length_append
  rw [hend] at hlast
  unfold pageOf
  rw [envelope_paramOff, envelope_dataOff, hsmall, drop_data, hmore]
  simp only [List.append_assoc] at hlast ⊢
  rw [hlast, hcount]

example : pageOf 0 (envelope (Bytes.ofNat 2 1 ++ Bytes.ofNat 2 1 ++ List.replicate 4 0)
    (List.replicate 94 0 ++ [0x67])) = ⟨1, true, [0x67]⟩ := by
  decide +kernel

end Ps2Servers.Smb1
