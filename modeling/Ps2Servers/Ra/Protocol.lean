import Ps2Servers.Lib.Text

/-!
# RA15 telemetry

One datagram is a part of a frame of memory values behind a header of named counters.
What is not such a datagram is refused with a `ValueError`.
-/

namespace Ps2Servers.Ra

def MAX_DATAGRAM : Nat := 1472

def MAX_PARTS : Nat := 9

def MAX_VALUES : Nat := (1472 - 191) * MAX_PARTS

def SEQUENCE_MODULUS : Nat := 1000000

/-! ## Patterns -/

def isDigit (b : UInt8) : Bool := 0x30 ≤ b && b ≤ 0x39

def isLower (b : UInt8) : Bool := 0x61 ≤ b && b ≤ 0x7a

def isUpper (b : UInt8) : Bool := 0x41 ≤ b && b ≤ 0x5a

/-- `[A-Za-z0-9_.-]` -/
def isSerialByte (b : UInt8) : Bool :=
  isDigit b || isLower b || isUpper b || b = 0x5f || b = 0x2e || b = 0x2d

/-- `[A-Za-z0-9+.-]` -/
def isValueByte (b : UInt8) : Bool :=
  isDigit b || isLower b || isUpper b || b = 0x2b || b = 0x2e || b = 0x2d

/-- `data.find(needle)`. -/
def find (needle : Bytes) : Bytes → Option Nat
  | [] => none
  | b :: rest =>
      if needle.isPrefixOf (b :: rest) then some 0 else (find needle rest).map (· + 1)

/-- `int(digits)`. -/
def decimal (digits : Bytes) : Nat := digits.foldl (fun n b => n * 10 + (b.toNat - 0x30)) 0

/-- `[A-Za-z0-9_.-]+~*` -/
def isSerialField (field : Bytes) : Bool :=
  let serial := field.takeWhile isSerialByte
  serial ≠ [] && (field.drop serial.length).all (· = 0x7e)

/-- `([a-z]+)=([A-Za-z0-9+.-]+)` -/
def parseToken (token : Bytes) : Option (Bytes × Bytes) :=
  let name := token.takeWhile isLower
  match token.drop name.length with
  | [] => none
  | b :: value =>
      if b = 0x3d ∧ name ≠ [] ∧ value ≠ [] ∧ value.all isValueByte then some (name, value) else none

/-- The fields of a header, each of another name. -/
def parseFields : List Bytes → List (Bytes × Bytes) → Option (List (Bytes × Bytes))
  | [], fields => some fields
  | token :: rest, fields =>
      match parseToken token with
      | none => none
      | some (name, value) =>
          if (fields.lookup name).isSome then none else parseFields rest (fields ++ [(name, value)])

/-- A counter of so many digits. -/
def counter (fields : List (Bytes × Bytes)) (name : Bytes) (width : Nat) : Option Nat :=
  let value := (fields.lookup name).getD []
  if value.length = width ∧ value.all isDigit then some (decimal value) else none

/-! ## Snapshot parts -/

structure SnapshotPart where
  serial : Str
  sequence : Nat
  count : Nat
  index : Nat
  parts : Nat
  values : Bytes
  deriving DecidableEq, Repr

/-- `_WIDTHS`: `sq`, `vb`, `n`, `pt` and `np`. -/
structure Counters where
  sequence : Nat
  size : Nat
  count : Nat
  index : Nat
  parts : Nat
  deriving DecidableEq, Repr

def parseCounters (fields : List (Bytes × Bytes)) : Option Counters := do
  let sequence ← counter fields [0x73, 0x71] 6
  let size ← counter fields [0x76, 0x62] 4
  let count ← counter fields [0x6e] 4
  let index ← counter fields [0x70, 0x74] 1
  let parts ← counter fields [0x6e, 0x70] 1
  return ⟨sequence, size, count, index, parts⟩

/-- `RA15 ` -/
def TELEMETRY : Bytes := [0x52, 0x41, 0x31, 0x35, 0x20]

/-- ` id=` -/
def SERIAL_MARKER : Bytes := [0x20, 0x69, 0x64, 0x3d]

def parseSnapshot (packet : Bytes) : Except String SnapshotPart :=
  if ¬(1 ≤ packet.length ∧ packet.length ≤ MAX_DATAGRAM) then
    .error "Invalid datagram size or type"
  else if ¬TELEMETRY.isPrefixOf packet then .error "Not RA15 telemetry"
  else
    match find SERIAL_MARKER (packet.take 191) with
    | none => .error "Missing final serial field"
    | some marker =>
        let offset := marker + 4 + 15 + 1
        let serialField := packet.sub (marker + 4) 15
        if 191 < offset ∨ packet.length < offset ∨ packet.sub (offset - 1) 1 ≠ [0x20] then
          .error "Truncated or oversized telemetry header"
        else if ¬isSerialField serialField then .error "Invalid game serial"
        else
          match parseFields ((packet.sub 5 (marker - 5)).splitOn 0x20) [] with
          | none => .error "Invalid or duplicate telemetry field"
          | some fields =>
              match parseCounters fields with
              | none => .error "Missing or invalid telemetry counter"
              | some c =>
                  if ¬(1 ≤ c.count ∧ c.count ≤ 4096 ∧ 1 ≤ c.parts ∧ c.parts ≤ MAX_PARTS ∧
                      c.index < c.parts) then
                    .error "Invalid snapshot dimensions"
                  else if ¬(1 ≤ c.size ∧ c.size ≤ MAX_VALUES ∧ packet.length - offset = c.size) then
                    .error "Telemetry payload length mismatch"
                  else
                    .ok ⟨Text.latin1 (serialField.takeWhile (· ≠ 0x7e)), c.sequence, c.count, c.index,
                      c.parts, packet.drop offset⟩

/-! ## What is accepted -/

theorem decimal_lt {digits : Bytes} (h : digits.all isDigit) :
    decimal digits < 10 ^ digits.length := by
  have hfold : ∀ (l : Bytes) (n : Nat), l.all isDigit →
      l.foldl (fun n b => n * 10 + (b.toNat - 0x30)) n < (n + 1) * 10 ^ l.length := by
    intro l
    induction l with
    | nil =>
        intro n _
        simp
    | cons b l ih =>
        intro n hall
        rw [List.all_cons, Bool.and_eq_true] at hall
        have hdigit : b.toNat - 0x30 ≤ 9 := by
          have hb := hall.1
          simp only [isDigit, Bool.and_eq_true, decide_eq_true_eq, UInt8.le_iff_toNat_le] at hb
          have h39 : (0x39 : UInt8).toNat = 57 := rfl
          omega
        have hrest := ih (n * 10 + (b.toNat - 0x30)) hall.2
        rw [List.foldl_cons, List.length_cons]
        refine Nat.lt_of_lt_of_le hrest ?_
        calc (n * 10 + (b.toNat - 0x30) + 1) * 10 ^ l.length
            ≤ (n + 1) * 10 * 10 ^ l.length := Nat.mul_le_mul_right _ (by omega)
          _ = (n + 1) * 10 ^ (l.length + 1) := by
            rw [Nat.pow_succ, Nat.mul_assoc, Nat.mul_comm 10]
  have h0 := hfold digits 0 h
  rw [Nat.zero_add, Nat.one_mul] at h0
  exact h0

theorem counter_lt {fields : List (Bytes × Bytes)} {name : Bytes} {width n : Nat}
    (h : counter fields name width = some n) : n < 10 ^ width := by
  unfold counter at h
  dsimp only at h
  split at h
  · rename_i hvalue
    obtain rfl := Option.some.inj h
    rw [← hvalue.1]
    exact decimal_lt hvalue.2
  · cases h

/-- The numbers of a part that was accepted. -/
theorem parseSnapshot_ok {packet : Bytes} {part : SnapshotPart}
    (h : parseSnapshot packet = .ok part) :
    part.sequence < SEQUENCE_MODULUS ∧ part.index < part.parts := by
  unfold parseSnapshot at h
  split at h
  · cases h
  split at h
  · cases h
  split at h
  · cases h
  dsimp only at h
  split at h
  · cases h
  split at h
  · cases h
  split at h
  · cases h
  split at h
  · cases h
  rename_i fields hfields c hcounters
  split at h
  · cases h
  rename_i hdimensions
  split at h
  · cases h
  obtain rfl := Except.ok.inj h
  refine ⟨?_, (not_not.mp hdimensions).2.2.2.2⟩
  unfold parseCounters at hcounters
  simp only [Option.bind_eq_bind, Option.bind_eq_some_iff] at hcounters
  obtain ⟨sequence, hsequence, size, hsize, count, hcount, index, hindex, parts, hparts, hc⟩ :=
    hcounters
  obtain rfl := Option.some.inj hc
  exact counter_lt hsequence

end Ps2Servers.Ra
