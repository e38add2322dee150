import Ps2Servers.Lib.Splice

/-!
# A file that is opened, written and closed

What `open` makes of a file by its bits, and what the writes leave that come one behind
the other through the file position. An appending descriptor puts every write at the end,
another one lays them behind each other from the start: either way they are one write.
-/

namespace Ps2Servers.FileWrites

/-- The bits of `open` that say what becomes of the contents. -/
structure Bits where
  creat : Bool
  trunc : Bool
  append : Bool
  deriving DecidableEq, Repr

/-- The contents behind an `open` of a file that may be missing; `none` where it fails. -/
def Bits.opened (bits : Bits) : Option Bytes → Option Bytes
  | some old => some (if bits.trunc then [] else old)
  | none => if bits.creat then some [] else none

/-- The contents behind writes from a position. -/
def laid (append : Bool) : Nat → Bytes → List Bytes → Bytes
  | _, old, [] => old
  | pos, old, data :: rest =>
      laid append (pos + data.length) (old.splice (if append then old.length else pos) data) rest

/-- The contents behind an `open`, the writes and a `close`. -/
def Bits.written (bits : Bits) (before : Option Bytes) (writes : List Bytes) : Option Bytes :=
  (bits.opened before).map fun old => laid bits.append 0 old writes

theorem splice_length (old data : Bytes) : old.splice old.length data = old ++ data := by
  rw [Bytes.splice_of_le le_rfl, List.take_length, List.drop_of_length_le (by omega),
    List.append_nil]

theorem length_splice_of_le {old : Bytes} {pos : Nat} (h : pos ≤ old.length) (data : Bytes) :
    (old.splice pos data).length = max old.length (pos + data.length) := by
  rw [Bytes.splice_of_le h, List.length_append, List.length_append, List.length_take,
    List.length_drop]
  omega

/-- Two writes one behind the other are one write, also where they make the file longer. -/
theorem splice_splice_of_le {old : Bytes} {pos : Nat} (h : pos ≤ old.length) (a b : Bytes) :
    (old.splice pos a).splice (pos + a.length) b = old.splice pos (a ++ b) := by
  have hpos : pos + a.length ≤ (old.splice pos a).length := by
    rw [length_splice_of_le h]
    omega
  have hfront : (old.take pos ++ a).length = pos + a.length := by
    rw [List.length_append, List.length_take, Nat.min_eq_left h]
  rw [Bytes.splice_of_le hpos, Bytes.splice_of_le h, Bytes.splice_of_le h, List.length_append,
    List.take_append_of_le_length (by omega), List.take_of_length_le (by omega),
    List.drop_append, List.drop_of_length_le (by omega), List.nil_append, List.drop_drop, hfront,
    ← List.append_assoc]
  congr 2
  omega

theorem laid_append (pos : Nat) (old : Bytes) (writes : List Bytes) :
    laid true pos old writes = old ++ writes.flatten := by
  induction writes generalizing pos old with
  | nil => rw [laid, List.flatten_nil, List.append_nil]
  | cons data rest ih =>
      rw [laid, if_pos rfl, splice_length, ih, List.flatten_cons, List.append_assoc]

theorem laid_position {pos : Nat} {old : Bytes} (h : pos ≤ old.length) (writes : List Bytes) :
    laid false pos old writes = old.splice pos writes.flatten := by
  induction writes generalizing pos old with
  | nil =>
      rw [laid, List.flatten_nil]
      rfl
  | cons data rest ih =>
      have hpos : pos + data.length ≤ (old.splice pos data).length := by
        rw [length_splice_of_le h]
        omega
      rw [laid, if_neg Bool.false_ne_true, ih hpos, splice_splice_of_le h, List.flatten_cons]

theorem laid_start (append : Bool) (old : Bytes) (writes : List Bytes) :
    laid append 0 old writes =
      if append then old ++ writes.flatten else old.splice 0 writes.flatten := by
  cases append with
  | true => exact laid_append 0 old writes
  | false => exact laid_position (Nat.zero_le _) writes

/-! ## When two ways of writing leave the same -/

theorem splice_zero_eq_self {old data : Bytes} :
    old.splice 0 data = data ↔ old.length ≤ data.length := by
  rw [Bytes.splice_of_le (Nat.zero_le _), List.take_zero, List.nil_append, Nat.zero_add]
  simp

theorem append_eq_splice_zero {old data : Bytes} :
    old ++ data = old.splice 0 data ↔ old = [] ∨ data = [] := by
  constructor
  · intro h
    have hlength := congrArg List.length h
    rw [length_splice_of_le (Nat.zero_le _), List.length_append] at hlength
    rw [← List.length_eq_zero_iff, ← List.length_eq_zero_iff]
    omega
  · rintro (rfl | rfl)
    · rw [splice_zero_eq_self.mpr (by simp), List.nil_append]
    · rw [List.append_nil]
      rfl

end Ps2Servers.FileWrites
