import Ps2Servers.Lib.Bytes
import Mathlib.Data.List.TakeDrop

/-!
# `struct.pack`

A format is a list of little-endian items with their values. Packing refuses a value
that its item cannot hold.
-/

namespace Ps2Servers.Struct

/-- An item of a format: unsigned integers of 1, 2, 4 and 8 bytes, a signed one of 8, a string
of zero bytes, and a string that is cut or padded to its size. Negative values do not occur. -/
inductive Item
  | B (value : Nat)
  | H (value : Nat)
  | I (value : Nat)
  | Q (value : Nat)
  | q (value : Nat)
  | zeros (count : Nat)
  | s (count : Nat) (data : Bytes)
  deriving DecidableEq, Repr

def Item.size : Item → Nat
  | B _ => 1
  | H _ => 2
  | I _ => 4
  | Q _ => 8
  | q _ => 8
  | zeros count => count
  | s count _ => count

/-- The value can be held. -/
def Item.fits : Item → Bool
  | B value => value < 0x100
  | H value => value < 0x10000
  | I value => value < 0x100000000
  | Q value => value < 0x10000000000000000
  | q value => value < 0x8000000000000000
  | zeros _ => true
  | s _ _ => true

def Item.bytes : Item → Bytes
  | B value => .ofNat 1 value
  | H value => .ofNat 2 value
  | I value => .ofNat 4 value
  | Q value => .ofNat 8 value
  | q value => .ofNat 8 value
  | zeros count => List.replicate count 0
  | s count data => data.takeD count 0

def pack (items : List Item) : Option Bytes :=
  if items.all Item.fits then some (items.flatMap Item.bytes) else none

/-- An item of a big-endian format. -/
def Item.bytesBE : Item → Bytes
  | zeros count => List.replicate count 0
  | s count data => data.takeD count 0
  | item => item.bytes.reverse

/-- Packing in a big-endian format. -/
def packBE (items : List Item) : Option Bytes :=
  if items.all Item.fits then some (items.flatMap Item.bytesBE) else none

/-- `struct.calcsize`. -/
def calcsize (items : List Item) : Nat := (items.map Item.size).sum

theorem Item.length_bytes (item : Item) : item.bytes.length = item.size := by
  cases item with
  | zeros count => exact List.length_replicate
  | s count data => exact List.takeD_length count data 0
  | _ => exact Bytes.length_ofNat _ _

theorem length_flatMap (items : List Item) :
    (items.flatMap Item.bytes).length = calcsize items := by
  induction items with
  | nil => rfl
  | cons item rest ih =>
      rw [List.flatMap_cons, List.length_append, ih, item.length_bytes]
      rfl

theorem pack_eq_some {items : List Item} {bytes : Bytes} :
    pack items = some bytes ↔ items.all Item.fits = true ∧ items.flatMap Item.bytes = bytes := by
  unfold pack
  split
  · rename_i h
    rw [Option.some.injEq, and_iff_right h]
  · rename_i h
    exact iff_of_false (fun heq => by cases heq) fun heq => h heq.1

theorem length_pack {items : List Item} {bytes : Bytes} (h : pack items = some bytes) :
    bytes.length = calcsize items := by
  rw [← (pack_eq_some.mp h).2, length_flatMap]

/-- A number behind the items in front of it. -/
theorem field_flatMap (front : List Item) {value : Nat} (hvalue : value < 256 ^ 4) (back : List Item)
    (rest : Bytes) :
    Bytes.field ((front ++ .I value :: back).flatMap Item.bytes ++ rest) (calcsize front) 4 = value := by
  have hfront := Bytes.field_append (front.flatMap Item.bytes)
    (Bytes.ofNat 4 value ++ (back.flatMap Item.bytes ++ rest)) 0 4
  rw [length_flatMap, Nat.add_zero, Bytes.field_ofNat, Nat.mod_eq_of_lt hvalue] at hfront
  rw [List.flatMap_append, List.flatMap_cons, List.append_assoc, List.append_assoc]
  exact hfront

/-- The number that an item is read as. -/
def Item.value : Item → Nat
  | B value => value
  | H value => value
  | I value => value
  | Q value => value
  | q value => value
  | item => Bytes.le item.bytes

theorem Item.le_bytes {item : Item} (h : item.fits = true) : Bytes.le item.bytes = item.value := by
  have hread (size value : Nat) (hvalue : value < 256 ^ size) :
      Bytes.le (Bytes.ofNat size value) = value := by
    rw [Bytes.le_ofNat, Nat.mod_eq_of_lt hvalue]
  cases item with
  | B value => exact hread 1 value (of_decide_eq_true h)
  | H value => exact hread 2 value (of_decide_eq_true h)
  | I value => exact hread 4 value (of_decide_eq_true h)
  | Q value => exact hread 8 value (of_decide_eq_true h)
  | q value =>
      apply hread 8 value
      exact Nat.lt_of_lt_of_le (of_decide_eq_true h) (by decide)
  | zeros count => rfl
  | s count data => rfl

/-- Where an item is found behind the items in front of it. -/
theorem sub_flatMap (front : List Item) (item : Item) (back : List Item) (rest : Bytes) :
    Bytes.sub ((front ++ item :: back).flatMap Item.bytes ++ rest) (calcsize front) item.size =
      item.bytes := by
  rw [List.flatMap_append, List.flatMap_cons, List.append_assoc, List.append_assoc,
    Bytes.sub_append_right _ _ (Nat.le_of_eq (length_flatMap front)), length_flatMap, Nat.sub_self,
    ← item.length_bytes, Bytes.sub_append_left _ (Nat.le_of_eq (Nat.zero_add _))]
  exact Bytes.sub_of_length rfl

theorem Item.fits_H {n : Nat} (h : n < 2 ^ 16) : (Item.H n).fits = true := by
  rw [Item.fits, decide_eq_true_iff]
  omega

theorem Item.fits_I {n : Nat} (h : n < 2 ^ 32) : (Item.I n).fits = true := by
  rw [Item.fits, decide_eq_true_iff]
  omega

theorem calcsize_append (front back : List Item) :
    calcsize (front ++ back) = calcsize front + calcsize back := by
  rw [calcsize, List.map_append, List.sum_append]
  rfl

/-- A number behind the items in front of it is read as it was packed. -/
theorem field_behind (front : List Item) {item : Item} (hfits : item.fits = true) (back : List Item)
    (rest : Bytes) :
    Bytes.field ((front ++ item :: back).flatMap Item.bytes ++ rest) (calcsize front) item.size =
      item.value := by
  rw [Bytes.field, sub_flatMap]
  exact Item.le_bytes hfits

/-- Every number of a record is read as it was packed. -/
theorem field_item {items : List Item} (hfits : items.all Item.fits = true) {i : Nat}
    (hi : i < items.length) (rest : Bytes) :
    Bytes.field (items.flatMap Item.bytes ++ rest) (calcsize (items.take i)) items[i].size =
      items[i].value := by
  have hfield := field_behind (items.take i) (List.all_eq_true.mp hfits _ (List.getElem_mem hi))
    (items.drop (i + 1)) rest
  rw [← List.drop_eq_getElem_cons hi, List.take_append_drop] at hfield
  exact hfield

/-! ## Big-endian formats -/

theorem Item.length_bytesBE (item : Item) : item.bytesBE.length = item.size := by
  cases item with
  | zeros count => exact List.length_replicate
  | s count data => exact List.takeD_length count data 0
  | _ => exact List.length_reverse.trans (Bytes.length_ofNat _ _)

theorem length_flatMapBE (items : List Item) :
    (items.flatMap Item.bytesBE).length = calcsize items := by
  induction items with
  | nil => rfl
  | cons item rest ih =>
      rw [List.flatMap_cons, List.length_append, ih, item.length_bytesBE]
      rfl

/-- Where an item is found behind the items in front of it. -/
theorem sub_flatMapBE (front : List Item) (item : Item) (back : List Item) (rest : Bytes) :
    Bytes.sub ((front ++ item :: back).flatMap Item.bytesBE ++ rest) (calcsize front) item.size =
      item.bytesBE := by
  rw [List.flatMap_append, List.flatMap_cons, List.append_assoc, List.append_assoc,
    Bytes.sub_append_right _ _ (Nat.le_of_eq (length_flatMapBE front)), length_flatMapBE, Nat.sub_self,
    ← item.length_bytesBE, Bytes.sub_append_left _ (Nat.le_of_eq (Nat.zero_add _))]
  exact Bytes.sub_of_length rfl

/-- A number behind the items in front of it. -/
theorem fieldBE_flatMapBE (front : List Item) {item : Item}
    (hitem : item.bytesBE = item.bytes.reverse) (back : List Item) (rest : Bytes) :
    Bytes.fieldBE ((front ++ item :: back).flatMap Item.bytesBE ++ rest) (calcsize front)
      item.size = Bytes.le item.bytes := by
  rw [Bytes.fieldBE, sub_flatMapBE, hitem, List.reverse_reverse]

end Ps2Servers.Struct
