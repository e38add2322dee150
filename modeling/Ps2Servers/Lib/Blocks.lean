import Ps2Servers.Lib.Bytes

/-!
# Files in blocks

A file whose bytes come in blocks of one size. A block may be short, and then there are no bytes at
its last positions. Readers go through such a file slice by slice.
-/

namespace Ps2Servers.Blocks

section

variable (blockSize : Nat) (block : Nat → Bytes)

/-- The byte at a position, if its block goes that far. -/
def byteAt (position : Nat) : Option UInt8 :=
  (block (position / blockSize))[position % blockSize]?

/-- The bytes that are there from one position up to another. -/
def between (low high : Nat) : Bytes :=
  (List.range' low (high - low)).filterMap (byteAt blockSize block)

end

variable {blockSize : Nat} {block : Nat → Bytes} {low middle high : Nat}

theorem between_self (low : Nat) : between blockSize block low low = [] := by
  rw [between, Nat.sub_self]
  rfl

theorem between_append (hlow : low ≤ middle) (hhigh : middle ≤ high) :
    between blockSize block low middle ++ between blockSize block middle high =
      between blockSize block low high := by
  obtain ⟨a, rfl⟩ := Nat.exists_eq_add_of_le hlow
  obtain ⟨b, rfl⟩ := Nat.exists_eq_add_of_le hhigh
  unfold between
  rw [Nat.add_sub_cancel_left, Nat.add_sub_cancel_left, Nat.add_assoc, Nat.add_sub_cancel_left,
    ← List.filterMap_append]
  congr 1
  have hranges := @List.range'_append low a b 1
  rwa [Nat.one_mul] at hranges

theorem length_between_le (low high : Nat) :
    (between blockSize block low high).length ≤ high - low := by
  apply Nat.le_trans (List.length_filterMap_le _ _)
  rw [List.length_range']

theorem between_succ (low : Nat) :
    between blockSize block low (low + 1) = (byteAt blockSize block low).toList := by
  rw [between, Nat.add_sub_cancel_left, List.range'_one, List.filterMap_cons, List.filterMap_nil]
  cases byteAt blockSize block low <;> rfl

/-- Positions within one block. -/
theorem div_mod_add {n : Nat} (h : low % blockSize + n < blockSize) :
    (low + n) / blockSize = low / blockSize ∧ (low + n) % blockSize = low % blockSize + n := by
  have hpos : 0 < blockSize := Nat.zero_lt_of_lt h
  have hsplit : low + n = low % blockSize + n + blockSize * (low / blockSize) := by
    have := Nat.mod_add_div low blockSize
    omega
  rw [hsplit, Nat.add_mul_div_left _ _ hpos, Nat.add_mul_mod_self_left, Nat.mod_eq_of_lt h,
    Nat.div_eq_of_lt h, Nat.zero_add]
  exact ⟨rfl, rfl⟩

/-- Within a block the bytes are a slice of it. -/
theorem between_block {n : Nat} (h : low % blockSize + n ≤ blockSize) :
    between blockSize block low (low + n) =
      (block (low / blockSize)).sub (low % blockSize) n := by
  induction n with
  | zero => rw [Nat.add_zero, between_self, Bytes.sub_zero]
  | succ n ih =>
      obtain ⟨hdiv, hmod⟩ := @div_mod_add blockSize low n (by omega)
      rw [← between_append (Nat.le_add_right low n) (by omega), ih (by omega), ← Nat.add_assoc,
        between_succ, byteAt, hdiv, hmod, ← Bytes.sub_append]
      congr 1
      rw [Bytes.sub, List.take_one, List.head?_drop]

/-- There are as many bytes as positions only if no position lacks its byte. -/
theorem length_between_eq : (between blockSize block low high).length = high - low ↔
    ∀ x, low ≤ x → x < high → (byteAt blockSize block x).isSome := by
  have hlength := @List.filterMap_length_eq_length _ _ (byteAt blockSize block)
    (List.range' low (high - low))
  rw [List.length_range'] at hlength
  rw [between, hlength]
  constructor
  · intro h x hlow hhigh
    apply h
    rw [List.mem_range'_1]
    omega
  · intro h x hx
    rw [List.mem_range'_1] at hx
    exact h x hx.1 (by omega)

/-- Where no position lacks its byte, the bytes are those of the positions. -/
theorem getElem?_between (h : ∀ x, low ≤ x → x < high → (byteAt blockSize block x).isSome) {i : Nat}
    (hi : low + i < high) :
    (between blockSize block low high)[i]? = byteAt blockSize block (low + i) := by
  have hlength : (between blockSize block low (low + i)).length = i := by
    have hfront := (@length_between_eq blockSize block low (low + i)).mpr
      fun x hx hx' => h x hx (Nat.lt_trans hx' hi)
    rwa [Nat.add_sub_cancel_left] at hfront
  obtain ⟨b, hb⟩ := Option.isSome_iff_exists.mp (h (low + i) (Nat.le_add_right _ _) hi)
  rw [← between_append (Nat.le_add_right low i) (Nat.le_of_lt hi),
    List.getElem?_append_right (Nat.le_of_eq hlength), hlength, Nat.sub_self,
    ← between_append (Nat.le_succ (low + i)) hi, between_succ, hb]
  rfl

/-- A slice within one of the blocks that a file is put together from. -/
theorem sub_flatMap {α : Type*} {l : List α} {g : α → Bytes} (hpos : 0 < blockSize)
    (hlength : ∀ a, (g a).length = blockSize) {a : α} (ha : l[low / blockSize]? = some a) {n : Nat}
    (h : low % blockSize + n ≤ blockSize) :
    Bytes.sub (l.flatMap g) low n = (g a).sub (low % blockSize) n := by
  induction l generalizing low with
  | nil => cases ha
  | cons b rest ih =>
      rw [List.flatMap_cons]
      by_cases hlow : low < blockSize
      · rw [Nat.div_eq_of_lt hlow] at ha
        cases ha
        rw [Nat.mod_eq_of_lt hlow] at h ⊢
        exact Bytes.sub_append_left _ (by rw [hlength]; omega)
      · obtain ⟨rest', rfl⟩ := Nat.exists_eq_add_of_le (Nat.le_of_not_lt hlow)
        rw [Nat.add_div_left _ hpos] at ha
        rw [Nat.add_mod_left] at h ⊢
        rw [Bytes.sub_append_right _ _ (by rw [hlength]; omega), hlength, Nat.add_sub_cancel_left]
        exact ih ha h

end Ps2Servers.Blocks
