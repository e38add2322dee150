import Ps2Servers.Exfat.Entries

/-!
# The loop that compresses the up-case table

The two nested loops of the constructor turn by turn, and what they end with.

## Implementation notes

`encodeTable` is the result of the loops. Here they take a number of turns and give `none` where that
is not enough, so that an endless loop shows.
-/

namespace Ps2Servers.Exfat

/-- The variables of the outer loop. -/
structure Encoder where
  c : Nat
  encoded : List Nat
  deriving DecidableEq, Repr

/-- The inner loop. -/
def runLoop (upper : Nat → Nat) (c : Nat) : Nat → Nat → Option Nat
  | 0, _ => none
  | turns + 1, stop =>
      if stop < 65536 ∧ upper stop = stop ∧ stop - c < 65535 then runLoop upper c turns (stop + 1)
      else some stop

/-- The body of the outer loop. -/
def Encoder.turn (upper : Nat → Nat) (e : Encoder) : Option Encoder := do
  let stop ← runLoop upper e.c 65537 e.c
  if 1 < stop - e.c ∨ e.c = 65535 then some ⟨stop, e.encoded ++ [0xffff, stop - e.c]⟩
  else some ⟨e.c + 1, e.encoded ++ [upper e.c]⟩

def encodeLoop (upper : Nat → Nat) : Nat → Encoder → Option (List Nat)
  | 0, _ => none
  | turns + 1, e => if e.c < 65536 then e.turn upper >>= encodeLoop upper turns else some e.encoded

variable {upper : Nat → Nat}

/-! ## What the loops end with -/

/-- The inner loop ends at the end of the table at the latest. -/
theorem runLoop_eq (c : Nat) {turns stop : Nat} (hturns : 65536 - stop ≤ turns) :
    runLoop upper c (turns + 1) stop = some (runEnd upper c turns stop) := by
  induction turns generalizing stop with
  | zero => rw [runLoop, if_neg (by omega), runEnd]
  | succ turns ih =>
      rw [runLoop, runEnd]
      split
      · apply ih
        omega
      · rfl

/-- A turn extends the list by a run that reaches further, or by one entry. -/
theorem turn_eq (hupper : Cased upper) {e : Encoder} (hc : e.c < 65536) :
    ∃ next added, e.turn upper = some ⟨next, e.encoded ++ added⟩ ∧ e.c < next ∧ next ≤ 65536 ∧
      ∀ fuel, encodeFrom upper (fuel + 1) e.c = added ++ encodeFrom upper fuel next := by
  have hrun := @runEnd_spec upper e.c 65536 e.c (by omega) (by omega) (by omega)
  have hstop := @runLoop_eq upper e.c 65536 e.c (by omega)
  by_cases hmany : 1 < runEnd upper e.c 65536 e.c - e.c ∨ e.c = 65535
  · refine ⟨_, [0xffff, runEnd upper e.c 65536 e.c - e.c], ?_, ?_, hrun.2.1, ?_⟩
    · rw [Encoder.turn, hstop]
      exact if_pos hmany
    · rcases hmany with hmany | hlast
      · omega
      · apply lt_runEnd hc
        rw [(hupper.last e.c hc).mpr hlast, hlast]
    · intro fuel
      rw [encodeFrom, if_pos hc]
      exact if_pos hmany
  · refine ⟨_, [upper e.c], ?_, Nat.lt_succ_self _, hc, ?_⟩
    · rw [Encoder.turn, hstop]
      exact if_neg hmany
    · intro fuel
      rw [encodeFrom, if_pos hc]
      exact if_neg hmany

/-- The outer loop ends after at most one turn for each entry that is left. -/
theorem encodeLoop_eq (hupper : Cased upper) {turns : Nat} {e : Encoder} (hc : e.c ≤ 65536)
    (hturns : 65536 - e.c ≤ turns) :
    encodeLoop upper (turns + 1) e = some (e.encoded ++ encodeFrom upper turns e.c) := by
  induction turns generalizing e with
  | zero => rw [encodeLoop, if_neg (by omega), encodeFrom, List.append_nil]
  | succ turns ih =>
      rw [encodeLoop]
      split
      · rename_i hlt
        obtain ⟨next, added, hturn, hfar, hnext, hencode⟩ := turn_eq hupper hlt
        rw [hturn, hencode, ← List.append_assoc]
        apply ih hnext
        dsimp only
        omega
      · rename_i hend
        rw [encodeFrom, if_neg hend, List.append_nil]

/-- Without the last entry being its own upper case the outer loop does not end. -/
theorem encodeLoop_stuck (h : upper 65535 ≠ 65535) (turns : Nat) (encoded : List Nat) :
    encodeLoop upper turns ⟨65535, encoded⟩ = none := by
  have hrun : runLoop upper 65535 65537 65535 = some 65535 := if_neg fun hself => h hself.2.1
  induction turns generalizing encoded with
  | zero => rfl
  | succ turns ih =>
      rw [encodeLoop, if_pos (Nat.lt_succ_self 65535), Encoder.turn, hrun]
      exact ih _

/-! ## Tables -/

/-- `self._upper[c]`. -/
def entry (table : List Nat) (c : Nat) : Nat := table.getD c 0

theorem entry_eq {table : List Nat} {c : Nat} (h : c < table.length) : entry table c = table[c] := by
  rw [entry, List.getD_eq_getElem?_getD, List.getElem?_eq_getElem h, Option.getD_some]

theorem map_entry (table : List Nat) : (List.range table.length).map (entry table) = table := by
  apply List.ext_getElem
  · rw [List.length_map, List.length_range]
  · intro i hi hi'
    rw [List.getElem_map, List.getElem_range, entry_eq hi']

/-- The loops end on every table of 16-bit units that maps 0xFFFF and nothing else to 0xFFFF, and the
units that they give stand for the table. -/
theorem encoding_stands_for_table {table : List Nat} (hlength : table.length = 65536)
    (hunits : ∀ u ∈ table, u < 65536) (hlast : ∀ c < 65536, entry table c = 0xffff ↔ c = 0xffff) :
    ∃ turns encoded, encodeLoop (entry table) turns ⟨0, []⟩ = some encoded ∧
      (∀ u ∈ encoded, u < 65536) ∧ Reader.decodeTable 0 encoded = table := by
  have hupper : Cased (entry table) := by
    constructor
    · intro c hc
      apply hunits
      rw [entry_eq (by omega)]
      exact List.getElem_mem _
    · exact hlast
  refine ⟨_, _, encodeLoop_eq hupper (Nat.zero_le _) (Nat.le_refl _), ?_, ?_⟩
  · intro u hu
    exact lt_of_mem_encodeFrom hupper hu
  · calc
      Reader.decodeTable 0 (encodeTable (entry table)) = (List.range 65536).map (entry table) :=
        decodeTable_encodeTable hupper
      _ = table := by rw [← hlength, map_entry]

theorem entry_range {c : Nat} (hc : c < 65536) : entry (List.range 65536) c = c := by
  rw [entry_eq (by rwa [List.length_range]), List.getElem_range]

theorem identity_encoding :
    ∃ turns encoded, encodeLoop (entry (List.range 65536)) turns ⟨0, []⟩ = some encoded ∧
      (∀ u ∈ encoded, u < 65536) ∧ Reader.decodeTable 0 encoded = List.range 65536 := by
  apply encoding_stands_for_table List.length_range
  · intro u hu
    exact List.mem_range.mp hu
  · intro c hc
    rw [entry_range hc]

end Ps2Servers.Exfat
