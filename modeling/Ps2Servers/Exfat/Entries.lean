import Ps2Servers.Exfat.Layout
import Ps2Servers.Exfat.Reader

/-!
# Directory entries of a virtual exFAT volume

What the volume writes into a directory is what a reader of exFAT finds there: sums are
rotated sums, a group is one valid entry set, and the entries of a folder come back in
order. Names survive their way through units of 16 bits.
-/

namespace Ps2Servers.Exfat

/-! ## Sums -/

theorem toNat_rotateRight_one {bits : Nat} (h : 1 < bits) (x : BitVec bits) :
    (x.rotateRight 1).toNat = x.toNat / 2 + x.toNat % 2 * 2 ^ (bits - 1) := by
  have hpow : 2 ^ bits = 2 * 2 ^ (bits - 1) := by
    rw [← Nat.pow_succ', Nat.succ_eq_add_one, Nat.sub_add_cancel (by omega)]
  have hhalf : x.toNat / 2 < 2 ^ (bits - 1) := by
    have := x.isLt
    omega
  have hlow : x.toNat <<< (bits - 1) % 2 ^ bits = (x.toNat % 2) <<< (bits - 1) := by
    rw [Nat.shiftLeft_eq, Nat.shiftLeft_eq, hpow, Nat.mul_mod_mul_right]
  rw [BitVec.toNat_rotateRight, Nat.mod_eq_of_lt h, hlow, Nat.shiftRight_eq_div_pow, Nat.pow_one,
    Nat.or_comm, ← Nat.shiftLeft_add_eq_or_of_lt hhalf, Nat.shiftLeft_eq, Nat.add_comm]

/-- The loop over the bytes, with the bytes before them. -/
theorem toNat_foldl_eq_checksumFrom {bits : Nat} (h : 1 < bits) (skip : List Nat) (data : Bytes)
    (i : Nat) (sum : BitVec bits) :
    ((data.zipIdx i).foldl (fun sum b =>
      if b.2 ∈ skip then sum else sum.rotateRight 1 + BitVec.ofNat bits b.1.toNat) sum).toNat =
        checksumFrom bits skip i sum.toNat data := by
  induction data generalizing i sum with
  | nil => rfl
  | cons byte rest ih =>
      rw [List.zipIdx_cons, List.foldl_cons, ih, checksumFrom]
      congr 1
      split
      · rfl
      · rw [BitVec.toNat_add, toNat_rotateRight_one h, BitVec.toNat_ofNat, Nat.add_mod_mod]

theorem toNat_rotatedSum {bits : Nat} (h : 1 < bits) (skip : List Nat) (data : Bytes) :
    (Reader.rotatedSum bits skip data).toNat = checksum data bits skip :=
  toNat_foldl_eq_checksumFrom h skip data 0 0

theorem checksum_lt {bits : Nat} (h : 1 < bits) (skip : List Nat) (data : Bytes) :
    checksum data bits skip < 2 ^ bits := by
  rw [← toNat_rotatedSum h]
  exact BitVec.isLt _

/-! ## Units -/

theorem unpackUnits_append : ∀ {a b : Bytes}, a.length % 2 = 0 →
    unpackUnits (a ++ b) = unpackUnits a ++ unpackUnits b
  | [], _, _ => rfl
  | [_], _, h => by cases h
  | x :: y :: rest, b, h => by
      have hrest : rest.length % 2 = 0 := by
        rw [List.length_cons, List.length_cons] at h
        omega
      rw [List.cons_append, List.cons_append, unpackUnits, unpackUnits, unpackUnits_append hrest,
        List.cons_append]

theorem unpackUnits_ofNat (n : Nat) : unpackUnits (Bytes.ofNat 2 n) = [n % 65536] := by
  rw [← Text.unit_bytes n]
  rfl

theorem unpackUnits_packUnits {us : List Nat} (h : ∀ u ∈ us, u < 65536) :
    unpackUnits (packUnits us) = us := by
  induction us with
  | nil => rfl
  | cons u rest ih =>
      have hu := h u List.mem_cons_self
      rw [packUnits, List.flatMap_cons, unpackUnits_append (by rw [Bytes.length_ofNat]),
        unpackUnits_ofNat, Nat.mod_eq_of_lt hu]
      rw [packUnits] at ih
      rw [ih fun u' hu' => h u' (List.mem_cons_of_mem u hu'), List.singleton_append]

theorem packUnits_unpackUnits {bytes : Bytes} (h : bytes.length % 2 = 0) :
    packUnits (unpackUnits bytes) = bytes := by
  induction bytes using List.twoStepInduction with
  | nil => rfl
  | singleton a => cases h
  | cons_cons a b rest ih =>
      have ha := a.toNat_lt
      have hpair : Bytes.ofNat 2 (a.toNat + 256 * b.toNat) = [a, b] := by
        have hlow : (a.toNat + 256 * b.toNat) % 256 = a.toNat := by omega
        have hhigh : (a.toNat + 256 * b.toNat) / 256 % 256 = b.toNat := by
          have := b.toNat_lt
          omega
        rw [Bytes.ofNat, Bytes.ofNat, Bytes.ofNat, hlow, hhigh, UInt8.ofNat_toNat,
          UInt8.ofNat_toNat]
      rw [List.length_cons, List.length_cons] at h
      rw [packUnits] at ih
      rw [unpackUnits, packUnits, List.flatMap_cons, hpair, ih (by omega)]
      rfl

theorem lt_of_mem_unpackUnits {bytes : Bytes} {u : Nat} (h : u ∈ unpackUnits bytes) : u < 65536 := by
  induction bytes using List.twoStepInduction with
  | nil => cases h
  | singleton a => cases h
  | cons_cons a b rest ih =>
      rcases List.mem_cons.mp h with rfl | hrest
      · have ha := a.toNat_lt
        have hb := b.toNat_lt
        omega
      · exact ih hrest

theorem units_eq_unpackUnits (bytes : Bytes) : Reader.units bytes = unpackUnits bytes := by
  induction bytes using List.twoStepInduction with
  | nil => rfl
  | singleton a => rfl
  | cons_cons a b rest ih => rw [Reader.units, unpackUnits, ih]

/-- The units of an accepted name. -/
structure Accepted (name : Str) : Prop where
  encoded : Text.encodeUtf16 name = some (packUnits (unitsOf name))
  units : ∀ u ∈ unitsOf name, u < 65536
  nonempty : unitsOf name ≠ []
  short : (unitsOf name).length ≤ 255

theorem accepted_of_nameUnits {name : Str} {units : List Nat} (h : nameUnits name = some units) :
    Accepted name ∧ unitsOf name = units := by
  have hunits : unitsOf name = units := by rw [unitsOf, h, Option.getD_some]
  unfold nameUnits at h
  simp only [Option.bind_eq_bind, Option.bind_eq_some_iff] at h
  obtain ⟨bytes, hbytes, h⟩ := h
  split at h
  · cases h
  · rename_i hgood
    cases h
    rw [not_or, not_or] at hgood
    refine ⟨⟨?_, ?_, ?_, ?_⟩, hunits⟩
    · rw [hunits, packUnits_unpackUnits (Text.length_encodeUtf16 hbytes), hbytes]
    · rw [hunits]
      intro u hu
      exact lt_of_mem_unpackUnits hu
    · rw [hunits]
      exact hgood.1
    · rw [hunits]
      exact Nat.le_of_not_lt hgood.2.1

/-- The name is read back from its units. -/
theorem Accepted.decoded {name : Str} (h : Accepted name) :
    Text.decodeUtf16 (Reader.nameBytes (unitsOf name)) = name :=
  Text.decodeUtf16_encodeUtf16 h.encoded

/-! ## The up-case table -/

section

variable {upper : Nat → Nat}

/-- A table of units in which only the last one becomes `0xffff`. -/
structure Cased (upper : Nat → Nat) : Prop where
  unit : ∀ c, c < 65536 → upper c < 65536
  last : ∀ c, c < 65536 → (upper c = 0xffff ↔ c = 0xffff)

/-- A run holds characters that are their own upper case. -/
theorem runEnd_spec (c : Nat) {fuel stop : Nat} (hstop : stop ≤ 65536) (hlen : stop - c ≤ 65535)
    (hle : c ≤ stop) :
    stop ≤ runEnd upper c fuel stop ∧ runEnd upper c fuel stop ≤ 65536 ∧
      runEnd upper c fuel stop - c ≤ 65535 ∧
      ∀ i, stop ≤ i → i < runEnd upper c fuel stop → upper i = i := by
  induction fuel generalizing stop with
  | zero =>
      refine ⟨Nat.le_refl _, hstop, hlen, ?_⟩
      intro i hlow hhigh
      exact absurd hhigh (Nat.not_lt.mpr hlow)
  | succ fuel ih =>
      rw [runEnd]
      split
      · rename_i hself
        obtain ⟨hlow, hhigh, hcount, hrun⟩ := ih (show stop + 1 ≤ 65536 by omega)
          (by omega) (by omega)
        refine ⟨by omega, hhigh, hcount, ?_⟩
        intro i hi hi'
        by_cases heq : i = stop
        · rw [heq]
          exact hself.2.1
        · exact hrun i (by omega) hi'
      · refine ⟨Nat.le_refl _, hstop, hlen, ?_⟩
        intro i hi hi'
        exact absurd hi' (Nat.not_lt.mpr hi)

theorem lt_runEnd {c fuel : Nat} (hc : c < 65536) (hself : upper c = c) :
    c < runEnd upper c (fuel + 1) c := by
  rw [runEnd, if_pos ⟨hc, hself, by omega⟩]
  exact (runEnd_spec c (by omega) (by omega) (by omega)).1

theorem decodeTable_cons {u : Nat} (h : u ≠ 0xffff) (c : Nat) (rest : List Nat) :
    Reader.decodeTable c (u :: rest) = u :: Reader.decodeTable (c + 1) rest := by
  cases rest with
  | nil => rfl
  | cons n rest => rw [Reader.decodeTable, if_neg h]

theorem decodeTable_run (c n : Nat) (rest : List Nat) :
    Reader.decodeTable c (0xffff :: n :: rest) =
      List.range' c n ++ Reader.decodeTable (c + n) rest := by
  rw [Reader.decodeTable, if_pos rfl]

theorem decodeTable_encodeFrom (hupper : Cased upper) {fuel c : Nat} (hc : c ≤ 65536)
    (hfuel : 65536 - c ≤ fuel) :
    Reader.decodeTable c (encodeFrom upper fuel c) = (List.range' c (65536 - c)).map upper := by
  induction fuel generalizing c with
  | zero =>
      rw [show 65536 - c = 0 by omega]
      rfl
  | succ fuel ih =>
      rw [encodeFrom]
      split
      · rename_i hlt
        dsimp only
        obtain ⟨hlow, hhigh, hcount, hrun⟩ :=
          @runEnd_spec upper c 65536 c (by omega) (by omega) (by omega)
        generalize hstop : runEnd upper c 65536 c = stop at hlow hhigh hcount hrun
        split
        · rename_i hmany
          have hfar : c < stop := by
            rcases hmany with hmany | hlast
            · omega
            · rw [← hstop]
              apply lt_runEnd hlt
              rw [(hupper.last c hlt).mpr hlast, hlast]
          have hself : (List.range' c (stop - c)).map upper = List.range' c (stop - c) := by
            calc
              (List.range' c (stop - c)).map upper = (List.range' c (stop - c)).map id := by
                apply List.map_congr_left
                intro i hi
                rw [List.mem_range'_1] at hi
                exact hrun i hi.1 (by omega)
              _ = List.range' c (stop - c) := List.map_id _
          have hsplit : 65536 - c = (stop - c) + (65536 - stop) := by omega
          rw [decodeTable_run, Nat.add_sub_cancel' hlow, ih hhigh (by omega), hsplit,
            ← List.range'_append_1, List.map_append, hself, Nat.add_sub_cancel' hlow]
        · rename_i hfew
          rw [not_or] at hfew
          have hne : upper c ≠ 0xffff := fun h => hfew.2 ((hupper.last c hlt).mp h)
          have hsplit : 65536 - c = (65536 - (c + 1)) + 1 := by omega
          rw [decodeTable_cons hne, ih (by omega) (by omega), hsplit, List.range'_succ,
            List.map_cons]
      · rw [show 65536 - c = 0 by omega]
        rfl

/-- The reader gets the table that the volume was made with. -/
theorem decodeTable_encodeTable (hupper : Cased upper) :
    Reader.decodeTable 0 (encodeTable upper) = (List.range 65536).map upper := by
  rw [List.range_eq_range']
  exact decodeTable_encodeFrom hupper (Nat.zero_le _) (Nat.le_refl _)

theorem lt_of_mem_encodeFrom (hupper : Cased upper) {fuel c : Nat} {u : Nat}
    (h : u ∈ encodeFrom upper fuel c) : u < 65536 := by
  induction fuel generalizing c with
  | zero => cases h
  | succ fuel ih =>
      rw [encodeFrom] at h
      split at h
      · rename_i hlt
        have hcount := (@runEnd_spec upper c 65536 c (by omega) (by omega) (by omega)).2.2.1
        dsimp only at h
        split at h
        · rcases List.mem_cons.mp h with rfl | h
          · decide
          · rcases List.mem_cons.mp h with rfl | h
            · omega
            · exact ih h
        · rcases List.mem_cons.mp h with rfl | h
          · exact hupper.unit c hlt
          · exact ih h
      · cases h

theorem cased_upcaseTable {strUpper : Nat → List Nat}
    (hlast : ∀ c, c < 65536 → (strUpper c = [0xffff] ↔ c = 0xffff)) :
    Cased (upcaseTable strUpper) := by
  constructor
  · intro c hc
    unfold upcaseTable
    split
    · split
      · omega
      · exact hc
    · exact hc
  · intro c hc
    constructor
    · intro h
      unfold upcaseTable at h
      split at h
      · rename_i u hu
        split at h
        · rw [h] at hu
          exact (hlast c hc).mp hu
        · exact h
      · exact h
    · intro h
      unfold upcaseTable
      rw [(hlast c hc).mpr h]
      rfl

end

/-! ## Entry sets -/

/-- A field that was written as a number. -/
theorem field_of_sub {bytes : Bytes} {offset size n : Nat}
    (h : bytes.sub offset size = Bytes.ofNat size n) (hn : n < 256 ^ size) :
    bytes.field offset size = n := by
  rw [Bytes.field, h, Bytes.le_ofNat, Nat.mod_eq_of_lt hn]

theorem nameEntries_cons {units : List Nat} (h : units ≠ []) :
    nameEntries units = nameEntry (units.take 15) ++ nameEntries (units.drop 15) := by
  have hpos := List.length_pos_iff.mpr h
  have hcount : ceilDiv units.length 15 = ceilDiv (units.drop 15).length 15 + 1 := by
    rw [List.length_drop]
    unfold ceilDiv
    omega
  unfold nameEntries
  rw [hcount, List.range_succ_eq_map, List.flatMap_cons, List.flatMap_map, Nat.mul_zero,
    List.drop_zero]
  congr 1
  apply List.flatMap_congr
  intro i _
  rw [List.drop_drop, Nat.succ_eq_add_one, Nat.mul_add, Nat.mul_one, Nat.add_comm]

theorem readNames_succ {chunk : List Nat} (hlen : chunk.length ≤ 15) (hchunk : ∀ u ∈ chunk, u < 65536)
    (count : Nat) (rest : Bytes) :
    Reader.readNames (count + 1) (nameEntry chunk ++ rest) =
      (Reader.readNames count rest).map
        (chunk ++ unpackUnits (List.replicate (30 - 2 * chunk.length) 0) ++ ·) := by
  have htype : (nameEntry chunk ++ rest).field 0 1 = 0xc1 := rfl
  have hbody : (packUnits chunk ++ List.replicate (30 - 2 * chunk.length) 0).length = 30 := by
    rw [List.length_append, length_packUnits, List.length_replicate]
    omega
  have hunits : (nameEntry chunk ++ rest).sub 2 30 =
      packUnits chunk ++ List.replicate (30 - 2 * chunk.length) 0 := by
    rw [nameEntry, List.append_assoc [0xc1, 0], List.append_assoc [0xc1, 0],
      Bytes.sub_append_right _ _ (Nat.le_refl 2)]
    change Bytes.sub _ 0 30 = _
    rw [Bytes.sub_append_left _ (by omega), Bytes.sub_of_length hbody]
  rw [Reader.readNames, if_pos htype, hunits, List.drop_left' (length_nameEntry hlen),
    units_eq_unpackUnits, unpackUnits_append (by rw [length_packUnits]; omega),
    unpackUnits_packUnits hchunk]

/-- The name entries hold the units, and zeros behind them. -/
theorem readNames_nameEntries {units : List Nat} (h : ∀ u ∈ units, u < 65536) :
    ∃ pad, Reader.readNames (ceilDiv units.length 15) (nameEntries units) = some (units ++ pad) := by
  induction hsize : units.length using Nat.strong_induction_on generalizing units with
  | h size ih =>
      by_cases hnil : units = []
      · subst hnil
        rw [← hsize]
        exact ⟨[], rfl⟩
      · have hpos := List.length_pos_iff.mpr hnil
        have hdrop : (units.drop 15).length = size - 15 := by rw [List.length_drop, hsize]
        have hcount : ceilDiv size 15 = ceilDiv (size - 15) 15 + 1 := by
          unfold ceilDiv
          omega
        obtain ⟨pad, hrest⟩ := ih (size - 15) (by omega)
          (fun u hu => h u (List.mem_of_mem_drop hu)) hdrop
        have hchunk : ∀ u ∈ units.take 15, u < 65536 := fun u hu => h u (List.mem_of_mem_take hu)
        rw [nameEntries_cons hnil, hcount, readNames_succ (List.length_take_le _ _) hchunk, hrest]
        by_cases hfull : 15 ≤ size
        · refine ⟨pad, ?_⟩
          have htake : (units.take 15).length = 15 := by
            rw [List.length_take]
            omega
          rw [htake, Option.map_some, ← List.append_assoc]
          change some (units.take 15 ++ [] ++ units.drop 15 ++ pad) = _
          rw [List.append_nil, List.take_append_drop]
        · refine ⟨unpackUnits (List.replicate (30 - 2 * (units.take 15).length) 0) ++ pad, ?_⟩
          rw [List.drop_eq_nil_of_le (by omega), List.take_of_length_le (by omega)]
          rw [Option.map_some, List.nil_append, List.append_assoc]

/-- The sum of a set leaves out the two bytes that hold it. -/
theorem checksum_skip (a b x y x' y' : UInt8) (rest : Bytes) :
    checksum (a :: b :: x :: y :: rest) 16 [2, 3] =
      checksum (a :: b :: x' :: y' :: rest) 16 [2, 3] := rfl

theorem checksum_primaryEntry (count sum sum' : Nat) (directory : Bool) (rest : Bytes) :
    checksum (primaryEntry count sum directory ++ rest) 16 [2, 3] =
      checksum (primaryEntry count sum' directory ++ rest) 16 [2, 3] := by
  have hsplit : ∀ sum, ∃ x y, primaryEntry count sum directory ++ rest =
      0x85 :: UInt8.ofNat (count % 256) :: x :: y ::
        ((primaryEntry count 0 directory).drop 4 ++ rest) := fun sum => ⟨_, _, rfl⟩
  obtain ⟨x, y, h⟩ := hsplit sum
  obtain ⟨x', y', h'⟩ := hsplit sum'
  rw [h, h', checksum_skip]

section

variable {count sum flags units hash cluster length : Nat} {directory : Bool} {names : Bytes}

theorem field_primary {offset size n : Nat} {stream : Bytes} (h : offset + size ≤ 32)
    (hfield : (primaryEntry count sum directory).sub offset size = Bytes.ofNat size n)
    (hn : n < 256 ^ size) :
    (primaryEntry count sum directory ++ stream ++ names).field offset size = n := by
  apply field_of_sub _ hn
  rw [List.append_assoc, Bytes.sub_append_left _ (by rw [length_primaryEntry]; exact h), hfield]

theorem field_stream (offset size : Nat) {n : Nat} (h : offset + size ≤ 32)
    (hfield : (streamEntry flags units hash cluster length).sub offset size = Bytes.ofNat size n)
    (hn : n < 256 ^ size) :
    (primaryEntry count sum directory ++ streamEntry flags units hash cluster length ++
      names).field (32 + offset) size = n := by
  have hlen := length_primaryEntry count sum directory
  apply field_of_sub _ hn
  rw [List.append_assoc, Bytes.sub_append_right _ _ (by omega), hlen, Nat.add_sub_cancel_left,
    Bytes.sub_append_left _ (by rw [length_streamEntry]; exact h), hfield]

/-- A primary entry, a stream entry and the name entries are read as what they were made of. -/
theorem readSet_entries {name : List Nat} (hname : ∀ u ∈ name, u < 65536)
    (hunits : name.length = units) (hshort : units ≤ 255) (hcount : count = 1 + ceilDiv units 15)
    (hsum : checksum (primaryEntry count sum directory ++
      streamEntry flags units hash cluster length ++ nameEntries name) 16 [2, 3] = sum)
    (hflags : flags < 256) (hodd : flags % 2 = 1) (hhash : hash < 2 ^ 16)
    (hcluster : cluster < 2 ^ 32) (hlength : length < 2 ^ 64) :
    Reader.readSet (primaryEntry count sum directory ++
      streamEntry flags units hash cluster length ++ nameEntries name) =
        some ⟨directory, name, hash, decide (flags / 2 % 2 = 1), cluster, length⟩ := by
  have hsmall : sum < 2 ^ 16 := by
    rw [← hsum]
    exact checksum_lt (by decide) _ _
  have hfew : count < 256 := by
    unfold ceilDiv at hcount
    omega
  have hdrop : (primaryEntry count sum directory ++
      streamEntry flags units hash cluster length ++ nameEntries name).drop 64 =
        nameEntries name := by
    apply List.drop_left'
    rw [List.length_append, length_primaryEntry, length_streamEntry]
  obtain ⟨pad, hread⟩ := readNames_nameEntries hname
  generalize hset : primaryEntry count sum directory ++
    streamEntry flags units hash cluster length ++ nameEntries name = set at hsum hdrop
  have hsumField : set.field 2 2 = sum := by
    rw [← hset]
    exact field_primary (by decide) rfl hsmall
  have hcountField : set.field 1 1 = count := by
    rw [← hset]
    exact field_primary (by decide) rfl hfew
  have hattributes : set.field 4 2 = if directory then 0x10 else 0x20 := by
    rw [← hset]
    apply field_primary (by decide) rfl
    split <;> decide
  have htype : set.field 32 1 = 0xc0 := by
    rw [← hset]
    exact field_stream 0 1 (by decide) rfl (by decide)
  have hflagsField : set.field 33 1 = flags := by
    rw [← hset]
    exact field_stream 1 1 (by decide) rfl hflags
  have hunitsField : set.field 35 1 = units := by
    rw [← hset]
    exact field_stream 3 1 (by decide) rfl (by omega)
  have hhashField : set.field 36 2 = hash := by
    rw [← hset]
    exact field_stream 4 2 (by decide) rfl hhash
  have hvalid : set.field 40 8 = length := by
    rw [← hset]
    exact field_stream 8 8 (by decide) rfl hlength
  have hfirst : set.field 52 4 = cluster := by
    rw [← hset]
    exact field_stream 20 4 (by decide) rfl hcluster
  have hsize : set.field 56 8 = length := by
    rw [← hset]
    exact field_stream 24 8 (by decide) rfl hlength
  have hnames : Reader.readNames (count - 1) (nameEntries name) = some (name ++ pad) := by
    rw [hcount, ← hunits, Nat.add_sub_cancel_left]
    exact hread
  unfold Reader.readSet
  rw [hsumField, hcountField, hattributes, htype, hflagsField, hunitsField, hhashField, hvalid,
    hfirst, hsize, hdrop, hnames, toNat_rotatedSum (by decide), if_pos ⟨hsum, rfl, hodd, rfl⟩]
  dsimp only
  rw [← hunits, if_pos (by rw [List.length_append]; omega), List.take_left]
  congr 2
  cases directory <;> rfl

end

variable {upper : Nat → Nat}

/-- The entry of a child. -/
def entryOf (upper : Nat → Nat) (name : Str) (directory : Bool) (cluster clusters size : Nat) :
    Reader.EntrySet where
  directory := directory
  name := unitsOf name
  nameHash := checksum (packUnits ((unitsOf name).map upper)) 16 []
  noFatChain := ¬ (directory = true ∨ clusters = 0)
  first := cluster
  length := if directory then clusters * CLUSTER else size

theorem readSet_group {name : Str} (hname : Accepted name) (directory : Bool)
    {cluster clusters size : Nat} (hcluster : cluster < 2 ^ 32)
    (hlength : (if directory then clusters * CLUSTER else size) < 2 ^ 64) :
    Reader.readSet (group upper name directory cluster clusters size) =
      some (entryOf upper name directory cluster clusters size) := by
  have hhash : checksum (packUnits ((unitsOf name).map upper)) 16 [] < 2 ^ 16 :=
    checksum_lt (by decide) _ _
  have hsum : checksum (group upper name directory cluster clusters size) 16 [2, 3] =
      checksum (groupWith upper 0 name directory cluster clusters size) 16 [2, 3] := by
    rw [group, groupWith, groupWith, List.append_assoc, List.append_assoc]
    exact checksum_primaryEntry _ _ _ _ _
  unfold group groupWith at hsum ⊢
  rw [readSet_entries hname.units rfl hname.short rfl hsum _ _ hhash hcluster hlength]
  · unfold entryOf
    congr 2
    split <;> simp_all
  · split <;> decide
  · split <;> decide

/-! ## Directories -/

/-- An entry set in front. -/
theorem readDirectory_set {set : Bytes} {e : Reader.EntrySet} (hset : Reader.readSet set = some e)
    (htype : set.field 0 1 = 0x85) (hsize : (set.field 1 1 + 1) * 32 = set.length) (fuel : Nat)
    (rest : Bytes) :
    Reader.readDirectory (fuel + 1) (set ++ rest) =
      (Reader.readDirectory fuel rest).map (.set e :: ·) := by
  have hlong : ¬ (set ++ rest).length < 32 := by
    rw [List.length_append]
    omega
  have htype' : (set ++ rest).field 0 1 = 0x85 := by
    rw [Bytes.field, Bytes.sub_append_left _ (by omega)]
    exact htype
  have hcount : (set ++ rest).field 1 1 = set.field 1 1 := by
    rw [Bytes.field, Bytes.sub_append_left _ (by omega)]
    rfl
  rw [Reader.readDirectory, if_neg hlong, htype', if_neg (by decide), if_neg (by decide),
    if_neg (by decide), if_neg (by decide), if_pos rfl, hcount, hsize]
  dsimp only
  rw [if_neg (by rw [List.length_append]; omega), List.take_left, List.drop_left, hset]

theorem readDirectory_group {name : Str} (hname : Accepted name) (directory : Bool)
    {cluster clusters size : Nat} (hcluster : cluster < 2 ^ 32)
    (hlength : (if directory then clusters * CLUSTER else size) < 2 ^ 64) (fuel : Nat)
    (rest : Bytes) :
    Reader.readDirectory (fuel + 1) (group upper name directory cluster clusters size ++ rest) =
      (Reader.readDirectory fuel rest).map
        (.set (entryOf upper name directory cluster clusters size) :: ·) := by
  have hshort := hname.short
  apply readDirectory_set (readSet_group hname directory hcluster hlength)
  · unfold group groupWith
    exact field_primary (by decide) rfl (by decide)
  · have hcount : (group upper name directory cluster clusters size).field 1 1 =
        1 + ceilDiv (unitsOf name).length 15 := by
      unfold group groupWith
      apply field_primary (by decide) rfl
      unfold ceilDiv
      omega
    rw [hcount, length_group]
    congr 1
    omega

theorem readDirectory_end (fuel : Nat) (rest : Bytes) :
    Reader.readDirectory (fuel + 1) (List.replicate 32 0 ++ rest) = some [] := by
  have hlong : ¬ (List.replicate 32 (0 : UInt8) ++ rest).length < 32 := by
    rw [List.length_append, List.length_replicate]
    omega
  have htype : Bytes.field (List.replicate 32 0 ++ rest) 0 1 = 0 := rfl
  rw [Reader.readDirectory, if_neg hlong, if_pos htype]

/-- The entry of the allocation bitmap. -/
theorem readDirectory_bitmap {first length : Nat} (hfirst : first < 2 ^ 32)
    (hlength : length < 2 ^ 64) (fuel : Nat) (rest : Bytes) :
    Reader.readDirectory (fuel + 1) (Bytes.ofNat 1 0x81 ++ List.replicate 19 0 ++
      Bytes.ofNat 4 first ++ Bytes.ofNat 8 length ++ rest) =
        (Reader.readDirectory fuel rest).map (.bitmap first length :: ·) := by
  generalize hdata : Bytes.ofNat 1 0x81 ++ List.replicate 19 0 ++ Bytes.ofNat 4 first ++
    Bytes.ofNat 8 length ++ rest = data
  have hlong : ¬ data.length < 32 := by
    simp only [← hdata, List.length_append, Bytes.length_ofNat, List.length_replicate]
    omega
  have htype : data.field 0 1 = 0x81 := by
    rw [← hdata]
    rfl
  have hfirstField : data.field 20 4 = first := by
    apply field_of_sub _ hfirst
    rw [← hdata]
    rfl
  have hlengthField : data.field 24 8 = length := by
    apply field_of_sub _ hlength
    rw [← hdata]
    rfl
  have hrest : data.drop 32 = rest := by
    rw [← hdata]
    rfl
  rw [Reader.readDirectory, if_neg hlong, htype, if_neg (by decide), if_pos rfl, hfirstField,
    hlengthField, hrest]

/-- The entry of the up-case table. -/
theorem readDirectory_upcase {sum first length : Nat} (hsum : sum < 2 ^ 32)
    (hfirst : first < 2 ^ 32) (hlength : length < 2 ^ 64) (fuel : Nat) (rest : Bytes) :
    Reader.readDirectory (fuel + 1) (Bytes.ofNat 1 0x82 ++ List.replicate 3 0 ++
      Bytes.ofNat 4 sum ++ List.replicate 12 0 ++ Bytes.ofNat 4 first ++ Bytes.ofNat 8 length ++
        rest) =
        (Reader.readDirectory fuel rest).map (.upcase sum first length :: ·) := by
  generalize hdata : Bytes.ofNat 1 0x82 ++ List.replicate 3 0 ++ Bytes.ofNat 4 sum ++
    List.replicate 12 0 ++ Bytes.ofNat 4 first ++ Bytes.ofNat 8 length ++ rest = data
  have hlong : ¬ data.length < 32 := by
    simp only [← hdata, List.length_append, Bytes.length_ofNat, List.length_replicate]
    omega
  have htype : data.field 0 1 = 0x82 := by
    rw [← hdata]
    rfl
  have hsumField : data.field 4 4 = sum := by
    apply field_of_sub _ hsum
    rw [← hdata]
    rfl
  have hfirstField : data.field 20 4 = first := by
    apply field_of_sub _ hfirst
    rw [← hdata]
    rfl
  have hlengthField : data.field 24 8 = length := by
    apply field_of_sub _ hlength
    rw [← hdata]
    rfl
  have hrest : data.drop 32 = rest := by
    rw [← hdata]
    rfl
  rw [Reader.readDirectory, if_neg hlong, htype, if_neg (by decide), if_neg (by decide),
    if_pos rfl, hsumField, hfirstField, hlengthField, hrest]

/-- The entry of the volume label. -/
theorem readDirectory_label (fuel : Nat) (rest : Bytes) :
    Reader.readDirectory (fuel + 1) (Bytes.ofNat 1 0x83 ++ Bytes.ofNat 1 9 ++
      packUnits ("PS2SERVER".toList.map Char.toNat) ++ List.replicate 12 0 ++ rest) =
        (Reader.readDirectory fuel rest).map (.label :: ·) := by
  have hlabel : packUnits ("PS2SERVER".toList.map Char.toNat) =
      [80, 0, 83, 0, 50, 0, 83, 0, 69, 0, 82, 0, 86, 0, 69, 0, 82, 0] := by decide
  rw [hlabel]
  generalize hdata : Bytes.ofNat 1 0x83 ++ Bytes.ofNat 1 9 ++
    [80, 0, 83, 0, 50, 0, 83, 0, 69, 0, 82, 0, 86, 0, 69, 0, 82, 0] ++ List.replicate 12 0 ++
      rest = data
  have hlong : ¬ data.length < 32 := by
    simp only [← hdata, List.length_append, Bytes.length_ofNat, List.length_replicate,
      List.length_cons, List.length_nil]
    omega
  have htype : data.field 0 1 = 0x83 := by
    rw [← hdata]
    rfl
  have hrest : data.drop 32 = rest := by
    rw [← hdata]
    rfl
  rw [Reader.readDirectory, if_neg hlong, htype, if_neg (by decide), if_neg (by decide),
    if_neg (by decide), if_pos rfl, hrest]

/-- The entries that the groups of a folder are read as. -/
def Nodes.items (upper : Nat → Nat) : Nodes → List Reader.Item
  | .empty => []
  | .file _ name _ data cluster rest =>
      .set (entryOf upper name false cluster (ceilDiv data.length CLUSTER) data.length) ::
        rest.items upper
  | .folder name cluster size _ rest =>
      .set (entryOf upper name true cluster (ceilDiv size CLUSTER) size) :: rest.items upper

/-- What the scan accepts. -/
def Contents.Plain : Contents → Prop
  | .empty => True
  | .file name _ _ rest => Accepted name ∧ rest.Plain
  | .folder name inner rest => Accepted name ∧ inner.Plain ∧ rest.Plain
  | .special _ _ => False

theorem length_items_le (path : List Str) (contents : Contents) (next : Nat) :
    ((place path contents next).1.items upper).length ≤
      ((place path contents next).1.groups upper).length := by
  induction contents generalizing path next with
  | empty => exact Nat.zero_le _
  | file name stamp data rest ih =>
      rw [place, Nodes.items, Nodes.groups, List.length_cons, List.length_append, length_group]
      have := ih path (next + ceilDiv data.length CLUSTER)
      omega
  | folder name inner rest _ ih =>
      rw [place, Nodes.items, Nodes.groups, List.length_cons, List.length_append, length_group]
      have := ih path (place (path ++ [name]) inner
        (next + ceilDiv (inner.dirSize false) CLUSTER)).2
      omega
  | special name rest ih => exact ih path next

/-- The groups of a folder with the end marker are read as its entries. -/
theorem readDirectory_groups {contents : Contents} (hplain : contents.Plain) (path : List Str)
    {next : Nat} (hbound : next + contents.clusters < 2 ^ 32) {fuel : Nat}
    (hfuel : ((place path contents next).1.items upper).length < fuel) (rest : Bytes) :
    Reader.readDirectory fuel
      ((place path contents next).1.groups upper ++ (List.replicate 32 0 ++ rest)) =
        some ((place path contents next).1.items upper) := by
  induction contents generalizing path next fuel with
  | empty =>
      cases fuel with
      | zero => cases hfuel
      | succ fuel => exact readDirectory_end fuel rest
  | file name stamp data others ih =>
      obtain ⟨hname, hothers⟩ := hplain
      rw [Contents.clusters] at hbound
      have hfits := le_ceilDiv_mul data.length (show 0 < CLUSTER by decide)
      have hsmall : data.length < 2 ^ 64 := by
        unfold CLUSTER at hfits
        unfold CLUSTER at hbound
        omega
      have hcluster : (if ceilDiv data.length CLUSTER = 0 then 0 else next) < 2 ^ 32 := by
        split <;> omega
      cases fuel with
      | zero => cases hfuel
      | succ fuel =>
          rw [place, Nodes.items, List.length_cons] at hfuel
          rw [place, Nodes.groups, Nodes.items, List.append_assoc,
            readDirectory_group hname false hcluster hsmall,
            ih hothers path (by omega) (by omega), Option.map_some]
  | folder name inner others _ ih =>
      obtain ⟨hname, _, hothers⟩ := hplain
      rw [Contents.clusters] at hbound
      have hsmall : ceilDiv (inner.dirSize false) CLUSTER * CLUSTER < 2 ^ 64 := by
        generalize ceilDiv (inner.dirSize false) CLUSTER = n at hbound
        unfold CLUSTER
        omega
      cases fuel with
      | zero => cases hfuel
      | succ fuel =>
          rw [place, Nodes.items, List.length_cons] at hfuel
          rw [place, Nodes.groups, Nodes.items, List.append_assoc,
            readDirectory_group hname true (by omega) hsmall,
            ih hothers path (by rw [place_next]; omega) (by omega), Option.map_some]
  | special name rest ih => exact hplain.elim

end Ps2Servers.Exfat
