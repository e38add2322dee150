import Ps2Servers.Exfat.Entries
import Ps2Servers.Exfat.Reads

/-!
# Clusters of a virtual exFAT volume

What a reader of the disk finds behind the clusters: the FAT chain of every table and
directory is the run of clusters that was given out for it, and the clusters of a stream
hold its extent.
-/

namespace Ps2Servers.Exfat

/-! ## Slices of the image -/

namespace Volume

variable {v : Volume}

/-- The disk ends with its last cluster. -/
theorem heapOffset_le_size {cluster : Nat} (h : cluster ≤ v.clusterCount + 2) :
    v.heapOffset cluster ≤ v.size := by
  apply Nat.le_trans (heapOffset_mono h)
  unfold heapOffset size volumeSectors CLUSTER SECTOR
  omega

theorem image_sub_mbr {offset size : Nat} (h : offset + size ≤ SECTOR) :
    v.image.sub offset size = v.mbr.sub offset size := by
  have hmbr := length_mbr v
  have hsize : SECTOR ≤ v.size := by
    unfold Volume.size PARTITION SECTOR
    omega
  rw [image_sub v (by omega)]
  symm
  apply sub_eq_map (by omega)
  intro i hi
  exact byteAt_mbr (by omega)

theorem image_sub_boot {offset size : Nat} (h : offset + size ≤ 24 * SECTOR) :
    v.image.sub (PARTITION * SECTOR + offset) size = v.boot.sub offset size := by
  have hboot := length_boot v
  have hend : PARTITION * SECTOR + 24 * SECTOR = (PARTITION + 24) * SECTOR := by decide
  have hsize : (PARTITION + 24) * SECTOR ≤ v.size := by
    have hheap := le_ceilDiv_mul (24 + v.fatLength) (show 0 < 64 by decide)
    unfold Volume.size volumeSectors heapSector PARTITION SECTOR
    omega
  rw [image_sub v (by omega)]
  symm
  apply sub_eq_map (by omega)
  intro i hi
  have hshift : PARTITION * SECTOR + offset + i - PARTITION * SECTOR = offset + i := by omega
  rw [byteAt_boot (by omega) (by omega), hshift]

variable (hl : v.Laid)

include hl

theorem image_sub_extent {e : Extent} (he : e ∈ v.extents) (hsize : e.stop ≤ v.size) :
    v.image.sub e.start e.length = e.payload.data := by
  have hfilled := hl.filled e he
  unfold Extent.stop at hsize
  rw [image_sub v hsize, ← Bytes.sub_of_length hfilled]
  symm
  apply sub_eq_map (by omega)
  intro i hi
  have hshift : e.start + i - e.start = 0 + i := by omega
  rw [byteAt_extent hl he ⟨Nat.le_add_right _ _, by unfold Extent.stop; omega⟩, hshift]

theorem image_sub_bitmap (hsize : v.heapOffset bitmapCluster + v.bitmapLength ≤ v.size) :
    v.image.sub (v.heapOffset bitmapCluster) v.bitmapLength =
      (List.range v.bitmapLength).map v.bitmapByte := by
  rw [image_sub v hsize, List.range_eq_range']
  apply map_range'_congr
  intro i hi
  have hshift : v.heapOffset bitmapCluster + i - v.heapOffset bitmapCluster = 0 + i := by omega
  rw [byteAt_bitmap hl (Nat.le_add_right _ _) (by omega), hshift]

end Volume

/-! ## The FAT -/

namespace Volume

/-- The chain starts at its first cluster and ends behind its last. -/
def Chain.stop (c : Chain) : Nat := c.1 + c.2

end Volume

namespace Reader

/-- Clusters one behind the other are one slice of the disk. -/
theorem flatMap_clusterData (g : Geometry) (disk : Bytes) {first : Nat} (h : 2 ≤ first) (n : Nat) :
    (List.range' first n).flatMap (clusterData g disk) =
      disk.sub (g.heap + (first - 2) * g.clusterBytes) (n * g.clusterBytes) := by
  induction n generalizing first with
  | zero => rw [Nat.zero_mul, Bytes.sub_zero, List.range'_zero, List.flatMap_nil]
  | succ n ih =>
      have hnext : g.heap + (first + 1 - 2) * g.clusterBytes =
          g.heap + (first - 2) * g.clusterBytes + g.clusterBytes := by
        rw [show first + 1 - 2 = first - 2 + 1 by omega, Nat.add_mul, Nat.one_mul, Nat.add_assoc]
      have hsum : g.clusterBytes + n * g.clusterBytes = (n + 1) * g.clusterBytes := by
        rw [Nat.add_mul, Nat.one_mul, Nat.add_comm]
      rw [List.range'_succ, List.flatMap_cons, ih (by omega), hnext, clusterData, Bytes.sub_append,
        hsum]

/-- Links from each cluster to the next make the chain of a run. -/
theorem chain_run (g : Geometry) (disk : Bytes) {first : Nat} {n fuel : Nat} (hn : 0 < n)
    (hfuel : n ≤ fuel) (hvalid : ∀ c, first ≤ c → c < first + n → g.Valid c)
    (hlinks : ∀ c, first ≤ c → c < first + n →
      disk.field (g.fat + 4 * c) 4 = if c + 1 < first + n then c + 1 else 0xffffffff)
    (hsmall : g.clusterCount + 2 ≤ 0xffffffff) :
    chain g disk fuel first = some (List.range' first n) := by
  induction n generalizing first fuel with
  | zero => cases hn
  | succ n ih =>
      cases fuel with
      | zero => omega
      | succ fuel =>
          have hfirst : g.Valid first := hvalid first (Nat.le_refl _) (by omega)
          have hlink := hlinks first (Nat.le_refl _) (by omega)
          rw [chain, if_neg (not_not.mpr hfirst)]
          by_cases hlast : n = 0
          · subst hlast
            rw [if_neg (by omega)] at hlink
            rw [if_pos hlink]
            rfl
          · have hnext : g.Valid (first + 1) := hvalid (first + 1) (by omega) (by omega)
            have hbelow : ¬ first + 1 = 0xffffffff := by
              have := hnext.2
              omega
            rw [if_pos (by omega)] at hlink
            rw [hlink, if_neg hbelow, ih (by omega) (by omega), List.range'_succ]
            · rfl
            · intro c hlow hhigh
              exact hvalid c (by omega) (by omega)
            · intro c hlow hhigh
              rw [hlinks c (by omega) (by omega), show first + 1 + n = first + (n + 1) by omega]

end Reader

/-! ## Chains in order -/

namespace Volume

variable {v : Volume}

theorem chains_place (path : List Str) (contents : Contents) (next : Nat) :
    Intervals.Between Prod.fst Chain.stop next (next + contents.clusters)
      (nodeChains (place path contents next).1) := by
  induction contents generalizing path next with
  | empty => exact Intervals.Between.nil _ _
  | file name stamp data rest ih =>
      rw [place, nodeChains, Contents.clusters, ← Nat.add_assoc]
      exact (ih path _).mono (by omega) (Nat.le_refl _)
  | folder name inner rest ihInner ihRest =>
      have hpos : 0 < ceilDiv (inner.dirSize false) CLUSTER := by
        apply ceilDiv_pos _ (by decide)
        unfold Contents.dirSize
        omega
      rw [place, nodeChains, Contents.clusters, place_next, ← Nat.add_assoc, ← Nat.add_assoc]
      apply Intervals.Between.append _ (ihRest path _) (by omega) (by omega)
      apply Intervals.Between.append (k := [_]) _ (ihInner _ _) (by omega) (by omega)
      apply Intervals.Between.single
      · exact Nat.lt_add_of_pos_right hpos
      · exact Nat.le_refl _
      · exact Nat.le_refl _
  | special name rest ih =>
      rw [place, Contents.clusters]
      exact ih path next

/-- The parameters that a reader computes from the boot region. -/
def geometry (v : Volume) : Reader.Geometry where
  fat := (PARTITION + 24) * SECTOR
  heap := v.heapOffset bitmapCluster
  clusterBytes := CLUSTER
  clusterCount := v.clusterCount
  rootCluster := v.rootCluster

theorem geometry_offset {cluster : Nat} (h : 2 ≤ cluster) :
    v.geometry.heap + (cluster - 2) * v.geometry.clusterBytes = v.heapOffset cluster := by
  rw [show cluster = 2 + (cluster - 2) by omega, heapOffset_add (Nat.le_refl 2),
    Nat.add_sub_cancel_left]
  rfl

end Volume

namespace Built

variable {upper : Nat → Nat} {contents : Contents} {v : Volume}

theorem clusterCount_lt (h : Built upper contents v) : v.clusterCount + 2 ≤ 0xffffffff := by
  have hsize := h.size
  have hnext := h.clusterCount
  have hroot : 2 ≤ v.rootCluster := by
    unfold Volume.rootCluster Volume.upcaseCluster
    omega
  have hnext' := h.next
  unfold Volume.size Volume.volumeSectors CLUSTER SECTOR at hsize
  omega

theorem upcaseClusters_pos (h : Built upper contents v) : 0 < v.upcaseClusters := by
  apply ceilDiv_pos _ (by decide)
  have hcons : ∃ u rest, encodeTable upper = u :: rest := by
    unfold encodeTable
    rw [encodeFrom, if_pos (by decide)]
    dsimp only
    split
    · exact ⟨_, _, rfl⟩
    · exact ⟨_, _, rfl⟩
  obtain ⟨u, rest, hcons⟩ := hcons
  rw [h.upcase, length_packUnits, hcons, List.length_cons]
  omega

theorem rootSize_pos (h : Built upper contents v) : 0 < v.rootSize := by
  rw [h.rootSize]
  unfold Contents.dirSize
  omega

theorem chains_between (h : Built upper contents v) :
    Intervals.Between Prod.fst Volume.Chain.stop 2 v.next
      ((Volume.bitmapCluster, v.bitmapClusters) :: (v.upcaseCluster, v.upcaseClusters) ::
        (v.rootCluster, ceilDiv v.rootSize CLUSTER) :: Volume.nodeChains v.nodes) := by
  have hroot : 0 < ceilDiv v.rootSize CLUSTER := ceilDiv_pos h.rootSize_pos (by decide)
  have hnodes := Volume.chains_place [] contents (v.rootCluster + ceilDiv v.rootSize CLUSTER)
  rw [← h.nodes, ← h.next] at hnodes
  have hnext := h.next
  have hlow : 2 ≤ v.upcaseCluster := Nat.le_add_right 2 _
  have hmiddle : v.rootCluster = v.upcaseCluster + v.upcaseClusters := rfl
  have hbitmap : Intervals.Between Prod.fst Volume.Chain.stop 2 v.upcaseCluster
      [(Volume.bitmapCluster, v.bitmapClusters)] := by
    apply Intervals.Between.single
    · exact Nat.lt_add_of_pos_right h.bitmapClusters_pos
    · exact Nat.le_refl _
    · exact Nat.le_refl _
  have hupcase : Intervals.Between Prod.fst Volume.Chain.stop v.upcaseCluster v.rootCluster
      [(v.upcaseCluster, v.upcaseClusters)] := by
    apply Intervals.Between.single
    · exact Nat.lt_add_of_pos_right h.upcaseClusters_pos
    · exact Nat.le_refl _
    · exact Nat.le_refl _
  have hdirectory : Intervals.Between Prod.fst Volume.Chain.stop v.rootCluster
      (v.rootCluster + ceilDiv v.rootSize CLUSTER)
      [(v.rootCluster, ceilDiv v.rootSize CLUSTER)] := by
    apply Intervals.Between.single
    · exact Nat.lt_add_of_pos_right hroot
    · exact Nat.le_refl _
    · exact Nat.le_refl _
  apply hbitmap.append _ hlow (by omega)
  apply hupcase.append _ (by omega) (by omega)
  exact hdirectory.append hnodes (by omega) (by omega)

/-- The chains were in order before they were sorted. -/
theorem chains_eq (h : Built upper contents v) :
    v.chains = (Volume.bitmapCluster, v.bitmapClusters) :: (v.upcaseCluster, v.upcaseClusters) ::
      (v.rootCluster, ceilDiv v.rootSize CLUSTER) :: Volume.nodeChains v.nodes := by
  have hordered := h.chains_between.ordered
  unfold Volume.chains
  apply List.mergeSort_of_pairwise
  apply hordered.apart.imp_of_mem
  intro a b ha _ hab
  have hlt := Nat.lt_of_lt_of_le (hordered.nonempty a ha) hab
  rw [Bool.or_eq_true]
  exact Or.inl (decide_eq_true hlt)

theorem chain_inside (h : Built upper contents v) {start length : Nat}
    (hmem : (start, length) ∈ v.chains) : 2 ≤ start ∧ 0 < length ∧ start + length ≤ v.next := by
  rw [h.chains_eq] at hmem
  have hinside := h.chains_between.inside _ hmem
  have hnonempty : start < start + length := h.chains_between.ordered.nonempty _ hmem
  exact ⟨hinside.1, by omega, hinside.2⟩

theorem fatEntry_of_mem (h : Built upper contents v) {start length c : Nat}
    (hmem : (start, length) ∈ v.chains) (hlow : start ≤ c) (hhigh : c < start + length) :
    v.fatEntry c = if c + 1 < start + length then c + 1 else 0xffffffff := by
  have hstart := (h.chain_inside hmem).1
  have hordered := h.chains_between.ordered
  rw [← h.chains_eq] at hordered
  have hbefore : Intervals.before Prod.fst v.chains c = some (start, length) :=
    Intervals.before_of_mem hordered hmem hlow hhigh
  unfold Volume.fatEntry
  rw [if_neg (by omega), if_neg (by omega), hbefore]
  dsimp only
  rw [if_pos hhigh]
  by_cases hlast : c + 1 < start + length
  · rw [if_pos hlast, if_pos (by omega)]
  · rw [if_neg hlast, if_neg (by omega)]

theorem image_field_fat (h : Built upper contents v) {c : Nat} (hc : c < v.clusterCount + 2)
    (hentry : v.fatEntry c < 2 ^ 32) :
    v.image.field (v.geometry.fat + 4 * c) 4 = v.fatEntry c := by
  have hfits := le_ceilDiv_mul ((v.clusterCount + 2) * 4) (show 0 < SECTOR by decide)
  have hfat : (v.clusterCount + 2) * 4 ≤ v.fatLength * SECTOR := hfits
  have hend := h.laid.fat
  have hheap := Volume.heapOffset_le_size (v := v) (show Volume.bitmapCluster ≤ _ by
    unfold Volume.bitmapCluster
    omega)
  apply field_of_sub _ hentry
  change v.image.sub ((PARTITION + 24) * SECTOR + 4 * c) 4 = _
  rw [Volume.image_sub v (by omega)]
  rw [← Bytes.sub_of_length (Bytes.length_ofNat 4 (v.fatEntry c))]
  symm
  apply Volume.sub_eq_map (by rw [Bytes.length_ofNat])
  intro i hi
  have hdiv : ((PARTITION + 24) * SECTOR + 4 * c + i - (PARTITION + 24) * SECTOR) / 4 = c := by omega
  have hmod : ((PARTITION + 24) * SECTOR + 4 * c + i - (PARTITION + 24) * SECTOR) % 4 = 0 + i := by
    omega
  rw [Volume.byteAt_fat (by omega) (by omega), hdiv, hmod]

/-- The chain of a table or directory is the run of its clusters. -/
theorem chain_eq (h : Built upper contents v) {start length : Nat}
    (hmem : (start, length) ∈ v.chains) :
    Reader.chain v.geometry v.image v.clusterCount start = some (List.range' start length) := by
  obtain ⟨hstart, hpos, hstop⟩ := h.chain_inside hmem
  have hcount := h.clusterCount
  have hsmall := h.clusterCount_lt
  apply Reader.chain_run v.geometry v.image hpos (by omega) _ _ hsmall
  · intro c hlow hhigh
    refine ⟨by omega, ?_⟩
    change c < v.clusterCount + 2
    omega
  · intro c hlow hhigh
    have hentry := h.fatEntry_of_mem hmem hlow hhigh
    have hfits : v.fatEntry c < 2 ^ 32 := by
      rw [hentry]
      split <;> omega
    rw [h.image_field_fat (by omega) hfits, hentry]

/-! ## Streams -/

/-- The clusters from `start` on, up to a length. -/
theorem run_data {start length : Nat} (hstart : 2 ≤ start) :
    ((List.range' start (ceilDiv length CLUSTER)).flatMap
      (Reader.clusterData v.geometry v.image)).take length =
        v.image.sub (v.heapOffset start) length := by
  rw [Reader.flatMap_clusterData _ _ hstart, Volume.geometry_offset hstart]
  exact Bytes.take_sub _ _ (le_ceilDiv_mul length (by decide))

theorem stream_run (h : Built upper contents v) {start length : Nat} {noFatChain : Bool}
    (hlength : 0 < length) (hstart : 2 ≤ start)
    (hstop : start + ceilDiv length CLUSTER ≤ v.clusterCount + 2)
    (hchain : noFatChain = false → (start, ceilDiv length CLUSTER) ∈ v.chains) :
    Reader.stream v.geometry v.image start length noFatChain =
      some (List.range' start (ceilDiv length CLUSTER), v.image.sub (v.heapOffset start) length) := by
  have hcount : (length + v.geometry.clusterBytes - 1) / v.geometry.clusterBytes =
      ceilDiv length CLUSTER := rfl
  have hclusters : (if noFatChain then some (List.range' start (ceilDiv length CLUSTER))
      else Reader.chain v.geometry v.image v.geometry.clusterCount start) =
        some (List.range' start (ceilDiv length CLUSTER)) := by
    cases noFatChain with
    | false => exact h.chain_eq (hchain rfl)
    | true => rfl
  have hvalid : ∀ c ∈ List.range' start (ceilDiv length CLUSTER), v.geometry.Valid c := by
    intro c hc
    rw [List.mem_range'_1] at hc
    refine ⟨by omega, ?_⟩
    change c < v.clusterCount + 2
    omega
  unfold Reader.stream
  rw [if_neg (by omega)]
  dsimp only
  rw [hcount, hclusters]
  dsimp only
  rw [if_pos ⟨List.length_range', hvalid⟩, run_data hstart]

end Built

end Ps2Servers.Exfat
