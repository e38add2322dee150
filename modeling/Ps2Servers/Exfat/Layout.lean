import Ps2Servers.Exfat.Volume

/-!
# The layout of a virtual exFAT volume

Every node of the folder gets the clusters behind those of the node before it, as many as
its size takes. So the extents follow one another, and each holds exactly the bytes that
it is long: a directory entry set takes the entries it was counted with.
-/

namespace Ps2Servers.Exfat

theorem le_ceilDiv_mul (n : Nat) {d : Nat} (hd : 0 < d) : n ≤ ceilDiv n d * d := by
  have hmod := Nat.mod_lt (n + d - 1) hd
  have hdiv := Nat.div_add_mod (n + d - 1) d
  unfold ceilDiv
  rw [Nat.mul_comm]
  omega

theorem ceilDiv_pos {n d : Nat} (hn : 0 < n) (hd : 0 < d) : 0 < ceilDiv n d :=
  Nat.div_pos (by omega) hd

theorem ceilDiv_mul (n : Nat) {d : Nat} (hd : 0 < d) : ceilDiv (n * d) d = n := by
  unfold ceilDiv
  rw [Nat.add_sub_assoc hd, Nat.mul_comm, Nat.mul_add_div hd, Nat.div_eq_of_lt (by omega),
    Nat.add_zero]

/-! ## Sizes of entries -/

theorem length_packUnits (units : List Nat) : (packUnits units).length = 2 * units.length := by
  unfold packUnits
  induction units with
  | nil => rfl
  | cons u rest ih =>
      rw [List.flatMap_cons, List.length_append, Bytes.length_ofNat, ih, List.length_cons]
      omega

theorem length_nameEntry {chunk : List Nat} (h : chunk.length ≤ 15) :
    (nameEntry chunk).length = 32 := by
  unfold nameEntry
  rw [List.length_append, List.length_append, length_packUnits, List.length_replicate]
  change 2 + _ + _ = _
  omega

theorem length_nameEntries (units : List Nat) :
    (nameEntries units).length = 32 * ceilDiv units.length 15 := by
  unfold nameEntries
  rw [List.length_flatMap]
  have hconst : (List.range (ceilDiv units.length 15)).map
      (fun i => (nameEntry ((units.drop (15 * i)).take 15)).length) =
        List.replicate (ceilDiv units.length 15) 32 := by
    apply List.eq_replicate_iff.mpr
    constructor
    · rw [List.length_map, List.length_range]
    · intro n hn
      obtain ⟨i, -, rfl⟩ := List.mem_map.mp hn
      exact length_nameEntry (List.length_take_le _ _)
  rw [hconst, List.sum_replicate_nat, Nat.mul_comm]

theorem length_primaryEntry (count sum : Nat) (directory : Bool) :
    (primaryEntry count sum directory).length = 32 := by
  simp [primaryEntry]

theorem length_streamEntry (flags units hash cluster length : Nat) :
    (streamEntry flags units hash cluster length).length = 32 := by
  simp [streamEntry]

variable {upper : Nat → Nat}

theorem length_groupWith (sum : Nat) (name : Str) (directory : Bool) (cluster clusters size : Nat) :
    (groupWith upper sum name directory cluster clusters size).length =
      (2 + ceilDiv (unitsOf name).length 15) * 32 := by
  unfold groupWith
  dsimp only
  rw [List.length_append, List.length_append, length_primaryEntry, length_streamEntry,
    length_nameEntries]
  omega

theorem length_group (name : Str) (directory : Bool) (cluster clusters size : Nat) :
    (group upper name directory cluster clusters size).length =
      (2 + ceilDiv (unitsOf name).length 15) * 32 :=
  length_groupWith _ _ _ _ _ _

/-- The groups of a folder take the entries it was counted with. -/
theorem length_groups (path : List Str) (contents : Contents) (next : Nat) :
    ((place path contents next).1.groups upper).length = contents.entryCount * 32 := by
  induction contents generalizing path next with
  | empty => rfl
  | file name stamp data rest ih =>
      rw [place, Nodes.groups, List.length_append, length_group, ih, Contents.entryCount]
      omega
  | folder name inner rest _ ih =>
      rw [place, Nodes.groups, List.length_append, length_group, ih, Contents.entryCount]
      omega
  | special name rest ih =>
      rw [place, ih, Contents.entryCount]

theorem length_directory {v : Volume} (path : List Str) (contents : Contents) (next : Nat) :
    (v.directory (place path contents next).1).length = contents.dirSize false := by
  rw [Volume.directory, List.length_append, length_groups, List.length_replicate,
    Contents.dirSize, if_neg Bool.false_ne_true]
  omega

theorem length_rootDirectory {v : Volume} {contents : Contents} {path : List Str} {next : Nat}
    (hv : v.nodes = (place path contents next).1) :
    v.rootDirectory.length = contents.dirSize true := by
  have hlabel : (packUnits ("PS2SERVER".toList.map Char.toNat)).length = 18 := by decide
  unfold Volume.rootDirectory
  rw [hv, List.length_append, List.length_append, length_groups]
  simp only [List.length_append, Bytes.length_ofNat, List.length_replicate, hlabel]
  rw [Contents.dirSize, if_pos rfl]
  omega

theorem length_mbr (v : Volume) : v.mbr.length = SECTOR := by
  unfold Volume.mbr
  simp only [List.length_append, List.length_replicate, List.length_cons, List.length_nil,
    Bytes.length_ofNat]
  rfl

theorem length_boot (v : Volume) : v.boot.length = 24 * SECTOR := by
  unfold Volume.boot
  simp only [List.length_append, List.length_replicate, List.length_cons, List.length_nil,
    Bytes.length_ofNat, List.length_flatten, List.map_replicate, List.sum_replicate_nat]
  rfl

/-! ## Clusters -/

/-- The clusters given out behind `next` are those of the contents. -/
theorem place_next (path : List Str) (contents : Contents) (next : Nat) :
    (place path contents next).2 = next + contents.clusters := by
  induction contents generalizing path next with
  | empty => rfl
  | file name stamp data rest ih =>
      rw [place, Contents.clusters]
      dsimp only
      rw [ih]
      omega
  | folder name inner rest ihInner ihRest =>
      rw [place, Contents.clusters]
      dsimp only
      rw [ihRest, ihInner]
      omega
  | special name rest ih =>
      rw [place, Contents.clusters, ih]

namespace Volume

variable {v : Volume}

theorem heapOffset_add {cluster : Nat} (h : 2 ≤ cluster) (n : Nat) :
    v.heapOffset (cluster + n) = v.heapOffset cluster + n * CLUSTER := by
  have hsub : cluster + n - 2 = cluster - 2 + n := by omega
  rw [heapOffset, heapOffset, hsub, Nat.add_mul (cluster - 2) n CLUSTER]
  omega

theorem heapOffset_mono {a b : Nat} (h : a ≤ b) : v.heapOffset a ≤ v.heapOffset b := by
  unfold heapOffset
  have hsub := Nat.mul_le_mul_right CLUSTER (Nat.sub_le_sub_right h 2)
  omega

/-- Extents that lie in the clusters from `first` up to `last`, in order and filled. -/
structure Tiles (v : Volume) (first last : Nat) (extents : List Extent) : Prop where
  between : Intervals.Between Extent.start Extent.stop (v.heapOffset first) (v.heapOffset last)
    extents
  filled : ∀ e ∈ extents, e.payload.data.length = e.length

theorem Tiles.nil (v : Volume) (first last : Nat) : Tiles v first last [] := by
  refine ⟨Intervals.Between.nil _ _, fun e he => ?_⟩
  cases he

theorem Tiles.append {first middle last : Nat} {a b : List Extent} (ha : Tiles v first middle a)
    (hb : Tiles v middle last b) (hlow : first ≤ middle) (hhigh : middle ≤ last) :
    Tiles v first last (a ++ b) := by
  constructor
  · exact ha.between.append hb.between (heapOffset_mono hlow) (heapOffset_mono hhigh)
  · intro e he
    rcases List.mem_append.mp he with he | he
    · exact ha.filled e he
    · exact hb.filled e he

/-- One extent fills the clusters that its length takes. -/
theorem tiles_extent {cluster : Nat} (h : 2 ≤ cluster) {length : Nat} {payload : Payload}
    (hlen : payload.data.length = length) :
    Tiles v cluster (cluster + ceilDiv length CLUSTER) (v.extent cluster length payload) := by
  unfold extent
  split
  · exact Tiles.nil _ _ _
  · have hfits := le_ceilDiv_mul length (show 0 < CLUSTER by decide)
    constructor
    · apply Intervals.Between.single
      · unfold Extent.stop
        dsimp only
        omega
      · exact Nat.le_refl _
      · rw [heapOffset_add h]
        exact Nat.add_le_add_left hfits _
    · intro e he
      cases List.mem_singleton.mp he
      exact hlen

theorem tiles_place (path : List Str) (contents : Contents) {next : Nat} (h : 2 ≤ next) :
    Tiles v next (next + contents.clusters) (v.nodeExtents (place path contents next).1) := by
  induction contents generalizing path next with
  | empty => exact Tiles.nil _ _ _
  | file name stamp data rest ih =>
      rw [place, nodeExtents, Contents.clusters, ← Nat.add_assoc]
      apply Tiles.append _ (ih path (by omega)) (by omega) (by omega)
      by_cases hzero : ceilDiv data.length CLUSTER = 0
      · have hnil : data.length = 0 := by
          have := le_ceilDiv_mul data.length (show 0 < CLUSTER by decide)
          rw [hzero] at this
          omega
        rw [extent, if_pos hnil]
        exact Tiles.nil _ _ _
      · rw [if_neg hzero]
        exact tiles_extent h rfl
  | folder name inner rest ihInner ihRest =>
      rw [place, nodeExtents, Contents.clusters, place_next, ← Nat.add_assoc, ← Nat.add_assoc]
      apply Tiles.append _ (ihRest path (by omega)) (by omega) (by omega)
      apply Tiles.append _ (ihInner _ (by omega)) (by omega) (by omega)
      exact tiles_extent h (length_directory _ _ _)
  | special name rest ih =>
      rw [place, Contents.clusters]
      exact ih path h

end Volume

/-! ## A built volume -/

/-- What the fields of a volume are made of. -/
structure Built (upper : Nat → Nat) (contents : Contents) (v : Volume) : Prop where
  scanned : ∃ count, contents.scan upper 1 [] 1 = some count
  table : v.upper = upper
  upcase : v.upcase = packUnits (encodeTable upper)
  rootSize : v.rootSize = contents.dirSize true
  nodes : v.nodes = (place [] contents (v.rootCluster + ceilDiv v.rootSize CLUSTER)).1
  next : v.next = v.rootCluster + ceilDiv v.rootSize CLUSTER + contents.clusters
  clusterCount : v.next + 14 ≤ v.clusterCount
  bitmap : ceilDiv v.bitmapLength CLUSTER = v.bitmapClusters
  size : v.size / SECTOR ≤ 0xffffffff

theorem solve_eq_some {payload upcaseClusters fuel start clusterCount bitmapClusters : Nat}
    (h : solve payload upcaseClusters fuel start = some (clusterCount, bitmapClusters)) :
    clusterCount = max 64 (payload + bitmapClusters + upcaseClusters + 16) ∧
      ceilDiv (ceilDiv clusterCount 8) CLUSTER = bitmapClusters := by
  induction fuel generalizing start with
  | zero => cases h
  | succ fuel ih =>
      unfold solve at h
      dsimp only at h
      split at h
      · rename_i hfixed
        cases h
        exact ⟨rfl, hfixed⟩
      · exact ih h

theorem built_of_build {upper : Nat → Nat} {found : Contents} {v : Volume}
    (h : build upper found = some v) : Built upper found.sorted v := by
  unfold build at h
  simp only [Option.bind_eq_bind, Option.bind_eq_some_iff] at h
  obtain ⟨count, hscan, ⟨clusterCount, bitmapClusters⟩, hsolve, h⟩ := h
  dsimp only at h
  split at h
  · cases h
  · rename_i hsize
    cases h
    obtain ⟨hcount, hbitmap⟩ := solve_eq_some hsolve
    constructor
    · exact ⟨count, hscan⟩
    · rfl
    · rfl
    · rfl
    · rfl
    · exact place_next _ _ _
    · dsimp only
      rw [place_next, hcount]
      omega
    · exact hbitmap
    · exact Nat.le_of_not_lt hsize

namespace Built

variable {upper : Nat → Nat} {contents : Contents} {v : Volume}

theorem bitmap_le (h : Built upper contents v) : v.bitmapLength ≤ v.bitmapClusters * CLUSTER := by
  rw [← h.bitmap]
  exact le_ceilDiv_mul _ (by decide)

theorem bitmapClusters_pos (h : Built upper contents v) : 0 < v.bitmapClusters := by
  have hcount := h.clusterCount
  rw [← h.bitmap]
  exact ceilDiv_pos (ceilDiv_pos (by omega) (by decide)) (by decide)

/-- Up-case table, root and nodes follow the bitmap without a gap. -/
theorem tiles (h : Built upper contents v) :
    v.Tiles v.upcaseCluster v.next (v.extent v.upcaseCluster v.upcase.length (.bytes v.upcase) ++
      v.extent v.rootCluster v.rootSize (.bytes v.rootDirectory) ++ v.nodeExtents v.nodes) := by
  have hlow : 2 ≤ v.upcaseCluster := Nat.le_add_right 2 _
  have hroot : v.rootCluster = v.upcaseCluster + ceilDiv v.upcase.length CLUSTER := rfl
  have hupcase := Volume.tiles_extent (v := v) hlow
    (show (Volume.Payload.bytes v.upcase).data.length = v.upcase.length from rfl)
  rw [← hroot] at hupcase
  have hdir : v.rootDirectory.length = v.rootSize := by
    rw [length_rootDirectory h.nodes, h.rootSize]
  have hrootTile := Volume.tiles_extent (v := v) (show 2 ≤ v.rootCluster by omega)
    (show (Volume.Payload.bytes v.rootDirectory).data.length = v.rootSize from hdir)
  have hnodes := Volume.tiles_place (v := v) [] contents
    (show 2 ≤ v.rootCluster + ceilDiv v.rootSize CLUSTER by omega)
  rw [← h.nodes, ← h.next] at hnodes
  have hnext := h.next
  apply Volume.Tiles.append _ hnodes (by omega) (by omega)
  exact hupcase.append hrootTile (by omega) (by omega)

/-- The extents were in order before they were sorted. -/
theorem extents_eq (h : Built upper contents v) :
    v.extents = v.extent v.upcaseCluster v.upcase.length (.bytes v.upcase) ++
      v.extent v.rootCluster v.rootSize (.bytes v.rootDirectory) ++ v.nodeExtents v.nodes := by
  unfold Volume.extents
  apply List.mergeSort_of_pairwise
  apply h.tiles.between.ordered.apart.imp_of_mem
  intro a b ha _ hab
  have hpos := h.tiles.between.ordered.nonempty a ha
  apply decide_eq_true
  omega

end Built

/-! ## Every accepted folder is laid out -/

/-- The bitmap for some number of clusters. -/
def needed (clusterCount : Nat) : Nat := ceilDiv (ceilDiv clusterCount 8) CLUSTER

theorem needed_mono {a b : Nat} (h : a ≤ b) : needed a ≤ needed b := by
  unfold needed ceilDiv CLUSTER
  omega

/-- The loop for the bitmap ends: the bitmap only grows, and stays small. -/
theorem solve_isSome (payload upcaseClusters : Nat) :
    (solve payload upcaseClusters (payload + upcaseClusters + 64) 1).isSome := by
  generalize hbound : payload + upcaseClusters + 64 = bound
  have hloop : ∀ fuel start, start ≤ bound → bound + 1 ≤ fuel + start →
      start ≤ needed (max 64 (payload + start + upcaseClusters + 16)) →
      (solve payload upcaseClusters fuel start).isSome := by
    intro fuel
    induction fuel with
    | zero =>
        intro start hle hfuel _
        omega
    | succ fuel ih =>
        intro start hle hfuel hgrows
        unfold solve
        dsimp only
        split
        · rfl
        · rename_i hfixed
          change ¬ needed _ = start at hfixed
          change (solve payload upcaseClusters fuel
            (needed (max 64 (payload + start + upcaseClusters + 16)))).isSome
          apply ih
          · unfold needed ceilDiv CLUSTER
            omega
          · omega
          · apply needed_mono
            omega
  apply hloop
  · omega
  · omega
  · exact ceilDiv_pos (ceilDiv_pos (by omega) (by decide)) (by decide)

theorem length_encodeFrom (upper : Nat → Nat) (fuel c : Nat) :
    (encodeFrom upper fuel c).length ≤ 2 * fuel := by
  induction fuel generalizing c with
  | zero => exact Nat.zero_le _
  | succ fuel ih =>
      unfold encodeFrom
      split
      · dsimp only
        split
        · have := ih (runEnd upper c 65536 c)
          rw [List.length_cons, List.length_cons]
          omega
        · have := ih (c + 1)
          rw [List.length_cons]
          omega
      · exact Nat.zero_le _

/-- A small folder that is scanned makes a volume. -/
theorem build_of_scan {upper : Nat → Nat} {found : Contents} {count : Nat}
    (hscan : found.sorted.scan upper 1 [] 1 = some count)
    (hsmall : ceilDiv (found.sorted.dirSize true) CLUSTER + found.sorted.clusters ≤ 1000) :
    ∃ v, build upper found = some v := by
  have hlen : (packUnits (encodeTable upper)).length ≤ 262144 := by
    have := length_encodeFrom upper 65536 0
    rw [length_packUnits]
    unfold encodeTable
    omega
  have hclusters : ceilDiv (packUnits (encodeTable upper)).length CLUSTER ≤ 8 := by
    unfold ceilDiv CLUSTER
    omega
  obtain ⟨⟨clusterCount, bitmapClusters⟩, hsolve⟩ := Option.isSome_iff_exists.mp
    (solve_isSome (ceilDiv (found.sorted.dirSize true) CLUSTER + found.sorted.clusters)
      (ceilDiv (packUnits (encodeTable upper)).length CLUSTER))
  obtain ⟨hcount, hbitmap⟩ := solve_eq_some hsolve
  have hfew : clusterCount ≤ 1040 := by
    unfold ceilDiv CLUSTER at hbitmap
    omega
  unfold build
  simp only [Option.bind_eq_bind, hscan, Option.bind_some, hsolve]
  refine ⟨_, if_neg ?_⟩
  rw [Nat.not_lt]
  unfold Volume.size Volume.volumeSectors Volume.heapSector Volume.fatLength ceilDiv PARTITION
    CLUSTER SECTOR
  dsimp only
  omega

/-- A folder with one file and an empty folder. -/
def smallFolder : Contents :=
  .folder [.char 'D'] .empty (.file [.char 'A'] ⟨1, 2, 3⟩ [1, 2, 3] .empty)

theorem build_smallFolder : ∃ v, build id smallFolder = some v :=
  build_of_scan (show smallFolder.sorted.scan id 1 [] 1 = some 3 by decide +kernel)
    (by decide +kernel)

end Ps2Servers.Exfat
