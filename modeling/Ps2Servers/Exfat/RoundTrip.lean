import Ps2Servers.Exfat.Clusters

/-!
# Reading a virtual exFAT volume back

A reader of exFAT that is given the disk of a generated volume finds the folder it was
made from. Every region is found where the boot region says, the bitmap is set for the
clusters of the streams and no others, and the streams take the clusters from the first
one on without a gap.
-/

namespace Ps2Servers.Exfat

/-! ## The boot region -/

namespace Volume

variable (v : Volume)

/-- The fields of the boot sector from offset 64 on. -/
def bootFields : Bytes :=
  Bytes.ofNat 8 PARTITION ++ (Bytes.ofNat 8 v.volumeSectors ++ (Bytes.ofNat 4 24 ++
    (Bytes.ofNat 4 v.fatLength ++ (Bytes.ofNat 4 v.heapSector ++ (Bytes.ofNat 4 v.clusterCount ++
    (Bytes.ofNat 4 v.rootCluster ++ (Bytes.ofNat 4 0x50533253 ++ (Bytes.ofNat 2 0x100 ++
    (Bytes.ofNat 2 0 ++ (Bytes.ofNat 1 9 ++ (Bytes.ofNat 1 6 ++ (Bytes.ofNat 1 1 ++
    (Bytes.ofNat 1 0x80 ++
      Bytes.ofNat 1 (ceilDiv (v.allocatedClusters * 100) v.clusterCount))))))))))))))

def bootSector : Bytes :=
  [0xeb, 0x76, 0x90, 0x45, 0x58, 0x46, 0x41, 0x54, 0x20, 0x20, 0x20] ++ List.replicate 53 0 ++
    v.bootFields ++ List.replicate 397 0 ++ [0x55, 0xaa]

/-- The first 11 sectors. -/
def bootArea : Bytes :=
  v.bootSector ++
    (List.replicate 8 (List.replicate 508 0 ++ Bytes.ofNat 4 0xaa550000)).flatten ++
    List.replicate (2 * SECTOR) 0

def bootSums : Bytes :=
  (List.replicate (SECTOR / 4) (Bytes.ofNat 4 (checksum v.bootArea 32 [106, 107, 112]))).flatten

theorem boot_eq : v.boot = v.bootArea ++ v.bootSums ++ (v.bootArea ++ v.bootSums) := by
  unfold boot bootSums bootArea bootSector bootFields
  simp only [List.append_assoc]

theorem length_bootFields : v.bootFields.length = 49 := by
  unfold bootFields
  simp only [List.length_append, Bytes.length_ofNat]

theorem length_bootSector : v.bootSector.length = 512 := by
  unfold bootSector
  simp only [List.length_append, length_bootFields, List.length_replicate, List.length_cons,
    List.length_nil]

theorem length_bootArea : v.bootArea.length = 11 * 512 := by
  unfold bootArea
  simp only [List.length_append, length_bootSector, List.length_replicate, List.length_flatten,
    List.map_replicate, List.sum_replicate_nat, Bytes.length_ofNat]
  rfl

theorem length_bootSums : v.bootSums.length = 512 := by
  unfold bootSums
  simp only [List.length_flatten, List.map_replicate, List.sum_replicate_nat, Bytes.length_ofNat]
  rfl

theorem sub_bootSector {offset size : Nat} (h : offset + size ≤ 512) :
    (v.bootArea ++ v.bootSums).sub offset size = v.bootSector.sub offset size := by
  have hsector := v.length_bootSector
  have harea := v.length_bootArea
  rw [Bytes.sub_append_left _ (by omega)]
  unfold bootArea
  rw [List.append_assoc, Bytes.sub_append_left _ (by omega)]

theorem sub_bootFields {offset size : Nat} (h : offset + size ≤ 49) :
    (v.bootArea ++ v.bootSums).sub (64 + offset) size = v.bootFields.sub offset size := by
  have hfields := v.length_bootFields
  have hfront : ([0xeb, 0x76, 0x90, 0x45, 0x58, 0x46, 0x41, 0x54, 0x20, 0x20, 0x20] ++
      List.replicate 53 0 : Bytes).length = 64 := by
    rw [List.length_append, List.length_replicate]
    rfl
  rw [v.sub_bootSector (by omega)]
  unfold bootSector
  rw [List.append_assoc, List.append_assoc, Bytes.sub_append_right _ _ (by omega), hfront,
    Nat.add_sub_cancel_left, Bytes.sub_append_left _ (by omega)]

theorem field_boot (offset size : Nat) {n : Nat} (h : offset + size ≤ 49)
    (hfield : v.bootFields.sub offset size = Bytes.ofNat size n) (hn : n < 256 ^ size) :
    (v.bootArea ++ v.bootSums).field (64 + offset) size = n := by
  apply field_of_sub _ hn
  rw [v.sub_bootFields h, hfield]

theorem bootValid_region : Reader.bootValid (v.bootArea ++ v.bootSums) = true := by
  have harea := v.length_bootArea
  have hsector := v.length_bootSector
  have hname : (v.bootArea ++ v.bootSums).sub 3 8 =
      [0x45, 0x58, 0x46, 0x41, 0x54, 0x20, 0x20, 0x20] := by
    rw [v.sub_bootSector (by decide)]
    rfl
  have hsignature : (v.bootArea ++ v.bootSums).sub 510 2 = [0x55, 0xaa] := by
    have hfront : ([0xeb, 0x76, 0x90, 0x45, 0x58, 0x46, 0x41, 0x54, 0x20, 0x20, 0x20] ++
        List.replicate 53 0 ++ v.bootFields ++ List.replicate 397 0 : Bytes).length = 510 := by
      simp only [List.length_append, length_bootFields, List.length_replicate, List.length_cons,
        List.length_nil]
    rw [v.sub_bootSector (by decide)]
    unfold bootSector
    rw [Bytes.sub_append_right _ _ (by omega), hfront]
    rfl
  have hsectorShift : (v.bootArea ++ v.bootSums).field 108 1 = 9 :=
    v.field_boot 44 1 (by decide) rfl (by decide)
  have hfats : (v.bootArea ++ v.bootSums).field 110 1 = 1 :=
    v.field_boot 46 1 (by decide) rfl (by decide)
  have hfirst : (v.bootArea ++ v.bootSums).sub 0 (11 * 512) = v.bootArea := by
    rw [Bytes.sub_append_left _ (by omega), Bytes.sub_of_length harea]
  have hsums : (v.bootArea ++ v.bootSums).sub (11 * 512) 512 = v.bootSums := by
    rw [Bytes.sub_append_right _ _ (by omega), harea, Nat.sub_self,
      Bytes.sub_of_length v.length_bootSums]
  unfold Reader.bootValid
  rw [hname, hsignature, hsectorShift, hfats, hfirst, hsums, toNat_rotatedSum (by decide)]
  simp only [decide_true, Bool.true_and]
  exact decide_eq_true rfl

end Volume

theorem Built.readGeometry_image {upper : Nat → Nat} {contents : Contents} {v : Volume}
    (h : Built upper contents v) : Reader.readGeometry v.image = some v.geometry := by
  have hsize := h.size
  have hcount := h.clusterCount_lt
  have hnext := h.next
  have hclusters := h.clusterCount
  have hheap : v.heapSector < 2 ^ 32 := by
    unfold Volume.size Volume.volumeSectors SECTOR at hsize
    omega
  have harea := v.length_bootArea
  have hsums := v.length_bootSums
  have hlength : (v.bootArea ++ v.bootSums).length = 12 * 512 := by
    rw [List.length_append]
    omega
  have hregion : v.image.sub (PARTITION * 512) (12 * 512) = v.bootArea ++ v.bootSums := by
    have hsub : v.image.sub (PARTITION * 512) (12 * 512) = v.boot.sub 0 (12 * 512) :=
      @Volume.image_sub_boot v 0 (12 * 512) (by decide)
    rw [hsub, v.boot_eq, Bytes.sub_append_left _ (by omega), Bytes.sub_of_length hlength]
  have hcopy : v.image.sub (PARTITION * 512 + 12 * 512) (12 * 512) =
      v.bootArea ++ v.bootSums := by
    have hsub : v.image.sub (PARTITION * 512 + 12 * 512) (12 * 512) =
        v.boot.sub (12 * 512) (12 * 512) := Volume.image_sub_boot (by decide)
    rw [hsub, v.boot_eq, Bytes.sub_append_right _ _ (by omega),
      hlength, Nat.sub_self, Bytes.sub_of_length hlength]
  have hstart : v.image.field 454 4 = PARTITION := by
    have hfront : (List.replicate 446 0 ++ [0, 0xfe, 0xff, 0xff, 7, 0xfe, 0xff, 0xff] :
        Bytes).length = 454 := by
      rw [List.length_append, List.length_replicate]
      rfl
    apply field_of_sub _ (by decide)
    rw [Volume.image_sub_mbr (by decide)]
    unfold Volume.mbr
    simp only [List.append_assoc]
    rw [← List.append_assoc, Bytes.sub_append_right _ _ (by omega), hfront, Nat.sub_self]
    exact Bytes.sub_append_left _ (by rw [Bytes.length_ofNat])
  have htype : v.image.field 450 1 = 7 := by
    rw [Bytes.field, Volume.image_sub_mbr (by decide)]
    unfold Volume.mbr
    simp only [List.append_assoc]
    rw [Bytes.sub_append_right _ _ (by rw [List.length_replicate]; decide), List.length_replicate]
    rfl
  have hsignature : v.image.sub 510 2 = [0x55, 0xaa] := by
    have hfront : (List.replicate 446 0 ++ [0, 0xfe, 0xff, 0xff, 7, 0xfe, 0xff, 0xff] ++
        Bytes.ofNat 4 PARTITION ++ Bytes.ofNat 4 v.volumeSectors ++ List.replicate 48 0 :
        Bytes).length = 510 := by
      simp only [List.length_append, List.length_replicate, Bytes.length_ofNat, List.length_cons,
        List.length_nil]
    rw [Volume.image_sub_mbr (by decide)]
    unfold Volume.mbr
    rw [Bytes.sub_append_right _ _ (by omega), hfront]
    rfl
  have hpartition : (v.bootArea ++ v.bootSums).field 64 8 = PARTITION :=
    v.field_boot 0 8 (by decide) rfl (by decide)
  have hfat : (v.bootArea ++ v.bootSums).field 80 4 = 24 :=
    v.field_boot 16 4 (by decide) rfl (by decide)
  have hheapField : (v.bootArea ++ v.bootSums).field 88 4 = v.heapSector :=
    v.field_boot 24 4 (by decide) rfl (by omega)
  have hcountField : (v.bootArea ++ v.bootSums).field 92 4 = v.clusterCount :=
    v.field_boot 28 4 (by decide) rfl (by omega)
  have hrootField : (v.bootArea ++ v.bootSums).field 96 4 = v.rootCluster :=
    v.field_boot 32 4 (by decide) rfl (by omega)
  have hshift : (v.bootArea ++ v.bootSums).field 109 1 = 6 :=
    v.field_boot 45 1 (by decide) rfl (by decide)
  have hheapOffset : PARTITION * 512 + v.heapSector * 512 = v.geometry.heap := by
    change _ = (PARTITION + v.heapSector) * 512 + 0 * CLUSTER
    omega
  unfold Reader.readGeometry
  rw [hstart]
  dsimp only
  rw [hregion, hcopy, hsignature, htype, v.bootValid_region, hpartition, hfat, hheapField,
    hcountField, hrootField, hshift, hheapOffset, if_pos ⟨rfl, rfl, rfl, rfl, rfl⟩]
  rfl

/-! ## Folders -/

/-- Every file and folder with its path, and the contents of the files. -/
def Reader.Tree.entries (path : List Str) : Reader.Tree → List (List Str × Option Bytes)
  | .empty => []
  | .file name data rest => (path ++ [name], some data) :: rest.entries path
  | .folder name inner rest =>
      (path ++ [name], none) :: inner.entries (path ++ [name]) ++ rest.entries path

namespace Contents

/-- Names and contents of a host folder. -/
def tree : Contents → Reader.Tree
  | .empty => .empty
  | .file name _ data rest => .file name data rest.tree
  | .folder name inner rest => .folder name inner.tree rest.tree
  | .special _ rest => rest.tree

theorem entries_insertBy {path : List Str} {name : Str} (entry : Contents → Contents)
    (front : List (List Str × Option Bytes))
    (hentry : ∀ c, (entry c).tree.entries path = front ++ c.tree.entries path) (c : Contents) :
    ((insertBy name entry c).tree.entries path).Perm (front ++ c.tree.entries path) := by
  induction c with
  | empty =>
      rw [insertBy, hentry]
  | file n stamp data rest ih =>
      rw [insertBy]
      split
      · rw [hentry]
      · rw [tree, tree, Reader.Tree.entries, Reader.Tree.entries]
        exact (ih.cons _).trans List.perm_middle.symm
  | folder n inner rest _ ih =>
      rw [insertBy]
      split
      · rw [hentry]
      · rw [tree, tree, Reader.Tree.entries, Reader.Tree.entries]
        apply (ih.append_left _).trans
        rw [← List.append_assoc, ← List.append_assoc]
        exact List.perm_append_comm.append_right _
  | special n rest ih =>
      rw [insertBy]
      split
      · rw [hentry]
      · exact ih

/-- Sorting changes the order of the entries only. -/
theorem entries_sorted (path : List Str) (c : Contents) :
    (c.sorted.tree.entries path).Perm (c.tree.entries path) := by
  induction c generalizing path with
  | empty => exact List.Perm.refl _
  | file name stamp data rest ih =>
      rw [sorted]
      apply (entries_insertBy (.file name stamp data) [(path ++ [name], some data)]
        (fun _ => rfl) _).trans
      exact (ih path).cons _
  | folder name inner rest ihInner ihRest =>
      rw [sorted]
      apply (entries_insertBy (.folder name inner.sorted)
        ((path ++ [name], none) :: inner.sorted.tree.entries (path ++ [name]))
        (fun _ => rfl) _).trans
      exact ((ihInner _).cons _).append (ihRest path)
  | special name rest ih =>
      rw [sorted]
      exact (entries_insertBy (.special name) [] (fun _ => rfl) _).trans (ih path)

/-- The nodes below a folder. -/
def count : Contents → Nat
  | .empty => 0
  | .file _ _ _ rest => rest.count + 1
  | .folder _ inner rest => inner.count + rest.count + 1
  | .special _ rest => rest.count

/-- The scan counts the nodes, and accepts names only. -/
theorem plain_of_scan {upper : Nat → Nat} {depth : Nat} {names : List (List Nat)}
    {contents : Contents} {start stop : Nat} (hstart : start ≤ 100000)
    (h : contents.scan upper depth names start = some stop) :
    contents.Plain ∧ stop = start + contents.count ∧ stop ≤ 100000 := by
  induction contents generalizing depth names start stop with
  | empty =>
      cases h
      exact ⟨trivial, rfl, hstart⟩
  | file name stamp data rest ih =>
      rw [scan] at h
      simp only [Option.bind_eq_bind, Option.bind_eq_some_iff] at h
      obtain ⟨units, hunits, h⟩ := h
      split at h
      · cases h
      · rename_i hgood
        rw [not_or, not_or] at hgood
        obtain ⟨hrest, hcount, hstop⟩ := ih (by omega) h
        refine ⟨⟨(accepted_of_nameUnits hunits).1, hrest⟩, ?_, hstop⟩
        rw [count]
        omega
  | folder name inner rest ihInner ihRest =>
      rw [scan] at h
      simp only [Option.bind_eq_bind, Option.bind_eq_some_iff] at h
      obtain ⟨units, hunits, h⟩ := h
      split at h
      · cases h
      · rename_i hgood
        rw [not_or, not_or] at hgood
        obtain ⟨middle, hmiddle, h⟩ := Option.bind_eq_some_iff.mp h
        obtain ⟨hinner, hinnerCount, hinnerStop⟩ := ihInner (by omega) hmiddle
        obtain ⟨hrest, hcount, hstop⟩ := ihRest (by omega) h
        refine ⟨⟨(accepted_of_nameUnits hunits).1, hinner, hrest⟩, ?_, hstop⟩
        rw [count]
        omega
  | special name rest ih => cases h

end Contents

/-- The clusters of the streams below a folder, in the order they were given out. -/
def Nodes.streams : Nodes → List (List Nat)
  | .empty => []
  | .file _ _ _ data cluster rest =>
      List.range' cluster (ceilDiv data.length CLUSTER) :: rest.streams
  | .folder _ cluster size inner rest =>
      List.range' cluster (ceilDiv size CLUSTER) :: inner.streams ++ rest.streams

theorem flatten_streams (path : List Str) (contents : Contents) (next : Nat) :
    (place path contents next).1.streams.flatten = List.range' next contents.clusters := by
  induction contents generalizing path next with
  | empty => rfl
  | file name stamp data rest ih =>
      rw [place, Nodes.streams, List.flatten_cons, ih, Contents.clusters, ← List.range'_append_1]
      split
      · rename_i hzero
        rw [hzero]
        rfl
      · rfl
  | folder name inner rest ihInner ihRest =>
      rw [place, Nodes.streams, List.cons_append, List.flatten_cons, List.flatten_append, ihInner,
        ihRest, Contents.clusters, place_next, List.range'_append_1, List.range'_append_1,
        ← Nat.add_assoc]
  | special name rest ih => exact ih path next

/-! ## Reading the folder -/

namespace Reader

variable {g : Geometry} {disk : Bytes} {table : List Nat} {fuel : Nat} {e : EntrySet}
  {rest : List Item} {name : Str} {clusters : List Nat} {data : Bytes} {tree : Tree}
  {streams : List (List Nat)}

theorem readItems_file
    (hhash : (rotatedSum 16 [] (nameBytes (e.name.map fun c => table.getD c 0))).toNat = e.nameHash)
    (hname : Text.decodeUtf16 (nameBytes e.name) = name) (hfile : e.directory = false)
    (hstream : stream g disk e.first e.length e.noFatChain = some (clusters, data))
    (hrest : readItems g disk table fuel rest = some (tree, streams)) :
    readItems g disk table (fuel + 1) (.set e :: rest) =
      some (.file name data tree, clusters :: streams) := by
  rw [readItems, if_pos hhash, hstream, hrest]
  dsimp only
  rw [hfile, if_neg Bool.false_ne_true, hname]

theorem readItems_folder {items : List Item} {inner : Tree} {below : List (List Nat)}
    (hhash : (rotatedSum 16 [] (nameBytes (e.name.map fun c => table.getD c 0))).toNat = e.nameHash)
    (hname : Text.decodeUtf16 (nameBytes e.name) = name) (hfolder : e.directory = true)
    (hstream : stream g disk e.first e.length e.noFatChain = some (clusters, data))
    (hrest : readItems g disk table fuel rest = some (tree, streams))
    (hitems : readDirectory (data.length + 1) data = some items)
    (hinner : readItems g disk table fuel items = some (inner, below)) :
    readItems g disk table (fuel + 1) (.set e :: rest) =
      some (.folder name inner tree, clusters :: below ++ streams) := by
  rw [readItems, if_pos hhash, hstream, hrest]
  dsimp only
  rw [hfolder, if_pos rfl, hname, hitems, Option.bind_some, hinner]

end Reader

namespace Built

variable {upper : Nat → Nat} {contents : Contents} {v : Volume}

/-- The extent of a node is read back from the disk. -/
theorem image_sub_data (h : Built upper contents v) {cluster length : Nat}
    {payload : Volume.Payload} (hmem : ∀ e ∈ v.extent cluster length payload, e ∈ v.extents)
    (hlength : 0 < length) (hstop : v.heapOffset cluster + length ≤ v.size) :
    v.image.sub (v.heapOffset cluster) length = payload.data := by
  have he := hmem ⟨v.heapOffset cluster, length, payload⟩ (by
    rw [Volume.extent, if_neg (by omega)]
    exact List.mem_singleton_self _)
  exact Volume.image_sub_extent h.laid he hstop

theorem offset_le_size (h : Built upper contents v) {cluster length : Nat} (hlow : 2 ≤ cluster)
    (hfits : cluster + ceilDiv length CLUSTER ≤ v.next) :
    v.heapOffset cluster + length ≤ v.size := by
  have hcount := h.clusterCount
  have hlength := le_ceilDiv_mul length (show 0 < CLUSTER by decide)
  have hend : v.heapOffset (cluster + ceilDiv length CLUSTER) ≤ v.size :=
    Volume.heapOffset_le_size (by omega)
  rw [Volume.heapOffset_add hlow] at hend
  omega

/-- The clusters of a node hold its data, and something behind them. -/
theorem clusters_data (h : Built upper contents v) {cluster length : Nat}
    {payload : Volume.Payload} (hmem : ∀ e ∈ v.extent cluster length payload, e ∈ v.extents)
    (hlength : 0 < length) (hlow : 2 ≤ cluster)
    (hfits : cluster + ceilDiv length CLUSTER ≤ v.next) :
    ∃ pad, v.image.sub (v.heapOffset cluster) (ceilDiv length CLUSTER * CLUSTER) =
      payload.data ++ pad := by
  have hround := le_ceilDiv_mul length (show 0 < CLUSTER by decide)
  have hdata := h.image_sub_data hmem hlength (h.offset_le_size hlow hfits)
  refine ⟨v.image.sub (v.heapOffset cluster + length) (ceilDiv length CLUSTER * CLUSTER - length), ?_⟩
  rw [← hdata, Bytes.sub_append, Nat.add_sub_cancel' hround]

/-- The reader looks a name's characters up in the table of the volume. -/
theorem nameHash_eq {name : Str} (hname : Accepted name) (upper : Nat → Nat) :
    (Reader.rotatedSum 16 [] (Reader.nameBytes ((unitsOf name).map fun c =>
      ((List.range 65536).map upper).getD c 0))).toNat =
        checksum (packUnits ((unitsOf name).map upper)) 16 [] := by
  have hmap : (unitsOf name).map (fun c => ((List.range 65536).map upper).getD c 0) =
      (unitsOf name).map upper := by
    apply List.map_congr_left
    intro c hc
    have hlt := hname.units c hc
    rw [List.getD_eq_getElem?_getD, List.getElem?_map, List.getElem?_range hlt]
    rfl
  rw [hmap, toNat_rotatedSum (by decide)]
  rfl

/-- The entries of a folder are read as the folder. -/
theorem readItems_place (h : Built upper contents v) {inside : Contents} (hplain : inside.Plain)
    (path : List Str) {next : Nat} (hlow : 2 ≤ next) (hhigh : next + inside.clusters ≤ v.next)
    (hextents : ∀ e ∈ v.nodeExtents (place path inside next).1, e ∈ v.extents)
    (hchains : ∀ c ∈ Volume.nodeChains (place path inside next).1, c ∈ v.chains) {fuel : Nat}
    (hfuel : inside.count < fuel) :
    Reader.readItems v.geometry v.image ((List.range 65536).map upper) fuel
      ((place path inside next).1.items upper) =
        some (inside.tree, (place path inside next).1.streams) := by
  have hcount := h.clusterCount
  have hsmall := h.clusterCount_lt
  induction inside generalizing path next fuel with
  | empty =>
      cases fuel with
      | zero => cases hfuel
      | succ fuel => rfl
  | file name stamp data rest ih =>
      obtain ⟨hname, hrest⟩ := hplain
      rw [Contents.clusters] at hhigh
      cases fuel with
      | zero => cases hfuel
      | succ fuel =>
          rw [Contents.count] at hfuel
          rw [place] at hextents hchains ⊢
          dsimp only [Volume.nodeExtents] at hextents
          have hothers := ih hrest path (show 2 ≤ next + ceilDiv data.length CLUSTER by omega)
            (by omega) (fun e he => hextents e (List.mem_append_right _ he)) hchains
            (show rest.count < fuel by omega)
          apply Reader.readItems_file (nameHash_eq hname upper) hname.decoded rfl _ hothers
          by_cases hzero : ceilDiv data.length CLUSTER = 0
          · have hnil : data = [] := by
              apply List.eq_nil_of_length_eq_zero
              have := le_ceilDiv_mul data.length (show 0 < CLUSTER by decide)
              rw [hzero] at this
              omega
            subst hnil
            rfl
          · have hpos : 0 < data.length := by
              apply Nat.pos_of_ne_zero
              intro hnil
              rw [hnil] at hzero
              exact hzero rfl
            rw [if_neg hzero] at hextents ⊢
            have hdata := h.image_sub_data (fun e he => hextents e (List.mem_append_left _ he)) hpos
              (h.offset_le_size hlow (by omega))
            change Reader.stream v.geometry v.image next data.length _ = _
            have hflag : (entryOf upper name false next (ceilDiv data.length CLUSTER)
                data.length).noFatChain = true := by
              simp [entryOf, hzero]
            rw [hflag, h.stream_run hpos hlow (by omega) (fun h => by cases h), hdata]
            rfl
  | folder name inner rest ihInner ihRest =>
      obtain ⟨hname, hinner, hrest⟩ := hplain
      rw [Contents.clusters] at hhigh
      cases fuel with
      | zero => cases hfuel
      | succ fuel =>
          rw [Contents.count] at hfuel
          rw [place] at hextents hchains ⊢
          dsimp only [Volume.nodeExtents, Volume.nodeChains] at hextents hchains
          rw [place_next] at hextents hchains ⊢
          have hsize : 0 < inner.dirSize false := by
            unfold Contents.dirSize
            omega
          have hpos : 0 < ceilDiv (inner.dirSize false) CLUSTER := ceilDiv_pos hsize (by decide)
          generalize hn : ceilDiv (inner.dirSize false) CLUSTER = n at hhigh hpos hextents hchains ⊢
          have hinside : ∀ e ∈ v.nodeExtents (place (path ++ [name]) inner (next + n)).1,
              e ∈ v.extents := fun e he =>
            hextents e (List.mem_append_left _ (List.mem_append_right _ he))
          have hbelow := ihInner hinner (path ++ [name]) (show 2 ≤ next + n by omega) (by omega)
            hinside (fun c hc => hchains c (List.mem_cons_of_mem _ (List.mem_append_left _ hc)))
            (show inner.count < fuel by omega)
          have hothers := ihRest hrest path (show 2 ≤ next + n + inner.clusters by omega)
            (by omega) (fun e he => hextents e (List.mem_append_right _ he))
            (fun c hc => hchains c (List.mem_cons_of_mem _ (List.mem_append_right _ hc)))
            (show rest.count < fuel by omega)
          have hceil : ceilDiv (n * CLUSTER) CLUSTER = n := ceilDiv_mul n (by decide)
          have hstream := @stream_run upper contents v h next (n * CLUSTER) false
            (Nat.mul_pos hpos (by decide)) hlow (by rw [hceil]; omega)
            (fun _ => by rw [hceil]; exact hchains _ List.mem_cons_self)
          rw [hceil] at hstream
          obtain ⟨pad, hdata⟩ := h.clusters_data
            (fun e he => hextents e (List.mem_append_left _ (List.mem_append_left _ he))) hsize hlow
            (by omega)
          change _ = (place (path ++ [name]) inner (next + n)).1.groups v.upper ++
            List.replicate 32 0 ++ pad at hdata
          rw [hn, h.table, List.append_assoc] at hdata
          have hitems : Reader.readDirectory
              ((v.image.sub (v.heapOffset next) (n * CLUSTER)).length + 1)
              (v.image.sub (v.heapOffset next) (n * CLUSTER)) =
                some ((place (path ++ [name]) inner (next + n)).1.items upper) := by
            have hfew := @length_items_le upper (path ++ [name]) inner (next + n)
            rw [hdata]
            apply readDirectory_groups hinner (path ++ [name]) (by omega)
            rw [List.length_append]
            omega
          apply Reader.readItems_folder (nameHash_eq hname upper) hname.decoded rfl _ hothers hitems
            hbelow
          have hflag : (entryOf upper name true next n (inner.dirSize false)).noFatChain = false := by
            simp [entryOf]
          have hlength : (entryOf upper name true next n (inner.dirSize false)).length =
              n * CLUSTER := by
            unfold entryOf
            dsimp only
            rw [if_pos rfl]
          rw [hn, hflag, hlength]
          exact hstream
  | special name rest ih => exact hplain.elim

/-! ## The root -/

/-- The entries of the root directory. -/
def rootItems (upper : Nat → Nat) (v : Volume) : List Reader.Item :=
  .bitmap Volume.bitmapCluster v.bitmapLength ::
    .upcase (checksum v.upcase 32 []) v.upcaseCluster v.upcase.length :: .label ::
    v.nodes.items upper

theorem readDirectory_root (h : Built upper contents v) (hplain : contents.Plain) (pad : Bytes) :
    Reader.readDirectory ((v.rootDirectory ++ pad).length + 1) (v.rootDirectory ++ pad) =
      some (rootItems upper v) := by
  have hnext := h.next
  have hclusters := h.clusterCount
  have hcount := h.clusterCount_lt
  have hbitmap := h.bitmap_le
  have hupcase : v.upcaseCluster = 2 + v.bitmapClusters := rfl
  have hroot : v.rootCluster = v.upcaseCluster + v.upcaseClusters := rfl
  have hbits : v.bitmapLength < 2 ^ 64 := by
    unfold CLUSTER at hbitmap
    omega
  have htable : v.upcase.length < 2 ^ 64 := by
    have hfits : v.upcase.length ≤ v.upcaseClusters * CLUSTER := le_ceilDiv_mul _ (by decide)
    unfold CLUSTER at hfits
    omega
  have hsum : checksum v.upcase 32 [] < 2 ^ 32 := checksum_lt (by decide) _ _
  have hdir : v.rootDirectory.length = (3 + contents.entryCount + 1) * 32 :=
    length_rootDirectory h.nodes
  have hfew := @length_items_le upper [] contents (v.rootCluster + ceilDiv v.rootSize CLUSTER)
  rw [length_groups, ← h.nodes] at hfew
  have hfuel : (v.rootDirectory ++ pad).length + 1 =
      (v.rootDirectory ++ pad).length - 2 + 1 + 1 + 1 := by
    rw [List.length_append]
    omega
  have hlong : (v.nodes.items upper).length < (v.rootDirectory ++ pad).length - 2 := by
    rw [List.length_append]
    omega
  generalize (v.rootDirectory ++ pad).length - 2 = fuel at hfuel hlong
  have hgroups := @readDirectory_groups upper contents hplain []
    (v.rootCluster + ceilDiv v.rootSize CLUSTER) (by omega) fuel (by rw [← h.nodes]; exact hlong) pad
  rw [← h.nodes] at hgroups
  have hsplit : v.rootDirectory ++ pad =
      Bytes.ofNat 1 0x81 ++ List.replicate 19 0 ++ Bytes.ofNat 4 Volume.bitmapCluster ++
        Bytes.ofNat 8 v.bitmapLength ++
      (Bytes.ofNat 1 0x82 ++ List.replicate 3 0 ++ Bytes.ofNat 4 (checksum v.upcase 32 []) ++
        List.replicate 12 0 ++ Bytes.ofNat 4 v.upcaseCluster ++ Bytes.ofNat 8 v.upcase.length ++
      (Bytes.ofNat 1 0x83 ++ Bytes.ofNat 1 9 ++ packUnits ("PS2SERVER".toList.map Char.toNat) ++
        List.replicate 12 0 ++
      (v.nodes.groups upper ++ (List.replicate 32 0 ++ pad)))) := by
    unfold Volume.rootDirectory
    rw [h.table]
    simp only [List.append_assoc]
  rw [hfuel, hsplit, readDirectory_bitmap (by decide) hbits,
    readDirectory_upcase hsum (by omega) htable, readDirectory_label, hgroups]
  rfl

theorem readRoot_image (h : Built upper contents v) (hplain : contents.Plain) :
    Reader.readRoot v.geometry v.image =
      some (List.range' v.rootCluster (ceilDiv v.rootSize CLUSTER), rootItems upper v) := by
  have hnext := h.next
  have hroot : 2 ≤ v.rootCluster := by
    unfold Volume.rootCluster Volume.upcaseCluster
    omega
  have hchain : Reader.chain v.geometry v.image v.clusterCount v.rootCluster =
      some (List.range' v.rootCluster (ceilDiv v.rootSize CLUSTER)) := by
    apply h.chain_eq
    rw [h.chains_eq]
    exact List.mem_cons_of_mem _ (List.mem_cons_of_mem _ List.mem_cons_self)
  obtain ⟨pad, hdata⟩ := @clusters_data upper contents v h v.rootCluster v.rootSize
    (.bytes v.rootDirectory) (by
      intro e he
      rw [h.extents_eq]
      exact List.mem_append_left _ (List.mem_append_right _ he))
    h.rootSize_pos hroot (by omega)
  have hclusters : (List.range' v.rootCluster (ceilDiv v.rootSize CLUSTER)).flatMap
      (Reader.clusterData v.geometry v.image) = v.rootDirectory ++ pad := by
    rw [Reader.flatMap_clusterData _ _ hroot, Volume.geometry_offset hroot]
    exact hdata
  unfold Reader.readRoot
  change (Reader.chain v.geometry v.image v.clusterCount v.rootCluster >>= _) = _
  rw [hchain]
  change (Reader.readDirectory _ _ >>= _) = _
  rw [hclusters, h.readDirectory_root hplain]
  rfl

/-! ## The bitmap -/

/-- A byte of the bitmap has the bits of the clusters in use. -/
theorem bitmapByte_bit (v : Volume) (k : Nat) :
    (v.bitmapByte (k / 8)).toNat / 2 ^ (k % 8) % 2 = 1 ↔ k < v.allocatedClusters := by
  have hones : ∀ n, n ≤ 8 → ((2 ^ n - 1) / 2 ^ (k % 8) % 2 = 1 ↔ k % 8 < n) := by
    intro n hn
    have hbit := Nat.testBit_two_pow_sub_one n (k % 8)
    rw [Nat.testBit_eq_decide_div_mod_eq, decide_eq_decide] at hbit
    exact hbit
  unfold Volume.bitmapByte
  generalize v.allocatedClusters = n
  by_cases hbelow : k / 8 < n / 8
  · rw [if_pos hbelow]
    change (2 ^ 8 - 1) / 2 ^ (k % 8) % 2 = 1 ↔ _
    rw [hones 8 (Nat.le_refl 8)]
    omega
  · rw [if_neg hbelow]
    by_cases hlast : k / 8 = n / 8
    · have hsmall : 2 ^ (n % 8) ≤ 2 ^ 8 := Nat.pow_le_pow_right (by decide) (by omega)
      have hbyte : (UInt8.ofNat (2 ^ (n % 8) - 1)).toNat = 2 ^ (n % 8) - 1 := by
        rw [UInt8.toNat_ofNat', Nat.mod_eq_of_lt]
        have hpos := Nat.two_pow_pos (n % 8)
        omega
      rw [if_pos hlast, hbyte, hones _ (by omega)]
      omega
    · rw [if_neg hlast]
      change 0 / 2 ^ (k % 8) % 2 = 1 ↔ _
      rw [Nat.zero_div]
      omega

theorem allocated_iff (h : Built upper contents v) {tree : Reader.Tree} {clusterCount : Nat}
    {streams : List (List Nat)} {cluster : Nat} (hlow : 2 ≤ cluster) :
    Reader.Found.Allocated ⟨tree, clusterCount, (List.range v.bitmapLength).map v.bitmapByte,
      streams⟩ cluster ↔ cluster < v.next := by
  have hcount := h.clusterCount
  have hcovers : v.clusterCount ≤ v.bitmapLength * 8 := le_ceilDiv_mul _ (by decide)
  have hused : v.allocatedClusters = v.next - 2 := rfl
  unfold Reader.Found.Allocated
  dsimp only
  rw [List.getD_eq_getElem?_getD, List.getElem?_map]
  by_cases hin : (cluster - 2) / 8 < v.bitmapLength
  · rw [List.getElem?_range hin, Option.map_some, Option.getD_some, bitmapByte_bit]
    omega
  · rw [List.getElem?_eq_none (by rw [List.length_range]; omega)]
    change 0 / 2 ^ ((cluster - 2) % 8) % 2 = 1 ↔ _
    rw [Nat.zero_div]
    omega

/-! ## The whole disk -/

theorem stream_bitmap (h : Built upper contents v) :
    Reader.stream v.geometry v.image Volume.bitmapCluster v.bitmapLength false =
      some (List.range' Volume.bitmapCluster v.bitmapClusters,
        (List.range v.bitmapLength).map v.bitmapByte) := by
  have hnext := h.next
  have hclusters := h.clusterCount
  have hroot : v.rootCluster = 2 + v.bitmapClusters + v.upcaseClusters := rfl
  have hlow : Volume.bitmapCluster = 2 := rfl
  have hexact := h.bitmap
  have hend := @offset_le_size upper contents v h Volume.bitmapCluster v.bitmapLength (by omega)
    (by omega)
  have hpos : 0 < v.bitmapLength := ceilDiv_pos (by omega) (by decide)
  rw [h.stream_run hpos (by omega) (by omega), hexact, Volume.image_sub_bitmap h.laid hend]
  intro _
  rw [h.chains_eq, hexact]
  exact List.mem_cons_self

theorem stream_upcase (h : Built upper contents v) :
    Reader.stream v.geometry v.image v.upcaseCluster v.upcase.length false =
      some (List.range' v.upcaseCluster v.upcaseClusters, v.upcase) := by
  have hnext := h.next
  have hclusters := h.clusterCount
  have hroot : v.rootCluster = v.upcaseCluster + ceilDiv v.upcase.length CLUSTER := rfl
  have hlow : 2 ≤ v.upcaseCluster := Nat.le_add_right 2 _
  have hpos : 0 < v.upcase.length := by
    have hsome := h.upcaseClusters_pos
    apply Nat.pos_of_ne_zero
    intro hzero
    rw [Volume.upcaseClusters, hzero] at hsome
    exact absurd hsome (by decide)
  have hdata := @image_sub_data upper contents v h v.upcaseCluster v.upcase.length
    (.bytes v.upcase) (by
      intro e he
      rw [h.extents_eq]
      exact List.mem_append_left _ (List.mem_append_left _ he))
    hpos (h.offset_le_size hlow (by omega))
  rw [h.stream_run hpos hlow (by omega), hdata]
  · rfl
  · intro _
    rw [h.chains_eq]
    exact List.mem_cons_of_mem _ List.mem_cons_self

/-- The reader finds the tree of the folder, and the streams in the order of their clusters. -/
theorem read_image (h : Built upper contents v) (hupper : Cased upper) :
    Reader.read v.image = some ⟨contents.tree, v.clusterCount,
      (List.range v.bitmapLength).map v.bitmapByte,
      List.range' Volume.bitmapCluster v.bitmapClusters ::
        List.range' v.upcaseCluster v.upcaseClusters ::
        List.range' v.rootCluster (ceilDiv v.rootSize CLUSTER) :: v.nodes.streams⟩ := by
  have hnext := h.next
  have hclusters := h.clusterCount
  obtain ⟨stop, hscan⟩ := h.scanned
  obtain ⟨hplain, hcount, hfew⟩ := Contents.plain_of_scan (by decide) hscan
  have hroot : 2 ≤ v.rootCluster := by
    unfold Volume.rootCluster Volume.upcaseCluster
    omega
  have hunits : Reader.units v.upcase = encodeTable upper := by
    rw [units_eq_unpackUnits, h.upcase]
    exact unpackUnits_packUnits fun u hu => lt_of_mem_encodeFrom hupper hu
  have hlarge : contents.count + 3 < v.image.length := by
    rw [Volume.length_image]
    unfold Volume.size Volume.volumeSectors PARTITION CLUSTER SECTOR
    omega
  have hitems := @readItems_place upper contents v h contents hplain []
    (v.rootCluster + ceilDiv v.rootSize CLUSTER) (by omega) (by omega)
    (by
      intro e he
      rw [h.extents_eq, h.nodes]
      exact List.mem_append_right _ he)
    (by
      intro c hc
      rw [h.chains_eq, h.nodes]
      exact List.mem_cons_of_mem _ (List.mem_cons_of_mem _ (List.mem_cons_of_mem _ hc)))
    (v.image.length - 3) (by omega)
  rw [← h.nodes] at hitems
  have hall : Reader.readItems v.geometry v.image ((List.range 65536).map upper) v.image.length
      (rootItems upper v) = some (contents.tree, v.nodes.streams) := by
    rw [show v.image.length = v.image.length - 3 + 1 + 1 + 1 by omega]
    exact hitems
  have hcovers : v.clusterCount ≤ 8 * ((List.range v.bitmapLength).map v.bitmapByte).length := by
    have hbits : v.clusterCount ≤ v.bitmapLength * 8 := le_ceilDiv_mul _ (by decide)
    rw [List.length_map, List.length_range]
    omega
  unfold Reader.read
  rw [h.readGeometry_image]
  change (Reader.readRoot v.geometry v.image >>= _) = _
  rw [h.readRoot_image hplain]
  change (Reader.stream v.geometry v.image Volume.bitmapCluster v.bitmapLength false >>= _) = _
  rw [h.stream_bitmap]
  change (Reader.stream v.geometry v.image v.upcaseCluster v.upcase.length false >>= _) = _
  rw [h.stream_upcase]
  change (if (Reader.rotatedSum 32 [] v.upcase).toNat = checksum v.upcase 32 [] ∧
    v.clusterCount ≤ 8 * ((List.range v.bitmapLength).map v.bitmapByte).length then _ else none) = _
  rw [if_pos ⟨toNat_rotatedSum (by decide) _ _, hcovers⟩]
  rw [hunits, decodeTable_encodeTable hupper, hall]
  rfl

/-- The streams take the clusters from the first one on. -/
theorem flatten_all (h : Built upper contents v) :
    (List.range' Volume.bitmapCluster v.bitmapClusters ::
      List.range' v.upcaseCluster v.upcaseClusters ::
      List.range' v.rootCluster (ceilDiv v.rootSize CLUSTER) :: v.nodes.streams).flatten =
        List.range' 2 v.allocatedClusters := by
  have hnext := h.next
  have hroot : v.rootCluster = 2 + v.bitmapClusters + v.upcaseClusters := rfl
  have hused : v.allocatedClusters = v.next - 2 := rfl
  have hstart : 2 + (v.bitmapClusters + v.upcaseClusters) = v.rootCluster := by omega
  have hall : v.bitmapClusters + (v.upcaseClusters +
      (ceilDiv v.rootSize CLUSTER + contents.clusters)) = v.allocatedClusters := by omega
  have hnodes : v.nodes.streams.flatten =
      List.range' (v.rootCluster + ceilDiv v.rootSize CLUSTER) contents.clusters := by
    rw [h.nodes]
    exact flatten_streams _ _ _
  rw [List.flatten_cons, List.flatten_cons, List.flatten_cons, hnodes, List.range'_append_1]
  change List.range' 2 v.bitmapClusters ++ (List.range' (2 + v.bitmapClusters) v.upcaseClusters ++
    List.range' (2 + v.bitmapClusters + v.upcaseClusters) _) = _
  rw [List.range'_append_1, List.range'_append_1, hall]

end Built

/-- What the reader should find of a folder: the same names and contents, a bitmap for the
clusters of the streams, and streams that share no cluster and lie in the heap. -/
structure Reader.Found.Returns (r : Reader.Found) (found : Contents) : Prop where
  tree : r.tree = found.sorted.tree
  entries : (r.tree.entries []).Perm (found.tree.entries [])
  allocated : ∀ c, 2 ≤ c → (r.Allocated c ↔ c ∈ r.streams.flatten)
  disjoint : r.streams.flatten.Nodup
  inside : ∀ c ∈ r.streams.flatten, 2 ≤ c ∧ c < r.clusterCount + 2

/-- The disk that the device gives out in one read is read back as the folder it was made
from. Of the single characters only the last one has the last one as its upper case. -/
theorem read_volume {strUpper : Nat → List Nat}
    (hupper : ∀ c, c < 65536 → (strUpper c = [0xffff] ↔ c = 0xffff)) {found : Contents} {v : Volume}
    (hbuild : build (upcaseTable strUpper) found = some v) {host : Host}
    (hhost : Unchanged host v) :
    ∃ disk d, Device.read host v.size (Device.new v) = .ok disk d ∧
      ∃ r, Reader.read disk = some r ∧ r.Returns found := by
  have h := built_of_build hbuild
  have hvalid : (Device.new v).Valid := ⟨Nat.zero_le _, Nat.le_refl _⟩
  obtain ⟨handles, hread⟩ := @Device.read_run host (Device.new v) h.laid hhost hvalid v.size
  have hwhole : v.image.sub 0 (min v.size (v.size - 0)) = v.image := by
    rw [Nat.sub_zero, Nat.min_self]
    exact Bytes.sub_of_length v.length_image
  refine ⟨v.image, _, hread.trans (congrArg₂ _ hwhole rfl), _,
    h.read_image (cased_upcaseTable hupper), ?_⟩
  have hcount := h.clusterCount
  have hused : v.allocatedClusters = v.next - 2 := rfl
  constructor
  · rfl
  · exact Contents.entries_sorted [] found
  · intro c hlow
    rw [h.allocated_iff hlow, h.flatten_all, List.mem_range'_1]
    omega
  · rw [h.flatten_all]
    exact List.nodup_range'
  · intro c hc
    rw [h.flatten_all, List.mem_range'_1] at hc
    change 2 ≤ c ∧ c < v.clusterCount + 2
    omega

/-- Upper cases of the ASCII characters. -/
def asciiUpper (c : Nat) : List Nat := if 97 ≤ c ∧ c ≤ 122 then [c - 32] else [c]

/-- A folder with a file and an empty folder is read back. -/
theorem read_smallFolder : ∃ v disk d, build (upcaseTable asciiUpper) smallFolder = some v ∧
    Device.read Device.smallHost v.size (Device.new v) = .ok disk d ∧
      ∃ r, Reader.read disk = some r ∧ r.Returns smallFolder := by
  have hupper : ∀ c, c < 65536 → (asciiUpper c = [0xffff] ↔ c = 0xffff) := by
    intro c hc
    unfold asciiUpper
    split
    · rw [List.singleton_inj]
      omega
    · rw [List.singleton_inj]
  obtain ⟨v, hbuild⟩ := @build_of_scan _ smallFolder _
    (show smallFolder.sorted.scan (upcaseTable asciiUpper) 1 [] 1 = some 3 by decide +kernel)
    (by decide +kernel)
  obtain ⟨disk, d, hread, hfound⟩ := read_volume hupper hbuild (Device.unchanged_smallHost hbuild)
  exact ⟨v, disk, d, hbuild, hread, hfound⟩

end Ps2Servers.Exfat
