import Ps2Servers.DiscIdentity.Iso

/-!
# Inspecting a disc

Whatever an image holds, the inspector ends, has read no more than its budget, and has read
nothing but volume descriptors before the primary one and nothing outside the volume behind it.
What it verifies is there: one `SYSTEM.CNF`, one setting in it, one entry for every component of
the path, and an executable of that name.
-/

namespace Ps2Servers.DiscIdentity

open Effects

/-! ## What the reads keep -/

/-- A property that reads inside the volume and the count of the records do not touch. -/
structure Kept (inv : State → Prop) : Prop where
  read : ∀ s offset length, inv s → offset + length ≤ s.volumeBytes → length ≤ s.remaining →
    inv { s with
      remaining := s.remaining - length
      reads := s.reads ++ [Extent.mk offset length] }
  count : ∀ s records, inv s → inv { s with records := records }

section Kept

variable {img : Image} {size : Nat} {cancel : Nat → Bool} {inv : State → Prop}

theorem keeps_raise {α : Type} (inv : State → Prop) (r : Except Exn α) : Keeps inv (raise r) := by
  cases r with
  | ok a => exact Keeps.pure a
  | error e => exact Keeps.throw e

theorem keeps_refuse (inv : State → Prop) (p : Prop) [Decidable p] (e : Exn) :
    Keeps inv (refuse p e) := by
  unfold refuse
  split
  · exact Keeps.throw e
  · exact Keeps.pure ()

theorem refuse_bind {α : Type} (p : Prop) [Decidable p] (e : Exn) (f : Unit → Inspector α)
    (s : State) : (refuse p e >>= f) s = if p then .error e s else f () s := by
  unfold refuse
  split <;> rfl

theorem Kept.keeps_read (hinv : Kept inv) (offset length : Nat) :
    Keeps inv (DiscIdentity.read img cancel offset length) := by
  intro s hs
  unfold DiscIdentity.read
  rw [get_bind, refuse_bind]
  split
  · exact hs
  rw [refuse_bind]
  split
  · exact hs
  rename_i hvolume
  rw [refuse_bind]
  split
  · exact hs
  rename_i hbudget
  have hread := hinv.read s offset length hs (Nat.not_lt.mp hvolume) (Nat.not_lt.mp hbudget)
  rw [bind_ok (set_apply _ s), refuse_bind]
  split <;> exact hread

theorem keeps_take (inv : State → Prop) (name : Bytes) (isDirectory : Bool)
    (found : Option Extent) (record : Bytes) : Keeps inv (take name isDirectory found record) := by
  unfold DiscIdentity.take
  split
  · refine (keeps_refuse inv _ _).bind fun _ => ?_
    refine Keeps.get fun s _ => ?_
    exact (keeps_raise inv _).bind fun e => Keeps.pure _
  · exact Keeps.pure _

/-- By induction on what is left of the sector. -/
theorem Kept.keeps_scan (hinv : Kept inv) (name : Bytes) (isDirectory : Bool)
    (found : Option Extent) (data : Bytes) : Keeps inv (scan name isDirectory found data) := by
  induction h : data.length using Nat.strong_induction_on generalizing data found with
  | _ n ih =>
      subst h
      cases data with
      | nil =>
          rw [scan]
          exact Keeps.pure _
      | cons length data =>
          rw [scan]
          split
          · exact Keeps.pure _
          refine (Keeps.modify fun s hs => hinv.count s _ hs).bind fun _ => ?_
          refine Keeps.get fun s _ => ?_
          refine (keeps_refuse inv _ _).bind fun _ => ?_
          refine (keeps_refuse inv _ _).bind fun _ => ?_
          refine (keeps_refuse inv _ _).bind fun _ => ?_
          refine (keeps_take inv name isDirectory found _).bind fun found => ?_
          apply ih _ _ _ _ rfl
          rw [List.length_drop, List.length_cons]
          omega

theorem Kept.keeps_find (hinv : Kept inv) (directory : Extent) (name : Bytes)
    (isDirectory : Bool) : Keeps inv (find img cancel directory name isDirectory) := by
  unfold find
  generalize (none : Option Extent) = found
  induction sectorsOf directory.size generalizing found with
  | nil => exact Keeps.pure _
  | cons offset rest ih =>
      refine (hinv.keeps_read _ _).bind fun data => ?_
      exact (hinv.keeps_scan name isDirectory found data).bind fun found => ih found

theorem Kept.keeps_walk (hinv : Kept inv) (current : Extent) (pieces : List Bytes) :
    Keeps inv (walk img cancel current pieces) := by
  induction pieces generalizing current with
  | nil => exact Keeps.pure _
  | cons part rest ih =>
      refine (hinv.keeps_find current part _).bind fun next => ?_
      cases next with
      | none => exact Keeps.pure _
      | some next => exact ih next

theorem Kept.keeps_judge (hinv : Kept inv) (pieces : List Bytes) (target : Extent) :
    Keeps inv (judge img cancel pieces target) := by
  unfold judge
  dsimp only
  split
  · exact Keeps.pure _
  refine (hinv.keeps_read _ _).bind fun signature => ?_
  split
  · exact Keeps.pure _
  split
  · exact Keeps.pure _
  · exact Keeps.pure _

theorem Kept.keeps_inspectText (hinv : Kept inv) (root : Extent) (text : Bytes) :
    Keeps inv (inspectText img cancel root text) := by
  unfold inspectText
  split
  · split
    · exact Keeps.pure _
    · dsimp only
      split
      · exact Keeps.pure _
      · refine (hinv.keeps_walk root _).bind fun target => ?_
        cases target with
        | none => exact Keeps.pure _
        | some target => exact hinv.keeps_judge _ target
  · exact Keeps.pure _

theorem Kept.keeps_inspectRoot (hinv : Kept inv) (root : Extent) :
    Keeps inv (inspectRoot img cancel root) := by
  unfold inspectRoot
  refine (hinv.keeps_find root _ _).bind fun cnf => ?_
  cases cnf with
  | none => exact Keeps.pure _
  | some cnf =>
      refine (keeps_refuse inv _ _).bind fun _ => ?_
      refine (hinv.keeps_read _ _).bind fun text => ?_
      refine (keeps_refuse inv _ _).bind fun _ => ?_
      exact hinv.keeps_inspectText root text

end Kept

/-! ## The volume -/

section Volume

variable {img : Image} {size : Nat} {cancel : Nat → Bool}

/-- A sector that may hold a volume descriptor. -/
def Image.descriptor (img : Image) (sector : Nat) : Bytes := img.slice (sector * SECTOR) SECTOR

/-- The primary volume descriptor: behind others, and with the size of the volume. -/
structure Primary (img : Image) (size sector volume : Nat) : Prop where
  low : 16 ≤ sector
  high : sector < 48
  others : ∀ n, 16 ≤ n → n < sector → (img.descriptor n).sub 1 6 = lit "CD001\x01" ∧
    (img.descriptor n).field 0 1 ≠ 255 ∧ (img.descriptor n).field 0 1 ≠ 1
  magic : (img.descriptor sector).sub 1 6 = lit "CD001\x01"
  type : (img.descriptor sector).field 0 1 = 1
  block : both ((img.descriptor sector).sub 128 4) = .ok SECTOR
  declares : ∃ blocks, both ((img.descriptor sector).sub 80 8) = .ok blocks ∧
    volume = blocks * SECTOR
  least : 17 * SECTOR ≤ volume
  most : volume ≤ size

/-- An image has one primary descriptor at most. -/
theorem Primary.unique {sector volume sector' volume' : Nat} (h : Primary img size sector volume)
    (h' : Primary img size sector' volume') : sector = sector' ∧ volume = volume' := by
  have hsector : sector = sector' := by
    rcases Nat.lt_trichotomy sector sector' with hlt | heq | hgt
    · exact absurd h.type (h'.others sector h.low hlt).2.2
    · exact heq
    · exact absurd h'.type (h.others sector' h'.low hgt).2.2
  subst hsector
  obtain ⟨blocks, hblocks, rfl⟩ := h.declares
  obtain ⟨blocks', hblocks', rfl⟩ := h'.declares
  rw [hblocks] at hblocks'
  cases hblocks'
  exact ⟨rfl, rfl⟩

theorem read_ok {offset length : Nat} {s s' : State} {data : Bytes}
    (h : read img cancel offset length s = .ok data s') :
    data = img.slice offset length ∧ img.available offset length = length ∧
      offset + length ≤ s.volumeBytes ∧ s'.volumeBytes = s.volumeBytes ∧
      s'.reads = s.reads ++ [⟨offset, length⟩] := by
  unfold DiscIdentity.read at h
  rw [get_bind, refuse_bind] at h
  split at h
  · cases h
  rw [refuse_bind] at h
  split at h
  · cases h
  rename_i hvolume
  rw [refuse_bind] at h
  split at h
  · cases h
  rw [bind_ok (set_apply _ s), refuse_bind] at h
  split at h
  · cases h
  rename_i havailable
  cases h
  exact ⟨rfl, not_not.mp havailable, Nat.not_lt.mp hvolume, rfl, rfl⟩

/-- A read that fails has been made or not. -/
theorem read_error {offset length : Nat} {s s' : State} {e : Exn}
    (h : read img cancel offset length s = .error e s') :
    s'.volumeBytes = s.volumeBytes ∧ (s'.reads = s.reads ∨
      s'.reads = s.reads ++ [⟨offset, length⟩] ∧ offset + length ≤ s.volumeBytes) := by
  unfold DiscIdentity.read at h
  rw [get_bind, refuse_bind] at h
  split at h
  · cases h
    exact ⟨rfl, Or.inl rfl⟩
  rw [refuse_bind] at h
  split at h
  · cases h
    exact ⟨rfl, Or.inl rfl⟩
  rename_i hvolume
  rw [refuse_bind] at h
  split at h
  · cases h
    exact ⟨rfl, Or.inl rfl⟩
  rw [bind_ok (set_apply _ s), refuse_bind] at h
  split at h
  · cases h
    exact ⟨rfl, Or.inr ⟨rfl, Nat.not_lt.mp hvolume⟩⟩
  · cases h

/-- The volume descriptors of the image. -/
def IsDescriptor (size : Nat) (r : Extent) : Prop :=
  ∃ sector, 16 ≤ sector ∧ sector < 48 ∧ r = ⟨sector * SECTOR, SECTOR⟩ ∧
    r.offset + r.size ≤ size

theorem volumeOf_ok {descriptor : Bytes} {s s' : State} {volume : Nat}
    (h : volumeOf size descriptor s = .ok volume s') :
    s' = s ∧ both (descriptor.sub 128 4) = .ok SECTOR ∧
      (∃ blocks, both (descriptor.sub 80 8) = .ok blocks ∧ volume = blocks * SECTOR) ∧
      17 * SECTOR ≤ volume ∧ volume ≤ size := by
  unfold volumeOf at h
  cases hblock : both (descriptor.sub 128 4) with
  | error e =>
      rw [hblock] at h
      cases h
  | ok block =>
      rw [hblock] at h
      change (refuse (block ≠ SECTOR) _ >>= _) s = _ at h
      rw [refuse_bind] at h
      split at h
      · cases h
      rename_i hsector
      obtain rfl := not_not.mp hsector
      cases hblocks : both (descriptor.sub 80 8) with
      | error e =>
          rw [hblocks] at h
          cases h
      | ok blocks =>
          rw [hblocks] at h
          change (refuse _ _ >>= _) s = _ at h
          rw [refuse_bind] at h
          split at h
          · cases h
          rename_i hbounds
          cases h
          exact ⟨rfl, rfl, ⟨blocks, rfl, rfl⟩, not_not.mp hbounds⟩

theorem reads_volumeOf {descriptor : Bytes} {s s' : State} {e : Exn}
    (h : volumeOf size descriptor s = .error e s') : s'.reads = s.reads := by
  have hkeeps : Keeps (fun s' => s'.reads = s.reads) (volumeOf size descriptor) := by
    unfold volumeOf
    refine (keeps_raise _ _).bind fun block => ?_
    refine (keeps_refuse _ _ _).bind fun _ => ?_
    refine (keeps_raise _ _).bind fun blocks => ?_
    refine (keeps_refuse _ _ _).bind fun _ => ?_
    exact Keeps.pure _
  have hfinal := hkeeps s rfl
  rwa [h] at hfinal

/-- What the search for the root directory has come to. -/
structure Rooted (img : Image) (size : Nat) (r : EStateM.Result Exn State Extent) : Prop where
  reads : ∀ read ∈ (final r).reads, IsDescriptor size read
  volume : (∃ sector, Primary img size sector (final r).volumeBytes ∧
      ∀ root s, r = .ok root s →
        extent (final r).volumeBytes (rootRecord (img.descriptor sector)) true = .ok root) ∨
    ∃ e s, r = .error e s

/-- By induction on the sectors that are left. -/
theorem rooted_rootFrom {k n : Nat} {s : State} (hlow : 16 ≤ k) (hhigh : k + n = 48)
    (hvolume : s.volumeBytes = size) (hreads : ∀ r ∈ s.reads, IsDescriptor size r)
    (hothers : ∀ m, 16 ≤ m → m < k → (img.descriptor m).sub 1 6 = lit "CD001\x01" ∧
      (img.descriptor m).field 0 1 ≠ 255 ∧ (img.descriptor m).field 0 1 ≠ 1) :
    Rooted img size (rootFrom img size cancel (List.range' k n) s) := by
  induction n generalizing k s with
  | zero => exact ⟨hreads, Or.inr ⟨_, _, rfl⟩⟩
  | succ n ih =>
      rw [List.range'_succ]
      unfold rootFrom
      cases hread : read img cancel (k * SECTOR) SECTOR s with
      | error e s' =>
          rw [bind_error hread]
          refine ⟨?_, Or.inr ⟨e, s', rfl⟩⟩
          intro r hr
          obtain ⟨-, hsame | ⟨hmore, hinside⟩⟩ := read_error hread
          · exact hreads r (hsame ▸ hr)
          · change r ∈ s'.reads at hr
            rw [hmore, List.mem_append, List.mem_singleton] at hr
            rcases hr with hr | rfl
            · exact hreads r hr
            · exact ⟨k, hlow, by omega, rfl, hvolume ▸ hinside⟩
      | ok descriptor s' =>
          obtain ⟨rfl, -, hinside, hkept, hmore⟩ := read_ok hread
          have hreads' : ∀ r ∈ s'.reads, IsDescriptor size r := by
            intro r hr
            rw [hmore, List.mem_append, List.mem_singleton] at hr
            rcases hr with hr | rfl
            · exact hreads r hr
            · exact ⟨k, hlow, by omega, rfl, hvolume ▸ hinside⟩
          rw [bind_ok hread, refuse_bind]
          split
          · exact ⟨hreads', Or.inr ⟨_, _, rfl⟩⟩
          rename_i hmagic
          rw [refuse_bind]
          split
          · exact ⟨hreads', Or.inr ⟨_, _, rfl⟩⟩
          rename_i hend
          split
          · rename_i hother
            apply ih (by omega) (by omega) (hkept.trans hvolume) hreads'
            intro m hm hmk
            rcases Nat.lt_succ_iff_lt_or_eq.mp hmk with hlt | rfl
            · exact hothers m hm hlt
            · exact ⟨not_not.mp hmagic, hend, hother⟩
          · rename_i htype
            cases hsize : volumeOf size (img.slice (k * SECTOR) SECTOR) s' with
            | error e s'' =>
                rw [bind_error hsize]
                have hsame : s''.reads = s'.reads := reads_volumeOf hsize
                exact ⟨fun r hr => hreads' r (hsame ▸ hr), Or.inr ⟨e, s'', rfl⟩⟩
            | ok volume s'' =>
                obtain ⟨rfl, hblock, hdeclares, hleast, hmost⟩ := volumeOf_ok hsize
                rw [bind_ok hsize, bind_ok (modify_apply _ s'')]
                have hprimary : Primary img size k volume :=
                  ⟨hlow, by omega, hothers, not_not.mp hmagic, not_not.mp htype, hblock,
                    hdeclares, hleast, hmost⟩
                cases hextent : extent volume (rootRecord (img.slice (k * SECTOR) SECTOR)) true with
                | error e => exact ⟨hreads', Or.inr ⟨_, _, rfl⟩⟩
                | ok root =>
                    refine ⟨hreads', Or.inl ⟨k, hprimary, ?_⟩⟩
                    intro root' s' heq
                    cases heq
                    exact hextent

/-- The reads of an inspection. -/
structure Bounded (img : Image) (size : Nat) (reads : List Extent) : Prop where
  budget : (reads.map Extent.size).sum ≤ MAX_READ_BYTES
  placed : ∃ front rest, reads = front ++ rest ∧ (∀ r ∈ front, IsDescriptor size r) ∧
    ∀ r ∈ rest, ∃ sector volume, Primary img size sector volume ∧ r.offset + r.size ≤ volume

/-- The budget and what has been read of it. -/
def Spent (s : State) : Prop := s.remaining + (s.reads.map Extent.size).sum = MAX_READ_BYTES

theorem kept_spent : Kept Spent where
  read s offset length hs _ hbudget := by
    have hsum : ((s.reads ++ [Extent.mk offset length]).map Extent.size).sum =
        (s.reads.map Extent.size).sum + length := by simp
    unfold Spent at hs ⊢
    dsimp only
    rw [hsum]
    omega
  count s records hs := hs

theorem keeps_spent_root : Keeps Spent (root img size cancel) := by
  unfold root
  induction List.range' 16 32 with
  | nil => exact Keeps.throw _
  | cons sector rest ih =>
      refine (kept_spent.keeps_read _ _).bind fun descriptor => ?_
      refine (keeps_refuse _ _ _).bind fun _ => ?_
      refine (keeps_refuse _ _ _).bind fun _ => ?_
      split
      · exact ih
      · have hvolume : Keeps Spent (volumeOf size descriptor) := by
          unfold volumeOf
          refine (keeps_raise _ _).bind fun block => ?_
          refine (keeps_refuse _ _ _).bind fun _ => ?_
          refine (keeps_raise _ _).bind fun blocks => ?_
          refine (keeps_refuse _ _ _).bind fun _ => ?_
          exact Keeps.pure _
        refine hvolume.bind fun volume => ?_
        have hdeclare : Keeps Spent
            (modify fun s => { s with volumeBytes := volume } : Inspector Unit) := fun s hs => hs
        exact hdeclare.bind fun _ => keeps_raise _ _

/-- All that is read from a state on lies in the volume. -/
def Inside (volume : Nat) (front : List Extent) (s : State) : Prop :=
  s.volumeBytes = volume ∧ ∃ rest, s.reads = front ++ rest ∧
    ∀ r ∈ rest, r.offset + r.size ≤ volume

theorem kept_inside (volume : Nat) (front : List Extent) : Kept (Inside volume front) where
  read s offset length hs hinside _ := by
    obtain ⟨hvolume, rest, hreads, hrest⟩ := hs
    refine ⟨hvolume, rest ++ [⟨offset, length⟩], ?_, ?_⟩
    · dsimp only
      rw [hreads, List.append_assoc]
    · intro r hr
      rcases List.mem_append.mp hr with hr | hr
      · exact hrest r hr
      · rw [List.mem_singleton.mp hr]
        exact hvolume ▸ hinside
  count s records hs := hs

theorem rooted_root (img : Image) (size : Nat) (cancel : Nat → Bool) :
    Rooted img size (root img size cancel (.new size)) := by
  have hvolume : (State.new size).volumeBytes = size := rfl
  have hreads : ∀ r ∈ (State.new size).reads, IsDescriptor size r := by
    intro r hr
    cases hr
  unfold root
  refine rooted_rootFrom le_rfl (by decide) hvolume hreads ?_
  intro m hm hlt
  omega

theorem bounded_inspect (img : Image) (size : Nat) (cancel : Nat → Bool) :
    Bounded img size (final (inspect img size cancel (.new size))).reads := by
  constructor
  · have hspent : Keeps Spent (inspect img size cancel) :=
      keeps_spent_root.bind fun root => kept_spent.keeps_inspectRoot root
    have hstart : Spent (.new size) := Nat.add_zero _
    have hfinal := hspent _ hstart
    unfold Spent at hfinal
    omega
  · have hrooted := rooted_root img size cancel
    unfold inspect
    cases hroot : root img size cancel (.new size) with
    | error e s =>
        rw [bind_error hroot]
        rw [hroot] at hrooted
        exact ⟨s.reads, [], (List.append_nil _).symm, hrooted.reads, by simp⟩
    | ok root s =>
        rw [bind_ok hroot]
        rw [hroot] at hrooted
        have hinside : Inside s.volumeBytes s.reads s :=
          ⟨rfl, [], (List.append_nil _).symm, by simp⟩
        have hkeeps : Keeps (Inside s.volumeBytes s.reads) (inspectRoot img cancel root) :=
          (kept_inside s.volumeBytes s.reads).keeps_inspectRoot root
        obtain ⟨-, rest, hreads, hrest⟩ := hkeeps s hinside
        rcases hrooted.volume with ⟨sector, hprimary, -⟩ | ⟨e, s', herror⟩
        · exact ⟨s.reads, rest, hreads, hrooted.reads,
            fun r hr => ⟨sector, _, hprimary, hrest r hr⟩⟩
        · cases herror

end Volume

/-! ## What is found -/

section Found

variable {img : Image} {cancel : Nat → Bool} {name : Bytes} {isDirectory : Bool}

/-- The records of a sector, up to a length of zero. -/
def recordsOf : Bytes → List Bytes
  | [] => []
  | length :: data =>
      if length = 0 ∨ length.toNat < 34 ∨ data.length + 1 < length.toNat then []
      else (length :: data).take length.toNat :: recordsOf (data.drop (length.toNat - 1))
termination_by data => data.length
decreasing_by
  rw [List.length_drop, List.length_cons]
  omega

/-- The records of a directory. -/
def Image.entries (img : Image) (directory : Extent) : List Bytes :=
  (sectorsOf directory.size).flatMap fun offset =>
    recordsOf (img.slice (directory.offset + offset) (min SECTOR (directory.size - offset)))

/-- The one entry of that name among records. -/
def OneOf (volume : Nat) (records : List Bytes) (name : Bytes) (isDirectory : Bool)
    (e : Extent) : Prop :=
  ∃ record, records.filter (matches_ name) = [record] ∧ extent volume record isDirectory = .ok e

/-- What some records add to what was found before them. -/
def Adds (volume : Nat) (name : Bytes) (isDirectory : Bool) (records : List Bytes)
    (found : Option Extent) : Option Extent → Prop
  | none => found = none ∧ records.filter (matches_ name) = []
  | some e => found = some e ∧ records.filter (matches_ name) = [] ∨
      found = none ∧ OneOf volume records name isDirectory e

theorem Adds.append {volume : Nat} {front rest : List Bytes} {a b c : Option Extent}
    (hfront : Adds volume name isDirectory front a b)
    (hrest : Adds volume name isDirectory rest b c) :
    Adds volume name isDirectory (front ++ rest) a c := by
  cases c with
  | none =>
      obtain ⟨rfl, hnone⟩ := hrest
      exact ⟨hfront.1, by rw [List.filter_append, hfront.2, hnone, List.append_nil]⟩
  | some e =>
      rcases hrest with ⟨rfl, hnone⟩ | ⟨rfl, record, hone, hextent⟩
      · rcases hfront with ⟨rfl, hfnone⟩ | ⟨rfl, record, hone, hextent⟩
        · exact Or.inl ⟨rfl, by rw [List.filter_append, hfnone, hnone, List.append_nil]⟩
        · refine Or.inr ⟨rfl, record, ?_, hextent⟩
          rw [List.filter_append, hone, hnone, List.append_nil]
      · obtain ⟨rfl, hfnone⟩ := hfront
        refine Or.inr ⟨rfl, record, ?_, hextent⟩
        rw [List.filter_append, hfnone, hone, List.nil_append]

theorem take_ok {found found' : Option Extent} {record : Bytes} {s s' : State}
    (h : take name isDirectory found record s = .ok found' s') :
    s' = s ∧ Adds s.volumeBytes name isDirectory [record] found found' := by
  unfold DiscIdentity.take at h
  split at h
  · rename_i hmatch
    rw [refuse_bind] at h
    split at h
    · cases h
    rename_i hnew
    have hfound : found = none := by simpa using hnew
    rw [get_bind] at h
    cases hextent : extent s.volumeBytes record isDirectory with
    | error e =>
        rw [hextent] at h
        cases h
    | ok e =>
        rw [hextent] at h
        cases h
        exact ⟨rfl, Or.inr ⟨hfound, record, by simp [hmatch], hextent⟩⟩
  · rename_i hmatch
    cases h
    refine ⟨rfl, ?_⟩
    have hnone : [record].filter (matches_ name) = [] := by simpa using hmatch
    cases found with
    | none => exact ⟨rfl, hnone⟩
    | some e => exact Or.inl ⟨rfl, hnone⟩

theorem Adds.refl (volume : Nat) (name : Bytes) (isDirectory : Bool) (found : Option Extent) :
    Adds volume name isDirectory [] found found := by
  cases found with
  | none => exact ⟨rfl, rfl⟩
  | some e => exact Or.inl ⟨rfl, rfl⟩

/-- By induction on what is left of the sector. -/
theorem scan_ok {found found' : Option Extent} {data : Bytes} {s s' : State}
    (h : scan name isDirectory found data s = .ok found' s') :
    s'.volumeBytes = s.volumeBytes ∧
      Adds s.volumeBytes name isDirectory (recordsOf data) found found' := by
  induction hlength : data.length using Nat.strong_induction_on generalizing data found s with
  | _ n ih =>
      subst hlength
      cases data with
      | nil =>
          rw [scan] at h
          rw [recordsOf]
          cases h
          exact ⟨rfl, Adds.refl _ _ _ _⟩
      | cons length data =>
          rw [scan] at h
          rw [recordsOf]
          split at h
          · rename_i hzero
            cases h
            rw [if_pos (Or.inl hzero)]
            exact ⟨rfl, Adds.refl _ _ _ _⟩
          rename_i hzero
          rw [bind_ok (modify_apply _ s), get_bind, refuse_bind] at h
          split at h
          · cases h
          rw [refuse_bind] at h
          split at h
          · cases h
          rename_i hlong
          rw [if_neg (not_or.mpr ⟨hzero, hlong⟩)]
          rw [refuse_bind] at h
          split at h
          · cases h
          cases htake : take name isDirectory found ((length :: data).take length.toNat)
              { s with records := s.records + 1 } with
          | error e s'' =>
              rw [bind_error htake] at h
              cases h
          | ok next s'' =>
              rw [bind_ok htake] at h
              obtain ⟨rfl, hadds⟩ := take_ok htake
              have hless : (data.drop (length.toNat - 1)).length < (length :: data).length := by
                rw [List.length_drop, List.length_cons]
                omega
              obtain ⟨hvolume, hrest⟩ := ih _ hless h rfl
              exact ⟨hvolume, hadds.append hrest⟩

/-- By induction on the sectors that are left. -/
theorem findFrom_ok {directory : Extent} {offsets : List Nat} {found found' : Option Extent}
    {s s' : State}
    (h : findFrom img cancel directory name isDirectory found offsets s = .ok found' s') :
    s'.volumeBytes = s.volumeBytes ∧ Adds s.volumeBytes name isDirectory
      (offsets.flatMap fun offset => recordsOf
        (img.slice (directory.offset + offset) (min SECTOR (directory.size - offset))))
      found found' := by
  induction offsets generalizing found s with
  | nil =>
      cases h
      exact ⟨rfl, Adds.refl _ _ _ _⟩
  | cons offset rest ih =>
      unfold findFrom at h
      obtain ⟨data, s₁, hread, htail⟩ := bind_ok_iff.mp h
      obtain ⟨next, s₂, hscan, hloop⟩ := bind_ok_iff.mp htail
      obtain ⟨rfl, -, -, hvolume₁, -⟩ := read_ok hread
      obtain ⟨hvolume₂, hadds⟩ := scan_ok hscan
      obtain ⟨hvolume, hrest⟩ := ih hloop
      rw [hvolume₂, hvolume₁] at hvolume hrest
      rw [hvolume₁] at hadds
      exact ⟨hvolume, hadds.append hrest⟩

theorem find_ok {directory e : Extent} {s s' : State}
    (h : find img cancel directory name isDirectory s = .ok (some e) s') :
    s'.volumeBytes = s.volumeBytes ∧
      OneOf s.volumeBytes (img.entries directory) name isDirectory e := by
  obtain ⟨hvolume, hadds⟩ := findFrom_ok h
  exact ⟨hvolume, (hadds.resolve_left fun h => by cases h.1).2⟩

/-- A path that leads from a directory to a file: one entry of the right type for every
component. -/
inductive Leads (img : Image) (volume : Nat) : Extent → List Bytes → Extent → Prop
  | file {directory target : Extent} {name : Bytes}
      (h : OneOf volume (img.entries directory) name false target) :
      Leads img volume directory [name] target
  | folder {directory next target : Extent} {name part : Bytes} {rest : List Bytes}
      (h : OneOf volume (img.entries directory) name true next)
      (hrest : Leads img volume next (part :: rest) target) :
      Leads img volume directory (name :: part :: rest) target

theorem walk_ok {pieces : List Bytes} (hne : pieces ≠ []) {current target : Extent} {s s' : State}
    (h : walk img cancel current pieces s = .ok (some target) s') :
    s'.volumeBytes = s.volumeBytes ∧ Leads img s.volumeBytes current pieces target := by
  induction pieces generalizing current s with
  | nil => exact absurd rfl hne
  | cons part rest ih =>
      unfold walk at h
      obtain ⟨next, s₁, hfind, hrest⟩ := bind_ok_iff.mp h
      cases next with
      | none => cases hrest
      | some next =>
          obtain ⟨hvolume, hone⟩ := find_ok hfind
          cases rest with
          | nil =>
              cases hrest
              exact ⟨hvolume, .file hone⟩
          | cons part' rest =>
              obtain ⟨hvolume', hleads⟩ := ih (List.cons_ne_nil _ _) hrest
              rw [hvolume] at hvolume' hleads
              exact ⟨hvolume', .folder hone hleads⟩

end Found

/-! ## The setting -/

/-- The value of a setting names a path: a device, slashes, the path, and its first version. -/
def Names (setting : Bytes) (pieces : List Bytes) : Prop :=
  ∃ device slashes target version : Bytes,
    strip setting = device ++ slashes ++ target ++ version ∧ device.map upper = lit "CDROM0:" ∧
      (∀ b ∈ slashes, isSlash b) ∧ target ≠ [] ∧ (∀ b ∈ target, b ≠ 0x3b ∧ isSpace b = false) ∧
      (version = [] ∨ version = lit ";1") ∧ pieces = piecesOf target

theorem names_of_bootTarget {setting target : Bytes}
    (h : bootTarget (strip setting) = some target) : Names setting (piecesOf target) := by
  unfold bootTarget at h
  split at h
  · cases h
  rename_i hdevice
  dsimp only at h
  generalize hstrip : strip setting = text at h hdevice
  have hparts : text.take 7 ++ ((text.drop 7).takeWhile isSlash ++
      (text.drop 7).dropWhile isSlash) = text := by
    rw [List.takeWhile_append_dropWhile, List.take_append_drop]
  have hslash : ∀ b ∈ (text.drop 7).takeWhile isSlash, isSlash b :=
    fun b hb => List.mem_takeWhile_imp hb
  generalize (text.drop 7).takeWhile isSlash = slashes at h hparts hslash
  generalize (text.drop 7).dropWhile isSlash = body at h hparts
  have hbody : body.takeWhile (fun b => b ≠ 0x3b && !isSpace b) ++
      body.drop (body.takeWhile fun b => b ≠ 0x3b && !isSpace b).length = body :=
    List.prefix_iff_eq_append.mp (List.takeWhile_prefix _)
  have hpath : ∀ b ∈ body.takeWhile (fun b => b ≠ 0x3b && !isSpace b),
      b ≠ 0x3b ∧ isSpace b = false := by
    intro b hb
    have hmem := List.mem_takeWhile_imp hb
    simpa using hmem
  generalize body.takeWhile (fun b => b ≠ 0x3b && !isSpace b) = path at h hbody hpath
  split at h
  · cases h
  rename_i hversion
  have hone : body.drop path.length = [] ∨ body.drop path.length = lit ";1" := by
    by_contra hnone
    exact hversion (not_or.mp hnone)
  have hdevice := not_not.mp hdevice
  split at h
  · rename_i hne
    cases h
    refine ⟨text.take 7, slashes, target, body.drop target.length, ?_, hdevice, hslash, hne,
      hpath, hone, rfl⟩
    rw [hstrip, List.append_assoc, List.append_assoc, hbody, hparts]
  · rename_i hempty
    obtain rfl := not_not.mp hempty
    obtain ⟨b, hlast, rfl⟩ := Option.map_eq_some_iff.mp h
    obtain ⟨front, rfl⟩ := List.getLast?_eq_some_iff.mp hlast
    have hb := hslash b (by simp)
    refine ⟨text.take 7, front, [b], body.drop 0, ?_, hdevice,
      fun b hb => hslash b (List.mem_append_left _ hb), List.cons_ne_nil _ _, ?_, hone, rfl⟩
    · rw [hstrip, List.drop_zero, List.append_assoc, List.append_assoc,
        ← List.append_assoc front, hparts]
    · intro b' hb'
      rw [List.mem_singleton.mp hb']
      have hcases : b = 0x5c ∨ b = 0x2f := by simpa [isSlash] using hb
      rcases hcases with rfl | rfl <;> decide

/-! ## What is verified -/

/-- What the inspector verifies of an image. -/
structure Verified (img : Image) (size : Nat) (serial path : Bytes) : Prop where
  there : ∃ sector volume root cnf setting pieces last target,
    Primary img size sector volume ∧
    extent volume (rootRecord (img.descriptor sector)) true = .ok root ∧
    OneOf volume (img.entries root) (lit "SYSTEM.CNF") false cnf ∧
    (∀ b ∈ img.slice cnf.offset cnf.size, b < 0x80) ∧
    settings (img.slice cnf.offset cnf.size) = [setting] ∧
    Names setting pieces ∧ path = joinPieces pieces ∧
    Leads img volume root pieces target ∧
    pieces.getLast? = some last ∧ serial = last.map upper ∧ isSerial last ∧
    4 ≤ target.size ∧ target.offset + target.size ≤ volume ∧
    img.slice target.offset 4 = 0x7f :: lit "ELF"

section Verdict

variable {img : Image} {cancel : Nat → Bool}

theorem extent_le {volume : Nat} {record : Bytes} {directory : Bool} {e : Extent}
    (h : extent volume record directory = .ok e) : e.offset + e.size ≤ volume := by
  unfold extent at h
  split at h
  · cases h
  split at h
  · cases h
  split at h
  · cases h
  obtain ⟨lba, -, h⟩ := bind_eq_ok.mp h
  obtain ⟨size, -, h⟩ := bind_eq_ok.mp h
  split at h
  · cases h
  rename_i hinside
  split at h
  · cases h
  cases h
  simp only [not_or] at hinside
  exact Nat.not_lt.mp hinside.2.2

theorem Leads.extent_le {volume : Nat} {directory target : Extent} {pieces : List Bytes}
    (h : Leads img volume directory pieces target) : target.offset + target.size ≤ volume := by
  induction h with
  | file h =>
      obtain ⟨_, -, hextent⟩ := h
      exact DiscIdentity.extent_le hextent
  | folder _ _ ih => exact ih

theorem judge_verified {pieces : List Bytes} {target : Extent} {s s' : State} {id : Identity}
    (h : judge img cancel pieces target s = .ok id s') (hid : id.status = .verified) :
    4 ≤ target.size ∧ img.slice target.offset 4 = 0x7f :: lit "ELF" ∧
      isSerial (pieces.getLast?.getD []) ∧ id.discId = (pieces.getLast?.getD []).map upper ∧
      id.bootPath = joinPieces pieces := by
  unfold judge at h
  split at h
  · cases h
    cases hid
  rename_i hsize
  obtain ⟨signature, s₁, hread, h⟩ := bind_ok_iff.mp h
  obtain ⟨rfl, -⟩ := read_ok hread
  split at h
  · cases h
    cases hid
  rename_i hsignature
  split at h
  · cases h
    cases hid
  rename_i hserial
  cases h
  exact ⟨Nat.not_lt.mp hsize, not_not.mp hsignature, by simpa using hserial, rfl, rfl⟩

theorem inspectText_verified {root : Extent} {text : Bytes} {s s' : State} {id : Identity}
    (h : inspectText img cancel root text s = .ok id s') (hid : id.status = .verified) :
    ∃ setting pieces last target, settings text = [setting] ∧ Names setting pieces ∧
      id.bootPath = joinPieces pieces ∧ Leads img s.volumeBytes root pieces target ∧
      pieces.getLast? = some last ∧ id.discId = last.map upper ∧ isSerial last ∧
      4 ≤ target.size ∧ img.slice target.offset 4 = 0x7f :: lit "ELF" := by
  unfold inspectText at h
  cases hsettings : settings text with
  | nil =>
      rw [hsettings] at h
      cases h
      cases hid
  | cons setting others =>
      cases others with
      | cons other others =>
          rw [hsettings] at h
          cases h
          cases hid
      | nil =>
          rw [hsettings] at h
          dsimp only at h
          cases htarget : bootTarget (strip setting) with
          | none =>
              rw [htarget] at h
              cases h
              cases hid
          | some target =>
              rw [htarget] at h
              dsimp only at h
              split at h
              · cases h
                cases hid
              obtain ⟨found, s₁, hwalk, h⟩ := bind_ok_iff.mp h
              cases found with
              | none =>
                  cases h
                  cases hid
              | some found =>
                  have hne : piecesOf target ≠ [] := List.splitOn_ne_nil _ _
                  obtain ⟨-, hleads⟩ := walk_ok hne hwalk
                  obtain ⟨hsize, helf, hserial, hdisc, hpath⟩ := judge_verified h hid
                  obtain ⟨last, hlast⟩ : ∃ last, (piecesOf target).getLast? = some last :=
                    Option.isSome_iff_exists.mp (by simpa using hne)
                  rw [hlast, Option.getD_some] at hserial hdisc
                  exact ⟨setting, _, last, found, rfl, names_of_bootTarget htarget, hpath,
                    hleads, hlast, hdisc, hserial, hsize, helf⟩

theorem inspectRoot_verified {size sector : Nat} {root : Extent} {s s' : State} {id : Identity}
    (hprimary : Primary img size sector s.volumeBytes)
    (hroot : extent s.volumeBytes (rootRecord (img.descriptor sector)) true = .ok root)
    (h : inspectRoot img cancel root s = .ok id s') (hid : id.status = .verified) :
    Verified img size id.discId id.bootPath := by
  unfold inspectRoot at h
  obtain ⟨found, s₁, hfind, h⟩ := bind_ok_iff.mp h
  cases found with
  | none =>
      cases h
      cases hid
  | some cnf =>
      obtain ⟨hvolume, hcnf⟩ := find_ok hfind
      dsimp only at h
      rw [refuse_bind] at h
      split at h
      · cases h
      obtain ⟨text, s₂, hread, hrest⟩ := bind_ok_iff.mp h
      obtain ⟨rfl, -, -, hvolume₂, -⟩ := read_ok hread
      rw [refuse_bind] at hrest
      split at hrest
      · cases hrest
      rename_i hascii
      obtain ⟨setting, pieces, last, target, hsettings, hnames, hpath, hleads, hlast, hdisc,
        hserial, hsize, helf⟩ := inspectText_verified hrest hid
      rw [hvolume₂, hvolume] at hleads
      refine ⟨sector, _, root, cnf, setting, pieces, last, target, hprimary, hroot, hcnf, ?_,
        hsettings, hnames, hpath, hleads, hlast, hdisc, hserial, hsize, hleads.extent_le, helf⟩
      simpa using hascii

end Verdict

/-- Whatever the image holds and whatever size it claims: an inspection ends, within its budget
and its bounds, and what it verifies is there. -/
theorem inspect_sound (img : Image) (size : Nat) (cancel : Nat → Bool) :
    Bounded img size (final (inspect img size cancel (.new size))).reads ∧
      ∀ serial path detail s,
        inspect img size cancel (.new size) = .ok ⟨.verified, serial, path, detail⟩ s →
          Verified img size serial path := by
  refine ⟨bounded_inspect img size cancel, ?_⟩
  intro serial path detail s h
  obtain ⟨root, s₁, hroot, h⟩ := bind_ok_iff.mp h
  have hrooted := rooted_root img size cancel
  rw [hroot] at hrooted
  rcases hrooted.volume with ⟨sector, hprimary, hextent⟩ | ⟨e, s', herror⟩
  · exact inspectRoot_verified hprimary (hextent root s₁ rfl) h rfl
  · cases herror

/-! ## One disc -/

def isoRecord (flags lba size : Nat) (name : Bytes) : Bytes :=
  [UInt8.ofNat (33 + name.length), 0] ++ Bytes.ofNat 4 lba ++ Bytes.ofNatBE 4 lba ++
    Bytes.ofNat 4 size ++ Bytes.ofNatBE 4 size ++ List.replicate 7 0 ++ [UInt8.ofNat flags] ++
    List.replicate 6 0 ++ [UInt8.ofNat name.length] ++ name

def cnfText : Bytes := lit "BOOT2 = cdrom0:\\SLUS_200.02;1\x0d\x0a"

/-- A boot record stands before the primary descriptor, whose volume ends where it begins. -/
def discSector : Nat → Bytes
  | 2 => isoRecord 0 3 cnfText.length (lit "SYSTEM.CNF;1") ++
      isoRecord 0 4 4 (lit "SLUS_200.02;1")
  | 3 => cnfText
  | 4 => 0x7f :: lit "ELF"
  | 16 => 0 :: lit "CD001\x01"
  | 17 => 1 :: lit "CD001\x01" ++ List.replicate 73 0 ++ Bytes.ofNat 4 17 ++ Bytes.ofNatBE 4 17 ++
      List.replicate 40 0 ++ Bytes.ofNat 2 2048 ++ Bytes.ofNatBE 2 2048 ++ List.replicate 24 0 ++
      isoRecord 2 2 2048 [0]
  | _ => []

def disc : Image where
  byte i := (discSector (i / SECTOR)).getD (i % SECTOR) 0
  length := 18 * SECTOR

/-- What inspecting it comes to. -/
def discResult : EStateM.Result Exn State Identity :=
  inspect disc (18 * SECTOR) (fun _ => false) (.new (18 * SECTOR))

theorem discResult_verified : ∃ detail s, discResult =
    .ok ⟨.verified, lit "SLUS_200.02", lit "SLUS_200.02", detail⟩ s := by
  have hrun : (match discResult with
      | .ok id s => decide (id = ⟨.verified, lit "SLUS_200.02", lit "SLUS_200.02",
          "SYSTEM.CNF BOOT2 serial and referenced ELF signature inspected."⟩)
      | .error _ _ => false) = true := by
    decide +kernel
  cases hresult : discResult with
  | ok id s =>
      rw [hresult] at hrun
      exact ⟨_, s, by rw [of_decide_eq_true hrun]⟩
  | error e s =>
      rw [hresult] at hrun
      cases hrun

theorem verified_disc :
    Verified disc (18 * SECTOR) (lit "SLUS_200.02") (lit "SLUS_200.02") := by
  obtain ⟨detail, s, hresult⟩ := discResult_verified
  exact (inspect_sound disc (18 * SECTOR) fun _ => false).2 _ _ detail s hresult

theorem primary_disc : Primary disc (18 * SECTOR) 17 (17 * SECTOR) where
  low := by decide
  high := by decide
  others := by
    intro n hlow hhigh
    obtain rfl : n = 16 := by omega
    decide +kernel
  magic := by decide +kernel
  type := by decide +kernel
  block := by decide +kernel
  declares := ⟨17, by decide +kernel, rfl⟩
  least := le_rfl
  most := by decide

/-- The primary descriptor itself lies outside the volume that it declares. -/
theorem descriptor_outside : ¬ ∀ sector volume, Primary disc (18 * SECTOR) sector volume →
    ∀ r ∈ (final discResult).reads, r.offset + r.size ≤ volume := by
  intro hall
  have hread : (final discResult).reads.contains ⟨17 * SECTOR, SECTOR⟩ = true := by
    decide +kernel
  have hinside := hall 17 (17 * SECTOR) primary_disc ⟨17 * SECTOR, SECTOR⟩
    (List.contains_iff_mem.mp hread)
  revert hinside
  decide

end Ps2Servers.DiscIdentity
