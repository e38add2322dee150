import Ps2Servers.Lib.Tables
import Ps2Servers.CueBin.Cue
import Mathlib.Data.List.Sort

/-!
# Virtual CUE and BIN files of a directory

`ListVirtualCD` advertises the views of the CHDs of a directory, and `FindVirtualCD` looks one up by
its name. A real name takes a virtual one away in both, but the listing compares without letter case
everywhere, the lookup only on Windows.
-/

namespace Ps2Servers.CueBin

open Tables (mem_of_lookup lookup_isSome)

def lowerAscii (b : UInt8) : UInt8 := if 0x41 ≤ b ∧ b ≤ 0x5a then b + 0x20 else b

def chdExt : Bytes := [0x2e, 0x63, 0x68, 0x64]

/-- `strings.EqualFold` with `.chd`, whose letters have no other forms than the two of ASCII. -/
def equalFoldChd (ext : Bytes) : Bool := ext.map lowerAscii = chdExt

/-- A build, its platform, and the Unicode tables of its library. -/
structure Build where
  chdAvailable : Bool
  windows : Bool
  /-- `strings.ToLower`. -/
  toLower : Bytes → Bytes
  toLower_ascii (s : Bytes) (h : ∀ b ∈ s, b < 0x80) : toLower s = s.map lowerAscii
  toLower_chd (s : Bytes) (h : toLower s = chdExt) : s.map lowerAscii = chdExt
  printable : CodePoint → Bool

/-- The names of a directory, and the layouts of the CHDs among them that are regular files with a
readable track table. -/
structure Directory where
  entries : List Bytes
  layoutOf : Bytes → Option Layout

section

variable (build : Build)

def stemKey (stem : Bytes) : Bytes := if build.windows then build.toLower stem else stem

/-- The first CHD of each key, and the keys of more than one. -/
structure Sources where
  sources : List (Bytes × Bytes)
  ambiguous : List Bytes
  deriving DecidableEq, Repr

/-- A round of the loop of `ListVirtualCD` over the directory. -/
def addSource (acc : Sources) (name : Bytes) : Sources :=
  if build.toLower (ext name) ≠ chdExt then acc
  else
    let key := stemKey build (stem name)
    match acc.sources.lookup key with
    | some _ => { acc with ambiguous := key :: acc.ambiguous }
    | none => { acc with sources := acc.sources ++ [(key, name)] }

/-- A round of its loop over the keys. -/
def listKey (dir : Directory) (realNames : List Bytes) (found : Sources) (key : Bytes) :
    List VirtualCDFile :=
  match found.sources.lookup key with
  | none => []
  | some source =>
      if found.ambiguous.contains key then []
      else if !safeCueName (stem source ++ Kind.bin.ext) then []
      else if realNames.contains (build.toLower (stem source ++ Kind.cue.ext)) then []
      else if realNames.contains (build.toLower (stem source ++ Kind.bin.ext)) then []
      else
        match dir.layoutOf source with
        | none => []
        | some layout =>
            match makeVirtualCDPair build.printable source layout with
            | none => []
            | some (cue, bin) => [cue, bin]

/-- `ListVirtualCD`, with the names that the caller lists. -/
def listVirtualCD (dir : Directory) (names : List Bytes) : List VirtualCDFile :=
  if !build.chdAvailable then []
  else
    let realNames := (dir.entries ++ names).map build.toLower
    let found := dir.entries.foldl (addSource build) ⟨[], []⟩
    let keys := (found.sources.map Prod.fst).mergeSort fun a b => decide (a ≤ b)
    keys.flatMap (listKey build dir realNames found)

/-- Which file of a pair a name is for. -/
def kindOf (base : Bytes) : Option Kind :=
  let extension := build.toLower (ext base)
  if extension = Kind.cue.ext then some .cue
  else if extension = Kind.bin.ext then some .bin
  else none

/-- `FindVirtualCD` of a name in a directory. -/
def findVirtualCD (dir : Directory) (base : Bytes) : Option VirtualCDFile :=
  if !build.chdAvailable then none
  else
    match kindOf build base with
    | none => none
    | some kind =>
        if !safeCueName (stem base ++ Kind.bin.ext) then none
        else
          let wantedCue := stemKey build (stem base ++ Kind.cue.ext)
          let wantedBin := stemKey build (stem base ++ Kind.bin.ext)
          if dir.entries.any fun name =>
              stemKey build name = wantedCue || stemKey build name = wantedBin then none
          else
            match dir.entries.filter fun name =>
                stemKey build (stem name) = stemKey build (stem base) && equalFoldChd (ext name) with
            | [candidate] =>
                match dir.layoutOf candidate with
                | none => none
                | some layout =>
                    match makeVirtualCDPair build.printable candidate layout with
                    | none => none
                    | some (cue, bin) => if kind = .cue then some cue else some bin
            | _ => none

/-- The CHDs of a key. -/
def chdsOf (entries : List Bytes) (key : Bytes) : List Bytes :=
  entries.filter fun name => stemKey build (stem name) = key && equalFoldChd (ext name)

/-- A readable CHD with a safe name, the only one of its key. -/
structure Offered (dir : Directory) (source : Bytes) (layout : Layout) : Prop where
  only : chdsOf build dir.entries (stemKey build (stem source)) = [source]
  safe : safeCueName (stem source ++ Kind.bin.ext) = true
  layout_eq : dir.layoutOf source = some layout

/-- A real name that is a virtual one. -/
def Taken (dir : Directory) (source : Bytes) : Prop :=
  ∃ name ∈ dir.entries, ∃ kind : Kind,
    stemKey build name = stemKey build (stem source ++ kind.ext)

/-- A real name that is a virtual one up to letter case. -/
def TakenFolded (dir : Directory) (source : Bytes) : Prop :=
  ∃ name ∈ dir.entries, ∃ kind : Kind,
    build.toLower name = build.toLower (stem source ++ kind.ext)

/-- A virtual file is advertised if and only if its name is resolved to it, and no real entry has the
name of one that is. -/
structure Agrees (dir : Directory) (names : List Bytes) : Prop where
  advertised : ∀ v, v ∈ listVirtualCD build dir names ↔ findVirtualCD build dir v.name = some v
  unreal : ∀ v ∈ listVirtualCD build dir names, v.name ∉ dir.entries

end

/-! ## Extensions -/

theorem ext_append (s : Bytes) (kind : Kind) : ext (s ++ kind.ext) = kind.ext := by
  unfold ext List.rtakeWhile
  rw [List.reverse_append]
  cases kind with
  | cue =>
      rw [if_pos (List.mem_append_right _ (by decide))]
      rfl
  | bin =>
      rw [if_pos (List.mem_append_right _ (by decide))]
      rfl

theorem stem_append (s : Bytes) (kind : Kind) : stem (s ++ kind.ext) = s := by
  unfold stem
  rw [ext_append, List.length_append, Nat.add_sub_cancel, List.take_left]

section

variable {build : Build}

theorem kindOf_append (s : Bytes) (kind : Kind) : kindOf build (s ++ kind.ext) = some kind := by
  unfold kindOf
  rw [ext_append]
  cases kind with
  | cue =>
      have hlower : build.toLower Kind.cue.ext = Kind.cue.ext := build.toLower_ascii _ (by decide +kernel)
      rw [hlower]
      rfl
  | bin =>
      have hlower : build.toLower Kind.bin.ext = Kind.bin.ext := build.toLower_ascii _ (by decide +kernel)
      rw [hlower]
      rfl

theorem lowerAscii_lt {b : UInt8} (h : lowerAscii b < 0x80) : b < 0x80 := by
  unfold lowerAscii at h
  split at h
  case isTrue hupper => exact UInt8.lt_of_le_of_lt hupper.2 (by decide)
  case isFalse => exact h

/-- Both comparisons of an extension with `.chd` are the same. -/
theorem toLower_eq_chd {e : Bytes} : build.toLower e = chdExt ↔ equalFoldChd e = true := by
  unfold equalFoldChd
  rw [decide_eq_true_iff]
  constructor
  · exact build.toLower_chd e
  · intro h
    rw [build.toLower_ascii e ?_]
    · exact h
    · intro b hb
      apply lowerAscii_lt
      have hmem : lowerAscii b ∈ chdExt := h ▸ List.mem_map_of_mem hb
      have hascii : ∀ b ∈ chdExt, b < 0x80 := by decide +kernel
      exact hascii _ hmem

/-! ## The scan of a directory -/

/-- The first CHD of each key is found, and the keys of more than one are ambiguous. -/
structure Scanned (build : Build) (done : List Bytes) (acc : Sources) : Prop where
  lookup : ∀ key, acc.sources.lookup key = (chdsOf build done key).head?
  ambiguous : ∀ key, key ∈ acc.ambiguous ↔ 2 ≤ (chdsOf build done key).length

theorem chdsOf_concat (done : List Bytes) (name key : Bytes) :
    chdsOf build (done ++ [name]) key = chdsOf build done key ++
      if stemKey build (stem name) = key ∧ equalFoldChd (ext name) = true then [name] else [] := by
  unfold chdsOf
  rw [List.filter_append, List.filter_singleton]
  by_cases h : stemKey build (stem name) = key ∧ equalFoldChd (ext name) = true
  · rw [if_pos h, decide_eq_true h.1, h.2]
    rfl
  · have hno : (decide (stemKey build (stem name) = key) && equalFoldChd (ext name)) = false := by
      rw [Bool.eq_false_iff]
      intro hboth
      rw [Bool.and_eq_true, decide_eq_true_iff] at hboth
      exact h hboth
    rw [if_neg h, hno]
    rfl

theorem Scanned.addSource {done : List Bytes} {acc : Sources} (h : Scanned build done acc)
    (name : Bytes) : Scanned build (done ++ [name]) (addSource build acc name) := by
  unfold CueBin.addSource
  split
  case isTrue hext =>
    have hother : equalFoldChd (ext name) ≠ true := fun hchd => hext (toLower_eq_chd.mpr hchd)
    have hsame (key : Bytes) : chdsOf build (done ++ [name]) key = chdsOf build done key := by
      rw [chdsOf_concat, if_neg (fun hkey => hother hkey.2), List.append_nil]
    refine ⟨fun key => ?_, fun key => ?_⟩
    · rw [hsame]
      exact h.lookup key
    · rw [hsame]
      exact h.ambiguous key
  case isFalse hext =>
    have hchd : equalFoldChd (ext name) = true := toLower_eq_chd.mp (not_not.mp hext)
    have hown : chdsOf build (done ++ [name]) (stemKey build (stem name)) =
        chdsOf build done (stemKey build (stem name)) ++ [name] := by
      rw [chdsOf_concat, if_pos ⟨rfl, hchd⟩]
    have hother {key : Bytes} (hkey : key ≠ stemKey build (stem name)) :
        chdsOf build (done ++ [name]) key = chdsOf build done key := by
      rw [chdsOf_concat, if_neg (fun hown => hkey hown.1.symm), List.append_nil]
    dsimp only
    split
    case h_1 source hsource =>
      have hhead := (h.lookup (stemKey build (stem name))).symm.trans hsource
      have hone : 1 ≤ (chdsOf build done (stemKey build (stem name))).length := by
        cases hchds : chdsOf build done (stemKey build (stem name)) with
        | nil =>
            rw [hchds] at hhead
            cases hhead
        | cons => exact Nat.le_add_left _ _
      refine ⟨fun key => ?_, fun key => ?_⟩
      · by_cases hkey : key = stemKey build (stem name)
        · rw [hkey, hown, List.head?_append, hhead, hsource]
          rfl
        · rw [hother hkey]
          exact h.lookup key
      · by_cases hkey : key = stemKey build (stem name)
        · rw [hkey, hown, List.length_append]
          exact iff_of_true List.mem_cons_self (Nat.add_le_add_right hone 1)
        · rw [hother hkey, List.mem_cons, or_iff_right hkey]
          exact h.ambiguous key
    case h_2 hnone =>
      have hnil : chdsOf build done (stemKey build (stem name)) = [] :=
        List.head?_eq_none_iff.mp ((h.lookup _).symm.trans hnone)
      refine ⟨fun key => ?_, fun key => ?_⟩
      · dsimp only
        rw [List.lookup_append]
        by_cases hkey : key = stemKey build (stem name)
        · rw [hkey, hown, hnil, hnone]
          exact List.lookup_cons_self
        · rw [hother hkey, h.lookup key, List.lookup_cons, beq_eq_false_iff_ne.mpr hkey]
          exact Option.or_none
      · by_cases hkey : key = stemKey build (stem name)
        · rw [hkey, hown, hnil, h.ambiguous, hnil]
          exact iff_of_false (by decide) (by simp)
        · rw [hother hkey]
          exact h.ambiguous key

theorem scanned (entries : List Bytes) :
    Scanned build entries (entries.foldl (addSource build) ⟨[], []⟩) := by
  induction entries using List.reverseRecOn with
  | nil =>
      refine ⟨fun key => rfl, fun key => ?_⟩
      exact iff_of_false List.not_mem_nil (show ¬ 2 ≤ 0 by decide)
  | append_singleton done name ih =>
      rw [List.foldl_append]
      exact ih.addSource name

/-! ## Views -/

/-- One of the files of a pair. -/
def view (build : Build) (source : Bytes) (layout : Layout) (kind : Kind) : VirtualCDFile :=
  let cue := layout.cue build.printable ((Text.decode (stem source ++ Kind.bin.ext)).getD [])
  match kind with
  | .cue => ⟨stem source ++ Kind.cue.ext, source, .cue, cue.length, layout, cue⟩
  | .bin => ⟨stem source ++ Kind.bin.ext, source, .bin, layout.size, layout, []⟩

theorem view_name (source : Bytes) (layout : Layout) (kind : Kind) :
    (view build source layout kind).name = stem source ++ kind.ext := by
  cases kind with
  | cue => rfl
  | bin => rfl

theorem view_source (source : Bytes) (layout : Layout) (kind : Kind) :
    (view build source layout kind).source = source := by
  cases kind with
  | cue => rfl
  | bin => rfl

/-- A source with a safe name has its pair. -/
theorem makeVirtualCDPair_of_safe {source : Bytes} (layout : Layout)
    (hsafe : safeCueName (stem source ++ Kind.bin.ext) = true) :
    makeVirtualCDPair build.printable source layout =
      some (view build source layout .cue, view build source layout .bin) := by
  have hname := hsafe
  unfold safeCueName at hname
  cases hdecode : Text.decode (stem source ++ Kind.bin.ext) with
  | none =>
      rw [hdecode] at hname
      cases hname
  | some runes =>
      rw [hdecode] at hname
      dsimp only at hname
      rw [Bool.and_eq_true, decide_eq_true_iff] at hname
      rw [makeVirtualCDPair_eq layout (Text.encode_of_decode hdecode) hname.1 hname.2]
      unfold view
      rw [hdecode]
      rfl

variable {dir : Directory} {names : List Bytes}

theorem chdsOf_self {entries : List Bytes} {key source : Bytes}
    (h : chdsOf build entries key = [source]) : stemKey build (stem source) = key := by
  have hmem : source ∈ chdsOf build entries key := h ▸ List.mem_cons_self
  have hpred := (List.mem_filter.mp hmem).2
  rw [Bool.and_eq_true, decide_eq_true_iff] at hpred
  exact hpred.1

/-- The files of a key: those of its only CHD, if that is readable and no real name is in the way. -/
theorem mem_listKey {realNames : List Bytes} {found : Sources}
    (hscan : Scanned build dir.entries found) {key : Bytes} {v : VirtualCDFile} :
    v ∈ listKey build dir realNames found key ↔ ∃ source layout kind,
      chdsOf build dir.entries key = [source] ∧
      safeCueName (stem source ++ Kind.bin.ext) = true ∧ dir.layoutOf source = some layout ∧
      (∀ kind : Kind, build.toLower (stem source ++ kind.ext) ∉ realNames) ∧
      v = view build source layout kind := by
  have hlookup := hscan.lookup key
  have hambiguous := hscan.ambiguous key
  unfold listKey
  simp only [List.contains_iff_mem]
  cases hchds : chdsOf build dir.entries key with
  | nil =>
      rw [hchds] at hlookup
      rw [hlookup]
      refine iff_of_false List.not_mem_nil ?_
      rintro ⟨source, layout, kind, hone, -⟩
      cases hone
  | cons source rest =>
      rw [hchds] at hlookup hambiguous
      rw [hlookup]
      dsimp only [List.head?_cons]
      cases rest with
      | cons other rest =>
          rw [if_pos (hambiguous.mpr (Nat.le_add_left 2 _))]
          refine iff_of_false List.not_mem_nil ?_
          rintro ⟨source, layout, kind, hone, -⟩
          cases hone
      | nil =>
          rw [if_neg (hambiguous.not.mpr (show ¬ 2 ≤ 1 by decide))]
          have hsource {s : Bytes} (h : [source] = [s]) : s = source := (List.singleton_inj.mp h).symm
          split
          case isTrue hunsafe =>
            refine iff_of_false List.not_mem_nil ?_
            rintro ⟨s, layout, kind, hone, hsafe, -⟩
            rw [hsource hone] at hsafe
            rw [hsafe] at hunsafe
            cases hunsafe
          split
          case isTrue hcue =>
            refine iff_of_false List.not_mem_nil ?_
            rintro ⟨s, layout, kind, hone, -, -, hfree, -⟩
            rw [hsource hone] at hfree
            exact hfree .cue hcue
          split
          case isTrue hbin =>
            refine iff_of_false List.not_mem_nil ?_
            rintro ⟨s, layout, kind, hone, -, -, hfree, -⟩
            rw [hsource hone] at hfree
            exact hfree .bin hbin
          case isFalse hsafe hcue hbin =>
            have hsafe' : safeCueName (stem source ++ Kind.bin.ext) = true := by
              by_contra hno
              rw [Bool.eq_false_iff.mpr hno] at hsafe
              exact hsafe rfl
            cases hlayout : dir.layoutOf source with
            | none =>
                refine iff_of_false List.not_mem_nil ?_
                rintro ⟨s, layout, kind, hone, -, hsome, -⟩
                rw [hsource hone, hlayout] at hsome
                cases hsome
            | some layout =>
                dsimp only
                rw [makeVirtualCDPair_of_safe layout hsafe']
                dsimp only
                rw [List.mem_cons, List.mem_singleton]
                constructor
                · rintro (rfl | rfl)
                  · refine ⟨source, layout, .cue, rfl, hsafe', hlayout, ?_, rfl⟩
                    rintro (_ | _)
                    · exact hcue
                    · exact hbin
                  · refine ⟨source, layout, .bin, rfl, hsafe', hlayout, ?_, rfl⟩
                    rintro (_ | _)
                    · exact hcue
                    · exact hbin
                · rintro ⟨s, layout', kind, hone, -, hsome, -, rfl⟩
                  rw [hsource hone] at hsome ⊢
                  cases hlayout.symm.trans hsome
                  cases kind with
                  | cue => exact Or.inl rfl
                  | bin => exact Or.inr rfl

/-- The files that are advertised: those of the sources that are offered, where no real name is a
virtual one up to letter case. -/
theorem mem_listVirtualCD (havailable : build.chdAvailable = true)
    (hnames : ∀ name ∈ names, name ∈ dir.entries) {v : VirtualCDFile} :
    v ∈ listVirtualCD build dir names ↔ ∃ source layout kind, Offered build dir source layout ∧
      ¬ TakenFolded build dir source ∧ v = view build source layout kind := by
  have hscan := @scanned build dir.entries
  have hfolded (source : Bytes) : ¬ TakenFolded build dir source ↔
      ∀ kind : Kind, build.toLower (stem source ++ kind.ext) ∉
        (dir.entries ++ names).map build.toLower := by
    constructor
    · intro hfree kind hmem
      obtain ⟨name, hname, hlower⟩ := List.mem_map.mp hmem
      exact hfree ⟨name, (List.mem_append.mp hname).elim id (hnames name), kind, hlower⟩
    · rintro hfree ⟨name, hname, kind, hlower⟩
      exact hfree kind (List.mem_map.mpr ⟨name, List.mem_append_left _ hname, hlower⟩)
  unfold listVirtualCD
  rw [havailable, if_neg (by decide), List.mem_flatMap]
  constructor
  · rintro ⟨key, -, hv⟩
    obtain ⟨source, layout, kind, hone, hsafe, hlayout, hfree, rfl⟩ := (mem_listKey hscan).mp hv
    refine ⟨source, layout, kind, ⟨?_, hsafe, hlayout⟩, (hfolded source).mpr hfree, rfl⟩
    rw [chdsOf_self hone]
    exact hone
  · rintro ⟨source, layout, kind, hoffered, hfree, rfl⟩
    refine ⟨stemKey build (stem source), ?_, (mem_listKey hscan).mpr
      ⟨source, layout, kind, hoffered.only, hoffered.safe, hoffered.layout_eq,
        (hfolded source).mp hfree, rfl⟩⟩
    rw [List.mem_mergeSort]
    apply lookup_isSome.mp
    rw [hscan.lookup, hoffered.only]
    rfl

theorem safe_of_pair {source : Bytes} {layout : Layout} {pair : VirtualCDFile × VirtualCDFile}
    (h : makeVirtualCDPair build.printable source layout = some pair) :
    safeCueName (stem source ++ Kind.bin.ext) = true := by
  by_contra hno
  unfold makeVirtualCDPair at h
  dsimp only at h
  rw [Bool.eq_false_iff.mpr hno] at h
  cases h

/-- Real names in the way of a name that is looked up. -/
theorem any_taken {base source : Bytes} (hstem : stem base = stem source) :
    (dir.entries.any fun name =>
        stemKey build name = stemKey build (stem base ++ Kind.cue.ext) ||
          stemKey build name = stemKey build (stem base ++ Kind.bin.ext)) = true ↔
      Taken build dir source := by
  rw [List.any_eq_true, hstem]
  constructor
  · rintro ⟨name, hname, heq⟩
    rw [Bool.or_eq_true, decide_eq_true_iff, decide_eq_true_iff] at heq
    rcases heq with heq | heq
    · exact ⟨name, hname, .cue, heq⟩
    · exact ⟨name, hname, .bin, heq⟩
  · rintro ⟨name, hname, kind, heq⟩
    refine ⟨name, hname, ?_⟩
    rw [Bool.or_eq_true, decide_eq_true_iff, decide_eq_true_iff]
    cases kind with
    | cue => exact Or.inl heq
    | bin => exact Or.inr heq

/-- A name is resolved to a file of a source that is offered, where no real name is a virtual one. -/
theorem findVirtualCD_eq_some (havailable : build.chdAvailable = true) {v : VirtualCDFile} :
    findVirtualCD build dir v.name = some v ↔ ∃ source layout kind,
      Offered build dir source layout ∧ ¬ Taken build dir source ∧
        v = view build source layout kind := by
  constructor
  · intro hfind
    unfold findVirtualCD at hfind
    rw [havailable, if_neg (by decide)] at hfind
    split at hfind
    · cases hfind
    case h_2 kind hkind =>
      split at hfind
      · cases hfind
      dsimp only at hfind
      split at hfind
      · cases hfind
      case isFalse hfree =>
        split at hfind
        case h_2 => cases hfind
        case h_1 candidate hcandidate =>
          split at hfind
          · cases hfind
          case h_2 layout hlayout =>
            split at hfind
            · cases hfind
            case h_2 cue bin hpair =>
              have hsafe := safe_of_pair hpair
              rw [makeVirtualCDPair_of_safe layout hsafe] at hpair
              cases hpair
              have hv : ∃ kind, v = view build candidate layout kind := by
                split at hfind
                · exact ⟨.cue, (Option.some.inj hfind).symm⟩
                · exact ⟨.bin, (Option.some.inj hfind).symm⟩
              obtain ⟨kind', rfl⟩ := hv
              have hstem : stem (view build candidate layout kind').name = stem candidate := by
                rw [view_name, stem_append]
              refine ⟨candidate, layout, kind', ⟨?_, hsafe, hlayout⟩, ?_, rfl⟩
              · rw [← hstem]
                exact hcandidate
              · exact fun htaken => hfree ((any_taken hstem).mpr htaken)
  · rintro ⟨source, layout, kind, hoffered, hfree, rfl⟩
    have hstem : stem (view build source layout kind).name = stem source := by
      rw [view_name, stem_append]
    have hkind : kindOf build (view build source layout kind).name = some kind := by
      rw [view_name, kindOf_append]
    have hnone : ¬ (dir.entries.any fun name =>
        stemKey build name = stemKey build (stem source ++ Kind.cue.ext) ||
          stemKey build name = stemKey build (stem source ++ Kind.bin.ext)) = true := by
      have hany := @any_taken build dir _ _ hstem
      rw [hstem] at hany
      exact fun h => hfree (hany.mp h)
    have honly := hoffered.only
    unfold chdsOf at honly
    unfold findVirtualCD
    rw [havailable, if_neg (by decide), hkind]
    dsimp only
    rw [hstem, hoffered.safe, if_neg (by decide), if_neg hnone, honly]
    dsimp only
    rw [hoffered.layout_eq]
    dsimp only
    rw [makeVirtualCDPair_of_safe layout hoffered.safe]
    cases kind with
    | cue => rfl
    | bin => rfl

theorem takenFolded_of_taken {source : Bytes} (h : Taken build dir source) :
    TakenFolded build dir source := by
  obtain ⟨name, hname, kind, heq⟩ := h
  refine ⟨name, hname, kind, ?_⟩
  unfold stemKey at heq
  split at heq
  · exact heq
  · exact congrArg _ heq

theorem unreal_of_listed (havailable : build.chdAvailable = true)
    (hnames : ∀ name ∈ names, name ∈ dir.entries) {v : VirtualCDFile}
    (hv : v ∈ listVirtualCD build dir names) : v.name ∉ dir.entries := by
  obtain ⟨source, layout, kind, -, hfree, rfl⟩ := (mem_listVirtualCD havailable hnames).mp hv
  intro hreal
  exact hfree ⟨_, hreal, kind, by rw [view_name]⟩

end

/-- The listing and the lookup agree if and only if a real name that is a virtual one of an offered
CHD up to letter case is never in the way of the listing alone. -/
theorem views_agree_iff {build : Build} {dir : Directory} {names : List Bytes}
    (hnames : ∀ name ∈ names, name ∈ dir.entries) :
    Agrees build dir names ↔
      (build.chdAvailable = true → ∀ source layout, Offered build dir source layout →
        TakenFolded build dir source → Taken build dir source) := by
  by_cases havailable : build.chdAvailable = true
  case neg =>
    have hbuild : build.chdAvailable = false := Bool.eq_false_iff.mpr havailable
    have hlist : listVirtualCD build dir names = [] := by
      unfold listVirtualCD
      rw [hbuild]
      rfl
    have hfind (base : Bytes) : findVirtualCD build dir base = none := by
      unfold findVirtualCD
      rw [hbuild]
      rfl
    refine iff_of_true ⟨fun v => ?_, fun v hv => ?_⟩ fun h => absurd h havailable
    · rw [hlist, hfind]
      exact iff_of_false List.not_mem_nil fun h => by cases h
    · rw [hlist] at hv
      cases hv
  case pos =>
    constructor
    · intro hagrees _ source layout hoffered hfolded
      by_contra hfree
      have hfind := (findVirtualCD_eq_some havailable).mpr
        ⟨source, layout, .cue, hoffered, hfree, rfl⟩
      have hlisted := (hagrees.advertised _).mpr hfind
      obtain ⟨source', layout', kind, -, hfree', hview⟩ :=
        (mem_listVirtualCD havailable hnames).mp hlisted
      have hsource := congrArg VirtualCDFile.source hview
      rw [view_source, view_source] at hsource
      rw [← hsource] at hfree'
      exact hfree' hfolded
    · intro hcond
      refine ⟨?_, fun v hv => unreal_of_listed havailable hnames hv⟩
      intro v
      rw [mem_listVirtualCD havailable hnames, findVirtualCD_eq_some havailable]
      constructor
      · rintro ⟨source, layout, kind, hoffered, hfree, hv⟩
        exact ⟨source, layout, kind, hoffered, fun htaken => hfree (takenFolded_of_taken htaken), hv⟩
      · rintro ⟨source, layout, kind, hoffered, hfree, hv⟩
        refine ⟨source, layout, kind, hoffered, ?_, hv⟩
        exact fun hfolded => hfree (hcond havailable source layout hoffered hfolded)

/-- A Linux build, on names in ASCII. -/
def linuxBuild : Build where
  chdAvailable := true
  windows := false
  toLower s := s.map lowerAscii
  toLower_ascii _ _ := rfl
  toLower_chd _ h := h
  printable _ := true

/-- A directory of names, all of whose CHDs are empty images. -/
def directoryOf (entries : List String) : Directory :=
  ⟨entries.map fun name => name.toUTF8.toList, fun _ => some ⟨[], [], 0⟩⟩

theorem offered_game {entries : List String}
    (honly : chdsOf linuxBuild (directoryOf entries).entries "Game".toUTF8.toList =
      ["Game.chd".toUTF8.toList]) :
    Offered linuxBuild (directoryOf entries) "Game.chd".toUTF8.toList ⟨[], [], 0⟩ where
  only := by
    have hstem : stemKey linuxBuild (stem "Game.chd".toUTF8.toList) = "Game".toUTF8.toList := by
      decide +kernel
    rw [hstem]
    exact honly
  safe := by
    have hdecode := Text.decode_of_encode (show Text.encode (Text.lit "Game.bin") =
      some (stem "Game.chd".toUTF8.toList ++ Kind.bin.ext) by decide +kernel)
    unfold safeCueName
    rw [hdecode]
    decide +kernel
  layout_eq := rfl

theorem views_agree_alone :
    Agrees linuxBuild (directoryOf ["Game.chd", "Other.BIN"])
      (directoryOf ["Game.chd", "Other.BIN"]).entries := by
  apply (views_agree_iff fun _ h => h).mpr
  rintro - source layout hoffered ⟨name, hname, kind, heq⟩
  have hmem : source ∈ chdsOf linuxBuild (directoryOf ["Game.chd", "Other.BIN"]).entries
      (stemKey linuxBuild (stem source)) := hoffered.only ▸ List.mem_cons_self
  obtain ⟨hsource, hchd⟩ := List.mem_filter.mp hmem
  rw [Bool.and_eq_true] at hchd
  have hfree : ∀ s ∈ (directoryOf ["Game.chd", "Other.BIN"]).entries, equalFoldChd (ext s) = true →
      ∀ n ∈ (directoryOf ["Game.chd", "Other.BIN"]).entries,
        linuxBuild.toLower n ≠ linuxBuild.toLower (stem s ++ Kind.cue.ext) ∧
          linuxBuild.toLower n ≠ linuxBuild.toLower (stem s ++ Kind.bin.ext) := by
    decide +kernel
  cases kind with
  | cue => exact absurd heq (hfree source hsource hchd.2 name hname).1
  | bin => exact absurd heq (hfree source hsource hchd.2 name hname).2

/-- The lookup resolves `Game.cue` next to a real `Game.BIN`, but the listing has it not. -/
theorem shadowed_view_disagrees :
    ¬ Agrees linuxBuild (directoryOf ["Game.BIN", "Game.chd"])
      (directoryOf ["Game.BIN", "Game.chd"]).entries := by
  intro hagrees
  have hoffered := @offered_game ["Game.BIN", "Game.chd"] (by decide +kernel)
  have hfree : ¬ Taken linuxBuild (directoryOf ["Game.BIN", "Game.chd"]) "Game.chd".toUTF8.toList := by
    rintro ⟨name, hname, kind, heq⟩
    have hother : ∀ n ∈ (directoryOf ["Game.BIN", "Game.chd"]).entries,
        stemKey linuxBuild n ≠ stemKey linuxBuild (stem "Game.chd".toUTF8.toList ++ Kind.cue.ext) ∧
          stemKey linuxBuild n ≠
            stemKey linuxBuild (stem "Game.chd".toUTF8.toList ++ Kind.bin.ext) := by
      decide +kernel
    cases kind with
    | cue => exact absurd heq (hother name hname).1
    | bin => exact absurd heq (hother name hname).2
  have hfind := (findVirtualCD_eq_some rfl).mpr ⟨_, _, .cue, hoffered, hfree, rfl⟩
  have hlisted := (hagrees.advertised _).mpr hfind
  obtain ⟨source, layout, kind, -, hfolded, hview⟩ :=
    (mem_listVirtualCD rfl fun _ h => h).mp hlisted
  have hsource := congrArg VirtualCDFile.source hview
  rw [view_source, view_source] at hsource
  rw [← hsource] at hfolded
  exact hfolded ⟨"Game.BIN".toUTF8.toList, by decide +kernel, .bin, by decide +kernel⟩

end Ps2Servers.CueBin
