import Ps2Servers.Smb1.Replies

/-!
# Files on a host

What the calls of the server on a POSIX host come to: paths as the parts between their slashes, links
that lead elsewhere, and the folders and files that are there.

## Implementation notes

What a path leads to is given by `realpath`. Of the calls it is asked only what holds on every POSIX
host: an existing folder in front of a path may be replaced by its real path, the parts of a real path
are names, a file is no folder, and a folder holds names of at most 255 characters. Whether a call on
a real path shows what it shows on the path itself is left open, as is whether letters are told apart
by case. The calls that change the host are those of any other `Ops`.
-/

namespace Ps2Servers.Smb1

abbrev Place := List String

/-- The parts of a path. -/
def partsOf (path : String) : Place :=
  ((path.toList.splitOn '/').filter (· ≠ [])).map String.ofList

/-- The path of a place. -/
def pathOf (place : Place) : String :=
  if place = [] then "/" else String.ofList (place.flatMap fun part => '/' :: part.toList)

/-- `os.path.join`, for a second path that is relative. -/
def joinPath (a b : String) : String :=
  if a = "" ∨ a.toList.getLast? = some '/' then a ++ b else a ++ "/" ++ b

/-- A part of a path. -/
def Part (n : String) : Prop := n ≠ "" ∧ '/' ∉ n.toList

/-- A name that a folder can hold. -/
structure Entry (n : String) : Prop where
  part : Part n
  dot : n ≠ "."
  dotdot : n ≠ ".."
  nul : '\x00' ∉ n.toList
  short : n.toList.length ≤ 255

/-- A file system, as the calls on it show it. -/
structure Files (F : Type) where
  stat : Place → Option Info
  realpath : Place → Place
  listDir : Place → Option (List String)
  /-- `open(path, "rb")`. -/
  openRead : Place → Option F
  realpath_append : ∀ p q, (stat p).any Info.isDir → realpath (p ++ q) = realpath (realpath p ++ q)
  stat_isFile : ∀ p, ∀ info ∈ stat p, info.isFile → info.isDir = false
  part_realpath : ∀ p, (∀ n ∈ p, Part n) → ∀ n ∈ realpath p, Part n
  listDir_entry : ∀ p, ∀ names ∈ listDir p, ∀ n ∈ names, Entry n

/-! ## Parts -/

theorem partsOf_ofList (chars : List Char) :
    partsOf (String.ofList chars) = ((chars.splitOn '/').filter (· ≠ [])).map String.ofList := by
  rw [partsOf, String.toList_ofList]

theorem partsOf_slash (a b : List Char) :
    partsOf (String.ofList (a ++ '/' :: b)) = partsOf (String.ofList a) ++ partsOf (String.ofList b) := by
  rw [partsOf_ofList, partsOf_ofList, partsOf_ofList, List.splitOn_append_cons_self, List.filter_append,
    List.map_append]

theorem partsOf_nil : partsOf (String.ofList []) = [] := rfl

theorem partsOf_part {n : String} (h : Part n) : partsOf n = [n] := by
  have hne : n.toList ≠ [] := fun hnil => h.1 (String.toList_eq_nil_iff.mp hnil)
  rw [partsOf, List.splitOn_eq_singleton h.2, List.filter_cons_of_pos (by simpa using hne),
    List.filter_nil, List.map_singleton, String.ofList_toList]

theorem not_mem_of_mem_splitOn {chars part : List Char} (h : part ∈ chars.splitOn '/') : '/' ∉ part := by
  induction chars generalizing part with
  | nil =>
      rw [List.splitOn_nil, List.mem_singleton] at h
      rw [h]
      exact List.not_mem_nil
  | cons c rest ih =>
      rw [List.splitOn_cons_eq_if_modifyHead] at h
      split at h
      · rcases List.mem_cons.mp h with rfl | h
        · exact List.not_mem_nil
        · exact ih h
      · rename_i hc
        cases hsplit : rest.splitOn '/' with
        | nil => exact absurd hsplit (List.splitOn_ne_nil _ _)
        | cons first others =>
            rw [hsplit] at h ih
            rcases List.mem_cons.mp h with rfl | h
            · intro hmem
              rcases List.mem_cons.mp hmem with rfl | hmem
              · exact hc (beq_self_eq_true _)
              · exact ih List.mem_cons_self hmem
            · exact ih (List.mem_cons_of_mem _ h)

theorem part_of_mem_partsOf {path n : String} (h : n ∈ partsOf path) : Part n := by
  obtain ⟨chars, hchars, rfl⟩ := List.mem_map.mp h
  obtain ⟨hsplit, hne⟩ := List.mem_filter.mp hchars
  constructor
  · intro heq
    have hnil : chars = [] := by
      rw [← String.toList_ofList (l := chars), heq]
      rfl
    rw [hnil] at hne
    exact absurd hne (by decide)
  · rw [String.toList_ofList]
    exact not_mem_of_mem_splitOn hsplit

theorem partsOf_append_flat (front : List Char) {place : Place} (h : ∀ n ∈ place, Part n) :
    partsOf (String.ofList (front ++ place.flatMap fun part => '/' :: part.toList)) =
      partsOf (String.ofList front) ++ place := by
  induction place generalizing front with
  | nil => rw [List.flatMap_nil, List.append_nil, List.append_nil]
  | cons part rest ih =>
      have hpart := partsOf_part (h part List.mem_cons_self)
      rw [← String.ofList_toList (s := part)] at hpart
      rw [List.flatMap_cons, List.cons_append, partsOf_slash,
        ih _ fun n hn => h n (List.mem_cons_of_mem _ hn), hpart, String.ofList_toList,
        List.singleton_append]

/-- The parts of the path of a place are those of the place. -/
theorem partsOf_pathOf {place : Place} (h : ∀ n ∈ place, Part n) : partsOf (pathOf place) = place := by
  unfold pathOf
  split
  · rename_i hnil
    rw [hnil]
    rfl
  · have hflat := partsOf_append_flat [] h
    rwa [List.nil_append, partsOf_nil, List.nil_append] at hflat

theorem partsOf_joinPath (a b : String) : partsOf (joinPath a b) = partsOf a ++ partsOf b := by
  unfold joinPath
  split
  · rename_i h
    rcases h with rfl | h
    · rw [String.empty_append]
      rfl
    · obtain ⟨front, hfront⟩ := List.getLast?_eq_some_iff.mp h
      have ha : a = String.ofList (front ++ ['/']) := by rw [← hfront, String.ofList_toList]
      have hslash := partsOf_slash front []
      have happ := partsOf_slash front b.toList
      rw [partsOf_nil, List.append_nil] at hslash
      rw [ha, hslash]
      rw [String.ofList_toList] at happ
      rw [← happ]
      apply congrArg partsOf
      apply String.toList_inj.mp
      simp
  · have happ := partsOf_slash a.toList b.toList
    rw [String.ofList_toList, String.ofList_toList] at happ
    rw [← happ]
    apply congrArg partsOf
    apply String.toList_inj.mp
    simp

/-! ## Shares -/

/-- `smb_path.replace("\\", "/")`. -/
def forward (name : Name) : Name := name.map fun b => if b = BACKSLASH then SLASH else b

/-- What `resolve` joins to the root of the share. -/
def relative (name : Name) : String := toStr ((forward name).dropWhile (· = SLASH))

namespace Files

variable {F : Type} (files : Files F)

/-- `Share.resolve`, with `_inside` for a root that is a real path. -/
def resolve (share : Share) (name : Name) : Option String :=
  let full := files.realpath (partsOf (joinPath share.root (relative name)))
  if (partsOf share.root).isPrefixOf full then some (pathOf full) else none

/-- The calls of the server, with those of `base` where the host is changed. -/
def ops (base : Ops (Files F) F) : Ops (Files F) F :=
  { base with
    resolve := resolve
    stat := fun files path => files.stat (partsOf path)
    openRead := fun files path => files.openRead (partsOf path)
    listDir := fun files path => files.listDir (partsOf path)
    join := joinPath }

/-- The place that a name of a request leads to, before its links are followed. -/
def placeOf (share : Share) (name : Name) : Place := partsOf share.root ++ partsOf (toStr (forward name))

end Files

/-- Slashes in front of a path do not matter. -/
theorem partsOf_relative (name : Name) : partsOf (relative name) = partsOf (toStr (forward name)) := by
  unfold relative
  generalize forward name = bytes
  induction bytes with
  | nil => rfl
  | cons b rest ih =>
      by_cases hb : b = SLASH
      · have hslash := partsOf_slash [] (rest.map fun b => Char.ofNat b.toNat)
        rw [partsOf_nil, List.nil_append, List.nil_append] at hslash
        rw [List.dropWhile_cons_of_pos (by simpa using hb), ih, hb]
        exact hslash.symm
      · rw [List.dropWhile_cons_of_neg (by simpa using hb)]

variable {F : Type} {files : Files F}

theorem Files.resolve_eq (files : Files F) (share : Share) (name : Name) :
    files.resolve share name =
      if (partsOf share.root).isPrefixOf (files.realpath (Files.placeOf share name)) then
        some (pathOf (files.realpath (Files.placeOf share name)))
      else none := by
  unfold Files.resolve Files.placeOf
  rw [partsOf_joinPath, partsOf_relative]

theorem Files.any_isDir {p : Place} :
    (files.stat p).any Info.isDir ↔ ∃ info, files.stat p = some info ∧ info.isDir := by
  cases files.stat p with
  | none => simp
  | some info => simp

theorem Files.part_of_mem_placeOf {share : Share} {name : Name} {n : String}
    (h : n ∈ Files.placeOf share name) : Part n := by
  rcases List.mem_append.mp h with h | h
  · exact part_of_mem_partsOf h
  · exact part_of_mem_partsOf h

theorem Files.placeOf_orRoot (share : Share) (name : Name) :
    Files.placeOf share (orRoot name) = Files.placeOf share name := by
  unfold orRoot
  split
  · rename_i h
    rw [h]
    rfl
  · rfl

/-- The name of an entry behind the name of its folder. -/
theorem placeOf_append (share : Share) (dir name : Name) :
    Files.placeOf share (dir ++ BACKSLASH :: name) =
      Files.placeOf share dir ++ partsOf (toStr (forward name)) := by
  have hslash := partsOf_slash ((forward dir).map fun b => Char.ofNat b.toNat)
    ((forward name).map fun b => Char.ofNat b.toNat)
  have hforward : forward (dir ++ BACKSLASH :: name) = forward dir ++ SLASH :: forward name := by
    unfold forward
    rw [List.map_append, List.map_cons]
    rfl
  unfold Files.placeOf
  rw [List.append_assoc, hforward]
  congr 1
  refine Eq.trans ?_ hslash
  unfold toStr
  rw [List.map_append, List.map_cons]
  rfl

end Ps2Servers.Smb1
