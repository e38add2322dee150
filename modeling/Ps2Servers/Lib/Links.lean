import Ps2Servers.Lib.Bytes
import Mathlib.Data.List.Basic

/-!
# Paths and file systems with links

Slash-separated paths, what is done to them as text, and how they are followed through symbolic
links, by a system call and by `filepath.EvalSymlinks`.

## Implementation notes

A path is read into its components, with the empty and dot components of the text. A file system
answers `lstat` at the places that no link leads away from; a call that fails for any reason
answers `none`. Where `EvalSymlinks` keeps `..` behind a component for the final cleaning, the
component is dropped at once: it was found to be a directory.
-/

namespace Ps2Servers.Links

structure Path where
  rooted : Bool
  comps : List Bytes
  deriving DecidableEq

def dot : Bytes := [0x2e]

def dotdot : Bytes := [0x2e, 0x2e]

def Path.ofText : Bytes → Path
  | [] => ⟨false, []⟩
  | [b] => if b = 0x2f then ⟨true, []⟩ else ⟨false, [[b]]⟩
  | b :: rest => if b = 0x2f then ⟨true, rest.splitOn 0x2f⟩ else ⟨false, (b :: rest).splitOn 0x2f⟩

/-! ## Paths as text -/

/-- The component leads up. A path that is not rooted keeps the `..` it starts with. -/
def Path.up (p : Path) : Path :=
  if p.rooted ∨ p.comps ≠ [] ∧ p.comps.getLast? ≠ some dotdot then ⟨p.rooted, p.comps.dropLast⟩
  else ⟨p.rooted, p.comps ++ [dotdot]⟩

def Path.push (p : Path) (c : Bytes) : Path := ⟨p.rooted, p.comps ++ [c]⟩

def Path.cleanStep (p : Path) (c : Bytes) : Path :=
  if c = [] ∨ c = dot then p else if c = dotdot then p.up else p.push c

/-- `filepath.Clean`. -/
def Path.clean (p : Path) : Path := p.comps.foldl cleanStep ⟨p.rooted, []⟩

/-- `filepath.Dir` of a clean path. -/
def Path.dir (p : Path) : Path := ⟨p.rooted, p.comps.dropLast⟩

/-- What is left of two lists behind their common start. -/
def afterCommon : List Bytes → List Bytes → List Bytes × List Bytes
  | b :: base, t :: targ => if b = t then afterCommon base targ else (b :: base, t :: targ)
  | base, targ => (base, targ)

/-- The components of `filepath.Rel`. -/
def Path.rel (base targ : Path) : Option (List Bytes) :=
  let base := base.clean
  let targ := targ.clean
  if base.rooted ≠ targ.rooted then none
  else
    let (b, t) := afterCommon base.comps targ.comps
    if b.head? = some dotdot then none else some (List.replicate b.length dotdot ++ t)

/-! ## Following links -/

structure Entry where
  name : Bytes
  isDir : Bool
  /-- The size, where the entry can be examined. -/
  info : Option Int
  deriving DecidableEq

/-- A directory may refuse to be listed. -/
inductive Node
  | dir (entries : Option (List Entry))
  | file
  | link (target : Bytes)

/-- The system gives up behind so many links, and before `EvalSymlinks` does. -/
structure FileSystem where
  lstat : List Bytes → Option Node
  cwd : List Bytes
  maxLinks : Nat
  maxLinks_le : maxLinks ≤ 255

/-- The place that a path without links names. -/
def FileSystem.locate (fs : FileSystem) (p : Path) : List Bytes :=
  if p.rooted then p.comps
  else p.comps.foldl (fun at_ c => if c = dotdot then at_.dropLast else at_ ++ [c]) fs.cwd

/-- Components are followed from a place, up to the next link. -/
def FileSystem.walkOn (fs : FileSystem) (next : List Bytes → List Bytes → Option (List Bytes)) :
    List Bytes → List Bytes → Option (List Bytes)
  | at_, [] => some at_
  | at_, c :: rest =>
      if c = [] ∨ c = dot then walkOn fs next at_ rest
      else if c = dotdot then walkOn fs next at_.dropLast rest
      else
        match fs.lstat (at_ ++ [c]) with
        | none => none
        | some (.link target) =>
            let target := Path.ofText target
            next (if target.rooted then [] else at_) (target.comps ++ rest)
        | some .file => if rest = [] then some (at_ ++ [c]) else none
        | some (.dir _) => walkOn fs next (at_ ++ [c]) rest

/-- Components are followed through so many links. -/
def FileSystem.walk (fs : FileSystem) : (links : Nat) → List Bytes → List Bytes →
    Option (List Bytes)
  | 0 => fs.walkOn fun _ _ => none
  | links + 1 => fs.walkOn (fs.walk links)

/-- Where a system call finds a path that it follows through so many links. -/
def FileSystem.resolve (fs : FileSystem) (links : Nat) (p : Path) : Option (List Bytes) :=
  fs.walk links (if p.rooted then [] else fs.cwd) p.comps

/-- The real path of a path, behind any number of links. -/
def FileSystem.RealPath (fs : FileSystem) (p : Path) (r : List Bytes) : Prop :=
  ∃ links, fs.resolve links p = some r

/-- `os.ReadDir`. -/
def FileSystem.readDir (fs : FileSystem) (p : Path) : Option (List Entry) :=
  match fs.resolve fs.maxLinks p with
  | none => none
  | some r =>
      match fs.lstat r with
      | some (.dir entries) => entries
      | _ => none

def FileSystem.evalOn (fs : FileSystem) (next : Path → List Bytes → Option Path) :
    Path → List Bytes → Option Path
  | dest, [] => some dest
  | dest, c :: rest =>
      if c = [] ∨ c = dot then evalOn fs next dest rest
      else if c = dotdot then evalOn fs next dest.up rest
      else
        match fs.lstat (fs.locate (dest.push c)) with
        | none => none
        | some (.link target) =>
            let target := Path.ofText target
            next (if target.rooted then ⟨true, []⟩ else dest) (target.comps ++ rest)
        | some .file => if rest = [] then some (dest.push c) else none
        | some (.dir _) => evalOn fs next (dest.push c) rest

def FileSystem.eval (fs : FileSystem) : (links : Nat) → Path → List Bytes → Option Path
  | 0 => fs.evalOn fun _ _ => none
  | links + 1 => fs.evalOn (fs.eval links)

/-- `filepath.EvalSymlinks`. -/
def FileSystem.evalSymlinks (fs : FileSystem) (p : Path) : Option Path :=
  fs.eval 255 ⟨p.rooted, []⟩ p.comps

/-! ## Cleaning -/

/-- A component that names an entry of a directory. -/
def Proper (c : Bytes) : Prop := c ≠ [] ∧ c ≠ dot ∧ c ≠ dotdot

/-- A path from the root without links or dots. -/
def Path.Plain (p : Path) : Prop := p.rooted = true ∧ ∀ c ∈ p.comps, Proper c

@[simp] theorem Path.rooted_up (p : Path) : p.up.rooted = p.rooted := by
  unfold up
  split <;> rfl

@[simp] theorem Path.rooted_push (p : Path) (c : Bytes) : (p.push c).rooted = p.rooted := rfl

theorem Path.plain_root : Path.Plain ⟨true, []⟩ := ⟨rfl, fun _ h => absurd h List.not_mem_nil⟩

theorem Path.Plain.up_eq {p : Path} (h : p.Plain) : p.up = p.dir := if_pos (.inl h.1)

theorem Path.Plain.dir {p : Path} (h : p.Plain) : p.dir.Plain :=
  ⟨h.1, fun c hc => h.2 c (List.dropLast_subset _ hc)⟩

theorem Path.Plain.push {p : Path} (h : p.Plain) {c : Bytes} (hc : Proper c) :
    (p.push c).Plain := by
  refine ⟨h.1, fun d hd => ?_⟩
  rcases List.mem_append.mp hd with hd | hd
  · exact h.2 d hd
  · exact List.mem_singleton.mp hd ▸ hc

theorem Path.Plain.cleanStep {p : Path} (h : p.Plain) (c : Bytes) : (p.cleanStep c).Plain := by
  unfold Path.cleanStep
  split
  · exact h
  · rename_i hdot
    split
    · exact h.up_eq ▸ h.dir
    · rename_i hdotdot
      exact h.push ⟨fun heq => hdot (.inl heq), fun heq => hdot (.inr heq), hdotdot⟩

/-- A rooted path cleans to a plain one. -/
theorem Path.plain_clean {p : Path} (h : p.rooted = true) : p.clean.Plain := by
  unfold Path.clean
  rw [h]
  have hfold : ∀ (l : List Bytes) (q : Path), q.Plain → (l.foldl Path.cleanStep q).Plain := by
    intro l
    induction l with
    | nil => exact fun _ hq => hq
    | cons c rest ih => exact fun q hq => ih _ (hq.cleanStep c)
  exact hfold _ _ Path.plain_root

theorem Path.rooted_cleanStep (p : Path) (c : Bytes) : (p.cleanStep c).rooted = p.rooted := by
  unfold Path.cleanStep
  split
  · rfl
  · split
    · exact p.rooted_up
    · rfl

theorem Path.rooted_clean (p : Path) : p.clean.rooted = p.rooted := by
  have hfold : ∀ (l : List Bytes) (q : Path), (l.foldl Path.cleanStep q).rooted = q.rooted := by
    intro l
    induction l with
    | nil => exact fun _ => rfl
    | cons c rest ih => exact fun q => (ih _).trans (q.rooted_cleanStep c)
  exact hfold _ _

/-- A plain path is clean. -/
theorem Path.Plain.clean_eq {p : Path} (h : p.Plain) : p.clean = p := by
  have hfold : ∀ (l : List Bytes) (q : Path), (∀ c ∈ l, Proper c) →
      l.foldl Path.cleanStep q = ⟨q.rooted, q.comps ++ l⟩ := by
    intro l
    induction l with
    | nil => exact fun q _ => by rw [List.append_nil]; rfl
    | cons c rest ih =>
        intro q hl
        have hc := hl c List.mem_cons_self
        have hstep : q.cleanStep c = q.push c := by
          unfold Path.cleanStep
          rw [if_neg (not_or.mpr ⟨hc.1, hc.2.1⟩), if_neg hc.2.2]
        rw [List.foldl_cons, hstep, ih _ fun d hd => hl d (List.mem_cons_of_mem _ hd)]
        exact congrArg (Path.mk q.rooted) (List.append_assoc _ _ _)
  exact hfold p.comps ⟨p.rooted, []⟩ h.2

/-! ## Containment -/

theorem afterCommon_eq_nil_iff {base targ : List Bytes} :
    (afterCommon base targ).1 = [] ↔ base <+: targ := by
  induction base generalizing targ with
  | nil => exact iff_of_true (by cases targ <;> rfl) List.nil_prefix
  | cons b base ih =>
      cases targ with
      | nil =>
          refine iff_of_false (List.cons_ne_nil b base) fun h => ?_
          exact absurd (List.prefix_nil.mp h) (List.cons_ne_nil b base)
      | cons t targ =>
          unfold afterCommon
          by_cases h : b = t
          · subst h
            rw [if_pos rfl, ih, List.prefix_cons_inj]
          · rw [if_neg h]
            refine iff_of_false (List.cons_ne_nil b base) fun hprefix => ?_
            exact h (List.cons_prefix_cons.mp hprefix).1

theorem mem_afterCommon {base targ : List Bytes} :
    (∀ c ∈ (afterCommon base targ).1, c ∈ base) ∧ ∀ c ∈ (afterCommon base targ).2, c ∈ targ := by
  induction base generalizing targ with
  | nil => cases targ <;> exact ⟨fun _ h => h, fun _ h => h⟩
  | cons b base ih =>
      cases targ with
      | nil => exact ⟨fun _ h => h, fun _ h => h⟩
      | cons t targ =>
          unfold afterCommon
          split
          · exact ⟨fun c hc => List.mem_cons_of_mem b (ih.1 c hc),
              fun c hc => List.mem_cons_of_mem t (ih.2 c hc)⟩
          · exact ⟨fun _ h => h, fun _ h => h⟩

/-- `filepath.Rel` does not lead up exactly from a path that starts the other. -/
theorem Path.rel_iff_prefix {base targ : Path} (hbase : base.clean.Plain) (htarg : targ.Plain) :
    (∃ rel, base.rel targ = some rel ∧ rel.head? ≠ some dotdot) ↔
      base.clean.comps <+: targ.comps := by
  unfold Path.rel
  rw [htarg.clean_eq]
  dsimp only
  rw [if_neg (not_not_intro (hbase.1.trans htarg.1.symm)), ← afterCommon_eq_nil_iff]
  obtain ⟨hb, ht⟩ := @mem_afterCommon base.clean.comps targ.comps
  generalize afterCommon base.clean.comps targ.comps = pair at hb ht ⊢
  obtain ⟨b, t⟩ := pair
  dsimp only at hb ht ⊢
  have hhead : ∀ {l : List Bytes}, (∀ c ∈ l, Proper c) → l.head? ≠ some dotdot :=
    fun hl heq => (hl _ (List.mem_of_mem_head? heq)).2.2 rfl
  rw [if_neg (hhead fun c hc => hbase.2 c (hb c hc))]
  constructor
  · rintro ⟨rel, hrel, hnot⟩
    cases hrel
    cases b with
    | nil => rfl
    | cons c b => exact absurd rfl hnot
  · rintro rfl
    exact ⟨t, rfl, hhead fun c hc => htarg.2 c (ht c hc)⟩

theorem Path.rel_of_not_rooted {base targ : Path} (hbase : base.rooted = false)
    (htarg : targ.rooted = true) : base.rel targ = none := by
  unfold Path.rel
  dsimp only
  rw [Path.rooted_clean, Path.rooted_clean, hbase, htarg]
  exact if_pos Bool.false_ne_true

/-! ## Real paths -/

variable {fs : FileSystem}

/-- The walk through more links. -/
theorem walkOn_mono {next next' : List Bytes → List Bytes → Option (List Bytes)}
    (hnext : ∀ at_ comps r, next at_ comps = some r → next' at_ comps = some r)
    {comps at_ r : List Bytes} (h : fs.walkOn next at_ comps = some r) :
    fs.walkOn next' at_ comps = some r := by
  induction comps generalizing at_ with
  | nil => exact h
  | cons c rest ih =>
      unfold FileSystem.walkOn at h ⊢
      split at h
      · rename_i hdot
        rw [if_pos hdot]
        exact ih h
      · rename_i hdot
        rw [if_neg hdot]
        split at h
        · rename_i hup
          rw [if_pos hup]
          exact ih h
        · rename_i hup
          rw [if_neg hup]
          split at h
          · cases h
          · exact hnext _ _ _ h
          · exact h
          · exact ih h

theorem walk_succ {links : Nat} {at_ comps r : List Bytes}
    (h : fs.walk links at_ comps = some r) : fs.walk (links + 1) at_ comps = some r := by
  induction links generalizing at_ comps r with
  | zero => exact walkOn_mono (fun _ _ _ h => by cases h) h
  | succ links ih => exact walkOn_mono (fun _ _ _ h => ih h) h

theorem walk_mono {links more : Nat} (hle : links ≤ more) {at_ comps r : List Bytes}
    (h : fs.walk links at_ comps = some r) : fs.walk more at_ comps = some r := by
  induction hle with
  | refl => exact h
  | step _ ih => exact walk_succ ih

/-- A path has one real path. -/
theorem RealPath.unique {p : Path} {r r' : List Bytes} (h : fs.RealPath p r)
    (h' : fs.RealPath p r') : r = r' := by
  obtain ⟨links, hr⟩ := h
  obtain ⟨links', hr'⟩ := h'
  have hmax := walk_mono (Nat.le_max_left links links') hr
  exact Option.some.inj (hmax.symm.trans (walk_mono (Nat.le_max_right links links') hr'))

/-- The components in front are followed too. -/
theorem walkOn_append {next : List Bytes → List Bytes → Option (List Bytes)} {back : List Bytes}
    (hnext : ∀ at_ comps r, next at_ (comps ++ back) = some r → ∃ r', next at_ comps = some r')
    {front at_ r : List Bytes} (h : fs.walkOn next at_ (front ++ back) = some r) :
    ∃ r', fs.walkOn next at_ front = some r' := by
  induction front generalizing at_ with
  | nil => exact ⟨at_, rfl⟩
  | cons c rest ih =>
      rw [List.cons_append] at h
      unfold FileSystem.walkOn at h ⊢
      split at h
      · rename_i hdot
        rw [if_pos hdot]
        exact ih h
      · rename_i hdot
        rw [if_neg hdot]
        split at h
        · rename_i hup
          rw [if_pos hup]
          exact ih h
        · rename_i hup
          rw [if_neg hup]
          split at h
          · cases h
          · dsimp only at h
            rw [← List.append_assoc] at h
            exact hnext _ _ _ h
          · split at h
            · rename_i hnil
              exact ⟨_, if_pos (List.append_eq_nil_iff.mp hnil).1⟩
            · cases h
          · exact ih h

theorem walk_append {links : Nat} {at_ front back r : List Bytes}
    (h : fs.walk links at_ (front ++ back) = some r) : ∃ r', fs.walk links at_ front = some r' := by
  induction links generalizing at_ front r with
  | zero => exact walkOn_append (fun _ _ _ h => by cases h) h
  | succ links ih =>
      have hnext : ∀ at' comps r', fs.walk links at' (comps ++ back) = some r' →
          ∃ r'', fs.walk links at' comps = some r'' := fun _ _ _ h => ih h
      exact walkOn_append hnext h

theorem locate_push {p : Path} {c : Bytes} (hc : c ≠ dotdot) :
    fs.locate (p.push c) = fs.locate p ++ [c] := by
  unfold FileSystem.locate
  rw [p.rooted_push]
  split
  · rfl
  · rw [Path.push, List.foldl_append, List.foldl_cons, List.foldl_nil, if_neg hc]

theorem locate_up (p : Path) : fs.locate p.up = (fs.locate p).dropLast := by
  unfold FileSystem.locate
  rw [p.rooted_up]
  split
  · rename_i hrooted
    rw [Path.up, if_pos (.inl hrooted)]
  · rename_i hrooted
    unfold Path.up
    split
    · rename_i hnot
      obtain ⟨hne, hlast⟩ := hnot.resolve_left hrooted
      rcases List.eq_nil_or_concat p.comps with hnil | ⟨front, c, hconcat⟩
      · exact absurd hnil hne
      · rw [hconcat, List.concat_eq_append] at hlast ⊢
        rw [List.getLast?_concat] at hlast
        dsimp only
        rw [List.dropLast_concat, List.foldl_append, List.foldl_cons, List.foldl_nil,
          if_neg fun heq => hlast (congrArg some heq), List.dropLast_concat]
    · rw [List.foldl_append, List.foldl_cons, List.foldl_nil, if_pos rfl]

/-- `EvalSymlinks` follows a path as a system call does. -/
theorem map_evalOn {next : Path → List Bytes → Option Path}
    {next' : List Bytes → List Bytes → Option (List Bytes)}
    (hnext : ∀ dest comps, (next dest comps).map fs.locate = next' (fs.locate dest) comps)
    (comps : List Bytes) (dest : Path) :
    (fs.evalOn next dest comps).map fs.locate = fs.walkOn next' (fs.locate dest) comps := by
  induction comps generalizing dest with
  | nil => rfl
  | cons c rest ih =>
      unfold FileSystem.evalOn FileSystem.walkOn
      by_cases hdot : c = [] ∨ c = dot
      · rw [if_pos hdot, if_pos hdot]
        exact ih dest
      rw [if_neg hdot, if_neg hdot]
      by_cases hup : c = dotdot
      · rw [if_pos hup, if_pos hup, ← locate_up]
        exact ih dest.up
      rw [if_neg hup, if_neg hup, ← locate_push hup]
      cases hnode : fs.lstat (fs.locate (dest.push c)) with
      | none => rfl
      | some node =>
          cases node with
          | link target =>
              dsimp only
              rw [hnext]
              split <;> rfl
          | file =>
              dsimp only
              split <;> rfl
          | dir entries => exact ih (dest.push c)

theorem map_eval (links : Nat) (dest : Path) (comps : List Bytes) :
    (fs.eval links dest comps).map fs.locate = fs.walk links (fs.locate dest) comps := by
  induction links generalizing dest comps with
  | zero => exact map_evalOn (fun _ _ => rfl) comps dest
  | succ links ih => exact map_evalOn ih comps dest

theorem map_evalSymlinks (p : Path) :
    (fs.evalSymlinks p).map fs.locate = fs.resolve 255 p := by
  unfold FileSystem.evalSymlinks FileSystem.resolve
  rw [map_eval]
  congr 1

/-- Only plain paths are rooted. -/
theorem plain_evalOn {next : Path → List Bytes → Option Path}
    (hnext : ∀ dest comps d, (dest.rooted = true → dest.Plain) → next dest comps = some d →
      d.rooted = true → d.Plain)
    {comps : List Bytes} {dest d : Path} (hdest : dest.rooted = true → dest.Plain)
    (h : fs.evalOn next dest comps = some d) (hd : d.rooted = true) : d.Plain := by
  induction comps generalizing dest with
  | nil =>
      cases h
      exact hdest hd
  | cons c rest ih =>
      unfold FileSystem.evalOn at h
      split at h
      · exact ih hdest h
      · rename_i hdot
        split at h
        · refine ih (fun hup => ?_) h
          have hplain := hdest (dest.rooted_up.symm.trans hup)
          exact hplain.up_eq ▸ hplain.dir
        · rename_i hup
          have hpush : (dest.push c).rooted = true → (dest.push c).Plain := fun hrooted =>
            (hdest hrooted).push ⟨fun heq => hdot (.inl heq), fun heq => hdot (.inr heq), hup⟩
          split at h
          · cases h
          · refine hnext _ _ _ ?_ h hd
            split
            · exact fun _ => Path.plain_root
            · exact hdest
          · split at h
            · cases h
              exact hpush hd
            · cases h
          · exact ih hpush h

theorem plain_eval {links : Nat} {comps : List Bytes} {dest d : Path}
    (hdest : dest.rooted = true → dest.Plain) (h : fs.eval links dest comps = some d)
    (hd : d.rooted = true) : d.Plain := by
  induction links generalizing dest comps d with
  | zero => exact plain_evalOn (fun _ _ _ _ h _ => by cases h) hdest h hd
  | succ links ih => exact plain_evalOn (fun _ _ _ hdest h hd => ih hdest h hd) hdest h hd

/-- What starts at the root stays there. -/
theorem rooted_evalOn {next : Path → List Bytes → Option Path}
    (hnext : ∀ dest comps d, dest.rooted = true → next dest comps = some d → d.rooted = true)
    {comps : List Bytes} {dest d : Path} (hdest : dest.rooted = true)
    (h : fs.evalOn next dest comps = some d) : d.rooted = true := by
  induction comps generalizing dest with
  | nil => exact Option.some.inj h ▸ hdest
  | cons c rest ih =>
      unfold FileSystem.evalOn at h
      split at h
      · exact ih hdest h
      · split at h
        · exact ih (dest.rooted_up.trans hdest) h
        · have hpush : (dest.push c).rooted = true := hdest
          split at h
          · cases h
          · refine hnext _ _ _ ?_ h
            split
            · rfl
            · exact hdest
          · split at h
            · exact Option.some.inj h ▸ hpush
            · cases h
          · exact ih hpush h

theorem rooted_eval {links : Nat} {comps : List Bytes} {dest d : Path}
    (hdest : dest.rooted = true) (h : fs.eval links dest comps = some d) : d.rooted = true := by
  induction links generalizing dest comps d with
  | zero => exact rooted_evalOn (fun _ _ _ _ h => by cases h) hdest h
  | succ links ih => exact rooted_evalOn (fun _ _ _ hdest h => ih hdest h) hdest h

/-- A rooted result of `EvalSymlinks` is the real path. -/
theorem evalSymlinks_rooted {p d : Path} (h : fs.evalSymlinks p = some d)
    (hd : d.rooted = true) : d.Plain ∧ fs.RealPath p d.comps := by
  refine ⟨plain_eval (fun _ => ⟨‹_›, fun _ hc => absurd hc List.not_mem_nil⟩) h hd, 255, ?_⟩
  have hmap := @map_evalSymlinks fs p
  rw [h, Option.map_some, FileSystem.locate, if_pos hd] at hmap
  exact hmap.symm

/-- Where a system call finds a rooted path, `EvalSymlinks` finds it too. -/
theorem evalSymlinks_of_resolve {p : Path} (hp : p.rooted = true) {r : List Bytes}
    (h : fs.resolve fs.maxLinks p = some r) :
    fs.evalSymlinks p = some ⟨true, r⟩ ∧ Path.Plain ⟨true, r⟩ := by
  have hresolve : fs.resolve 255 p = some r := walk_mono fs.maxLinks_le h
  rw [← map_evalSymlinks] at hresolve
  obtain ⟨d, heval, hlocate⟩ := Option.map_eq_some_iff.mp hresolve
  have hrooted : d.rooted = true := @rooted_eval fs 255 p.comps ⟨p.rooted, []⟩ d hp heval
  have hcomps : d.comps = r := by
    rw [← hlocate, FileSystem.locate, if_pos hrooted]
  have hd : d = ⟨true, r⟩ := by
    rw [← hrooted, ← hcomps]
  exact ⟨heval.trans (congrArg some hd), hd ▸ (evalSymlinks_rooted heval hrooted).1⟩

/-- The directory of a path that is found is found. -/
theorem resolve_dir {p : Path} {links : Nat} {r : List Bytes}
    (h : fs.resolve links p = some r) : ∃ r', fs.resolve links p.dir = some r' := by
  rcases List.eq_nil_or_concat p.comps with hnil | ⟨front, c, hconcat⟩
  · refine ⟨r, ?_⟩
    unfold FileSystem.resolve Path.dir at *
    rw [hnil] at h ⊢
    exact h
  · unfold FileSystem.resolve Path.dir at *
    rw [hconcat, List.concat_eq_append] at h ⊢
    rw [List.dropLast_concat]
    exact walk_append h

end Ps2Servers.Links
