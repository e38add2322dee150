import Ps2Servers.WebUi.Browse

/-!
# Confinement of the file browser

With a root that can be resolved, what is listed is inside of it. Without roots the browser is not
confined, and a root that cannot be resolved stands for its text.
-/

namespace Ps2Servers.WebUi

open Links (Path FileSystem dotdot)

variable {F : Type} {fs : FileSystem} {roots : List Bytes}

/-- The real path is inside the real path of a root. -/
def InsideRoot (fs : FileSystem) (roots : List Bytes) (path : Path) : Prop :=
  ∃ root ∈ roots, ∃ at_ r, fs.RealPath (Path.ofText root) at_ ∧ fs.RealPath path r ∧ at_ <+: r

/-- What is listed is inside a root, and so is an offered parent. -/
def Confined (fs : FileSystem) (roots : List Bytes) : Response → Prop
  | .error _ _ => True
  | .roots _ => True
  | .listing path parent _ _ =>
      InsideRoot fs roots path ∧ ∀ up, parent = some up → InsideRoot fs roots up

/-- The real path is inside the text of a root that cannot be resolved. -/
def InsideText (fs : FileSystem) (roots : List Bytes) (path : Path) : Prop :=
  ∃ root ∈ roots, fs.evalSymlinks (Path.ofText root) = none ∧ (Path.ofText root).rooted = true ∧
    ∃ r, fs.RealPath path r ∧ (Path.ofText root).clean.comps <+: r

/-- The root that a path is compared with. -/
def compared (fs : FileSystem) (root : Bytes) : Path :=
  (fs.evalSymlinks (Path.ofText root)).getD (Path.ofText root)

theorem underRoot_isSome {path : Path} (hpath : path.Plain) :
    (underRoot fs path roots).isSome = true ↔ ∃ root ∈ roots, (compared fs root).rooted = true ∧
      (compared fs root).clean.comps <+: path.comps := by
  induction roots with
  | nil => exact iff_of_false Bool.false_ne_true fun ⟨_, hmem, _⟩ => absurd hmem List.not_mem_nil
  | cons root rest ih =>
      have hstep : (underRoot fs path (root :: rest)).isSome = true ↔
          (∃ rel, (compared fs root).rel path = some rel ∧ rel.head? ≠ some dotdot) ∨
            (underRoot fs path rest).isSome = true := by
        conv => lhs; unfold underRoot
        unfold compared
        dsimp only
        split
        · rename_i hnone
          rw [hnone]
          exact (or_iff_right fun ⟨_, h, _⟩ => by cases h).symm
        · rename_i rel hrel
          rw [hrel]
          by_cases hin : rel.head? ≠ some dotdot
          · rw [if_pos hin]
            exact iff_of_true rfl (.inl ⟨rel, rfl, hin⟩)
          · rw [if_neg hin]
            refine (or_iff_right ?_).symm
            rintro ⟨rel', heq, hin'⟩
            cases heq
            exact hin hin'
      have hhead : (∃ rel, (compared fs root).rel path = some rel ∧ rel.head? ≠ some dotdot) ↔
          (compared fs root).rooted = true ∧ (compared fs root).clean.comps <+: path.comps := by
        cases hrooted : (compared fs root).rooted with
        | true =>
            rw [Path.rel_iff_prefix (Path.plain_clean hrooted) hpath]
            exact (and_iff_right rfl).symm
        | false =>
            rw [Path.rel_of_not_rooted hrooted hpath.1]
            exact iff_of_false (fun ⟨_, h, _⟩ => by cases h) fun h => Bool.false_ne_true h.1
      rw [hstep, hhead, ih, List.exists_mem_cons_iff]

/-- A path that is found is within the roots when a root holds its real path, or the text of one
that cannot be resolved does. -/
theorem inside_of_within {path : Path} (hpath : path.rooted = true) {r : List Bytes}
    (hr : fs.resolve fs.maxLinks path = some r) (hne : roots ≠ [])
    (h : (withinBrowseRoots fs roots path).isSome = true) :
    InsideRoot fs roots path ∨ InsideText fs roots path := by
  obtain ⟨heval, hplain⟩ := Links.evalSymlinks_of_resolve hpath hr
  have hreal : fs.RealPath path r := ⟨_, hr⟩
  unfold withinBrowseRoots at h
  rw [if_neg hne, heval, Option.getD_some, underRoot_isSome hplain] at h
  obtain ⟨root, hmem, hrooted, hprefix⟩ := h
  unfold compared at hrooted hprefix
  cases hroot : fs.evalSymlinks (Path.ofText root) with
  | some d =>
      rw [hroot, Option.getD_some] at hrooted hprefix
      obtain ⟨hd, hdreal⟩ := Links.evalSymlinks_rooted hroot hrooted
      rw [hd.clean_eq] at hprefix
      exact .inl ⟨root, hmem, d.comps, r, hdreal, hreal, hprefix⟩
  | none =>
      rw [hroot, Option.getD_none] at hrooted hprefix
      exact .inr ⟨root, hmem, hroot, hrooted, r, hreal, hprefix⟩

theorem within_of_insideText {path : Path} (hpath : path.rooted = true) {r : List Bytes}
    (hr : fs.resolve fs.maxLinks path = some r) (h : InsideText fs roots path) :
    (withinBrowseRoots fs roots path).isSome = true := by
  obtain ⟨heval, hplain⟩ := Links.evalSymlinks_of_resolve hpath hr
  obtain ⟨root, hmem, hroot, hrooted, r', hr', hprefix⟩ := h
  have hreal : fs.RealPath path r := ⟨_, hr⟩
  obtain rfl := Links.RealPath.unique hreal hr'
  unfold withinBrowseRoots
  rw [if_neg (List.ne_nil_of_mem hmem), heval, Option.getD_some, underRoot_isSome hplain]
  refine ⟨root, hmem, ?_⟩
  unfold compared
  rw [hroot, Option.getD_none]
  exact ⟨hrooted, hprefix⟩

/-! ## When the browser is confined -/

/-- Whatever is inside the text of a root is inside a root. -/
def Vouched (fs : FileSystem) (roots : List Bytes) (path : Path) : Prop :=
  InsideText fs roots path → InsideRoot fs roots path

/-- The path that a request asks for. -/
def asked (roots : List Bytes) (r : Request) : Option Bytes :=
  if r.path ≠ [] then some r.path
  else
    match roots with
    | [] => some [0x2f]
    | [root] => some root
    | _ => none

/-- There is a root, and no text of a root vouches for the directory or for its parent. -/
def Guarded (fs : FileSystem) (noBrowse : Bool) (roots : List Bytes) (r : Request) : Prop :=
  r.isGet = true → noBrowse = false → ∀ text, asked roots r = some text →
    (Path.ofText text).rooted = true → (fs.readDir (Path.ofText text).clean).isSome = true →
      roots ≠ [] ∧ Vouched fs roots (Path.ofText text).clean ∧
        ∀ root, withinBrowseRoots fs roots (Path.ofText text).clean = some root →
          (Path.ofText text).clean.dir ≠ (Path.ofText text).clean →
            (Path.ofText text).clean ≠ root → Vouched fs roots (Path.ofText text).clean.dir

theorem resolve_of_readDir {path : Path} (h : (fs.readDir path).isSome = true) :
    ∃ r, fs.resolve fs.maxLinks path = some r := by
  unfold FileSystem.readDir at h
  split at h
  · cases h
  · exact ⟨_, ‹_›⟩

/-- The listing of one path. -/
theorem confined_listPath_iff {path : Path} (hpath : path.rooted = true) :
    Confined fs roots (listPath fs roots path) ↔
      ((fs.readDir path).isSome = true → roots ≠ [] ∧ Vouched fs roots path ∧
        ∀ root, withinBrowseRoots fs roots path = some root → path.dir ≠ path → path ≠ root →
          Vouched fs roots path.dir) := by
  unfold listPath
  cases hwithin : withinBrowseRoots fs roots path with
  | none =>
      refine iff_of_true trivial fun hread => ?_
      obtain ⟨r, hr⟩ := resolve_of_readDir hread
      refine ⟨?_, fun htext => ?_, fun root hroot => by cases hroot⟩
      · rintro rfl
        cases hwithin
      · have hsome := within_of_insideText hpath hr htext
        rw [hwithin] at hsome
        cases hsome
  | some root =>
      dsimp only
      cases hread : fs.readDir path with
      | none => exact iff_of_true trivial fun h => by cases h
      | some entries =>
          obtain ⟨r, hr⟩ := resolve_of_readDir (Option.isSome_iff_exists.mpr ⟨entries, hread⟩)
          obtain ⟨r', hr'⟩ := Links.resolve_dir hr
          have hdir : path.dir.rooted = true := hpath
          change InsideRoot fs roots path ∧ _ ↔ _
          rw [forall_prop_of_true Option.isSome_some]
          constructor
          · rintro ⟨hinside, hparent⟩
            refine ⟨?_, fun _ => hinside, ?_⟩
            · obtain ⟨_, hmem, _⟩ := hinside
              exact List.ne_nil_of_mem hmem
            · intro root' hroot' hdirne hrootne htext
              cases hroot'
              apply hparent
              exact if_pos ⟨hdirne, hrootne, within_of_insideText hdir hr' htext⟩
          · rintro ⟨hne, hvouched, hparent⟩
            have hinside : ∀ {q : Path} {s : List Bytes}, q.rooted = true →
                fs.resolve fs.maxLinks q = some s →
                (withinBrowseRoots fs roots q).isSome = true → Vouched fs roots q →
                InsideRoot fs roots q :=
              fun hq hs hin hv => (inside_of_within hq hs hne hin).elim id hv
            refine ⟨hinside hpath hr (by rw [hwithin]; rfl) hvouched, ?_⟩
            intro up hup
            split at hup
            · rename_i hoffered
              cases hup
              exact hinside hdir hr' hoffered.2.2 (hparent root rfl hoffered.1 hoffered.2.1)
            · cases hup

theorem handleBrowse_eq (noBrowse : Bool) (r : Request) (hget : r.isGet = true)
    (hbrowse : noBrowse = false) {text : Bytes} (htext : asked roots r = some text) :
    handleBrowse fs noBrowse roots r = browsePath fs roots text := by
  unfold asked at htext
  unfold handleBrowse
  rw [hget, hbrowse]
  split at htext
  · rename_i hpath
    cases htext
    exact if_pos hpath
  · rename_i hpath
    split at htext
    · cases htext
      exact if_neg hpath
    · cases htext
      exact if_neg hpath
    · cases htext

/-- Without `BrowseAnywhere`, a response keeps to the roots exactly when the request is guarded. -/
theorem browse_confined_iff (fs : FileSystem) (cfg : BrowseConfig) (loaded : Option (EdgeConfig F))
    (r : Request) :
    (cfg.browseAnywhere = false →
        Confined fs (browseRoots cfg loaded) (browse fs cfg loaded r)) ↔
      (cfg.browseAnywhere = false → Guarded fs cfg.noBrowse (browseRoots cfg loaded) r) := by
  refine imp_congr_right fun _ => ?_
  unfold browse Guarded
  generalize browseRoots cfg loaded = roots
  cases hget : r.isGet with
  | false =>
      unfold handleBrowse
      rw [hget]
      exact iff_of_true trivial fun h => by cases h
  | true =>
      rw [forall_prop_of_true rfl]
      cases hbrowse : cfg.noBrowse with
      | true =>
          unfold handleBrowse
          rw [hget]
          exact iff_of_true trivial fun h => by cases h
      | false =>
          rw [forall_prop_of_true rfl]
          cases htext : asked roots r with
          | none =>
              have hroots : handleBrowse fs false roots r = .roots roots := by
                unfold asked at htext
                unfold handleBrowse
                rw [hget]
                split at htext
                · cases htext
                · rename_i hpath
                  rw [if_neg (by decide), if_neg (by decide), if_neg hpath]
                  match roots, htext with
                  | [], h => cases h
                  | [_], h => cases h
                  | _ :: _ :: _, _ => rfl
              rw [hroots]
              exact iff_of_true trivial fun _ h => by cases h
          | some text =>
              rw [handleBrowse_eq false r hget rfl htext]
              unfold browsePath
              by_cases hrooted : (Path.ofText text).rooted = true
              · rw [if_pos hrooted,
                  confined_listPath_iff ((Path.rooted_clean _).trans hrooted)]
                constructor
                · intro h text' heq _
                  cases heq
                  exact h
                · intro h
                  exact h text rfl hrooted
              · rw [if_neg hrooted]
                refine iff_of_true trivial fun text' heq hrooted' => ?_
                cases heq
                exact absurd hrooted' hrooted

/-! A configuration that cannot be read, and a system with the directories `/` and `/etc`. -/

def smallSystem : FileSystem where
  lstat at_ := if at_ = [] ∨ at_ = [ascii "etc"] then some (.dir (some [])) else none
  cwd := []
  maxLinks := 40
  maxLinks_le := by decide

theorem browse_unconfined :
    ¬((⟨[], false, false⟩ : BrowseConfig).browseAnywhere = false →
      Confined smallSystem (browseRoots ⟨[], false, false⟩ (none : Option (EdgeConfig Nat)))
        (browse smallSystem ⟨[], false, false⟩ (none : Option (EdgeConfig Nat))
          ⟨true, ascii "/etc"⟩)) := by
  intro h
  have hlisted : browse smallSystem ⟨[], false, false⟩ (none : Option (EdgeConfig Nat))
      ⟨true, ascii "/etc"⟩ = .listing ⟨true, [ascii "etc"]⟩ (some ⟨true, []⟩) [] [] := by
    decide +kernel
  rw [hlisted] at h
  obtain ⟨⟨root, hmem, -⟩, -⟩ := h rfl
  exact absurd hmem List.not_mem_nil

end Ps2Servers.WebUi
