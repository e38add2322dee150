import Ps2Servers.Udpfs.Contents

/-!
# Stats and names that can be sent

A time is sent with sixteen bits for its year. One that the host cannot tell is sent as none, but a
year that does not fit, or another exception of `time.localtime`, ends the request. The alias of an
image is encoded when a folder is listed, and its times, too.
-/

namespace Ps2Servers.Udpfs

open Text

variable {H V B : Type} (env : Env H V B)

/-! ## Conditions -/

/-- A time that can be sent, or that the host cannot tell. -/
def TimeFits (timestamp : Int) : Prop :=
  match env.host.localtime timestamp with
  | .ok t => 0 ≤ t.year ∧ t.year < 0x10000
  | .error e => e.isOSError || e.isValueError

/-- All three times of a file. -/
def StatFits (st : Stat) : Prop := ∀ t ∈ [st.ctime, st.atime, st.mtime], TimeFits env t

/-- A time whose exception is one of the errors of an image: a year that does not fit. -/
def TimeRefused (timestamp : Int) : Prop :=
  match env.host.localtime timestamp with
  | .ok t => ¬ (0 ≤ t.year ∧ t.year < 0x10000)
  | .error e => e = .importError ∨ e = .structError

/-- Times that are encoded one after the other, up to the first whose year does not fit. -/
def TimesEnd : List Int → Prop
  | [] => True
  | t :: rest => TimeRefused env t ∨ TimeFits env t ∧ TimesEnd rest

/-- An entry of a folder under its alias, unless a file has the name: the alias can be encoded, and
where it is short enough, and the source can be looked at and is an image, the times fit. -/
def AliasFits (h : H) (realNames : List Str) (entry : Entry) : Prop :=
  let name := transformCompressedName env entry.name
  name = entry.name ∨ realNames.contains name ∨
    ∃ bytes, encode name = some bytes ∧
      (255 < bytes.length ∨ ∀ st, env.host.lstat h entry.path = .ok st →
        (getCompressedInfo env.host h entry.path).isSome → StatFits env st)

/-- A view of a folder whose source can be looked at. -/
def ViewFits (h : H) (entries : List Entry) (view : V) : Prop :=
  ∀ source st,
    (entries.reverse.find? fun e =>
      env.host.abspath e.path = env.host.abspath (env.views.chdPath view)) = some source →
    env.host.lstat h source.path = .ok st → StatFits env st

/-- All that is advertised of a folder. -/
def ListingFits (h : H) (entries : List Entry) : Prop :=
  let directory :=
    match entries with
    | [] => env.cfg.rootDir
    | entry :: _ => some (dirname env.host entry.path)
  (∀ entry ∈ entries, AliasFits env h (entries.map Entry.name) entry) ∧
    (env.cfg.enableCompression → ∀ p ∈ env.views.listVirtualEntries h directory entries,
      ViewFits env h entries p.2)

/-! ## Calls that fit -/

/-- A call that returns just under a condition, and else raises no `OSError`. -/
inductive Fits {α : Type} (fits : Prop) : Except Exn α → Prop
  | ok (a : α) (h : fits) : Fits fits (.ok a)
  | error (e : Exn) (he : e.isOSError = false) (hnot : ¬ fits) : Fits fits (.error e)

section

variable {α β : Type} {p q : Prop} {r : Except Exn α}

theorem Fits.of_iff (hr : Fits p r) (hiff : q ↔ p) : Fits q r := by
  cases hr with
  | ok a h => exact .ok a (hiff.mpr h)
  | error e he hnot => exact .error e he fun hq => hnot (hiff.mp hq)

theorem Fits.bind {f : α → Except Exn β} (hr : Fits p r) (hf : ∀ a, r = .ok a → Fits q (f a)) :
    Fits (p ∧ q) (r >>= f) := by
  cases hr with
  | ok a h => exact (hf a rfl).of_iff (and_iff_right h)
  | error e he hnot => exact .error e he fun hpq => hnot hpq.1

theorem Fits.bind_pure {f : α → β} (hr : Fits p r) : Fits p (r >>= fun a => .ok (f a)) := by
  cases hr with
  | ok a h => exact .ok _ h
  | error e he hnot => exact .error e he hnot

theorem Fits.map {f : α → β} (hr : Fits p r) : Fits p (f <$> r) := by
  cases hr with
  | ok a h => exact .ok _ h
  | error e he hnot => exact .error e he hnot

/-- What a call that fits means to a request that answers an errno. -/
theorem Fits.errnoThen (hr : Fits p r) (next : Prop) :
    ErrnoThen r (fun _ => next) ↔ p ∧ next := by
  cases hr with
  | ok a h => exact (and_iff_right h).symm
  | error e he hnot => exact iff_of_false (Exn.not_hasErrno he) fun hpn => hnot hpn.1

theorem Fits.returnsThen (hr : Fits p r) (next : Prop) :
    ReturnsThen r (fun _ => next) ↔ p ∧ next := by
  cases hr with
  | ok a h => exact (and_iff_right h).symm
  | error e he hnot => exact iff_of_false id fun hpn => hnot hpn.1

end

theorem fits_encodeTime (timestamp : Int) :
    Fits (TimeFits env timestamp) (encodeTime env timestamp) := by
  unfold encodeTime TimeFits
  cases env.host.localtime timestamp with
  | ok t =>
      dsimp only
      split
      case isTrue hyear => exact .ok _ hyear
      case isFalse hyear => exact .error _ rfl hyear
  | error e =>
      dsimp only
      split
      case isTrue htold => exact .ok _ htold
      case isFalse htold =>
        rw [Bool.not_eq_true, Bool.or_eq_false_iff] at htold
        exact .error e htold.1 (by rw [htold.1, htold.2]; decide)

theorem fits_statFields (mode size : Nat) (st : Stat) :
    Fits (StatFits env st) (statFields env mode size st) := by
  have htimes := (fits_encodeTime env st.ctime).bind fun ctime _ =>
    (fits_encodeTime env st.atime).bind fun atime _ =>
      (fits_encodeTime env st.mtime).bind_pure (f := fun mtime =>
        (⟨mode, 0, size % 0x100000000, size / 0x100000000 % 0x100000000, ctime, atime, mtime⟩ :
          StatInfo))
  exact htimes.of_iff (by simp [StatFits])

theorem fits_statToBytes (st : Stat) : Fits (StatFits env st) (statToBytes env st) :=
  fits_statFields env _ _ st

theorem fits_virtualStat (view : V) (st : Stat) : Fits (StatFits env st) (virtualStat env view st) :=
  fits_statFields env _ _ st

theorem fits_getCompressedStat (h : H) (path : Str) (st : Stat) :
    Fits ((getCompressedInfo env.host h path).isSome → StatFits env st)
      (getCompressedStat env h path st) := by
  unfold getCompressedStat
  cases getCompressedInfo env.host h path with
  | none => exact .ok _ nofun
  | some size => exact (fits_statFields env _ size st).map.of_iff (forall_prop_of_true rfl)

variable {env}

/-- The fields of an image are those of its contents or of the container: the times are the same. -/
theorem fits_imageFields (h : H) (path : Str) (st : Stat) :
    Fits (StatFits env st) (imageFields env h path st) := by
  unfold imageFields getCompressedStat
  cases getCompressedInfo env.host h path with
  | none => exact fits_statToBytes env st
  | some size =>
      have hfields := fits_statFields env FIO_S_IFREG size st
      dsimp only
      generalize statFields env FIO_S_IFREG size st = r at hfields ⊢
      cases hfields with
      | ok info hfits => exact .ok info hfits
      | error e he hnot => exact .error e he hnot

/-! ## Listings -/

theorem fits_collect {α β : Type} {f : α → Except Exn (Option β)} {p : α → Prop}
    (hf : ∀ a, Fits (p a) (f a)) (l : List α) : Fits (∀ a ∈ l, p a) (collect f l) := by
  induction l with
  | nil => exact .ok _ nofun
  | cons a rest ih =>
      have hrest := (hf a).bind fun b _ => ih.bind_pure (f := fun bs => b.toList ++ bs)
      exact hrest.of_iff List.forall_mem_cons

theorem fits_advertise (h : H) (realNames : List Str) (entry : Entry) :
    Fits (AliasFits env h realNames entry) (advertise env h realNames entry) := by
  unfold advertise AliasFits
  dsimp only
  split
  case isTrue hsame => exact .ok _ (Or.inl hsame)
  case isFalse hother =>
  split
  case isTrue hreal => exact .ok _ (Or.inr (Or.inl hreal))
  case isFalse hreal =>
  refine Fits.of_iff ?_ ((or_iff_right hother).trans (or_iff_right hreal))
  cases encode (transformCompressedName env entry.name) with
  | none =>
      refine .error .valueError rfl ?_
      rintro ⟨bytes, hbytes, -⟩
      cases hbytes
  | some bytes =>
      have hiff (p : Prop) : (∃ bytes', some bytes = some bytes' ∧
          (255 < bytes'.length ∨ p)) ↔ (255 < bytes.length ∨ p) := by simp
      refine Fits.of_iff ?_ (hiff _)
      change Fits _ (if 255 < bytes.length then _ else _)
      split
      case isTrue hlong => exact .ok _ (Or.inl hlong)
      case isFalse hshort =>
        refine Fits.of_iff ?_ (or_iff_right hshort)
        cases env.host.lstat h entry.path with
        | error errno => exact .ok _ nofun
        | ok st =>
            have hinfo := (fits_getCompressedStat env h entry.path st).bind_pure
              (f := fun info => info.map fun info =>
                (⟨transformCompressedName env entry.name, entry, some st, some info, none⟩ :
                  Advertised V))
            exact hinfo.of_iff (by simp)

theorem fits_advertiseView (h : H) (entries : List Entry) (name : Str) (view : V) :
    Fits (ViewFits env h entries view) (advertiseView env h entries name view) := by
  unfold advertiseView ViewFits
  dsimp only
  cases entries.reverse.find? fun e =>
      env.host.abspath e.path = env.host.abspath (env.views.chdPath view) with
  | none => exact .ok _ (by simp)
  | some source =>
      dsimp only
      cases hstat : env.host.lstat h source.path with
      | error errno =>
          refine .ok _ ?_
          rintro source' st ⟨⟩ hst
          rw [hstat] at hst
          cases hst
      | ok st =>
          have hinfo := (fits_virtualStat env view st).bind_pure (f := fun info =>
            some (⟨name, source, some st, some info, some view⟩ : Advertised V))
          refine hinfo.of_iff ⟨fun hall => hall source st rfl hstat, ?_⟩
          rintro hst source' st' ⟨⟩ hst'
          rw [hstat] at hst'
          cases hst'
          exact hst

theorem fits_prepareDirectoryEntries (h : H) (entries : List Entry) :
    Fits (ListingFits env h entries) (prepareDirectoryEntries env h entries) := by
  unfold prepareDirectoryEntries ListingFits
  refine (fits_collect (fits_advertise h (entries.map Entry.name)) entries).bind fun prepared _ => ?_
  by_cases henabled : env.cfg.enableCompression = true
  · rw [if_pos henabled]
    exact ((fits_collect (fun p : Str × V => fits_advertiseView h entries p.1 p.2) _).bind_pure
      (f := fun virtual => prepared ++ virtual)).of_iff (forall_prop_of_true henabled)
  · rw [if_neg henabled]
    exact .ok _ fun hon => absurd hon henabled

/-! ## Times of a view that opens -/

theorem imageThen_encodeTime {α : Type} (timestamp : Int) {f : Bytes → Except Exn α}
    {next : α → Prop} {rest : Prop} (hf : ∀ bytes, ImageThen (f bytes) next ↔ rest) :
    ImageThen (encodeTime env timestamp >>= f) next ↔
      TimeRefused env timestamp ∨ TimeFits env timestamp ∧ rest := by
  unfold encodeTime TimeRefused TimeFits
  cases env.host.localtime timestamp with
  | ok t =>
      dsimp only
      by_cases hyear : 0 ≤ t.year ∧ t.year < 0x10000
      · rw [if_pos hyear]
        refine (hf _).trans ?_
        simp [hyear]
      · rw [if_neg hyear]
        exact iff_of_true rfl (Or.inl hyear)
  | error e =>
      dsimp only
      by_cases htold : (e.isOSError || e.isValueError) = true
      · rw [if_pos htold]
        have hnot : ¬ (e = .importError ∨ e = .structError) := by
          rintro (rfl | rfl) <;> cases htold
        refine (hf _).trans ?_
        rw [or_iff_right hnot, and_iff_right htold]
      · rw [if_neg htold]
        have hrefused : e.isImageError ↔ e = .importError ∨ e = .structError := by
          rw [Bool.not_eq_true, Bool.or_eq_false_iff] at htold
          simp [Exn.isImageError, htold.1, htold.2]
        exact hrefused.trans (or_iff_left fun hboth => htold hboth.1).symm

theorem imageThen_virtualStat (view : V) (st : Stat) :
    ImageThen (virtualStat env view st) (fun _ => True) ↔
      TimesEnd env [st.ctime, st.atime, st.mtime] := by
  refine imageThen_encodeTime st.ctime fun ctime => imageThen_encodeTime st.atime fun atime =>
    imageThen_encodeTime st.mtime fun mtime => ?_
  exact Iff.rfl

end Ps2Servers.Udpfs
