import Ps2Servers.Lib.Aged
import Ps2Servers.Lib.Runs
import Ps2Servers.Smb1.Server

/-!
# FIDs and the files behind them

Both servers number their open files from 0x1001 to 0xffff and go on at 0x1000, whether the number
is in use or not. The ledger of a connection has the files of the system it has opened, those it
has closed, and those that stand under a FID, with the place each has among the opens. The files
of a connection stay accounted for as long as none is open when the 61440th open after its own
comes.
-/

namespace Ps2Servers.Smb1

open Runs

/-- How many numbers there are. -/
def FIDS : Nat := 0xF000

/-- The FID of the open at a place. -/
def fidAt (place : Nat) : Nat := 0x1000 + place % FIDS

theorem allocate_fidAt (place : Nat) : allocate (fidAt place) 0x1000 = fidAt (place + 1) := by
  unfold allocate fidAt FIDS
  split <;> omega

/-- Fewer opens apart than there are numbers, two opens have two FIDs. -/
theorem fidAt_inj {i j : Nat} (hle : i ≤ j) (hlt : j < i + FIDS) (h : fidAt i = fidAt j) : i = j := by
  unfold fidAt FIDS at *
  omega

/-- What stands under a FID: its file of the system, if it is no directory, and the place of the open
that made it. -/
structure File where
  fh : Option Nat
  opening : Nat
  deriving DecidableEq, Repr

/-- What has become of the files of a connection. Files of the system are numbered as they are
opened. -/
structure Ledger where
  opens : Nat
  files : List (Nat × File)
  opened : Nat
  closed : List Nat
  deriving DecidableEq, Repr

namespace Ledger

/-- The FIDs in use. -/
def fids (l : Ledger) : List Nat := l.files.map Prod.fst

/-- The files of the system under the FIDs. -/
def systemFiles (files : List (Nat × File)) : List Nat := files.filterMap fun e => e.2.fh

/-- A file of the system, or a directory, comes under a FID. -/
def record (l : Ledger) (fid : Nat) (dir : Bool) : Ledger where
  opens := l.opens + 1
  files := Tables.assign l.files fid ⟨if dir then none else some l.opened, l.opens + 1⟩
  opened := if dir then l.opened else l.opened + 1
  closed := l.closed

/-- Every file of the system that was opened has been closed and stands under no FID, or has not and
stands under exactly one; and a FID stands for one file. -/
structure Accounted (l : Ledger) : Prop where
  nodup : l.fids.Nodup
  files : ∀ h < l.opened, (h ∈ l.closed ∧ ∀ e ∈ l.files, e.2.fh ≠ some h) ∨
    (h ∉ l.closed ∧ ∃! fid, ∃ file, (fid, file) ∈ l.files ∧ file.fh = some h)

/-- No file of these is open when the next open comes that gets its FID. -/
def InTime (opens : Nat) (files : List (Nat × File)) : Prop :=
  ∀ e ∈ files, opens + 1 < e.2.opening + FIDS

/-- As `Accounted`, and the FIDs are those of opens that are not too long ago. -/
structure Inv (l : Ledger) : Prop where
  nodup : l.fids.Nodup
  handles : (l.closed ++ systemFiles l.files).Perm (List.range l.opened)
  fid : ∀ e ∈ l.files, e.1 = fidAt e.2.opening
  opening : ∀ e ∈ l.files, e.2.opening ≤ l.opens ∧ l.opens < e.2.opening + FIDS

theorem inv_new : Inv ⟨0, [], 0, []⟩ := by
  constructor
  · exact List.nodup_nil
  · exact List.Perm.refl _
  · exact fun e he => absurd he List.not_mem_nil
  · exact fun e he => absurd he List.not_mem_nil

theorem mem_handles {files : List (Nat × File)} {h : Nat} :
    h ∈ systemFiles files ↔ ∃ e ∈ files, e.2.fh = some h := List.mem_filterMap

/-- Two FIDs of one file are one FID. -/
theorem eq_of_handle {files : List (Nat × File)} (hnodup : (systemFiles files).Nodup) {e e' : Nat × File}
    (he : e ∈ files) (he' : e' ∈ files) {h : Nat} (hfh : e.2.fh = some h) (hfh' : e'.2.fh = some h) :
    e = e' := by
  induction files with
  | nil => cases he
  | cons f rest ih =>
      have hrest : (systemFiles rest).Nodup :=
        hnodup.sublist ((List.sublist_cons_self f rest).filterMap _)
      have hfirst (e : Nat × File) (he : e ∈ rest) (hf : f.2.fh = some h) : e.2.fh ≠ some h := by
        intro heq
        have hcons : systemFiles (f :: rest) = h :: systemFiles rest := List.filterMap_cons_some hf
        rw [hcons, List.nodup_cons] at hnodup
        exact hnodup.1 (List.mem_filterMap.mpr ⟨e, he, heq⟩)
      rcases List.mem_cons.mp he with hhead | hin
      · subst hhead
        rcases List.mem_cons.mp he' with hhead' | hin'
        · exact hhead'.symm
        · exact absurd hfh' (hfirst _ hin' hfh)
      · rcases List.mem_cons.mp he' with hhead' | hin'
        · subst hhead'
          exact absurd hfh (hfirst _ hin hfh')
        · exact ih hrest hin hin'

theorem Inv.accounted {l : Ledger} (h : l.Inv) : l.Accounted := by
  have hall : (l.closed ++ systemFiles l.files).Nodup := h.handles.nodup_iff.mpr List.nodup_range
  rw [List.nodup_append] at hall
  obtain ⟨_, hfiles, hapart⟩ := hall
  constructor
  · exact h.nodup
  · intro handle hlt
    have hmem : handle ∈ l.closed ++ systemFiles l.files :=
      h.handles.mem_iff.mpr (List.mem_range.mpr hlt)
    rcases List.mem_append.mp hmem with hclosed | hopen
    · left
      exact ⟨hclosed, fun e he heq =>
        hapart handle hclosed handle (mem_handles.mpr ⟨e, he, heq⟩) rfl⟩
    · right
      refine ⟨fun hclosed => hapart handle hclosed handle hopen rfl, ?_⟩
      obtain ⟨e, he, heq⟩ := mem_handles.mp hopen
      refine ⟨e.1, ⟨e.2, he, heq⟩, ?_⟩
      rintro fid ⟨file, hfile, hfh⟩
      have hsame := eq_of_handle hfiles hfile he hfh heq
      exact congrArg Prod.fst hsame

/-- The next FID is free as long as no file is open for too long. -/
theorem Inv.free_iff {l : Ledger} (h : l.Inv) :
    fidAt (l.opens + 1) ∉ l.fids ↔ InTime l.opens l.files := by
  constructor
  · intro hfree e he
    obtain ⟨hle, hlt⟩ := h.opening e he
    by_contra hlate
    have hplace : l.opens + 1 = e.2.opening + FIDS := by omega
    have hsame : fidAt (l.opens + 1) = e.1 := by
      rw [h.fid e he, hplace]
      unfold fidAt
      rw [Nat.add_mod_right]
    exact hfree (hsame ▸ List.mem_map_of_mem he)
  · intro htime hmem
    obtain ⟨e, he, heq⟩ := List.mem_map.mp hmem
    obtain ⟨hle, _⟩ := h.opening e he
    have hplace := fidAt_inj (by omega) (htime e he) ((h.fid e he).symm.trans heq)
    omega

theorem Inv.record {l : Ledger} (h : l.Inv) (htime : InTime l.opens l.files) (dir : Bool) :
    (l.record (fidAt (l.opens + 1)) dir).Inv := by
  have hassign := Aged.assign_of_not_mem (h.free_iff.mpr htime)
    (⟨if dir then none else some l.opened, l.opens + 1⟩ : File)
  have hFIDS : FIDS = 0xF000 := rfl
  constructor
  · exact Tables.nodup_assign h.nodup _ _
  · unfold Ledger.record
    dsimp only
    rw [hassign]
    unfold systemFiles
    rw [List.filterMap_append, ← List.append_assoc]
    cases dir with
    | true =>
        simp only [if_true, List.filterMap_cons_none, List.filterMap_nil, List.append_nil]
        exact h.handles
    | false =>
        simp only [Bool.false_eq_true, if_false]
        rw [List.range_succ]
        exact h.handles.append_right _
  · intro e he
    dsimp only [Ledger.record] at he
    rw [hassign] at he
    rcases List.mem_append.mp he with hold | hnew
    · exact h.fid e hold
    · rw [List.mem_singleton.mp hnew]
  · intro e he
    dsimp only [Ledger.record] at he ⊢
    rw [hassign] at he
    rcases List.mem_append.mp he with hold | hnew
    · have hopening := h.opening e hold
      have htime := htime e hold
      omega
    · rw [List.mem_singleton.mp hnew]
      dsimp only
      omega

/-! ## Runs -/

/-- Files are opened and closed; no FID is given. -/
structure Settles (l l' : Ledger) : Prop where
  opens : l'.opens = l.opens
  files : l'.files.Sublist l.files
  handles : (l.closed ++ systemFiles l.files).Perm (List.range l.opened) →
    (l'.closed ++ systemFiles l'.files).Perm (List.range l'.opened)

theorem Settles.refl (l : Ledger) : Settles l l := ⟨rfl, List.Sublist.refl _, fun h => h⟩

theorem Settles.trans {l l' l'' : Ledger} (h : Settles l l') (h' : Settles l' l'') :
    Settles l l'' :=
  ⟨h'.opens.trans h.opens, h'.files.trans h.files, fun hl => h'.handles (h.handles hl)⟩

theorem Settles.inv {l l' : Ledger} (h : Settles l l') (hl : l.Inv) : l'.Inv := by
  constructor
  · exact hl.nodup.sublist (h.files.map _)
  · exact h.handles hl.handles
  · exact fun e he => hl.fid e (h.files.subset he)
  · intro e he
    rw [h.opens]
    exact hl.opening e (h.files.subset he)

/-- A file of the system is opened and closed at once. -/
theorem settles_transient (l : Ledger) :
    Settles l { l with opened := l.opened + 1, closed := l.closed ++ [l.opened] } := by
  refine ⟨rfl, List.Sublist.refl _, fun h => ?_⟩
  dsimp only
  rw [List.range_succ, List.append_assoc]
  have hswap : ([l.opened] ++ systemFiles l.files).Perm (systemFiles l.files ++ [l.opened]) :=
    List.perm_append_comm
  have hmoved := hswap.append_left l.closed
  rw [← List.append_assoc l.closed (systemFiles l.files)] at hmoved
  exact hmoved.trans (h.append_right _)

/-- Files that leave the table are closed. -/
theorem settles_close (l : Ledger) {files : List (Nat × File)} {freed : List Nat}
    (hfiles : files.Sublist l.files)
    (hperm : (freed ++ systemFiles files).Perm (systemFiles l.files)) :
    Settles l { l with files := files, closed := l.closed ++ freed } := by
  refine ⟨rfl, hfiles, fun h => ?_⟩
  dsimp only
  rw [List.append_assoc]
  exact (hperm.append_left l.closed).trans h

/-- What one request does, where `room` are the files that stay when a FID is given. -/
inductive Step (l : Ledger) (room : List (Nat × File)) : Ledger → Prop
  | quiet {l' : Ledger} (h : Settles l l') : Step l room l'
  | opens {l' : Ledger} (h : Settles l l') (hroom : l'.files = room) (dir : Bool) :
      Step l room (l'.record (fidAt (l.opens + 1)) dir)

/-- A request that gives a FID gives one that is not in use, and afterwards all files are accounted
for. -/
structure Sound (l : Ledger) (room : List (Nat × File)) (fid : Nat) (l' : Ledger) : Prop where
  fresh : l'.opens ≠ l.opens → fid ∉ room.map Prod.fst
  accounted : l'.Accounted

theorem Step.quiet_or {l l' : Ledger} {room : List (Nat × File)} (h : Step l room l') :
    (l'.opens = l.opens ∧ Settles l l') ∨
      (l'.opens ≠ l.opens ∧ ∃ mid dir, Settles l mid ∧ mid.files = room ∧
        l' = mid.record (fidAt (l.opens + 1)) dir) := by
  cases h with
  | quiet h => exact Or.inl ⟨h.opens, h⟩
  | @opens mid h hroom dir =>
      right
      refine ⟨?_, mid, dir, h, hroom, rfl⟩
      have := h.opens
      dsimp only [Ledger.record]
      omega

theorem Step.given_iff {l l' : Ledger} {room : List (Nat × File)} (h : Step l room l') (hl : l.Inv)
    {fid : Nat} (hfid : l'.opens ≠ l.opens → fid = fidAt (l.opens + 1)) :
    (Sound l room fid l' ↔ (l'.opens ≠ l.opens → InTime l.opens room)) ∧
      ((l'.opens ≠ l.opens → InTime l.opens room) → l'.Inv) := by
  rcases h.quiet_or with ⟨hopens, hsettles⟩ | ⟨hopens, mid, dir, hsettles, rfl, rfl⟩
  · have hinv := hsettles.inv hl
    constructor
    · apply iff_of_true
      · exact ⟨fun hne => absurd hopens hne, hinv.accounted⟩
      · exact fun hne => absurd hopens hne
    · exact fun _ => hinv
  · have hmid := hsettles.inv hl
    have hfree := hmid.free_iff
    rw [hsettles.opens] at hfree
    have hinv (htime : InTime l.opens mid.files) : (mid.record (fidAt (l.opens + 1)) dir).Inv := by
      rw [← hsettles.opens] at htime ⊢
      exact hmid.record htime dir
    constructor
    · constructor
      · intro hsound _
        apply hfree.mp
        rw [← hfid hopens]
        exact hsound.fresh hopens
      · intro htime
        constructor
        · intro _
          rw [hfid hopens]
          exact hfree.mpr (htime hopens)
        · exact (hinv (htime hopens)).accounted
    · exact fun htime => hinv (htime hopens)

section Run

variable {σ α : Type} (step : σ → α → σ) (ledger : σ → Ledger)
  (room : σ → List (Nat × File)) (fid : σ → Nat)

/-- A request that gives a FID comes while no file that stays is open for too long. -/
def StepInTime (s : σ) (a : α) : Prop :=
  (ledger (step s a)).opens ≠ (ledger s).opens → InTime (ledger s).opens (room s)

/-- The request is sound. -/
def StepSound (s : σ) (a : α) : Prop :=
  Sound (ledger s) (room s) (fid (step s a)) (ledger (step s a))

variable {step ledger room fid} {good : σ → Prop}

/-- Over a run every request is sound if and only if every FID is given in time. -/
theorem run_sound_iff (hfid : ∀ s, good s → fid s = fidAt (ledger s).opens)
    (hstep : ∀ s a, good s → (ledger s).Inv →
      Step (ledger s) (room s) (ledger (step s a)) ∧ good (step s a))
    {s : σ} (hgood : good s) (hinv : (ledger s).Inv) (as : List α) :
    (Along step (StepSound step ledger room fid) s as ↔
      Along step (StepInTime step ledger room) s as) ∧
    (Along step (StepInTime step ledger room) s as →
      good (as.foldl step s) ∧ (ledger (as.foldl step s)).Inv) := by
  induction as generalizing s with
  | nil => exact ⟨Iff.rfl, fun _ => ⟨hgood, hinv⟩⟩
  | cons a rest ih =>
      obtain ⟨hone, hnext⟩ := hstep s a hgood hinv
      have hgiven : (ledger (step s a)).opens ≠ (ledger s).opens →
          fid (step s a) = fidAt ((ledger s).opens + 1) := by
        intro hne
        rw [hfid _ hnext]
        rcases hone.quiet_or with ⟨hopens, _⟩ | ⟨_, mid, dir, hsettles, _, heq⟩
        · exact absurd hopens hne
        · rw [heq]
          dsimp only [Ledger.record]
          rw [hsettles.opens]
      obtain ⟨hsound, hkept⟩ := hone.given_iff hinv hgiven
      constructor
      · constructor
        · rintro ⟨ha, hrest⟩
          have htime := hsound.mp ha
          exact ⟨htime, (ih hnext (hkept htime)).1.mp hrest⟩
        · rintro ⟨ha, hrest⟩
          exact ⟨hsound.mpr ha, (ih hnext (hkept ha)).1.mpr hrest⟩
      · rintro ⟨ha, hrest⟩
        exact (ih hnext (hkept ha)).2 hrest

end Run

/-- The end of a connection: all that is open is closed. -/
def finish (l : Ledger) : Ledger := { l with files := [], closed := l.closed ++ systemFiles l.files }

/-- Every file of the system that was opened has been closed once, and no other. -/
def AllClosed (l : Ledger) : Prop := l.files = [] ∧ l.closed.Perm (List.range l.opened)

theorem Inv.allClosed {l : Ledger} (h : l.Inv) : l.finish.AllClosed := ⟨rfl, h.handles⟩

end Ledger

end Ps2Servers.Smb1
