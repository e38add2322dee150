import Ps2Servers.Smb1.Ages
import Ps2Servers.Smb1.Ledger

/-!
# The FIDs of Edge

The ledger of a connection of the Go server. A FID is given when the oldest files have gone to make
room, so the files that stay are those that must not be open for too long.
-/

namespace Ps2Servers.Smb1.Edge

open Runs Ledger

variable {H : Type} {ops : Ops H} {cfg : Config} {r : Req} {w : World H}

/-- What the ledger has of an open file. -/
def OpenFile.file (f : OpenFile) : File := ⟨f.fh, f.opening⟩

/-- The entries of a table of files, as the ledger has them. -/
def shown (entries : List (UInt16 × OpenFile)) : List (Nat × File) :=
  entries.map (Prod.map UInt16.toNat OpenFile.file)

/-- The ledger of a connection. -/
def World.ledger (w : World H) : Ledger := ⟨w.opens, shown w.conn.files.entries, w.opened, w.closed⟩

/-- The files that stay when room is made for one more. -/
def World.room (w : World H) : List (Nat × File) :=
  shown (w.conn.files.evict MaxOpenFiles).1.entries

/-- The FID given last. -/
def World.fid (w : World H) : Nat := w.conn.nextFID.toNat

theorem alloc_toNat (next start : UInt16) :
    (alloc next start).toNat = allocate next.toNat start.toNat := by
  unfold alloc allocate
  have hsucc : (next + 1).toNat = (next.toNat + 1) % 0x10000 := UInt16.toNat_add next 1
  have hzero : next + 1 = 0 ↔ (next.toNat + 1) % 0x10000 = 0 := by
    rw [← UInt16.toNat_inj, hsucc]
    rfl
  by_cases h : next + 1 = 0
  · rw [if_pos h, if_pos (hzero.mp h)]
  · rw [if_neg h, if_neg (mt hzero.mpr h), hsucc]

theorem fst_shown (entries : List (UInt16 × OpenFile)) :
    (shown entries).map Prod.fst = (entries.map Prod.fst).map UInt16.toNat := by
  unfold shown
  rw [List.map_map, List.map_map]
  rfl

theorem systemFiles_shown (entries : List (UInt16 × OpenFile)) :
    systemFiles (shown entries) = (entries.map Prod.snd).filterMap OpenFile.fh := by
  unfold systemFiles shown
  rw [List.filterMap_map, List.filterMap_map]
  rfl

theorem shown_put (t : Aged UInt16 OpenFile) (fid : UInt16) (f : OpenFile) :
    shown (t.put fid f).entries = Tables.assign (shown t.entries) fid.toNat f.file :=
  Tables.map_assign (fun _ _ h => UInt16.toNat_inj.mp h) OpenFile.file t.entries fid f

/-- No FID is twice in the table. -/
theorem nodup_keys (h : w.ledger.Inv) : w.conn.files.keys.Nodup := by
  have hnodup := h.nodup
  unfold Ledger.fids World.ledger at hnodup
  rw [fst_shown] at hnodup
  exact hnodup.of_map _

/-! ## What a request does to the ledger -/

theorem Touch.settles {w' : World H} (h : Touch w w') : Settles w.ledger w'.ledger := by
  cases h with
  | host host => exact Settles.refl _
  | transient host => exact settles_transient _

theorem Touch.opens {w' : World H} (h : Touch w w') : w'.opens = w.opens := by
  cases h with
  | host host => rfl
  | transient host => rfl

/-- The ledger when room is made. -/
theorem settles_evict (hnodup : w.conn.files.keys.Nodup) :
    Settles w.ledger { w.ledger with
      files := w.room
      closed := w.closed ++ (w.conn.files.evict MaxOpenFiles).2.filterMap OpenFile.fh } := by
  apply settles_close
  · exact (Aged.evict_sublist MaxOpenFiles w.conn.files).map _
  · have hperm := (Aged.evict_perm MaxOpenFiles hnodup).filterMap OpenFile.fh
    rw [List.filterMap_append] at hperm
    unfold World.room World.ledger
    rw [systemFiles_shown, systemFiles_shown]
    exact hperm

theorem settles_closeFile (hnodup : w.conn.files.keys.Nodup) (fid : UInt16) :
    Settles w.ledger { w.ledger with
      files := shown (w.conn.files.remove fid).entries
      closed := w.closed ++ (w.conn.files.entries.lookup fid).toList.filterMap OpenFile.fh } := by
  apply settles_close
  · rw [Aged.remove_entries]
    exact List.filter_sublist.map _
  · have hperm := (Aged.perm_delete hnodup fid).filterMap OpenFile.fh
    rw [List.filterMap_append] at hperm
    unfold World.ledger
    rw [systemFiles_shown, systemFiles_shown, Aged.remove_entries]
    exact hperm

/-- A connection is as it was, but for the host and for files that were opened and closed. -/
theorem Touch.step {w' : World H} (h : Touch w w') (hfid : w.fid = fidAt w.opens) :
    Step w.ledger w.room w'.ledger ∧ w'.fid = fidAt w'.opens := by
  constructor
  · exact .quiet h.settles
  · unfold World.fid
    rw [h.conn, h.opens]
    exact hfid

/-- The ledger does not show what happens to the trees and the searches. -/
theorem step_of_eq {w' : World H} (hledger : w'.ledger = w.ledger) (hnext : w'.fid = w.fid)
    (hfid : w.fid = fidAt w.opens) :
    Step w.ledger w.room w'.ledger ∧ w'.fid = fidAt w'.opens := by
  constructor
  · rw [hledger]
    exact .quiet (Settles.refl _)
  · have hopens : w'.opens = w.opens := congrArg Ledger.opens hledger
    rw [hnext, hopens]
    exact hfid

/-- A file, or a directory, gets a FID when room was made. -/
theorem step_addFile {w' : World H} (h : Touch w w') (hfid : w.fid = fidAt w.opens)
    (hnodup : w.conn.files.keys.Nodup) (path : String) (dir : Bool) (size : Nat) :
    let w₁ := if dir then w' else { w' with opened := w'.opened + 1 }
    let w₂ := (addFile w₁ path (if dir then none else some w'.opened) dir size).2
    Step w.ledger w.room w₂.ledger ∧ w₂.fid = fidAt w₂.opens := by
  intro w₁ w₂
  have hnodup' : w'.conn.files.keys.Nodup := by
    rw [h.conn]
    exact hnodup
  have hroom : w'.room = w.room := by
    unfold World.room
    rw [h.conn]
  have hnext : (alloc w'.conn.nextFID 0x1000).toNat = fidAt (w.opens + 1) := by
    rw [h.conn, alloc_toNat]
    have hold : w.conn.nextFID.toNat = fidAt w.opens := hfid
    rw [hold]
    exact allocate_fidAt w.opens
  constructor
  · have hmid := h.settles.trans (settles_evict hnodup')
    have hstep : Step w.ledger w.room _ := .opens hmid hroom dir
    have hledger : w₂.ledger = (({ w'.ledger with
        files := w'.room
        closed := w'.closed ++ (w'.conn.files.evict MaxOpenFiles).2.filterMap OpenFile.fh } :
          Ledger).record (fidAt (w.opens + 1)) dir) := by
      unfold w₂ w₁
      cases dir with
      | true =>
          unfold Ledger.record World.ledger addFile World.closeAll World.room
          simp only [if_true]
          rw [shown_put, hnext]
          rfl
      | false =>
          unfold Ledger.record World.ledger addFile World.closeAll World.room
          simp only [Bool.false_eq_true, if_false]
          rw [shown_put, hnext]
          rfl
    rw [hledger]
    exact hstep
  · have hw₂ : w₂.fid = (alloc w'.conn.nextFID 0x1000).toNat := by
      unfold w₂ w₁
      cases dir with
      | true => rfl
      | false => rfl
    have hopens : w₂.opens = w.opens + 1 := by
      rw [← h.opens]
      unfold w₂ w₁
      cases dir with
      | true => rfl
      | false => rfl
    rw [hw₂, hnext, hopens]

theorem Edit.step {w' : World H} (h : Edit w r w') (hfid : w.fid = fidAt w.opens)
    (hinv : w.ledger.Inv) : Step w.ledger w.room w'.ledger ∧ w'.fid = fidAt w'.opens := by
  have hnodup := nodup_keys hinv
  cases h with
  | keep h => exact h.step hfid
  | login uid => exact step_of_eq rfl rfl hfid
  | room hcmd => exact step_of_eq rfl rfl hfid
  | connect hcmd share => exact step_of_eq rfl rfl hfid
  | disconnect hcmd => exact step_of_eq rfl rfl hfid
  | logoff => exact step_of_eq rfl rfl hfid
  | directory h hcmd path => exact step_addFile h hfid hnodup path true 0
  | file h hcmd path size => exact step_addFile h hfid hnodup path false size
  | close fid => exact ⟨.quiet (settles_closeFile hnodup fid), hfid⟩
  | find hcmd hsetup search => exact step_of_eq rfl rfl hfid
  | next f => exact step_of_eq rfl rfl hfid
  | finish hcmd hsetup search hsearch hdone => exact step_of_eq rfl rfl hfid

/-! ## Runs -/

/-- A request that gives a FID gives one that is not in use, and all files are accounted for. -/
def FidSound (ops : Ops H) (cfg : Config) : World H → Req → Prop :=
  StepSound (step ops cfg) World.ledger World.room World.fid

/-- A request that gives a FID comes while no file that stays was opened 61440 opens before. -/
def FidInTime (ops : Ops H) (cfg : Config) : World H → Req → Prop :=
  StepInTime (step ops cfg) World.ledger World.room

theorem ledger_cleanup (w : World H) : (cleanup w).ledger = w.ledger.finish := by
  unfold cleanup World.ledger Ledger.finish World.closeAll
  rw [systemFiles_shown]
  rfl

theorem edge_fids (ops : Ops H) (cfg : Config) (host : H) (reqs : List Req) :
    (Along (step ops cfg) (FidSound ops cfg) (World.new host) reqs ↔
      Along (step ops cfg) (FidInTime ops cfg) (World.new host) reqs) ∧
    (Along (step ops cfg) (FidInTime ops cfg) (World.new host) reqs →
      (cleanup (reqs.foldl (step ops cfg) (World.new host))).ledger.AllClosed) := by
  have hrun := @run_sound_iff (World H) Req (step ops cfg) World.ledger World.room World.fid
    (fun w => w.fid = fidAt w.opens) (fun _ h => h)
    (fun w r hfid hinv => (edit_step ops cfg w r).step hfid hinv) (World.new host) rfl inv_new reqs
  refine ⟨hrun.1, fun h => ?_⟩
  rw [ledger_cleanup]
  exact (hrun.2 h).2.allClosed

end Ps2Servers.Smb1.Edge
