import Ps2Servers.Edge.WriteOpens
import Ps2Servers.Udpfs.WriteOpens

/-!
# Core and Edge: a file that is opened for writing

Both servers get the same OPEN with the write access bit, the same WRITE requests and a CLOSE,
each for its own handle. Edge passes the bits of the OPEN on to `open`, Core chooses a mode by
them, and the choice loses bits: the two leave the same contents exactly where these bits have
no effect.
-/

namespace Ps2Servers.Twins

open Text Effects Chunks FileWrites

/-- A WRITE on the wire, but for its handle. -/
structure WriteOp where
  head : Bytes
  size : Bytes
  first : Bytes
  chunks : List Bytes
  deriving DecidableEq, Repr

/-- The WRITE to a handle: its request and the chunks that follow. -/
def WriteOp.on (op : WriteOp) (handle : Nat) : Bytes × List Bytes :=
  (op.head ++ Bytes.ofNat 4 handle ++ op.size ++ op.first, op.chunks)

/-- The chunks of a WRITE: one may stand behind its header. -/
def WriteOp.messages (op : WriteOp) : List Bytes :=
  (if op.first = [] then [] else [op.first]) ++ op.chunks

/-- A WRITE whose chunks are all there and carry the data, no more than both servers take. -/
structure WriteOp.Complete (limit : Nat) (op : WriteOp) (data : Bytes) : Prop where
  head : op.head.length = 4
  size : op.size.length = 4
  declared : op.size.le ≤ limit
  whole : ∃ chunks, op.messages.map Udpfs.chunkOf = chunks.map some ∧ chunks ≠ [] ∧
    WholeFrom chunks.length 0 chunks ∧ chunks.flatMap Chunk.body = data
  fits : data.length ≤ limit

section Requests

variable {op : WriteOp} {limit handle : Nat} {data : Bytes}

theorem WriteOp.Complete.fields (h : op.Complete limit data) (handle : Nat) :
    12 ≤ (op.on handle).1.length ∧ (op.on handle).1.field 4 4 = handle % 2 ^ 32 ∧
      (op.on handle).1.field 8 4 ≤ limit ∧
      Udpfs.writeMessages (op.on handle).1 (op.on handle).2 = op.messages := by
  have hnumber : (Bytes.ofNat 4 handle).length = 4 := Bytes.length_ofNat 4 handle
  have hheader : (op.head ++ Bytes.ofNat 4 handle ++ op.size).length = 12 := by
    simp only [List.length_append, h.head, h.size, hnumber]
  have hlength : (op.on handle).1.length = 12 + op.first.length := by
    unfold WriteOp.on
    rw [List.length_append, hheader]
  have hdrop : (op.on handle).1.drop 12 = op.first := by
    unfold WriteOp.on
    rw [← hheader]
    exact List.drop_left
  refine ⟨by omega, ?_, ?_, ?_⟩
  · have hfield : (op.on handle).1.field 4 4 =
        (Bytes.ofNat 4 handle ++ (op.size ++ op.first)).field 0 4 := by
      have hjoin : (op.on handle).1 = op.head ++ (Bytes.ofNat 4 handle ++ (op.size ++ op.first)) := by
        simp only [WriteOp.on, List.append_assoc]
      have hskip := Bytes.field_append op.head (Bytes.ofNat 4 handle ++ (op.size ++ op.first)) 0 4
      rw [h.head] at hskip
      rw [hjoin]
      exact hskip
    rw [hfield, Bytes.field_ofNat]
    rfl
  · have hfield : (op.on handle).1.field 8 4 = (op.size ++ op.first).field 0 4 := by
      have hjoin : (op.on handle).1 = (op.head ++ Bytes.ofNat 4 handle) ++ (op.size ++ op.first) := by
        simp only [WriteOp.on, List.append_assoc]
      have hfront : (op.head ++ Bytes.ofNat 4 handle).length = 8 := by
        rw [List.length_append, h.head, hnumber]
      rw [hjoin, ← hfront]
      exact Bytes.field_append _ _ 0 4
    have hsize : (op.size ++ op.first).field 0 4 = op.size.le := by
      unfold Bytes.field
      rw [Bytes.sub_append_left _ (by rw [h.size]), Bytes.sub_of_length h.size]
    rw [hfield, hsize]
    exact h.declared
  · have hinline : 12 < (op.on handle).1.length ↔ op.first ≠ [] := by
      rw [hlength, ← List.length_pos_iff]
      omega
    unfold Udpfs.writeMessages WriteOp.messages
    rw [hdrop]
    by_cases hfirst : op.first = []
    · rw [if_pos hfirst, if_neg (by simp [hinline, hfirst])]
      rfl
    · rw [if_neg hfirst, if_pos (hinline.mpr hfirst)]
      rfl

/-- The WRITE to a handle of Core. -/
theorem WriteOp.Complete.core (h : op.Complete limit data) {most : Nat} (hlimit : limit ≤ most)
    (hhandle : Udpfs.fits32 handle) :
    Udpfs.CompleteWrite most handle (op.on handle) data := by
  obtain ⟨hheader, hnumber, hsize, hmessages⟩ := h.fields handle
  have hsmall : handle < 2 ^ 31 := by
    simp [Udpfs.fits32] at hhandle
    omega
  rw [Nat.mod_eq_of_lt (by omega)] at hnumber
  refine ⟨hheader, ?_, Nat.le_trans hsize hlimit, ?_, Nat.le_trans h.fits hlimit⟩
  · unfold Udpfs.signed
    rw [hnumber]
    exact if_neg (by omega)
  · rw [hmessages]
    exact h.whole

/-- The WRITE to a handle of Edge. -/
theorem WriteOp.Complete.edge (h : op.Complete limit data) {most : Int} (hlimit : limit ≤ most)
    (handle : Edge.HandleId) :
    Edge.WriteOpens.CompleteWrite most handle (op.on handle.toNat) data := by
  obtain ⟨hheader, hnumber, hsize, hmessages⟩ := h.fields handle.toNat
  have hfits := h.fits
  refine ⟨hheader, ?_, by omega, ?_, by omega⟩
  · rw [hnumber, Nat.mod_eq_of_lt handle.isLt]
    exact (BitVec.ofNat_toNat 32 handle).trans (BitVec.setWidth_eq handle)
  · have hsame : Edge.WriteOpens.writeMessages (op.on handle.toNat).1 (op.on handle.toNat).2 =
        op.messages := hmessages
    rw [hsame]
    exact h.whole

end Requests

/-! ## Modes and bits -/

section Bits

variable {flags : Nat} {old : Bytes}

/-- The bits that the mode of Core leaves out have no effect on a file. -/
structure Agree (flags : Nat) (old data : Bytes) : Prop where
  writeOnly : flags &&& 0x03 = 0x02 → Udpfs.hasFlag flags Udpfs.O_APPEND →
    Udpfs.hasFlag flags Udpfs.O_TRUNC → old = []
  emptied : flags &&& 0x03 = 0x03 → Udpfs.hasFlag flags Udpfs.O_CREAT = false →
    Udpfs.hasFlag flags Udpfs.O_TRUNC → old.length ≤ data.length
  appended : flags &&& 0x03 = 0x03 → Udpfs.hasFlag flags Udpfs.O_CREAT = false →
    Udpfs.hasFlag flags Udpfs.O_TRUNC = false → Udpfs.hasFlag flags Udpfs.O_APPEND →
      old = [] ∨ data = []

theorem written_some (bits : Bits) (old : Bytes) (datas : List Bytes) :
    bits.written (some old) datas = some (
      if bits.append then (if bits.trunc then [] else old) ++ datas.flatten
      else Bytes.splice (if bits.trunc then [] else old) 0 datas.flatten) := by
  unfold Bits.written Bits.opened
  dsimp only
  rw [Option.map_some, laid_start]

theorem written_none {bits : Bits} (h : bits.creat = true) (datas : List Bytes) :
    bits.written none datas = some datas.flatten := by
  unfold Bits.written Bits.opened
  dsimp only
  rw [if_pos h, Option.map_some, laid_start]
  split
  · rw [List.nil_append]
  · rw [splice_zero_eq_self.mpr (Nat.zero_le _)]

theorem isSome_opened {before : Option Bytes}
    (hthere : before.isSome ∨ Udpfs.hasFlag flags Udpfs.O_CREAT) :
    ((Udpfs.openBits flags).opened before).isSome := by
  cases before with
  | some old => rfl
  | none =>
      have hcreat : (Udpfs.openBits flags).creat = true := hthere.resolve_left Bool.false_ne_true
      unfold Bits.opened
      dsimp only
      rw [if_pos hcreat]
      rfl

/-- On a file that is there. -/
theorem written_flagsToMode_iff (haccess : Udpfs.hasFlag flags Udpfs.O_WRONLY)
    (datas : List Bytes) :
    (Udpfs.flagsToMode flags true).bits.written (some old) datas =
        (Udpfs.openBits flags).written (some old) datas ↔
      Agree flags old datas.flatten := by
  rw [written_some, written_some, Option.some.injEq]
  have hempty : Bytes.splice [] 0 datas.flatten = datas.flatten :=
    splice_zero_eq_self.mpr (Nat.zero_le _)
  rcases Udpfs.access_cases haccess with hmode | hmode
  · have hne : flags &&& 0x03 ≠ 0x03 := by rw [hmode]; decide
    have hagree : Agree flags old datas.flatten ↔
        (Udpfs.hasFlag flags Udpfs.O_APPEND → Udpfs.hasFlag flags Udpfs.O_TRUNC → old = []) :=
      ⟨fun h => h.writeOnly hmode, fun h => ⟨fun _ => h, fun h3 => absurd h3 hne,
        fun h3 => absurd h3 hne⟩⟩
    rw [hagree, Udpfs.flagsToMode_write hmode]
    unfold Udpfs.openBits
    cases Udpfs.hasFlag flags Udpfs.O_APPEND <;> cases Udpfs.hasFlag flags Udpfs.O_TRUNC <;>
      cases Udpfs.hasFlag flags Udpfs.O_CREAT <;>
      simp [Udpfs.Mode.bits, hempty]
  · have hne : flags &&& 0x03 ≠ 0x02 := by rw [hmode]; decide
    have hagree : Agree flags old datas.flatten ↔
        (Udpfs.hasFlag flags Udpfs.O_CREAT = false →
          (Udpfs.hasFlag flags Udpfs.O_TRUNC → old.length ≤ datas.flatten.length) ∧
          (Udpfs.hasFlag flags Udpfs.O_TRUNC = false → Udpfs.hasFlag flags Udpfs.O_APPEND →
            old = [] ∨ datas.flatten = [])) :=
      ⟨fun h hcreat => ⟨h.emptied hmode hcreat, h.appended hmode hcreat⟩,
        fun h => ⟨fun h2 => absurd h2 hne, fun _ hcreat => (h hcreat).1,
          fun _ hcreat => (h hcreat).2⟩⟩
    rw [hagree, Udpfs.flagsToMode_readWrite hmode]
    unfold Udpfs.openBits
    have happend : old.splice 0 datas.flatten = old ++ datas.flatten ↔
        old = [] ∨ datas.flatten = [] := eq_comm.trans append_eq_splice_zero
    cases Udpfs.hasFlag flags Udpfs.O_CREAT <;> cases Udpfs.hasFlag flags Udpfs.O_TRUNC <;>
      cases Udpfs.hasFlag flags Udpfs.O_APPEND <;>
      simp [Udpfs.Mode.bits, hempty, happend, splice_zero_eq_self]

end Bits

/-! ## The two servers -/

section Runs

variable {H V B : Type} {env : Udpfs.Env H V B} {path : Str} {good : H → Prop}
  {content : H → Option Bytes} {names : H → Udpfs.Inode → Prop} {w : Udpfs.World H V B}
  {cfg : Edge.Blocks.Config String} {c : Edge.WriteOpens.Calls} {real : String}
  {v : Edge.WriteOpens.World} {p : Bytes} {ops : List WriteOp} {datas : List Bytes}

/-- A CLOSE on the wire. -/
def closeRequest (handle : Nat) : Bytes := [0x12, 0, 0, 0] ++ Bytes.ofNat 4 handle

/-- Core behind the WRITEs and the CLOSE of an OPEN that it has accepted. -/
def coreWrites (env : Udpfs.Env H V B) (handle : Nat) (ops : List WriteOp)
    (opened : Udpfs.World H V B) : Udpfs.World H V B :=
  final (Udpfs.handleClose env (closeRequest handle)
    ((ops.map fun op => op.on handle).foldl
      (fun w write => Udpfs.writeRun env write.1 write.2 w) opened))

/-- Edge behind the WRITEs and the CLOSE of an OPEN that it has accepted. -/
def edgeWrites (cfg : Edge.Blocks.Config String) (handle : Nat) (ops : List WriteOp)
    (opened : Edge.WriteOpens.World) : Edge.WriteOpens.World :=
  Edge.WriteOpens.handleClose (closeRequest handle)
    ((ops.map fun op => op.on handle).foldl
      (fun w write => Edge.WriteOpens.writeRun cfg Edge.WriteOpens.calm write.1 write.2 w) opened)

/-- Both refuse the OPEN and leave the file as it was, or both accept it and leave what the bits
say. -/
def SameWrites (env : Udpfs.Env H V B) (content : H → Option Bytes) (w : Udpfs.World H V B)
    (cfg : Edge.Blocks.Config String) (c : Edge.WriteOpens.Calls) (real : String)
    (v : Edge.WriteOpens.World) (p : Bytes) (ops : List WriteOp) (datas : List Bytes) : Prop :=
  let core := final (Udpfs.handleOpen env p w)
  let edge := Edge.WriteOpens.handleOpen c cfg p v
  (Udpfs.Refused w core ∧ content core.host = content w.host ∧
    ¬ edge.1.Accepted ∧ edge.2.content real = v.content real) ∨
  (¬ Udpfs.Refused w core ∧ edge.1.Accepted ∧
    content (coreWrites env w.session.nextHandle ops core).host =
      (Udpfs.openBits (p.field 2 2)).written (content w.host) datas ∧
    (edgeWrites cfg v.nextHandle.toNat ops edge.2).content real =
      (Udpfs.openBits (p.field 2 2)).written (v.content real) datas)

/-- For every OPEN with the write access bit of a plain name in a folder that is there, whatever
the file was and whatever is written. -/
theorem same_writes_iff (hkeeps : Udpfs.KeepsFile env path good content names)
    (hgood : good w.host) (hcore : Udpfs.WriteOpen env path w p)
    (hedge : Edge.WriteOpens.WriteOpen cfg c real v p) (hsame : v.content real = content w.host)
    {limit : Nat} (hcoreLimit : limit ≤ env.cfg.maxTransferBytes)
    (hedgeLimit : (limit : Int) ≤ cfg.transferCap)
    (hops : List.Forall₂ (WriteOp.Complete limit) ops datas) :
    SameWrites env content w cfg c real v p ops datas ↔
      ∀ old, content w.host = some old → Agree (p.field 2 2) old datas.flatten := by
  have hbits : Edge.WriteOpens.openBits (p.field 2 2) = Udpfs.openBits (p.field 2 2) := rfl
  by_cases hthere : (content w.host).isSome ∨ Udpfs.hasFlag (p.field 2 2) Udpfs.O_CREAT
  · have hopened : ((Edge.WriteOpens.openBits (p.field 2 2)).opened (v.content real)).isSome := by
      rw [hbits, hsame]
      exact isSome_opened hthere
    have hcoreOps : List.Forall₂ (Udpfs.CompleteWrite env.cfg.maxTransferBytes
        w.session.nextHandle) (ops.map fun op => op.on w.session.nextHandle) datas :=
      List.forall₂_map_left_iff.mpr (hops.imp fun op data hop => hop.core hcoreLimit hcore.number)
    have hedgeOps : List.Forall₂ (Edge.WriteOpens.CompleteWrite cfg.transferCap v.nextHandle)
        (ops.map fun op => op.on v.nextHandle.toNat) datas :=
      List.forall₂_map_left_iff.mpr (hops.imp fun op data hop => hop.edge hedgeLimit v.nextHandle)
    have hcoreWritten := Udpfs.written_of_accepted hkeeps hgood hcore hthere hcoreOps
      (closeRequest w.session.nextHandle)
    have hedgeWritten := Edge.WriteOpens.written_of_accepted hedge hopened hedgeOps
      (closeRequest v.nextHandle.toNat)
    obtain ⟨_, hdata⟩ := Option.isSome_iff_exists.mp hopened
    obtain ⟨haccepted, -⟩ := Edge.WriteOpens.open_accepted hedge hdata
    obtain ⟨_, hmode⟩ := Option.isSome_iff_exists.mp (Udpfs.opened_flagsToMode hcore.access hthere)
    obtain ⟨hnot, -⟩ := Udpfs.open_accepted hkeeps hgood hcore hthere hmode
    have hwritten : SameWrites env content w cfg c real v p ops datas ↔
        (Udpfs.flagsToMode (p.field 2 2) (content w.host).isSome).bits.written (content w.host)
            datas =
          (Udpfs.openBits (p.field 2 2)).written (content w.host) datas := by
      constructor
      · rintro (⟨hrefused, -⟩ | ⟨-, -, hleft, -⟩)
        · exact absurd hrefused hnot
        · exact hcoreWritten.symm.trans hleft
      · intro heq
        exact Or.inr ⟨hnot, haccepted, hcoreWritten.trans heq, hedgeWritten⟩
    rw [hwritten]
    cases hbefore : content w.host with
    | some old =>
        rw [Option.isSome_some, written_flagsToMode_iff hcore.access]
        simp
    | none =>
        have hcreat : Udpfs.hasFlag (p.field 2 2) Udpfs.O_CREAT = true := by
          rw [hbefore] at hthere
          exact hthere.resolve_left Bool.false_ne_true
        rw [Option.isSome_none, written_none (Udpfs.creat_flagsToMode hcore.access hcreat),
          written_none (show (Udpfs.openBits (p.field 2 2)).creat = true from hcreat)]
        simp
  · obtain ⟨hmissing, hcreat⟩ := not_or.mp hthere
    have hnone : content w.host = none := by simpa using hmissing
    have hoff : Udpfs.hasFlag (p.field 2 2) Udpfs.O_CREAT = false := Bool.eq_false_iff.mpr hcreat
    obtain ⟨hcoreRefused, hcoreHost⟩ := Udpfs.open_missing hkeeps hgood hcore hnone hoff
    obtain ⟨hedgeRefused, hedgeContent⟩ :=
      Edge.WriteOpens.open_missing hedge (hsame.trans hnone) hoff
    refine iff_of_true (Or.inl ⟨hcoreRefused, ?_, hedgeRefused, hedgeContent⟩) ?_
    · rw [hcoreHost]
    · intro old hold
      rw [hnone] at hold
      cases hold

end Runs

/-! ## One file -/

def gamePath : Str := lit "/srv/g"

theorem look_game (contents : List (Udpfs.Inode × Bytes)) :
    (⟨Udpfs.oneGame.nodes, contents⟩ : Udpfs.Disk).look gamePath =
      .ok ([lit "srv", lit "g"], .file 7) := by
  rfl

theorem bytes_put (d : Udpfs.Disk) (inode : Udpfs.Inode) (data : Bytes) :
    (d.put inode data).bytes inode = data := by
  simp [Udpfs.Disk.put, Udpfs.Disk.bytes]

def gameThere (d : Udpfs.Disk) : Prop := d.nodes = Udpfs.oneGame.nodes

def gameBytes (d : Udpfs.Disk) : Option Bytes := some (d.bytes 7)

theorem keepsFile_game : Udpfs.KeepsFile (Udpfs.diskEnv false) gamePath gameThere gameBytes
    fun _ inode => inode = 7 where
  folder := by
    rintro ⟨nodes, contents⟩ rfl
    rfl
  stat := by
    rintro ⟨nodes, contents⟩ rfl
    rfl
  opens := by
    rintro ⟨nodes, contents⟩ mode data rfl hmode hopened
    have hlook := look_game contents
    have hopen : (Udpfs.diskEnv false).host.openWrite ⟨Udpfs.oneGame.nodes, contents⟩ gamePath
        mode = if mode = .wb ∨ mode = .wPlus then
          .ok (7, Udpfs.Disk.put ⟨Udpfs.oneGame.nodes, contents⟩ 7 [])
        else .ok (7, ⟨Udpfs.oneGame.nodes, contents⟩) := by
      have hcall : (Udpfs.diskEnv false).host.openWrite = Udpfs.Disk.openWrite := rfl
      rw [hcall]
      unfold Udpfs.Disk.openWrite
      rw [hlook]
    rw [hopen]
    by_cases htrunc : mode = .wb ∨ mode = .wPlus
    · rw [if_pos htrunc]
      have hempty : mode.bits.trunc = true := by rcases htrunc with rfl | rfl <;> rfl
      refine ⟨7, _, rfl, rfl, rfl, ?_⟩
      rw [← hopened]
      unfold gameBytes Bits.opened
      rw [bytes_put, hempty]
      rfl
    · rw [if_neg htrunc]
      have hkept : mode.bits.trunc = false := by
        cases mode <;> first | rfl | simp at htrunc
      refine ⟨7, _, rfl, rfl, rfl, ?_⟩
      rw [← hopened]
      unfold gameBytes Bits.opened
      rw [hkept]
      rfl
  fstat := by
    rintro ⟨nodes, contents⟩ inode rfl rfl
    exact ⟨_, _, rfl, rfl⟩
  fileEnd := by
    rintro d inode data - rfl hdata
    rw [← Option.some.inj hdata]
    rfl
  writes := by
    rintro d inode old offset data hnodes rfl hold
    refine ⟨d.writeAt 7 offset data, rfl, hnodes, rfl, ?_⟩
    rw [← Option.some.inj hold]
    exact congrArg some (bytes_put d 7 _)

/-- A console that has just connected to Core. -/
def coreConsole : Udpfs.World Udpfs.Disk Empty Empty :=
  (Udpfs.Server.new Udpfs.oneGame none).world Udpfs.console

/-- What the names of the share come to: one file, without links. -/
def gameCalls : Edge.WriteOpens.Calls where
  hasRoot := true
  canonical := "/srv"
  candidate name := if name = [103] then .ok "/srv/g" else .error .notExist
  dir _ := "/srv"
  base _ := "g"
  join a b := a ++ "/" ++ b
  rel path := .ok (if path = "/srv" then "." else "g")
  evalSymlinks path := .ok path
  lstat _ := none
  stat _ := none
  openFile _ := none
  toLower name := name
  ext _ := []
  virtualCD := false
  findVirtualCD _ := .ok false
  openElse _ _ w := (Edge.WriteOpens.refused (-2), w)

/-- A console that has just connected to Edge. -/
def edgeConsole : Edge.WriteOpens.World where
  there path := path == "/srv/g"
  files _ := [1, 2, 3, 4]
  st := Edge.Blocks.State.new
  position _ := 0
  table := []
  nextHandle := 1
  writers _ := none

def edgeShare : Edge.Blocks.Config String := ⟨false, 0, none⟩

/-- A WRITE of one byte. -/
def writeByte (b : UInt8) : WriteOp :=
  ⟨[0x16, 0, 0, 0], Bytes.ofNat 4 1, [0x17, 0, 0, 0, 1, 0, 1, 0, b], []⟩

theorem complete_writeByte (b : UInt8) : (writeByte b).Complete 1 [b] where
  head := rfl
  size := rfl
  declared := le_rfl
  whole := ⟨[⟨0, [b], 1⟩], rfl, List.cons_ne_nil _ _, ⟨rfl, rfl, rfl⟩, rfl⟩
  fits := le_rfl

/-- The game is opened for writing, and emptied. -/
def emptied : Bytes := Udpfs.openRequest (Udpfs.O_WRONLY ||| Udpfs.O_TRUNC) "g"

theorem coreOpen_emptied :
    Udpfs.WriteOpen (Udpfs.diskEnv false) gamePath coreConsole emptied where
  header := by decide +kernel
  file := by decide +kernel
  access := by decide +kernel
  share := rfl
  resolves := by decide +kernel
  plain := by decide +kernel
  room := by decide +kernel
  number := by decide +kernel
  positive := by decide +kernel
  fresh := by decide +kernel

theorem edgeOpen_emptied :
    Edge.WriteOpens.WriteOpen edgeShare gameCalls "/srv/g" edgeConsole emptied where
  header := by decide +kernel
  file := by decide +kernel
  access := by decide +kernel
  share := rfl
  name := by
    refine ⟨[103], by decide +kernel, rfl, by decide, ⟨"/srv/g", rfl, ?_, ?_⟩, rfl, fun _ => ?_, rfl,
      rfl, rfl, ?_⟩
    all_goals decide +kernel
  room := by decide
  positive := by decide
  free := rfl

theorem same_writes_emptied :
    SameWrites (Udpfs.diskEnv false) gameBytes coreConsole edgeShare gameCalls "/srv/g"
      edgeConsole emptied [writeByte 5] [[5]] := by
  have hagree : ∀ old, gameBytes coreConsole.host = some old →
      Agree (emptied.field 2 2) old [[5]].flatten := by
    intro old _
    have hbits : emptied.field 2 2 &&& 0x03 ≠ 0x03 ∧
        Udpfs.hasFlag (emptied.field 2 2) Udpfs.O_APPEND = false := by decide +kernel
    exact ⟨fun _ h => absurd h (by simp [hbits.2]), fun h => absurd h hbits.1,
      fun h => absurd h hbits.1⟩
  have hgood : gameThere coreConsole.host := rfl
  have hsame : edgeConsole.content "/srv/g" = gameBytes coreConsole.host := rfl
  have hcore : 1 ≤ (Udpfs.diskEnv false).cfg.maxTransferBytes := by decide
  have hedge : ((1 : Nat) : Int) ≤ edgeShare.transferCap := by decide
  exact (same_writes_iff keepsFile_game hgood coreOpen_emptied edgeOpen_emptied hsame hcore hedge
    (.cons (complete_writeByte 5) .nil)).mpr hagree

/-- The game is opened for writing at its end, and emptied: Core keeps what it was. -/
theorem different_writes_appended :
    ¬ SameWrites (Udpfs.diskEnv false) gameBytes coreConsole edgeShare gameCalls "/srv/g"
      edgeConsole (Udpfs.openRequest (Udpfs.O_WRONLY ||| Udpfs.O_TRUNC ||| Udpfs.O_APPEND) "g")
      [writeByte 5] [[5]] := by
  rintro (⟨-, -, hrefused, -⟩ | ⟨-, -, hcontent, -⟩)
  · revert hrefused
    decide +kernel
  · revert hcontent
    decide +kernel

end Ps2Servers.Twins
