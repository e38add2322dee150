import Ps2Servers.Udpfs.Disk
import Ps2Servers.Udpfs.Frames
import Ps2Servers.Lib.Runs

/-!
# A read-only server

On a read-only server no write is ever being assembled, and the host is changed by
one request alone: an OPEN with O_CREAT and without the write bit, which the check of
the write bit lets pass, makes the missing parent directories of its path before it
fails to open the file. In every run without such a request the host, with its files,
directories and the block device image, stays as it was.
-/

namespace Ps2Servers.Udpfs

open Text Effects Runs

variable {H V B : Type} (env : Env H V B)

/-- The host is `h` and no write is being assembled. -/
structure Frozen (h : H) (w : World H V B) : Prop where
  host : w.host = h
  idle : w.session.writeHandle < 0

/-- The path a file OPEN goes to, unless it is a virtual view. -/
def openedPath (h : H) (path : Str) : Option Str :=
  match (aliasOf env h path).2, (aliasOf env h path).1 with
  | some _, _ => none
  | none, some source => some source
  | none, none => resolvePath env.host env.cfg.rootDir h path

/-- The message is a file OPEN with O_CREAT and without the write bit, and its parent directory is
missing. -/
def createsParents (h : H) (payload : Bytes) : Bool :=
  msgType payload = .open_ && 8 ≤ payload.length && payload.field 1 1 = 0 &&
    hasFlag (payload.field 2 2) O_CREAT && !hasFlag (payload.field 2 2) O_WRONLY &&
    (openedPath env h (clientPath (payload.drop 8))).any fun path =>
      !exists_ env.host h (dirname env.host path)

/-- The event is a datagram with such a message, and its session accepts it. -/
def eventCreatesParents (s : Server H V B) : Event → Bool
  | .data addr datagram =>
      (acceptedPayload (s.session addr) datagram).any (createsParents env s.host)
  | _ => false

/-! ## Requests of a read-only server -/

section Requests

variable {h : H}

theorem stable_frozen : Stable (fun _ => True) (Frozen h : World H V B → Prop) where
  sent _ _ hw := ⟨hw.host, hw.idle⟩
  handles _ _ _ hw := ⟨hw.host, hw.idle⟩
  update w handle obj _ hw := by
    unfold World.update
    split
    · split
      · exact ⟨hw.host, hw.idle⟩
      · exact hw
    · exact ⟨hw.host, hw.idle⟩

/-- A file opened for reading is not created. -/
theorem Keeps.openPath (path : Str) : Keeps (Frozen h) (openPath env path .rb) := by
  refine Keeps.get fun w hw => ?_
  rw [if_pos rfl]
  exact Keeps.osCall _

/-- Without the write bit a file is opened for reading, whatever the other flags are. -/
theorem flagsToMode_of_readOnly {flags : Nat} (hflags : hasFlag flags O_WRONLY = false)
    (there : Bool) : flagsToMode flags there = .rb := by
  have hbit : flags &&& 0x03 < 2 := by
    have htwo : flags &&& 2 = 0 := not_not.mp (of_decide_eq_false hflags)
    have hand : flags &&& 3 = flags &&& 2 ||| flags &&& 1 := by
      rw [← Nat.and_or_distrib_left]
      rfl
    rw [hand, htwo, Nat.zero_or]
    exact Nat.lt_of_le_of_lt Nat.and_le_right (by decide)
  unfold flagsToMode
  split
  · omega
  · omega
  · rfl

/-- Where the parent directory is there, none is made. -/
theorem Keeps.makeParents {path : Str} {flags : Nat}
    (hparent : hasFlag flags O_CREAT → exists_ env.host h (dirname env.host path)) :
    Keeps (Frozen h) (makeParents env path flags) := by
  refine Keeps.get fun w hw => ?_
  split
  · rename_i hmissing
    have hthere := hparent hmissing.1
    rw [← hw.host] at hthere
    simp [hthere] at hmissing
  · exact Keeps.pure _

theorem Keeps.openFile {path : Str} {compressed : Bool} {flags : Nat}
    (hflags : hasFlag flags O_WRONLY = false)
    (hparent : hasFlag flags O_CREAT → exists_ env.host h (dirname env.host path)) :
    Keeps (Frozen h) (openFile env path compressed flags) := by
  refine Keeps.get fun w hw => ?_
  dsimp only
  rw [flagsToMode_of_readOnly hflags]
  split
  · exact (stable_frozen.tracked env).sendOpenReply _ _
  · refine Keeps.answerErrno (fun _ => (stable_frozen.tracked env).sendOpenReply _ _) ?_
    refine (Keeps.makeParents env hparent).bind fun _ => ?_
    split
    · exact (stable_frozen.tracked env).openImage _
    · exact (stable_frozen.tracked env).openPlain (Keeps.openPath env _)

variable {env}

theorem Keeps.handleOpen (hro : env.cfg.readOnly) {payload : Bytes}
    (htype : msgType payload = .open_) (hparents : createsParents env h payload = false) :
    Keeps (Frozen h) (handleOpen env payload) := by
  unfold Udpfs.handleOpen
  split
  · exact (stable_frozen.tracked env).sendOpenReply _ _
  · rename_i hlength
    refine Keeps.get fun w hw => ?_
    obtain rfl := hw.host
    dsimp only
    split
    · exact (stable_frozen.tracked env).sendOpenReply _ _
    split
    · exact (stable_frozen.tracked env).openDirectory _
    rename_i hdir
    split
    · exact (stable_frozen.tracked env).sendOpenReply _ _
    rename_i hwrite
    have hflags : hasFlag (payload.field 2 2) O_WRONLY = false := by simpa [hro] using hwrite
    have hopened : ∀ path, openedPath env w.host (clientPath (payload.drop 8)) = some path →
        hasFlag (payload.field 2 2) O_CREAT →
        exists_ env.host w.host (dirname env.host path) := by
      intro path hpath hcreat
      simp only [createsParents, hpath, Option.any_some] at hparents
      simpa [htype, hflags, hcreat, not_lt.mp hlength, not_not.mp hdir] using hparents
    split
    · exact (stable_frozen.tracked env).openVirtual _ _
    · rename_i hview hsource
      refine Keeps.openFile env hflags (hopened _ ?_)
      simp [openedPath, hview, hsource]
    · rename_i hview hsource hresolved
      refine Keeps.openFile env hflags (hopened _ ?_)
      simp [openedPath, hview, hsource, hresolved]
    · exact (stable_frozen.tracked env).sendOpenReply _ _

/-- MKDIR, REMOVE and RMDIR are refused before they look at the host. -/
theorem Keeps.refused (env : Env H V B) {payload : Bytes} {rest : World H V B → Handler H V B Unit} :
    Keeps (Frozen h) (if payload.length < 4 then resultError EINVAL
      else get >>= fun w => if true = true then resultError EACCES else rest w) := by
  split
  · exact (stable_frozen.tracked env).sendNumber _ _ _
  · exact Keeps.get fun w hw => (stable_frozen.tracked env).sendNumber _ _ _

theorem Keeps.resetWrite : Keeps (Frozen h : World H V B → Prop) resetWrite :=
  Keeps.modify fun _ hw => ⟨hw.host, Int.negSucc_lt_zero 0⟩

/-- No chunk is taken while no write is being assembled. -/
theorem Keeps.handleWriteData (payload : Bytes) :
    Keeps (Frozen h) (handleWriteData env payload) := by
  refine Keeps.get fun w hw => ?_
  dsimp only
  rw [if_pos (Or.inr (Or.inl hw.idle))]
  exact Keeps.pure _

theorem Keeps.handleWriteReq (hro : env.cfg.readOnly) (payload : Bytes) :
    Keeps (Frozen h) (handleWriteReq env payload) := by
  refine Keeps.resetWrite.bind fun _ => ?_
  split
  · exact Keeps.pure _
  · refine Keeps.get fun w hw => ?_
    exact (stable_frozen.tracked env).sendNumber _ _ _

theorem Keeps.handleBwriteReq (hro : env.cfg.readOnly) (payload : Bytes) :
    Keeps (Frozen h) (handleBwriteReq env payload) := by
  refine Keeps.resetWrite.bind fun _ => ?_
  split
  · exact Keeps.pure _
  · refine Keeps.get fun w hw => ?_
    exact (stable_frozen.tracked env).sendNumber _ _ _

/-- Every message but an OPEN that makes directories leaves the host alone. -/
theorem Keeps.handleMessage (hro : env.cfg.readOnly) {payload : Bytes}
    (hparents : createsParents env h payload = false) :
    Keeps (Frozen h) (handleMessage env payload) := by
  unfold Udpfs.handleMessage
  split
  · exact Keeps.handleOpen hro (by assumption) hparents
  · exact (stable_frozen.tracked env).handleClose _
  · exact (stable_frozen.tracked env).handleRead trivial
  · exact Keeps.handleWriteReq hro _
  · exact Keeps.handleWriteData _
  · exact (stable_frozen.tracked env).handleLseek trivial
  · exact (stable_frozen.tracked env).handleDread fun _ => trivial
  · exact (stable_frozen.tracked env).handleGetstat _
  · unfold handleMkdir
    rw [hro]
    exact Keeps.refused env
  · unfold handleRemove
    rw [hro]
    exact Keeps.refused env
  · unfold handleRmdir
    rw [hro]
    exact Keeps.refused env
  · exact (stable_frozen.tracked env).handleBread fun _ => trivial
  · exact Keeps.handleBwriteReq hro _
  · exact Keeps.pure _

end Requests

/-- So does every datagram whose message, if it is accepted, is not such an OPEN. -/
theorem Frozen.handleData {env : Env H V B} {h : H} {w : World H V B} {datagram : Bytes}
    (hw : Frozen h w) (hro : env.cfg.readOnly)
    (hok : (acceptedPayload w.session datagram).any (createsParents env h) = false) :
    Frozen h (final (handleData env datagram w)) := by
  unfold Udpfs.handleData
  rw [get_bind]
  cases hpayload : acceptedPayload w.session datagram with
  | none => exact hw
  | some payload =>
      have hparents : createsParents env h payload = false := by simpa [hpayload] using hok
      dsimp only
      rw [bind_ok (set_apply _ _)]
      split
      · exact ⟨hw.host, hw.idle⟩
      · exact Keeps.handleMessage hro hparents _ ⟨hw.host, hw.idle⟩

/-! ## Runs -/

/-- The host is `h`, and no session is assembling a write. -/
structure Server.Frozen (h : H) (s : Server H V B) : Prop where
  host : s.host = h
  idle : ∀ addr, (s.session addr).writeHandle < 0

variable {env} {h : H} {s : Server H V B}

theorem Server.frozen_new (h : H) (bd : Option Inode) :
    (Server.new h bd : Server H V B).Frozen h :=
  ⟨rfl, fun _ => Int.negSucc_lt_zero 0⟩

theorem Server.Frozen.world (hs : s.Frozen h) (addr : Addr) : Udpfs.Frozen h (s.world addr) :=
  ⟨hs.host, hs.idle addr⟩

/-- A handler that keeps its world frozen keeps the server frozen. -/
theorem Server.Frozen.run (hs : s.Frozen h) {addr : Addr} {handler : Handler H V B Unit}
    (hw : Udpfs.Frozen h (final (handler (s.world addr)))) : (s.run addr handler).1.Frozen h := by
  refine ⟨hw.host, fun a => ?_⟩
  by_cases ha : a = addr
  · simpa [Server.run, Server.settle, Server.session, ha] using hw.idle
  · simpa [Server.run, Server.settle, Server.session, ha] using hs.idle a

theorem Server.Frozen.next (hro : env.cfg.readOnly) (hs : s.Frozen h) {e : Event}
    (hok : eventCreatesParents env s e = false) : (s.next env e).Frozen h := by
  cases e with
  | data addr datagram =>
      rw [Server.next.eq_1]
      split
      · exact hs
      · apply hs.run
        apply (hs.world addr).handleData hro
        rw [← hs.host]
        exact hok
  | discovery addr datagram repeated =>
      rw [Server.next.eq_2]
      split
      · exact hs
      · apply hs.run
        refine Keeps.modify (fun w hw => ?_) _ (hs.world addr)
        split
        · exact ⟨hw.host, hw.idle⟩
        · exact hw
  | gone addr =>
      refine ⟨hs.host, fun a => ?_⟩
      by_cases ha : a = addr
      · simp [Server.next, Server.session, ha, Session.new]
      · simpa [Server.next, Server.session, ha] using hs.idle a

/-- In every run from a fresh read-only server in which no accepted OPEN makes directories, the
host stays as it was. -/
theorem host_unchanged (hro : env.cfg.readOnly) (h : H) (bd : Option Inode) (events : List Event)
    (hok : Along (Server.next env) (fun s e => eventCreatesParents env s e = false)
      (Server.new h bd) events) :
    (events.foldl (Server.next env) (Server.new h bd)).host = h := by
  have hreached := System.ReachedWhen.along (.init rfl) hok
  have hfrozen : (events.foldl (Server.next env) (Server.new h bd)).Frozen h := by
    apply hreached.invariant
    · rintro s rfl
      exact Server.frozen_new h bd
    · rintro s e t hs hok rfl
      exact Server.Frozen.next hro hs hok
  exact hfrozen.host

/-! ## A console on a read-only share -/

/-- No virtual views. -/
def noViews (H : Type) : Views H Empty Empty where
  findVirtualView _ _ := none
  listVirtualEntries _ _ _ := []
  chdPath v := nomatch v
  path v := nomatch v
  size v := nomatch v
  openView _ v := nomatch v
  read _ b := nomatch b
  seek _ b := nomatch b

/-- Codecs of a host with neither lz4 nor libchdr, on which no stream inflates. -/
def noCodecs (H : Type) : Codecs H where
  inflateRaw _ := none
  inflate _ := none
  lz4 := none
  libchdr := none

/-- A server of `/srv` with the default limits. -/
def diskEnv (readOnly : Bool) : Env Disk Empty Empty where
  host := diskHost
  codecs := noCodecs Disk
  views := noViews Disk
  cfg := ⟨some (lit "/srv"), readOnly, false, 32, 0x800000, 512, 0, false⟩

/-- A share with one game, and a block device image outside of it. -/
def oneGame : Disk where
  nodes := [([lit "srv"], .dir), ([lit "srv", lit "g"], .file 7), ([lit "bd"], .file 8)]
  contents := [(7, [1, 2, 3, 4]), (8, List.replicate 8 9)]

/-- A DATA packet. -/
def dataPacket (seq : Nat) (payload : Bytes) : Bytes :=
  Bytes.ofNat 2 (DATA + seq * 0x10) ++ Bytes.ofNat 4 (payload.length * 0x40000) ++ payload

def openRequest (flags : Nat) (path : String) : Bytes :=
  [0x10, 0] ++ Bytes.ofNat 2 flags ++ [0, 0, 0, 0] ++ path.toUTF8.toList ++ [0]

def console : Addr := ("192.168.1.10", 62966)

theorem host_unchanged_open_missing :
    (List.foldl (Server.next (diskEnv true)) (Server.new oneGame (some 8))
      [.data console (dataPacket 0 (openRequest 0x0201 "g")),
        .data console (dataPacket 1 (openRequest 0x0002 "g"))]).host = oneGame :=
  host_unchanged rfl oneGame (some 8) _ (by decide +kernel)

/-- An OPEN for reading with O_CREAT makes the missing folder of its path. -/
theorem open_creat_makes_folder :
    (diskEnv true).cfg.readOnly = true ∧
      (List.foldl (Server.next (diskEnv true)) (Server.new oneGame (some 8))
        [.data console (dataPacket 0 (openRequest 0x0201 "saves/a.bin"))]).host ≠ oneGame := by
  decide +kernel

end Ps2Servers.Udpfs
