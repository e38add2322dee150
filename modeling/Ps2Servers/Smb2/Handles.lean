import Ps2Servers.Smb2.Sessions

/-!
# An id stands for one handle

What the requests of a client do to the table of handles. An id is given once: as long as it is open it
stands for what CREATE opened, and after that for nothing.
-/

namespace Ps2Servers.Smb2

open Struct (Item)
open Text Effects

variable {H F : Type}

/-- What a handle is for as long as it is open. -/
def Handle.Same (a b : Handle F) : Prop :=
  a.fileId = b.fileId ∧ a.share = b.share ∧ a.isDir = b.isDir ∧ a.canWrite = b.canWrite

theorem Handle.Same.trans {a b c : Handle F} (h : a.Same b) (h' : b.Same c) : a.Same c :=
  ⟨h.1.trans h'.1, h.2.1.trans h'.2.1, h.2.2.1.trans h'.2.2.1, h.2.2.2.trans h'.2.2.2⟩

/-- Files and pipes have different ids, all of them below the counter, and a handle knows its own. -/
structure Files.Tabled (s : Files H F) : Prop where
  files : (s.handles.entries.map Prod.fst).Nodup
  pipes : (s.pipes.map Prod.fst).Nodup
  apart : ∀ e ∈ s.handles.entries, ∀ p ∈ s.pipes, e.1 ≠ p.1
  below : ∀ p ∈ s.pipes, p.1 < s.handles.next
  named : ∀ e ∈ s.handles.entries, e.2.fileId = e.1

/-- An id that is open now and was given before `t` stood for the same then. -/
structure Files.Later (t s : Files H F) : Prop where
  next : t.handles.next ≤ s.handles.next
  files : ∀ e ∈ s.handles.entries, e.1 < t.handles.next →
    ∃ handle, (e.1, handle) ∈ t.handles.entries ∧ handle.Same e.2
  pipes : ∀ p ∈ s.pipes, p.1 < t.handles.next → p.1 ∈ t.pipes.map Prod.fst

/-- What is kept of a table from `t` on. -/
structure Files.From (t s : Files H F) : Prop where
  tabled : s.Tabled
  later : t.Later s

variable {t s : Files H F}

theorem Files.From.refl (h : t.Tabled) : t.From t :=
  ⟨h, le_rfl, fun e he _ => ⟨e.2, he, rfl, rfl, rfl, rfl⟩, fun _ hp _ => List.mem_map_of_mem hp⟩

theorem Files.From.withHost (h : t.From s) (host : H) : t.From { s with host := host } :=
  ⟨⟨h.tabled.files, h.tabled.pipes, h.tabled.apart, h.tabled.below, h.tabled.named⟩,
    ⟨h.later.next, h.later.files, h.later.pipes⟩⟩

theorem Files.From.update (h : t.From s) (id : Nat) {f : Handle F → Handle F}
    (hf : ∀ handle : Handle F, handle.Same (f handle)) :
    t.From { s with handles := s.handles.update id f } := by
  have hentry : ∀ e ∈ (s.handles.update id f).entries, ∃ handle, (e.1, handle) ∈ s.handles.entries ∧
      handle.Same e.2 := by
    intro e he
    obtain ⟨e', he', rfl⟩ := List.mem_map.mp he
    split
    · exact ⟨e'.2, he', hf e'.2⟩
    · exact ⟨e'.2, he', rfl, rfl, rfl, rfl⟩
  constructor
  · refine ⟨?_, h.tabled.pipes, fun e he => ?_, h.tabled.below, fun e he => ?_⟩
    · rw [Handles.keys_update]
      exact h.tabled.files
    · obtain ⟨handle, hmem, -⟩ := hentry e he
      exact h.tabled.apart (e.1, handle) hmem
    · obtain ⟨handle, hmem, hsame⟩ := hentry e he
      exact hsame.1.symm.trans (h.tabled.named _ hmem)
  · refine ⟨h.later.next, fun e he hid => ?_, h.later.pipes⟩
    obtain ⟨handle, hmem, hsame⟩ := hentry e he
    obtain ⟨first, hfirst, hsame'⟩ := h.later.files _ hmem hid
    exact ⟨first, hfirst, hsame'.trans hsame⟩

theorem Files.From.updatePipes (h : t.From s) (id : Nat) (f : PipeHandle → PipeHandle) :
    t.From { s with pipes := s.pipes.map fun e => if e.1 == id then (e.1, f e.2) else e } := by
  have hkeys : (s.pipes.map fun e => if e.1 == id then (e.1, f e.2) else e).map Prod.fst =
      s.pipes.map Prod.fst := by
    rw [List.map_map]
    apply List.map_congr_left
    intro e _
    dsimp only [Function.comp]
    split
    · rfl
    · rfl
  have hmem : ∀ p ∈ s.pipes.map fun e => if e.1 == id then (e.1, f e.2) else e,
      ∃ p' ∈ s.pipes, p'.1 = p.1 := by
    intro p hp
    have hp := List.mem_map_of_mem (f := Prod.fst) hp
    rw [hkeys] at hp
    exact List.mem_map.mp hp
  constructor
  · refine ⟨h.tabled.files, ?_, fun e he p hp => ?_, fun p hp => ?_, h.tabled.named⟩
    · rw [hkeys]
      exact h.tabled.pipes
    · obtain ⟨p', hp', hid⟩ := hmem p hp
      exact hid ▸ h.tabled.apart e he p' hp'
    · obtain ⟨p', hp', hid⟩ := hmem p hp
      exact hid ▸ h.tabled.below p' hp'
  · refine ⟨h.later.next, h.later.files, fun p hp hold => ?_⟩
    obtain ⟨p', hp', hid⟩ := hmem p hp
    rw [← hid] at hold ⊢
    exact h.later.pipes p' hp' hold

/-- A new handle has an id that no handle had. -/
theorem Files.From.add (h : t.From s) {handle : Nat → Handle F} (hid : ∀ id, (handle id).fileId = id) :
    t.From { s with handles := s.handles.add handle } := by
  have hentry : ∀ e ∈ (s.handles.add handle).entries, e ∈ s.handles.entries ∨
      e = (s.handles.next, handle s.handles.next) := by
    intro e he
    rcases List.mem_append.mp he with he | he
    · exact Or.inl he
    · exact Or.inr (List.mem_singleton.mp he)
  constructor
  · refine ⟨Handles.nodup_add h.tabled.files handle, h.tabled.pipes, fun e he p hp => ?_, fun p hp => ?_,
      fun e he => ?_⟩
    · rcases hentry e he with he | rfl
      · exact h.tabled.apart e he p hp
      · exact (h.tabled.below p hp).ne'
    · exact Nat.lt_succ_of_lt (h.tabled.below p hp)
    · rcases hentry e he with he | rfl
      · exact h.tabled.named e he
      · exact hid _
  · refine ⟨Nat.le_succ_of_le h.later.next, fun e he hold => ?_, h.later.pipes⟩
    rcases hentry e he with he | rfl
    · exact h.later.files e he hold
    · exact absurd hold (Nat.not_lt.mpr h.later.next)

theorem Files.From.addPipe (h : t.From s) (pipe : PipeHandle) :
    t.From { s with handles := s.handles.skip, pipes := s.pipes ++ [(s.handles.next, pipe)] } := by
  have hentry : ∀ p ∈ s.pipes ++ [(s.handles.next, pipe)], p ∈ s.pipes ∨ p = (s.handles.next, pipe) := by
    intro p hp
    rcases List.mem_append.mp hp with hp | hp
    · exact Or.inl hp
    · exact Or.inr (List.mem_singleton.mp hp)
  constructor
  · refine ⟨h.tabled.files, ?_, fun e he p hp => ?_, fun p hp => ?_, h.tabled.named⟩
    · rw [List.map_append]
      refine List.Nodup.append h.tabled.pipes (List.nodup_singleton _) ?_
      intro id hid hnew
      obtain ⟨p, hp, rfl⟩ := List.mem_map.mp hid
      exact (h.tabled.below p hp).ne (List.mem_singleton.mp hnew)
    · rcases hentry p hp with hp | rfl
      · exact h.tabled.apart e he p hp
      · exact (s.handles.below e he).ne
    · rcases hentry p hp with hp | rfl
      · exact Nat.lt_succ_of_lt (h.tabled.below p hp)
      · exact Nat.lt_succ_self _
  · refine ⟨Nat.le_succ_of_le h.later.next, h.later.files, fun p hp hold => ?_⟩
    rcases hentry p hp with hp | rfl
    · exact h.later.pipes p hp hold
    · exact absurd hold (Nat.not_lt.mpr h.later.next)

theorem Files.From.erase (h : t.From s) (id : Nat) : t.From (s.erase id) := by
  have hfiles : ∀ e ∈ (s.erase id).handles.entries, e ∈ s.handles.entries :=
    fun e he => (List.mem_filter.mp he).1
  have hpipes : ∀ p ∈ (s.erase id).pipes, p ∈ s.pipes := fun p hp => (List.mem_filter.mp hp).1
  constructor
  · exact ⟨(List.filter_sublist.map Prod.fst).nodup h.tabled.files,
      (List.filter_sublist.map Prod.fst).nodup h.tabled.pipes,
      fun e he p hp => h.tabled.apart e (hfiles e he) p (hpipes p hp),
      fun p hp => h.tabled.below p (hpipes p hp), fun e he => h.tabled.named e (hfiles e he)⟩
  · exact ⟨h.later.next, fun e he => h.later.files e (hfiles e he), fun p hp => h.later.pipes p (hpipes p hp)⟩

theorem Files.From.closeAll (h : t.From s) (svc : Service H F) : t.From (s.closeAll svc) :=
  ⟨⟨List.nodup_nil, List.nodup_nil, fun _ he => (by cases he), fun _ hp => (by cases hp),
      fun _ he => (by cases he)⟩,
    ⟨h.later.next, fun _ he => (by cases he), fun _ hp => (by cases hp)⟩⟩

/-! ## Commands -/

section

variable {svc : Service H F} (c : Context)

theorem from_updateFile (id : Nat) {f : Handle F → Handle F}
    (hf : ∀ handle : Handle F, handle.Same (f handle)) : Keeps t.From (updateFile id f) :=
  Keeps.modify fun _ h => h.update id hf

theorem from_updatePipe (id : Nat) (f : PipeHandle → PipeHandle) :
    Keeps t.From (updatePipe id f : Action H F Unit) :=
  Keeps.modify fun _ h => h.updatePipes id f

theorem from_keepFile (id : Nat) (fh : F) : Keeps t.From (keepFile id fh : Action H F Unit) :=
  from_updateFile id fun _ => ⟨rfl, rfl, rfl, rfl⟩

theorem from_openAgain (id : Nat) (handle : Handle F) (forWriting : Bool) :
    Keeps t.From (openAgain svc id handle forWriting) := by
  refine Keeps.get fun s _ => ?_
  split
  · exact Keeps.throw _
  · exact (from_keepFile id _).bind fun _ => Keeps.pure _

theorem from_openHandle (id : Nat) (handle : Handle F) (forWriting : Bool) :
    Keeps t.From (openHandle svc id handle forWriting) := by
  unfold openHandle
  split
  · exact from_openAgain id handle forWriting
  · apply Keeps.ite
    · exact (Keeps.modify fun _ hs => hs.withHost _).bind fun _ => from_openAgain id handle true
    · exact Keeps.pure _

/-- What CREATE does to a table: at most one more handle. -/
theorem from_hCreate {s : Files H F} (hs : t.From s) (share : Share) (body : Bytes) :
    t.From { s with toDisk := final (hCreate svc.host svc.readOnly share body s.toDisk) } := by
  let inv : Disk H F → Prop := fun d => t.From { s with toDisk := d }
  have hhost : ∀ {α : Type} (f : H → Except Errno α × H), Keeps inv (call f) := by
    intro α f d hd
    unfold call
    generalize f d.host = r
    obtain ⟨r, h⟩ := r
    cases r with
    | ok a => exact Files.From.withHost hd h
    | error e => exact Files.From.withHost hd h
  have hwritable (readOnly : Bool) : Keeps inv (writable readOnly : Serve H F Unit) :=
    Keeps.ite (Keeps.throw _) (Keeps.pure _)
  have hpacked (items : List Item) : Keeps inv (packed items : Serve H F Bytes) := by
    unfold packed
    split
    · exact Keeps.throw _
    · exact Keeps.pure _
  have hprepare (readOnly : Bool) (path : Path) (o : Open) : Keeps inv (prepare svc.host readOnly path o) := by
    intro d hd
    rcases @prepare_cases H F svc.host readOnly path o d with ⟨-, e, h⟩ | ⟨-, -, -, -, h⟩ |
      ⟨-, -, -, -, -, h⟩ | ⟨-, -, -, -, -, h⟩ | ⟨-, -, -, -, -, h⟩
    · rw [h]
      exact hd
    · rw [h]
      exact hd
    · rw [h]
      exact ((hhost _).bind fun _ => Keeps.pure _) d hd
    · rw [h]
      exact ((hhost _).bind fun _ => Keeps.pure _) d hd
    · rw [h]
      exact ((hhost _).bind fun _ => Keeps.pure _) d hd
  have hregister (readOnly : Bool) (path : Path) (rel : Str) (o : Open) (action : Nat) (st : Stat) :
      Keeps inv (register share readOnly path rel o action st : Serve H F Bytes) := by
    refine Keeps.bind (fun d hd => Files.From.add hd fun _ => rfl) fun id => ?_
    apply Keeps.ite
    · refine (hwritable readOnly).bind fun _ => Keeps.bind (Keeps.modify fun d hd => ?_) fun _ => hpacked _
      exact Files.From.update hd id fun _ => ⟨rfl, rfl, rfl, rfl⟩
    · exact hpacked _
  have hcreate : Keeps inv (hCreate svc.host svc.readOnly share body) := by
    refine Keeps.ite (Keeps.throw _) ?_
    split
    · exact Keeps.throw _
    · refine Keeps.get fun d _ => ?_
      split
      · exact Keeps.throw _
      · refine (hprepare _ _ _).bind fun action => (hhost _).bind fun st => ?_
        exact Keeps.ite (Keeps.throw _) (Keeps.ite (Keeps.throw _) (hregister _ _ _ _ _ _))
  exact hcreate s.toDisk hs

theorem from_onDisk {s : Files H F} {x : Serve H F Bytes}
    (h : t.From { s with toDisk := final (x s.toDisk) }) : KeepsFrom t.From s (onDisk x) := by
  unfold KeepsFrom onDisk
  cases hr : x s.toDisk with
  | ok a d =>
      rw [hr] at h
      exact h
  | error e d =>
      rw [hr] at h
      exact h

theorem from_hCreateFile : Keeps t.From (hCreateFile svc c : Action H F Answer) := by
  refine (keeps_treeOf c true).bind fun tree => ?_
  refine Keeps.ite (Keeps.throw _) ?_
  cases tree with
  | ipc =>
      refine (keeps_bufferOf c _ _ _).bind fun raw => ?_
      refine Keeps.ite (Keeps.throw _) ?_
      exact Keeps.from fun s hs => KeepsFrom.get
        (KeepsFrom.bind (x := set _) (hs.addPipe _) fun _ => keeps_reply _ _)
  | disk share =>
      exact Keeps.map fun s hs => from_onDisk (from_hCreate hs share c.body)

theorem from_hClose : Keeps t.From (hClose svc c : Action H F Answer) := by
  refine (keeps_treeOf c true).bind fun tree => ?_
  refine Keeps.ite (Keeps.throw _) ?_
  refine (keeps_handleFrom c _).bind ?_
  rintro ⟨id, named⟩
  refine Keeps.from fun s hs => KeepsFrom.get ?_
  cases named with
  | pipe handle =>
      refine KeepsFrom.bind (x := set _) (hs.erase id) fun _ => ?_
      exact Keeps.ite (Keeps.throw _) (keeps_reply _ _)
  | file handle =>
      refine KeepsFrom.bind (x := set _) ((hs.erase id).withHost _) fun _ => ?_
      split
      · exact keeps_reply _ _
      · exact Keeps.ite (keeps_reply _ _) (keeps_reply _ _)

theorem from_hFlush : Keeps t.From (hFlush svc c : Action H F Answer) := by
  refine (keeps_shareOf c).bind fun share => ?_
  refine (keeps_handleFrom c _).bind ?_
  rintro ⟨id, named⟩
  cases named with
  | pipe handle => exact keeps_reply _ _
  | file handle =>
      dsimp only
      split
      · exact keeps_reply _ _
      · refine Keeps.from fun s hs => KeepsFrom.get ?_
        refine KeepsFrom.bind (x := set _) (hs.withHost _) fun _ => (from_keepFile id _).bind fun _ => ?_
        split
        · exact keeps_reply _ _
        · exact Keeps.throw _
        · exact keeps_reply _ _

theorem from_hRead : Keeps t.From (hRead svc c : Action H F Answer) := by
  refine (keeps_treeOf c true).bind fun tree => ?_
  refine Keeps.ite (Keeps.throw _) ?_
  refine (keeps_handleFrom c _).bind ?_
  rintro ⟨id, named⟩
  cases named with
  | pipe handle =>
      refine (from_updatePipe id _).bind fun _ => Keeps.ite (Keeps.throw _) ?_
      exact (Observes.keeps (observes_packItems · _)).bind fun _ => Keeps.pure _
  | file handle =>
      refine Keeps.ite (Keeps.throw _) ((from_openHandle id handle false).bind fun fh => ?_)
      refine Keeps.from fun s hs => KeepsFrom.get ?_
      refine KeepsFrom.bind (x := set _) (hs.withHost _) fun _ => (from_keepFile id _).bind fun _ => ?_
      split
      · exact Keeps.throw _
      · refine Keeps.ite (Keeps.throw _) ?_
        exact (Observes.keeps (observes_packItems · _)).bind fun _ => Keeps.pure _

theorem from_hWrite : Keeps t.From (hWrite svc c : Action H F Answer) := by
  refine (keeps_treeOf c true).bind fun tree => ?_
  refine Keeps.ite (Keeps.throw _) ?_
  refine (keeps_handleFrom c _).bind ?_
  rintro ⟨id, named⟩
  cases named with
  | pipe handle =>
      refine (keeps_bufferOf c _ _ _).bind fun data => ?_
      split
      · exact (from_updatePipe id _).bind fun _ => Keeps.throw _
      · exact (from_updatePipe id _).bind fun _ => keeps_reply _ _
  | file handle =>
      refine (Observes.keeps fun s => observes_checkWritable s tree).bind fun _ => ?_
      refine Keeps.ite (Keeps.throw _) (Keeps.ite (Keeps.throw _) (Keeps.ite (Keeps.throw _) ?_))
      refine (keeps_bufferOf c _ _ _).bind fun data => ?_
      refine (from_openHandle id handle true).bind fun fh => Keeps.from fun s hs => KeepsFrom.get ?_
      refine KeepsFrom.bind (x := set _) (hs.withHost _) fun _ => (from_keepFile id _).bind fun _ => ?_
      split
      · exact Keeps.throw _
      · exact keeps_reply _ _

theorem from_hQueryDir : Keeps t.From (hQueryDir svc c : Action H F Answer) := by
  refine (keeps_shareOf c).bind fun share => ?_
  refine Keeps.ite (Keeps.throw _) ?_
  refine (keeps_handleFrom c _).bind ?_
  rintro ⟨id, named⟩
  cases named with
  | pipe handle => exact Keeps.throw _
  | file handle =>
      refine Keeps.get fun s _ => ?_
      generalize hQueryDirectory svc.host s.host share (svc.readOnly || share.readOnly) handle.dir c.body = r
      obtain ⟨dir, result⟩ := r
      have hsame : ∀ found : Handle F,
          found.Same { found with listing := dir.listing, cursor := dir.cursor } :=
        fun _ => ⟨rfl, rfl, rfl, rfl⟩
      refine (from_updateFile id hsame).bind fun _ => ?_
      split
      · exact Keeps.throw _
      · exact Keeps.pure _

theorem from_hSetInfo : Keeps t.From (hSetInfo svc c : Action H F Answer) := by
  refine (keeps_shareOf c).bind fun share => ?_
  refine (Observes.keeps fun s => observes_checkWritable s _).bind fun _ => ?_
  refine Keeps.ite (Keeps.throw _) ?_
  refine (keeps_handleFrom c _).bind ?_
  rintro ⟨id, named⟩
  refine (keeps_bufferOf c _ _ _).bind fun payload => ?_
  refine Keeps.bind ?_ fun _ => keeps_reply _ _
  refine Keeps.ite (Keeps.throw _) (Keeps.ite ?_ (Keeps.ite ?_ (Keeps.ite (Keeps.pure _)
    (Keeps.ite ?_ (Keeps.throw _)))))
  · cases named with
    | pipe handle => exact Keeps.throw _
    | file handle =>
        refine Keeps.ite (Keeps.throw _) ((from_openHandle id handle true).bind fun fh => ?_)
        refine Keeps.from fun s hs => KeepsFrom.get ?_
        refine KeepsFrom.bind (x := set _) (hs.withHost _) fun _ => (from_keepFile id _).bind fun _ => ?_
        split
        · exact Keeps.throw _
        · exact Keeps.pure _
  · cases named with
    | pipe handle => exact from_updatePipe id fun handle => { handle with deleteOnClose := payload.field 0 1 != 0 }
    | file handle => exact from_updateFile id fun _ => ⟨rfl, rfl, rfl, rfl⟩
  · refine Keeps.ite (Keeps.throw _) ?_
    cases named with
    | pipe handle => exact Keeps.throw _
    | file handle =>
        refine Keeps.get fun s _ => ?_
        split
        · exact Keeps.throw _
        · refine (Observes.keeps fun s => observes_clashes _ _ s).bind fun clash => ?_
          refine Keeps.ite (Keeps.throw _) (Keeps.bind ?_ fun _ => from_updateFile id fun _ => ⟨rfl, rfl, rfl, rfl⟩)
          intro s hs
          unfold onDisk call
          beta_reduce
          generalize svc.host.replace s.host handle.path _ = r
          obtain ⟨r, h⟩ := r
          cases r with
          | ok _ => exact hs.withHost h
          | error e => exact hs.withHost h

theorem from_hPipeIoctl : Keeps t.From (hPipeIoctl svc c : Action H F Answer) := by
  refine (keeps_treeOf c true).bind fun tree => ?_
  refine Keeps.ite (Keeps.throw _) ?_
  refine (keeps_bufferOf c _ _ _).bind fun data => ?_
  refine Keeps.ite ?_ (Keeps.throw _)
  refine (keeps_handleFrom c _).bind ?_
  rintro ⟨id, named⟩
  cases named with
  | file handle => exact Keeps.throw _
  | pipe handle =>
      dsimp only
      split
      · exact (from_updatePipe id _).bind fun _ => Keeps.throw _
      · exact (from_updatePipe id _).bind fun _ => Keeps.pure _

theorem from_hQueryInfo : Keeps t.From (hQueryInfo svc c : Action H F Answer) := by
  refine (keeps_shareOf c).bind fun share => ?_
  refine Keeps.ite (Keeps.throw _) ?_
  refine (keeps_handleFrom c _).bind ?_
  rintro ⟨id, named⟩
  refine (Observes.keeps fun s => observes_infoOf share named s).bind fun blob => ?_
  cases blob with
  | none => exact Keeps.throw _
  | some blob => exact Keeps.ite (Keeps.throw _) (keeps_reply _ fun head => Answer.success (head ++ blob))

theorem from_execute (command : Command) : Keeps t.From (execute svc c command) := by
  cases command with
  | create => exact from_hCreateFile c
  | close => exact from_hClose c
  | flush => exact from_hFlush c
  | read => exact from_hRead c
  | write => exact from_hWrite c
  | queryDirectory => exact from_hQueryDir c
  | queryInfo => exact from_hQueryInfo c
  | setInfo => exact from_hSetInfo c
  | ioctl => exact from_hPipeIoctl c
  | negotiate | sessionSetup | logoff | treeConnect | treeDisconnect | cancel | echo | other =>
      exact Keeps.throw _

end

/-! ## Runs -/

variable {svc : Service H F} {base : Env ShareTree Unit}

theorem Files.From.next {w : Serving H F} (h : t.From w.files) (e : Event) :
    t.From (w.next svc base e).files :=
  w.next_keeps svc base (fun _ hs => hs.closeAll svc) h fun p _ _ =>
    from_execute (w.context p) p.hdr.command _ h

theorem Files.From.run {w : Serving H F} (h : t.From w.files) (events : List Event) :
    t.From (events.foldl (Serving.next svc base) w).files := by
  induction events generalizing w with
  | nil => exact h
  | cons e rest ih => exact ih (h.next e)

/-- An id is given once. From any state that a connection reaches on, an id that was given before stands
for the file that it stood for, opened the same way, or for nothing any more. -/
theorem ids_given_once {h : H} {w : Serving H F} (hw : (serving svc base h).Reached w) (events : List Event) :
    w.files.From (events.foldl (Serving.next svc base) w).files := by
  refine Files.From.run (Files.From.refl ?_) events
  induction hw with
  | init hinit =>
      cases hinit
      exact ⟨List.nodup_nil, List.nodup_nil, fun _ he => (by cases he), fun _ hp => (by cases hp),
        fun _ he => (by cases he)⟩
  | step _ _ hs ih =>
      cases hs
      exact ((Files.From.refl ih).next _).tabled

theorem ids_given_once_saving :
    (saving.foldl (Serving.next (memoryService false [(lit "G", gamesShare)]) openAccess)
        (Serving.new memoryTree)).files.From
      ([createS FILE_OPEN].foldl (Serving.next (memoryService false [(lit "G", gamesShare)]) openAccess)
        (saving.foldl (Serving.next (memoryService false [(lit "G", gamesShare)]) openAccess)
          (Serving.new memoryTree))).files :=
  ids_given_once (Runs.System.ReachedWhen.along (.init rfl) (.of_forall (fun _ _ => trivial) _ saving)) _

end Ps2Servers.Smb2
