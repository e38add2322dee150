import Ps2Servers.Smb2.Memory
import Ps2Servers.Smb2.Signing

/-!
# Who a connection serves

A client is served once it has proved who it is, against a challenge that was issued for this proof, and
until it logs off. Before and after that nothing of it is open, and no request reaches a file.
-/

namespace Ps2Servers.Smb2

open Text Effects

/-! ## Steps -/

section

variable {τ η : Type} (env : Env τ η)

/-- The NTLM exchange that a connection is in. -/
def Conn.exchange (conn : Conn τ η) : Option Bytes × Option Bytes × Option Bytes :=
  (conn.challenge, conn.ntlmNegotiate, conn.ntlmChallenge)

/-- What a connection knows of its client. -/
def Conn.access (conn : Conn τ η) : Bool × (Option Bytes × Option Bytes × Option Bytes) × List (Nat × τ) :=
  (conn.authenticated, conn.exchange, conn.tables.trees)

theorem State.finish_access (s : State τ η) (hdr : Header) (conn : Conn τ η) (reply : Reply)
    (session : Option Bytes) : (s.finish hdr conn reply session).conn.access = conn.access := by
  unfold State.finish grantCredits
  dsimp only
  split
  · split
    · rfl
    · rfl
  · split
    · rfl
    · rfl

/-- A request that is not admitted changes nothing of it, and an admitted one does what its handler
does. -/
theorem State.request_access (s : State τ η) (p : Piece) (random : Bytes) :
    (s.request env p random).conn.access =
      if s.admits env p then (handle env s.conn (inherit s.prev p.hdr) p.body random).1.access
      else s.conn.access := by
  unfold State.request State.admits
  cases hc : s.closed with
  | true => rfl
  | false =>
      simp only [Bool.false_eq_true, if_false, Bool.not_false, Bool.true_and]
      cases signatureCheck env s.conn (inherit s.prev p.hdr) p.raw with
      | crash =>
          rw [if_neg (by simp)]
      | refuse status =>
          rw [if_neg (by simp)]
          cases inheritedFailure s.prev p.hdr with
          | none => exact State.finish_access ..
          | some status' => exact State.finish_access ..
      | pass =>
          cases inheritedFailure s.prev p.hdr with
          | some status => exact State.finish_access ..
          | none => exact State.finish_access ..

theorem State.foreign_access (s : State τ η) (msg : Bytes) :
    (s.foreign env msg).conn.access = s.conn.access := by
  obtain ⟨credits, heq⟩ := s.foreign_eq env msg
  rw [heq]
  rfl

theorem validateNegotiateInfo_access (conn : Conn τ η) (data : Bytes) :
    (validateNegotiateInfo conn data).1.access = conn.access := by
  unfold validateNegotiateInfo
  split
  · rfl
  · dsimp only
    split
    · split
      · rfl
      · rfl
    · split
      · rfl
      · rfl

theorem hNegotiate_access (conn : Conn τ η) (body : Bytes) :
    (hNegotiate env conn body).1.access = conn.access := by
  unfold hNegotiate
  split
  · rfl
  · dsimp only
    split
    · rfl
    · rfl

/-- A tree is connected for a client that has logged on. -/
theorem hTreeConnect_access (conn : Conn τ η) (body : Bytes) :
    (hTreeConnect env conn body).1.access = conn.access ∨
      conn.authenticated = true ∧ ∃ path id tree, env.shareNamed path = some tree ∧
        (hTreeConnect env conn body).1.access =
          (true, conn.exchange, (id, tree) :: conn.tables.trees) := by
  unfold hTreeConnect
  split
  · exact Or.inl rfl
  · rename_i hauth
    rw [Bool.not_eq_false] at hauth
    split
    · exact Or.inl rfl
    · split
      · exact Or.inl rfl
      · split
        · exact Or.inl rfl
        · rename_i path _ _ tree htree
          exact Or.inr ⟨hauth, path, conn.tables.nextTree, tree, htree, Prod.ext hauth rfl⟩

/-- What the handlers of commands do, apart from those that log on and off. -/
theorem handle_access (hserve : ∀ command tables hdr body id, (env.serve command tables hdr body id).2 = tables)
    (conn : Conn τ η) (hdr : Header) (body random : Bytes) (hsetup : hdr.command ≠ .sessionSetup)
    (hlogoff : hdr.command ≠ .logoff) :
    (handle env conn hdr body random).1.authenticated = conn.authenticated ∧
      (handle env conn hdr body random).1.exchange = conn.exchange ∧
      ∀ t ∈ (handle env conn hdr body random).1.tables.trees,
        t ∈ conn.tables.trees ∨ conn.authenticated = true ∧ ∃ path, env.shareNamed path = some t.2 := by
  have hsame : ∀ {conn' : Conn τ η}, conn'.access = conn.access →
      conn'.authenticated = conn.authenticated ∧ conn'.exchange = conn.exchange ∧
        ∀ t ∈ conn'.tables.trees,
          t ∈ conn.tables.trees ∨ conn.authenticated = true ∧ ∃ path, env.shareNamed path = some t.2 := by
    intro conn' h
    have htrees : conn'.tables.trees = conn.tables.trees := congrArg (fun a => a.2.2) h
    refine ⟨congrArg Prod.fst h, congrArg (fun a => a.2.1) h, fun t ht => Or.inl ?_⟩
    rw [htrees] at ht
    exact ht
  have hfiles : (hFiles env conn hdr body).1.access = conn.access :=
    congrArg (fun tables => (conn.authenticated, conn.exchange, tables.trees)) (hserve ..)
  unfold handle
  cases hc : hdr.command with
  | sessionSetup => exact absurd hc hsetup
  | logoff => exact absurd hc hlogoff
  | negotiate => exact hsame (hNegotiate_access env conn body)
  | treeConnect =>
      rcases hTreeConnect_access env conn body with h | ⟨hauth, path, id, tree, htree, h⟩
      · exact hsame h
      · have htrees : (hTreeConnect env conn body).1.tables.trees = (id, tree) :: conn.tables.trees :=
          congrArg (fun a => a.2.2) h
        refine ⟨(congrArg Prod.fst h).trans hauth.symm, congrArg (fun a => a.2.1) h, fun t ht => ?_⟩
        rw [htrees] at ht
        rcases List.mem_cons.mp ht with rfl | ht
        · exact Or.inr ⟨hauth, path, htree⟩
        · exact Or.inl ht
  | treeDisconnect => exact ⟨rfl, rfl, fun t ht => Or.inl (List.mem_filter.mp ht).1⟩
  | ioctl =>
      apply hsame
      dsimp only
      unfold hIoctl
      split
      · rfl
      · split
        · rfl
        · split
          · rfl
          · split
            · rfl
            · split
              · exact validateNegotiateInfo_access conn _
              · exact hfiles
  | echo | cancel | other => exact hsame rfl
  | create | close | flush | read | write | queryDirectory | queryInfo | setInfo => exact hsame hfiles

/-- What a SESSION_SETUP does. -/
theorem hSessionSetup_access (conn : Conn τ η) (body random : Bytes) :
    (∃ status, setupResult env conn body = .refused status ∧
      (hSessionSetup env conn body random).1.access = conn.access) ∨
    (∃ token raw, setupResult env conn body = .challenge token raw ∧
      (hSessionSetup env conn body random).1.access =
        (conn.authenticated, (some (random.take 8), some (env.trim token),
          some (env.buildChallenge (random.take 8) raw (if token.length < 16 then 0 else token.field 12 4))),
          conn.tables.trees)) ∨
    ∃ sessionKey, setupResult env conn body = .accepted sessionKey ∧
      (hSessionSetup env conn body random).1.access = (true, (none, none, none), conn.tables.trees) := by
  unfold hSessionSetup
  cases hresult : setupResult env conn body with
  | refused status => exact Or.inl ⟨status, rfl, rfl⟩
  | challenge token raw => exact Or.inr (Or.inl ⟨token, raw, rfl, rfl⟩)
  | accepted sessionKey =>
      refine Or.inr (Or.inr ⟨sessionKey, rfl, ?_⟩)
      cases sessionKey with
      | none => rfl
      | some key => rfl

end

/-! ## Requests that are heard -/

variable {H F : Type} (svc : Service H F) (base : Env ShareTree Unit)

/-- The request that an event brings, if it gets to its handler, and the random bytes for it. -/
def Serving.heard (w : Serving H F) : Event → Option (Piece × Bytes)
  | .input (.request p random) => if w.state.admits (w.env svc base) p then some (p, random) else none
  | _ => none

theorem Serving.settle_state (w : Serving H F) : (w.settle svc).state = w.state := by
  unfold Serving.settle
  split
  · rfl
  · rfl

theorem Serving.settle_files (w : Serving H F) :
    (w.settle svc).files = w.files ∨ (w.settle svc).files = w.files.closeAll svc := by
  unfold Serving.settle
  split
  · exact Or.inr rfl
  · exact Or.inl rfl

theorem Serving.next_files (w : Serving H F) (i : Input) :
    (w.next svc base (.input i)).files = w.filesAfter svc base i ∨
      (w.next svc base (.input i)).files = (w.filesAfter svc base i).closeAll svc :=
  Serving.settle_files svc ⟨_, _⟩

/-- Without a request that is heard nothing happens, unless the connection ends. -/
theorem Serving.next_silent {w : Serving H F} {e : Event} (he : w.heard svc base e = none) :
    (w.next svc base e).state.conn.access = w.state.conn.access ∧
      ((w.next svc base e).files = w.files ∨ (w.next svc base e).files = w.files.closeAll svc) := by
  cases e with
  | gone => exact ⟨congrArg (·.conn.access) (Serving.settle_state svc _), Serving.settle_files svc _⟩
  | input i =>
      have hstate : (w.next svc base (.input i)).state = Smb2.next (w.env svc base) w.state i :=
        Serving.settle_state svc _
      have hfiles := w.next_files svc base i
      rw [hstate]
      cases i with
      | message => exact ⟨rfl, hfiles⟩
      | answered => exact ⟨rfl, hfiles⟩
      | foreign msg =>
          refine ⟨?_, hfiles⟩
          dsimp only [Smb2.next]
          split
          · rfl
          · exact State.foreign_access ..
      | request p random =>
          have hadmits : w.state.admits (w.env svc base) p ≠ true := by
            intro h
            cases (if_pos h).symm.trans he
          have hsame : w.filesAfter svc base (.request p random) = w.files := if_neg hadmits
          rw [hsame] at hfiles
          exact ⟨(State.request_access ..).trans (if_neg hadmits), hfiles⟩

theorem Serving.next_heard {w : Serving H F} {e : Event} {p : Piece} {random : Bytes}
    (he : w.heard svc base e = some (p, random)) :
    (w.next svc base e).state.conn.access =
        (handle (w.env svc base) w.state.conn (inherit w.state.prev p.hdr) p.body random).1.access ∧
      ((w.next svc base e).files = w.perform svc p ∨
        (w.next svc base e).files = (w.perform svc p).closeAll svc) := by
  unfold Serving.heard at he
  split at he
  · rename_i q drawn
    rw [Option.ite_none_right_eq_some] at he
    obtain ⟨hadmits, he⟩ := he
    cases he
    have hstate : (w.next svc base (.input (.request p random))).state =
        Smb2.next (w.env svc base) w.state (.request p random) := Serving.settle_state svc _
    have hfiles := w.next_files svc base (.request p random)
    have hperform : w.filesAfter svc base (.request p random) = w.perform svc p := if_pos hadmits
    rw [hperform] at hfiles
    rw [hstate]
    exact ⟨(State.request_access ..).trans (if_pos hadmits), hfiles⟩
  · cases he

/-- What the handler of a request is told. -/
def Serving.context (w : Serving H F) (p : Piece) : Context :=
  contextOf w.state.conn (inherit w.state.prev p.hdr) p.body

/-- What the commands and the end of a connection keep is kept by a step. -/
theorem Serving.next_keeps {inv : Files H F → Prop} (hclose : ∀ s, inv s → inv (s.closeAll svc))
    {w : Serving H F} (hw : inv w.files) {e : Event}
    (hexecute : ∀ p random, e = .input (.request p random) →
      KeepsFrom inv w.files (execute svc (w.context p) p.hdr.command)) :
    inv (w.next svc base e).files := by
  cases hheard : w.heard svc base e with
  | none =>
      obtain ⟨-, h | h⟩ := w.next_silent svc base hheard
      · rw [h]
        exact hw
      · rw [h]
        exact hclose _ hw
  | some request =>
      obtain ⟨p, random⟩ := request
      have hevent : e = .input (.request p random) := by
        unfold Serving.heard at hheard
        split at hheard
        · rw [Option.ite_none_right_eq_some] at hheard
          cases hheard.2
          rfl
        · cases hheard
      have hperform : inv (w.perform svc p) := by
        unfold Serving.perform
        split
        · exact hclose _ hw
        · exact hexecute p random hevent
      obtain ⟨-, h | h⟩ := w.next_heard svc base hheard
      · rw [h]
        exact hperform
      · rw [h]
        exact hclose _ hperform

/-- The event brings a SESSION_SETUP with this outcome. -/
def Serving.SetsUp (w : Serving H F) (e : Event) (p : Piece) (random : Bytes) (result : SetupResult) : Prop :=
  w.heard svc base e = some (p, random) ∧ p.hdr.command = .sessionSetup ∧
    setupResult base w.state.conn p.body = result

/-- The event brings a LOGOFF. -/
def Serving.LogsOff (w : Serving H F) (e : Event) : Prop :=
  ∃ p random, w.heard svc base e = some (p, random) ∧ p.hdr.command = .logoff

/-- What the server puts into its answer to an NTLM NEGOTIATE. -/
def issued (token : Bytes) (raw : Bool) (drawn : Bytes) : Option Bytes × Option Bytes × Option Bytes :=
  (some (drawn.take 8), some (base.trim token),
    some (base.buildChallenge (drawn.take 8) raw (if token.length < 16 then 0 else token.field 12 4)))

/-- What an event may do to what the connection knows of its client. -/
inductive Serving.Step (w : Serving H F) (e : Event) : Prop
  | quiet (hauth : (w.next svc base e).state.conn.authenticated = w.state.conn.authenticated)
      (hexchange : (w.next svc base e).state.conn.exchange = w.state.conn.exchange)
      (htrees : ∀ t ∈ (w.next svc base e).state.conn.tables.trees, t ∈ w.state.conn.tables.trees ∨
        w.state.conn.authenticated = true ∧ ∃ path, svc.treeNamed path = some t.2)
      (hlogoff : ¬ w.LogsOff svc base e)
      (hsetup : ∀ p random result, w.SetsUp svc base e p random result → ∃ status, result = .refused status)
  | logoff (p : Piece) (random : Bytes) (he : w.heard svc base e = some (p, random))
      (hcommand : p.hdr.command = .logoff)
      (haccess : (w.next svc base e).state.conn.access = (false, w.state.conn.exchange, []))
  | challenge (p : Piece) (random token : Bytes) (raw : Bool)
      (he : w.SetsUp svc base e p random (.challenge token raw))
      (haccess : (w.next svc base e).state.conn.access =
        (w.state.conn.authenticated, issued base token raw random, w.state.conn.tables.trees))
  | accept (p : Piece) (random : Bytes) (sessionKey : Option Bytes)
      (he : w.SetsUp svc base e p random (.accepted sessionKey))
      (haccess : (w.next svc base e).state.conn.access =
        (true, (none, none, none), w.state.conn.tables.trees))

theorem Serving.step_cases (w : Serving H F) (e : Event) : w.Step svc base e := by
  have hquiet : (w.next svc base e).state.conn.access = w.state.conn.access →
      (w.next svc base e).state.conn.authenticated = w.state.conn.authenticated ∧
      (w.next svc base e).state.conn.exchange = w.state.conn.exchange ∧
      ∀ t ∈ (w.next svc base e).state.conn.tables.trees, t ∈ w.state.conn.tables.trees ∨
        w.state.conn.authenticated = true ∧ ∃ path, svc.treeNamed path = some t.2 := by
    intro h
    have htrees : (w.next svc base e).state.conn.tables.trees = w.state.conn.tables.trees :=
      congrArg (fun a => a.2.2) h
    refine ⟨congrArg Prod.fst h, congrArg (fun a => a.2.1) h, fun t ht => Or.inl ?_⟩
    rw [htrees] at ht
    exact ht
  cases he : w.heard svc base e with
  | none =>
      obtain ⟨hauth, hexchange, htrees⟩ := hquiet (w.next_silent svc base he).1
      refine .quiet hauth hexchange htrees ?_ ?_
      · rintro ⟨p, random, h, -⟩
        cases he.symm.trans h
      · rintro p random result ⟨h, -⟩
        cases he.symm.trans h
  | some request =>
      obtain ⟨p, random⟩ := request
      obtain ⟨h, -⟩ := w.next_heard svc base he
      have hcommand : (inherit w.state.prev p.hdr).command = p.hdr.command := inherit_command ..
      by_cases hlogoff : p.hdr.command = .logoff
      · refine .logoff p random he hlogoff ?_
        unfold handle at h
        rw [hcommand, hlogoff] at h
        exact h
      · by_cases hsetup : p.hdr.command = .sessionSetup
        · unfold handle at h
          rw [hcommand, hsetup] at h
          rcases hSessionSetup_access (w.env svc base) w.state.conn p.body random with
            ⟨status, hresult, haccess⟩ | ⟨token, raw, hresult, haccess⟩ | ⟨key, hresult, haccess⟩
          · obtain ⟨hauth, hexchange, htrees⟩ := hquiet (h.trans haccess)
            refine .quiet hauth hexchange htrees ?_ ?_
            · rintro ⟨q, drawn, hq, hoff⟩
              cases he.symm.trans hq
              exact hlogoff hoff
            · rintro q drawn result ⟨hq, -, hr⟩
              cases he.symm.trans hq
              exact ⟨status, hr.symm.trans hresult⟩
          · exact .challenge p random token raw ⟨he, hsetup, hresult⟩ (h.trans haccess)
          · exact .accept p random key ⟨he, hsetup, hresult⟩ (h.trans haccess)
        · obtain ⟨hauth, hexchange, htrees⟩ := handle_access (w.env svc base) (fun _ _ _ _ _ => rfl)
            w.state.conn (inherit w.state.prev p.hdr) p.body random (by rwa [hcommand]) (by rwa [hcommand])
          have hnext : (w.next svc base e).state.conn.tables.trees =
              (handle (w.env svc base) w.state.conn (inherit w.state.prev p.hdr) p.body
                random).1.tables.trees := congrArg (fun a => a.2.2) h
          refine .quiet ((congrArg Prod.fst h).trans hauth) ((congrArg (fun a => a.2.1) h).trans hexchange)
            (fun t ht => htrees t (hnext ▸ ht)) ?_ ?_
          · rintro ⟨q, drawn, hq, hoff⟩
            cases he.symm.trans hq
            exact hlogoff hoff
          · rintro q drawn result ⟨hq, hset, -⟩
            cases he.symm.trans hq
            exact absurd hset hsetup

/-! ## Without a session -/

theorem treeOf_unauthenticated {c : Context} (hc : c.authenticated = false) (ipcOk : Bool) (s : Files H F) :
    treeOf c ipcOk s = .error (.status STATUS_USER_SESSION_DELETED) s := by
  unfold treeOf
  rw [if_pos hc]
  rfl

theorem shareOf_unauthenticated {c : Context} (hc : c.authenticated = false) (s : Files H F) :
    shareOf c s = .error (.status STATUS_USER_SESSION_DELETED) s :=
  bind_error (treeOf_unauthenticated hc false s)

/-- Every handler asks for the session first. -/
theorem execute_unauthenticated {c : Context} (hc : c.authenticated = false) (command : Command)
    (s : Files H F) : final (execute svc c command s) = s := by
  have htree {α : Type} (f : ShareTree → Action H F α) : (treeOf c true >>= f) s =
      .error (.status STATUS_USER_SESSION_DELETED) s := bind_error (treeOf_unauthenticated hc true s)
  have hshare {α : Type} (f : Share → Action H F α) : (shareOf c >>= f) s =
      .error (.status STATUS_USER_SESSION_DELETED) s := bind_error (shareOf_unauthenticated hc s)
  cases command with
  | create | close | read | write | ioctl => exact congrArg final (htree _)
  | flush | queryDirectory | queryInfo | setInfo => exact congrArg final (hshare _)
  | negotiate | sessionSetup | logoff | treeConnect | treeDisconnect | cancel | echo | other => rfl

/-- Nothing is open. -/
structure Serving.Shut (w : Serving H F) : Prop where
  trees : w.state.conn.tables.trees = []
  files : w.files.handles.entries = []
  pipes : w.files.pipes = []

theorem Files.closeAll_of_empty {s : Files H F} (hfiles : s.handles.entries = []) (hpipes : s.pipes = []) :
    s.closeAll svc = s := by
  obtain ⟨⟨host, next, entries, below⟩, pipes⟩ := s
  cases hfiles
  cases hpipes
  rfl

/-- A request that is heard on a connection where nothing is open changes no file. -/
theorem Serving.perform_unauthenticated {w : Serving H F} (hauth : w.state.conn.authenticated = false)
    (hshut : w.Shut) (p : Piece) : w.perform svc p = w.files := by
  unfold Serving.perform
  split
  · exact Files.closeAll_of_empty svc hshut.files hshut.pipes
  · exact execute_unauthenticated svc hauth _ _

theorem Serving.next_unauthenticated {w : Serving H F} (hauth : w.state.conn.authenticated = false)
    (hshut : w.Shut) (e : Event) : (w.next svc base e).files = w.files := by
  have hclose := Files.closeAll_of_empty svc hshut.files hshut.pipes
  cases he : w.heard svc base e with
  | none =>
      obtain ⟨-, h | h⟩ := w.next_silent svc base he
      · exact h
      · exact h.trans hclose
  | some request =>
      obtain ⟨p, random⟩ := request
      have hperform := w.perform_unauthenticated svc hauth hshut p
      obtain ⟨-, h | h⟩ := w.next_heard svc base he
      · exact h.trans hperform
      · exact (h.trans (congrArg _ hperform)).trans hclose

/-- Where nothing is open before the client has logged on, nothing is then. -/
theorem Serving.Shut.next {w : Serving H F} (hw : w.state.conn.authenticated = false → w.Shut) (e : Event)
    (hauth : (w.next svc base e).state.conn.authenticated = false) : (w.next svc base e).Shut := by
  have hkept (hbefore : w.state.conn.authenticated = false)
      (htrees : ∀ t ∈ (w.next svc base e).state.conn.tables.trees, t ∈ w.state.conn.tables.trees) :
      (w.next svc base e).Shut := by
    have hshut := hw hbefore
    have hfiles := w.next_unauthenticated svc base hbefore hshut e
    rw [hshut.trees] at htrees
    refine ⟨List.eq_nil_iff_forall_not_mem.mpr fun t ht => ?_, ?_, ?_⟩
    · cases htrees t ht
    · rw [hfiles]
      exact hshut.files
    · rw [hfiles]
      exact hshut.pipes
  cases w.step_cases svc base e with
  | quiet hsame _ htrees =>
      have hbefore := hsame.symm.trans hauth
      refine hkept hbefore fun t ht => ?_
      rcases htrees t ht with h | ⟨h, -⟩
      · exact h
      · cases hbefore.symm.trans h
  | challenge p random token raw _ haccess =>
      have htrees : (w.next svc base e).state.conn.tables.trees = w.state.conn.tables.trees :=
        congrArg (fun a => a.2.2) haccess
      exact hkept ((congrArg Prod.fst haccess).symm.trans hauth) fun t ht => htrees ▸ ht
  | accept p random key _ haccess => cases (congrArg Prod.fst haccess).symm.trans hauth
  | logoff p random he hcommand haccess =>
      obtain ⟨-, hfiles⟩ := w.next_heard svc base he
      have hperform : w.perform svc p = w.files.closeAll svc := by
        unfold Serving.perform
        rw [hcommand]
      rw [hperform] at hfiles
      refine ⟨congrArg (fun a => a.2.2) haccess, ?_, ?_⟩
      · rcases hfiles with h | h
        · exact congrArg (·.handles.entries) h
        · exact congrArg (·.handles.entries) h
      · rcases hfiles with h | h
        · exact congrArg (·.pipes) h
        · exact congrArg (·.pipes) h

/-- On a connection that has not logged on, or that has logged off, nothing is open, and nothing that a
client sends reaches a file. -/
theorem files_need_session {h : H} {w : Serving H F} (hw : (serving svc base h).Reached w)
    (hauth : w.state.conn.authenticated = false) :
    w.Shut ∧ ∀ e, (w.next svc base e).files = w.files := by
  have hshut : ∀ {w : Serving H F}, (serving svc base h).Reached w →
      w.state.conn.authenticated = false → w.Shut := by
    intro w hw
    induction hw with
    | init hinit =>
        cases hinit
        exact fun _ => ⟨rfl, rfl, rfl⟩
    | step _ _ hs ih =>
        cases hs
        exact Serving.Shut.next svc base ih _
  exact ⟨hshut hw hauth, w.next_unauthenticated svc base hauth (hshut hw hauth)⟩

/-- A client made a file and logged off. -/
def left : Serving Tree Opened :=
  (saving ++ [ask .logoff 0 []]).foldl (Serving.next (memoryService false [(lit "G", gamesShare)]) openAccess)
    (Serving.new memoryTree)

theorem reached_left :
    (serving (memoryService false [(lit "G", gamesShare)]) openAccess memoryTree).Reached left :=
  Runs.System.ReachedWhen.along (.init rfl) (.of_forall (fun _ _ => trivial) _ _)

theorem files_need_session_left :
    left.files.host [lit "games", lit "S"] = some (.file [0x2a]) ∧ left.Shut :=
  ⟨rfl, (files_need_session _ _ reached_left rfl).1⟩

/-! ## Logging on -/

/-- The state of a connection after these events. -/
def after (h : H) (events : List Event) : Serving H F := events.foldl (Serving.next svc base) (Serving.new h)

/-- The event brings an NTLM NEGOTIATE that is answered with this exchange. -/
def Serving.Issues (exchange : Option Bytes × Option Bytes × Option Bytes) (w : Serving H F) (e : Event) :
    Prop :=
  ∃ p drawn token raw, w.SetsUp svc base e p drawn (.challenge token raw) ∧
    exchange = issued base token raw drawn

/-- A SESSION_SETUP that the event brings, if any, is refused. -/
def Serving.Rests (w : Serving H F) (e : Event) : Prop :=
  ∀ p random result, w.SetsUp svc base e p random result → ∃ status, result = .refused status

/-- The exchange that a connection is in is the one of the last NTLM NEGOTIATE, and no SESSION_SETUP has
succeeded since. -/
theorem exchange_issued (h : H) (events : List Event)
    (hopen : (after svc base h events).state.conn.exchange ≠ (none, none, none)) :
    Runs.Since (Serving.next svc base)
      (Serving.Issues svc base (after svc base h events).state.conn.exchange) (Serving.Rests svc base)
      (Serving.new h) events := by
  induction events using List.reverseRecOn with
  | nil => exact absurd rfl hopen
  | append_singleton events e ih =>
      have hnext : after svc base h (events ++ [e]) = (after svc base h events).next svc base e := by
        unfold after
        rw [List.foldl_append]
        rfl
      rw [hnext] at hopen ⊢
      cases (after svc base h events).step_cases svc base e with
      | quiet _ hexchange _ _ hsetup =>
          rw [hexchange] at hopen ⊢
          exact (ih hopen).stay hsetup
      | logoff p random he hcommand haccess =>
          have hexchange := congrArg (fun a => a.2.1) haccess
          change _ = (after svc base h events).state.conn.exchange at hexchange
          change (Serving.next svc base (after svc base h events) e).state.conn.exchange = _ at hexchange
          rw [hexchange] at hopen ⊢
          refine (ih hopen).stay ?_
          rintro q drawn result ⟨hq, hset, -⟩
          cases he.symm.trans hq
          cases hcommand.symm.trans hset
      | challenge p random token raw he haccess =>
          exact Runs.Since.start _ ⟨p, random, token, raw, he, congrArg (fun a => a.2.1) haccess⟩
      | accept p random key _ haccess => exact absurd (congrArg (fun a => a.2.1) haccess) hopen

/-- A proof that the server does not refuse. -/
def Proof.accepted : Proof → Bool
  | .refused _ => false
  | _ => true

/-- After these events the event brings an NTLM AUTHENTICATE whose proof is valid for the challenge of the
last NTLM NEGOTIATE, which nobody has logged on with before. -/
def Proves (h : H) (events : List Event) (e : Event) : Prop :=
  ∃ p random proof challenge negotiate message,
    (after svc base h events).heard svc base e = some (p, random) ∧ p.hdr.command = .sessionSetup ∧
    setupOf p.body = .authenticate proof ∧
    (base.prove proof challenge negotiate message).accepted = true ∧
    Runs.Since (Serving.next svc base) (Serving.Issues svc base (some challenge, negotiate, message))
      (Serving.Rests svc base) (Serving.new h) events

theorem proves_of_accepted (h : H) (events : List Event) {e : Event} {p : Piece} {random : Bytes}
    {key : Option Bytes} (he : (after svc base h events).SetsUp svc base e p random (.accepted key)) :
    Proves svc base h events e := by
  obtain ⟨hheard, hcommand, hresult⟩ := he
  unfold setupResult at hresult
  split at hresult
  · cases hresult
  · cases hresult
  · rename_i proof hsetup
    split at hresult
    · cases hresult
    · rename_i challenge hchallenge
      have hexchange : (after svc base h events).state.conn.exchange = (some challenge,
          (after svc base h events).state.conn.ntlmNegotiate,
          (after svc base h events).state.conn.ntlmChallenge) :=
        congrArg (fun c => (c, _, _)) hchallenge
      refine ⟨p, random, proof, challenge, (after svc base h events).state.conn.ntlmNegotiate,
        (after svc base h events).state.conn.ntlmChallenge, hheard, hcommand, hsetup, ?_, ?_⟩
      · split at hresult
        · cases hresult
        · rename_i hproof
          rw [hproof]
          rfl
        · rename_i hproof
          rw [hproof]
          rfl
      · rw [← hexchange]
        refine exchange_issued svc base h events ?_
        rw [hexchange]
        simp

/-- One of these events logged the client on, and none after it logged the client off. -/
def LoggedOn (h : H) (events : List Event) : Prop :=
  ∃ before e rest, events = before ++ e :: rest ∧ Proves svc base h before e ∧
    Runs.Along (Serving.next svc base) (fun w e => ¬ w.LogsOff svc base e)
      ((after svc base h before).next svc base e) rest

theorem LoggedOn.stay {h : H} {events : List Event} (hevents : LoggedOn svc base h events) {e : Event}
    (he : ¬ (after svc base h events).LogsOff svc base e) : LoggedOn svc base h (events ++ [e]) := by
  obtain ⟨before, b, rest, rfl, hproves, halong⟩ := hevents
  refine ⟨before, b, rest ++ [e], ?_, hproves, halong.concat ?_⟩
  · rw [List.append_assoc, List.cons_append]
  · unfold after at he ⊢
    rw [List.foldl_append] at he
    exact he

theorem LoggedOn.next {h : H} {events : List Event} {e : Event}
    (ih : (after svc base h events).state.conn.authenticated = true → LoggedOn svc base h events)
    (hauth : (after svc base h (events ++ [e])).state.conn.authenticated = true) :
    LoggedOn svc base h (events ++ [e]) := by
  have hnext : after svc base h (events ++ [e]) = (after svc base h events).next svc base e := by
    unfold after
    rw [List.foldl_append]
    rfl
  rw [hnext] at hauth
  cases (after svc base h events).step_cases svc base e with
  | quiet hsame _ _ hlogoff => exact (ih (hsame.symm.trans hauth)).stay svc base hlogoff
  | logoff p random he hcommand haccess => cases (congrArg Prod.fst haccess).symm.trans hauth
  | challenge p random token raw he haccess =>
      refine (ih ((congrArg Prod.fst haccess).symm.trans hauth)).stay svc base ?_
      rintro ⟨q, drawn, hq, hoff⟩
      cases he.1.symm.trans hq
      cases he.2.1.symm.trans hoff
  | accept p random key he haccess =>
      exact ⟨events, e, [], rfl, proves_of_accepted svc base h events he, trivial⟩

/-- A client that is served has proved who it is, and has not logged off since. The proof is for the
challenge that was issued last before it, and each challenge serves one proof. -/
theorem session_proved (h : H) (events : List Event)
    (hauth : (after svc base h events).state.conn.authenticated = true) : LoggedOn svc base h events := by
  induction events using List.reverseRecOn with
  | nil => cases hauth
  | append_singleton events e ih => exact LoggedOn.next svc base ih hauth

theorem session_proved_saving :
    LoggedOn (memoryService false [(lit "G", gamesShare)]) openAccess memoryTree saving :=
  session_proved (memoryService false [(lit "G", gamesShare)]) openAccess memoryTree saving rfl

end Ps2Servers.Smb2
