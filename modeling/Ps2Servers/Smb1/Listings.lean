import Ps2Servers.Smb1.Ages
import Ps2Servers.Smb1.Pages

/-!
# Listings on a connection of Edge

A FIND_FIRST2 keeps the entries of a directory as a search, and each FIND_NEXT2 that names it gives
out the next one. Between two of them the connection serves other requests. A request spares a search
if it neither drops all searches nor pushes this one out of its table.

## Implementation notes

The host may change between two requests: a listing is what the directory was at its FIND_FIRST2.
-/

namespace Ps2Servers.Smb1.Edge

open Runs Tables Paging

variable {H : Type} {ops : Ops H} {cfg : Config} {r : Req} {w : World H} {sid : UInt16}

/-! ## Requests for entries -/

def tParamsOf (r : Req) : Bytes := slice r (u16 r.params 20) (u16 r.params 18)

/-- The directory that a FIND_FIRST2 opens, and the names in it. -/
def foundDir (ops : Ops H) (r : Req) (w : World H) : Option (String × List String) :=
  if (tParamsOf r).length < 12 then none
  else
    (w.conn.shareForTID r).bind fun share =>
      (ops.resolve w.host share (orRoot (searchDir (cString ((tParamsOf r).drop 12)))) false).bind
        fun local_ =>
          match ops.stat w.host local_, ops.readDirNames w.host local_ with
          | .ok info, some names => if info.isDir then some (local_, names) else none
          | _, _ => none

/-- What a listing gives out: the directory itself twice, and its names in order. -/
def listed (names : List String) : List String :=
  "." :: ".." :: names.mergeSort fun a b => decide (a ≤ b)

/-- The entries of a search. -/
def entriesOf (ops : Ops H) (local_ : String) (names : List String) : List (String × String) :=
  (".", local_) :: ("..", local_) ::
    (names.mergeSort fun a b => decide (a ≤ b)).map fun n => (n, ops.join local_ n)

theorem map_fst_entriesOf (local_ : String) (names : List String) :
    (entriesOf ops local_ names).map Prod.fst = listed names := by
  unfold entriesOf listed
  rw [List.map_cons, List.map_cons, List.map_map]
  congr 2
  exact List.map_id _

/-- The parameters of a FIND_FIRST2 reply. -/
def firstParams (sid : UInt16) : Bytes := le16 sid.toNat ++ le16 1 ++ le16 0 ++ le16 0 ++ le16 0

theorem findFirst2_eq (r : Req) (w : World H) :
    findFirst2 ops r (tParamsOf r) w =
      match foundDir ops r w with
      | none => (.fail STATUS_OBJECT_NAME_NOT_FOUND, w)
      | some (local_, names) =>
          (trans2Reply (firstParams (alloc w.conn.nextSID 1))
              (dirEntry104 ops w.host "." local_),
            { w with conn := { w.conn with
              nextSID := alloc w.conn.nextSID 1
              searches := (w.conn.searches.evict MaxSearches).1.put (alloc w.conn.nextSID 1)
                ⟨entriesOf ops local_ names, 1⟩ } }) := by
  unfold findFirst2 foundDir
  split
  · rfl
  cases w.conn.shareForTID r with
  | none => rfl
  | some share =>
      dsimp only [Option.bind_some]
      cases ops.resolve w.host share (orRoot (searchDir (cString ((tParamsOf r).drop 12)))) false with
      | none => rfl
      | some local_ =>
          dsimp only [Option.bind_some]
          cases ops.stat w.host local_ with
          | error e => rfl
          | ok info =>
              cases ops.readDirNames w.host local_ with
              | none => rfl
              | some names =>
                  dsimp only
                  cases info.isDir with
                  | false => rfl
                  | true => rfl

/-- A FIND_FIRST2. -/
def Finds (r : Req) : Prop := r.cmd = .trans2 ∧ setupOf r = 0x01

instance : Decidable (Finds r) := inferInstanceAs (Decidable (_ ∧ _))

/-- A FIND_NEXT2 that names this search. -/
def Asks (sid : UInt16) (r : Req) : Prop := r.cmd = .trans2 ∧ setupOf r = 0x02 ∧ searchOf r = sid

instance : Decidable (Asks sid r) := inferInstanceAs (Decidable (_ ∧ _ ∧ _))

theorem dispatch_trans2 (hcmd : r.cmd = .trans2) :
    dispatch ops cfg r w =
      match setupOf r with
      | 0x01 => findFirst2 ops r (tParamsOf r) w
      | 0x02 => findNext2 ops (tParamsOf r) w
      | 0x05 => (queryPathInfo ops r (tParamsOf r) w, w)
      | _ => (.fail STATUS_NOT_IMPLEMENTED, w) := by
  unfold dispatch
  rw [hcmd]
  rfl

theorem dispatch_finds (h : Finds r) : dispatch ops cfg r w = findFirst2 ops r (tParamsOf r) w := by
  rw [dispatch_trans2 h.1, h.2]
  rfl

theorem dispatch_asks (h : Asks sid r) : dispatch ops cfg r w = findNext2 ops (tParamsOf r) w := by
  rw [dispatch_trans2 h.1, h.2.1]
  rfl

/-! ## Replies -/

/-- The page of an item, or of none. -/
def carrying : Option (String × Bool) → Page
  | some (name, last) => ⟨1, last, name.toUTF8.toList⟩
  | none => ⟨0, true, []⟩

theorem dirEntry104_name (host : H) (name local_ : String) :
    (dirEntry104 ops host name local_).drop 94 = name.toUTF8.toList := by
  unfold dirEntry104
  dsimp only
  cases ops.stat host local_ with
  | error e =>
      apply List.drop_left'
      simp [le32, le64]
  | ok info =>
      apply List.drop_left'
      simp [le32, le64]

theorem pageOf_first (sid : UInt16) (host : H) (name local_ : String) :
    pageOf 2 (trans2Reply (firstParams sid) (dirEntry104 ops host name local_)) =
      carrying (some (name, false)) := by
  have hpage := pageOf_envelope (Bytes.ofNat 2 sid.toNat) (Bytes.ofNat 2 0 ++ Bytes.ofNat 2 0)
    (dirEntry104 ops host name local_) 1 0 (by simp)
  rw [dirEntry104_name] at hpage
  exact hpage

theorem pageOf_next (last : Bool) (host : H) (name local_ : String) :
    pageOf 0 (trans2Reply (le16 1 ++ le16 (if last then 1 else 0) ++ le16 0 ++ le16 0)
      (dirEntry104 ops host name local_)) = carrying (some (name, last)) := by
  have hpage := pageOf_envelope [] (Bytes.ofNat 2 0 ++ Bytes.ofNat 2 0)
    (dirEntry104 ops host name local_) 1 (if last then 1 else 0) (by decide)
  rw [dirEntry104_name] at hpage
  cases last with
  | false => exact hpage
  | true => exact hpage

theorem pageOf_exhausted :
    pageOf 0 (trans2Reply (le16 0 ++ le16 1 ++ le16 0 ++ le16 0) []) = carrying none := by
  decide

/-! ## What spares a search -/

/-- What happens to a connection: a request comes, or the host changes. -/
inductive Event (H : Type)
  | request (r : Req)
  | outside (host : H)

def happen (ops : Ops H) (cfg : Config) (w : World H) : Event H → World H
  | .request r => step ops cfg w r
  | .outside host => { w with host := host }

/-- A request that drops no searches, and that gives its number to no new one and does not push it
out of the table to make room. -/
structure SparedBy (ops : Ops H) (sid : UInt16) (w : World H) (r : Req) : Prop where
  disconnect : r.cmd ≠ .treeDisconnect
  logoff : r.cmd ≠ .logoffAndx
  number : Finds r → (foundDir ops r w).isSome → alloc w.conn.nextSID 1 ≠ sid
  room : Finds r → (foundDir ops r w).isSome → sid ∈ w.conn.searches.keys →
    sid ∈ (w.conn.searches.evict MaxSearches).1.keys

def Spares (ops : Ops H) (sid : UInt16) (w : World H) : Event H → Prop
  | .request r => SparedBy ops sid w r
  | .outside _ => True

/-- So many entries of a search have been given out; or the search is over and gone. -/
def Stands (sid : UInt16) (entries : List (String × String)) (cursor : Nat) (w : World H) : Prop :=
  w.conn.searches.entries.lookup sid = some ⟨entries, cursor⟩ ∨
    w.conn.searches.entries.lookup sid = none ∧ entries.length ≤ cursor

theorem searches_openAndX : (openAndX ops r w).2.conn.searches = w.conn.searches := by
  unfold openAndX
  split
  · rfl
  split
  · rfl
  split
  · rfl
  split
  · rfl
  split
  · rfl
  · rfl

theorem searches_openCreated (path : String) (action : Nat) :
    (openCreated ops w path action).2.conn.searches = w.conn.searches := by
  unfold openCreated
  split
  · rfl
  split
  · rfl
  split
  · rfl
  · rfl

theorem searches_ntCreateAndX : (ntCreateAndX ops cfg r w).2.conn.searches = w.conn.searches := by
  unfold ntCreateAndX
  split
  · rfl
  dsimp only
  split
  · rfl
  split
  · rfl
  · rename_i share _ _ disposition _ _ path _
    have htouch := @touch_ntCreate H ops cfg w path disposition
      ((if 43 ≤ r.params.length then u32 r.params 39 else 0) &&& 1 != 0)
    split
    · rename_i hcreate
      rw [hcreate] at htouch
      rw [htouch.conn]
    · rename_i hcreate
      rw [hcreate] at htouch
      rw [searches_openCreated, htouch.conn]

theorem searches_treeConnect : (treeConnect ops cfg r w).2.conn.searches = w.conn.searches := by
  unfold treeConnect
  dsimp only
  split
  · rfl
  split
  · rfl
  · rfl

/-- A request that is no TRANS2 leaves the searches alone, or drops them all. -/
theorem searches_step (hcmd : r.cmd ≠ .trans2) (hdisconnect : r.cmd ≠ .treeDisconnect)
    (hlogoff : r.cmd ≠ .logoffAndx) : (step ops cfg w r).conn.searches = w.conn.searches := by
  unfold step dispatch
  cases h : r.cmd with
  | createDirectory => rw [touch_createDirectory.conn]
  | close => rfl
  | checkDirectory => rfl
  | transaction => rfl
  | echo => rfl
  | openAndx => exact searches_openAndX
  | readAndx => rfl
  | writeAndx => rw [touch_writeAndX.conn]
  | trans2 => exact absurd h hcmd
  | treeDisconnect => exact absurd h hdisconnect
  | negotiate => rfl
  | sessionSetupAndx => rfl
  | logoffAndx => exact absurd h hlogoff
  | treeConnectAndx => exact searches_treeConnect
  | queryInformationDisk => rfl
  | ntCreateAndx => exact searches_ntCreateAndX
  | other code => rfl

theorem searches_find (hfind : Finds r) (hspared : SparedBy ops sid w r) :
    (step ops cfg w r).conn.searches.entries.lookup sid = w.conn.searches.entries.lookup sid := by
  have hnumber := hspared.number hfind
  have hroom := hspared.room hfind
  unfold step
  rw [dispatch_finds hfind, findFirst2_eq]
  cases hdir : foundDir ops r w with
  | none => rfl
  | some found =>
      rw [hdir] at hnumber hroom
      have hne : sid ≠ alloc w.conn.nextSID 1 := fun h => hnumber rfl h.symm
      have hput := lookup_assign_of_ne hne (w.conn.searches.evict MaxSearches).1.entries
        (⟨entriesOf ops found.1 found.2, 1⟩ : Search)
      refine hput.trans ?_
      by_cases hkey : sid ∈ w.conn.searches.keys
      · exact Aged.lookup_evict (hroom rfl hkey)
      · -- What is not in the table does not come in by the eviction.
        have hgone : sid ∉ (w.conn.searches.evict MaxSearches).1.keys := fun h =>
          hkey (((Aged.evict_sublist MaxSearches w.conn.searches).map Prod.fst).subset h)
        have hnone {t : List (UInt16 × Search)} (h : sid ∉ t.map Prod.fst) : t.lookup sid = none := by
          rw [← Option.not_isSome_iff_eq_none, lookup_isSome]
          exact h
        rw [hnone hgone, hnone hkey]

/-- What a request for another entry leaves of a search. -/
theorem lookup_findNext2_of_ne (hne : searchOf r ≠ sid) :
    (findNext2 ops (tParamsOf r) w).2.conn.searches.entries.lookup sid =
      w.conn.searches.entries.lookup sid := by
  have hother : sid ≠ searchOf r := fun h => hne h.symm
  unfold findNext2
  dsimp only
  split
  · rfl
  split
  · exact lookup_erase_of_ne hother w.conn.searches.entries
  · exact Aged.lookup_update_of_ne hother w.conn.searches _

/-- A request that spares a search and does not ask for its next entry leaves it where it is. -/
theorem lookup_of_spared (hspared : SparedBy ops sid w r) (hasks : ¬ Asks sid r) :
    (step ops cfg w r).conn.searches.entries.lookup sid = w.conn.searches.entries.lookup sid := by
  by_cases hcmd : r.cmd = .trans2
  · by_cases hfind : setupOf r = 0x01
    · exact searches_find ⟨hcmd, hfind⟩ hspared
    · by_cases hnext : setupOf r = 0x02
      · unfold step
        rw [dispatch_trans2 hcmd, hnext]
        exact lookup_findNext2_of_ne fun h => hasks ⟨hcmd, hnext, h⟩
      · unfold step
        rw [dispatch_trans2 hcmd]
        split
        · rename_i h
          exact absurd h hfind
        · rename_i h
          exact absurd h hnext
        · rfl
        · rfl
  · rw [searches_step hcmd hspared.disconnect hspared.logoff]

/-- A search that is asked gives out the entry under its cursor. -/
theorem Stands.asked {entries : List (String × String)} {cursor : Nat}
    (h : Stands sid entries cursor w) (hasks : Asks sid r) :
    Stands sid entries (cursor + 1) (step ops cfg w r) ∧
      pageOf 0 (dispatch ops cfg r w).1 =
        carrying (marked ((entries.map Prod.fst).drop cursor)).head? := by
  have hsid : UInt16.ofNat (u16 (tParamsOf r) 0) = sid := hasks.2.2
  rw [head?_marked_drop, List.getElem?_map, List.length_map]
  unfold step
  rw [dispatch_asks hasks]
  unfold findNext2
  rw [hsid]
  dsimp only
  rcases h with hlive | ⟨hgone, hdone⟩
  · rw [hlive]
    dsimp only
    cases hentry : entries[cursor]? with
    | none =>
        constructor
        · exact Or.inr ⟨lookup_erase_self _ _,
            Nat.le_succ_of_le (List.getElem?_eq_none_iff.mp hentry)⟩
        · exact pageOf_exhausted
    | some entry =>
        constructor
        · apply Or.inl
          have hupdate := Aged.lookup_update_self w.conn.searches sid
            fun s => { s with cursor := s.cursor + 1 }
          rw [hlive] at hupdate
          exact hupdate
        · have hpage := @pageOf_next H ops (decide (cursor + 1 = entries.length)) w.host entry.1
            entry.2
          simpa using hpage
  · rw [hgone]
    constructor
    · exact Or.inr ⟨hgone, Nat.le_succ_of_le hdone⟩
    · rw [List.getElem?_eq_none_iff.mpr hdone]
      exact pageOf_exhausted

/-! ## Runs -/

/-- The page of an event, if it asks the search. -/
def pageAt (ops : Ops H) (cfg : Config) (sid : UInt16) (w : World H) : Event H → Option Page
  | .request r => if Asks sid r then some (pageOf 0 (dispatch ops cfg r w).1) else none
  | .outside _ => none

/-- The pages of the replies to the FIND_NEXT2s of a search. -/
def pagesFrom (ops : Ops H) (cfg : Config) (sid : UInt16) : World H → List (Event H) → List Page
  | _, [] => []
  | w, e :: rest => (pageAt ops cfg sid w e).toList ++ pagesFrom ops cfg sid (happen ops cfg w e) rest

theorem Stands.event {entries : List (String × String)} {cursor : Nat} {e : Event H}
    (h : Stands sid entries cursor w) (hspared : Spares ops sid w e) :
    (pageAt ops cfg sid w e = none ∧ Stands sid entries cursor (happen ops cfg w e)) ∨
      (pageAt ops cfg sid w e = some (carrying (marked ((entries.map Prod.fst).drop cursor)).head?) ∧
        Stands sid entries (cursor + 1) (happen ops cfg w e)) := by
  cases e with
  | outside host => exact Or.inl ⟨rfl, h⟩
  | request r =>
      by_cases hasks : Asks sid r
      · obtain ⟨hstands, hpage⟩ := @Stands.asked H ops cfg r w sid entries cursor h hasks
        refine Or.inr ⟨?_, hstands⟩
        rw [pageAt, if_pos hasks, hpage]
      · refine Or.inl ⟨if_neg hasks, ?_⟩
        have hlookup := @lookup_of_spared H ops cfg r w sid hspared hasks
        unfold Stands happen
        rw [hlookup]
        exact h

theorem Stands.run {entries : List (String × String)} {cursor : Nat} {events : List (Event H)}
    (h : Stands sid entries cursor w)
    (hspared : Along (happen ops cfg) (Spares ops sid) w events) :
    pagesFrom ops cfg sid w events =
      (told ((entries.map Prod.fst).drop cursor) (pagesFrom ops cfg sid w events).length).map
        carrying := by
  induction events generalizing w cursor with
  | nil => rfl
  | cons e rest ih =>
      rcases @Stands.event H ops cfg w sid entries cursor e h hspared.1 with ⟨hpage, hstands⟩ | ⟨hpage, hstands⟩
      · rw [pagesFrom, hpage, Option.toList_none, List.nil_append]
        exact ih hstands hspared.2
      · have hrest := ih hstands hspared.2
        rw [pagesFrom, hpage, Option.toList_some, List.singleton_append, List.length_cons, told_succ,
          List.map_cons, List.tail_drop, ← hrest]

/-- The pages a listing ought to have: every name once and in order, the last one marked, and then
nothing. -/
def expected (names : List String) (n : Nat) : List Page :=
  ((marked (listed names)).take n).map (fun e => carrying (some e)) ++
    List.replicate (n - (listed names).length) (carrying none)

theorem told_listed (names : List String) (n : Nat) :
    (told (listed names) n).map carrying = expected names n := by
  rw [told_eq, List.map_append, List.map_map, List.map_replicate]
  rfl

theorem stands_first {names : List String} {local_ : String} (hfind : Finds r)
    (hdir : foundDir ops r w = some (local_, names)) :
    Stands (alloc w.conn.nextSID 1) (entriesOf ops local_ names) 1 (step ops cfg w r) ∧
      pageOf 2 (dispatch ops cfg r w).1 = carrying (some (".", false)) := by
  unfold step
  rw [dispatch_finds hfind, findFirst2_eq, hdir]
  constructor
  · exact Or.inl (lookup_assign_self _ _ _)
  · exact pageOf_first _ _ _ _

/-- In every run after a FIND_FIRST2 that spares its search, the replies to it and to the FIND_NEXT2s
of the search give out the names of the directory, each once and in order, and the search ends with
the last of them. -/
theorem listing_pages (ops : Ops H) (cfg : Config) (w : World H) (r : Req) (hfind : Finds r)
    (local_ : String) (names : List String) (hdir : foundDir ops r w = some (local_, names))
    (events : List (Event H))
    (hspared : Along (happen ops cfg) (Spares ops (alloc w.conn.nextSID 1)) (step ops cfg w r)
      events) :
    let pages := pagesFrom ops cfg (alloc w.conn.nextSID 1) (step ops cfg w r) events
    pageOf 2 (dispatch ops cfg r w).1 :: pages = expected names (pages.length + 1) := by
  obtain ⟨hstands, hfirst⟩ := @stands_first H ops cfg r w names local_ hfind hdir
  have hrun := hstands.run hspared
  dsimp only
  rw [map_fst_entriesOf] at hrun
  rw [hfirst, ← told_listed, told_succ, List.map_cons]
  congr 1

/-! ## Another tree is disconnected -/

/-- A host with two games. -/
def gamesDir : Ops Unit :=
  { oneFile with
    stat _ _ := .ok ⟨true, false, 0, 0⟩
    readDirNames _ _ := some ["b.iso", "a.iso"]
    join a b := a ++ "/" ++ b }

/-- A TRANS2 with these parameters, which stand right behind the words. -/
def trans2Request (tid subcommand : Nat) (tParams : Bytes) : Req :=
  Req.ofMessage (clientMessage 0x32 tid (List.replicate 18 0 ++ le16 tParams.length ++ le16 65 ++
    List.replicate 4 0 ++ le16 1 ++ le16 subcommand) tParams)

def findGames (tid : Nat) : Req := trans2Request tid 0x01 (List.replicate 12 0 ++ [0x5c, 0x2a, 0])

def findNextGame (sid : Nat) : Req := trans2Request 0 0x02 (le16 sid ++ List.replicate 10 0)

/-- Two trees are connected. -/
def twoTrees : World Unit := [connectTree, connectTree].foldl (step gamesDir oneShare) (World.new ())

theorem sparedBy_findNextGame (sid : UInt16) (w : World Unit) (n : Nat)
    (hcmd : (findNextGame n).cmd = .trans2) (hsetup : setupOf (findNextGame n) = 0x02) :
    SparedBy gamesDir sid w (findNextGame n) := by
  have hfind : ¬ Finds (findNextGame n) := by
    intro h
    have hsetup' := h.2
    rw [hsetup] at hsetup'
    cases hsetup'
  constructor
  · rw [hcmd]
    decide
  · rw [hcmd]
    decide
  · exact fun h => absurd h hfind
  · exact fun h => absurd h hfind

theorem listing_pages_games :
    let events : List (Event Unit) := [.request (findNextGame 2), .request (findNextGame 2)]
    let pages := pagesFrom gamesDir oneShare (alloc twoTrees.conn.nextSID 1)
      (step gamesDir oneShare twoTrees (findGames 2)) events
    pageOf 2 (dispatch gamesDir oneShare (findGames 2) twoTrees).1 :: pages =
      expected ["b.iso", "a.iso"] (pages.length + 1) :=
  listing_pages gamesDir oneShare twoTrees (findGames 2) (by decide +kernel) "/srv/game.iso"
    ["b.iso", "a.iso"] (by decide +kernel) [.request (findNextGame 2), .request (findNextGame 2)]
    ⟨sparedBy_findNextGame _ _ 2 (by decide +kernel) (by decide +kernel),
      sparedBy_findNextGame _ _ 2 (by decide +kernel) (by decide +kernel), trivial⟩

/-- A search that is not in the table has nothing to give out. -/
theorem pageAt_of_empty {w : World H} (hasks : Asks sid r) (h : w.conn.searches = .empty) :
    pageAt ops cfg sid w (.request r) = some (carrying none) := by
  have hpage : pageOf 0 (dispatch ops cfg r w).1 = carrying none := by
    rw [dispatch_asks hasks]
    unfold findNext2
    rw [h]
    exact pageOf_exhausted
  rw [pageAt, if_pos hasks, hpage]

/-- Disconnecting another tree ends the listing of a tree that stays. -/
theorem listing_lost :
    let w := step gamesDir oneShare twoTrees (findGames 2)
    let events : List (Event Unit) := [.request (request 0x71 3 []), .request (findNextGame 2)]
    let pages := pageOf 2 (dispatch gamesDir oneShare (findGames 2) twoTrees).1 ::
      pagesFrom gamesDir oneShare (alloc twoTrees.conn.nextSID 1) w events
    ((events.foldl (happen gamesDir oneShare) w).conn.shareForTID (findGames 2)).isSome ∧
      pages = [carrying (some (".", false)), carrying none] ∧
      pages ≠ expected ["b.iso", "a.iso"] pages.length := by
  have hfirst := (@stands_first Unit gamesDir oneShare (findGames 2) twoTrees ["b.iso", "a.iso"]
    "/srv/game.iso" (by decide +kernel) (by decide +kernel)).2
  have hnot : ¬ Asks (alloc twoTrees.conn.nextSID 1) (request 0x71 3 []) := by
    intro h
    have hcmd := h.1
    cases hcmd
  have hpages : pagesFrom gamesDir oneShare (alloc twoTrees.conn.nextSID 1)
      (step gamesDir oneShare twoTrees (findGames 2))
      [.request (request 0x71 3 []), .request (findNextGame 2)] = [carrying none] := by
    rw [pagesFrom, pagesFrom, pagesFrom, pageAt, if_neg hnot,
      pageAt_of_empty (by decide +kernel) rfl]
    rfl
  dsimp only
  rw [hpages, hfirst]
  refine ⟨by decide +kernel, rfl, ?_⟩
  intro h
  have hsecond := congrArg (fun pages => pages[1]?) h
  cases hsecond

end Ps2Servers.Smb1.Edge
