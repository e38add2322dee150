import Ps2Servers.Sessions.Stats
import Mathlib.Algebra.BigOperators.Group.List.Basic

/-!
# The session counters of both sides

In every run whose clock does not go back both sides print the same lines, count everything once
and report every entry once, as long as no counter leaves the 64 bits of one side. One step of
each keeps the order of the entries; a step of both keeps them equal.
-/

namespace Ps2Servers.Sessions

open Runs

/-! ## The launcher's entries -/

namespace Launcher

/-- Entries are kept in the order they were last seen, and no more than there may be. -/
structure Tidy (limits : Limits) (clock : Int) (s : SessionStats) : Prop where
  keys : (s.clients.map Prod.fst).Nodup
  bound : s.clients.length ≤ limits.maxClients
  seen : ∀ entry ∈ s.clients, entry.2.last ≤ clock
  ordered : s.clients.Pairwise fun entry entry' => entry.2.last ≤ entry'.2.last

variable {limits : Limits} {clock now : Int} {s : SessionStats}

theorem tidy_new : Tidy limits clock .new :=
  ⟨List.nodup_nil, Nat.zero_le _, nofun, List.Pairwise.nil⟩

/-- Some entries are left, in their order. -/
theorem Tidy.sublist (h : Tidy limits clock s) {clients : List (String × Client)}
    (hsub : clients.Sublist s.clients) (emitted : List Report) :
    Tidy limits clock ⟨clients, emitted⟩ :=
  ⟨h.keys.sublist (hsub.map _), Nat.le_trans hsub.length_le h.bound,
    fun entry hentry => h.seen entry (hsub.subset hentry), h.ordered.sublist hsub⟩

/-- A new entry at the end, for a client that has none. -/
theorem Tidy.append (h : Tidy limits clock s) (hnow : clock ≤ now) {client : String}
    (hnew : client ∉ s.clients.map Prod.fst) (hroom : s.clients.length < limits.maxClients)
    {entry : Client} (hlast : entry.last = now) (emitted : List Report) :
    Tidy limits now ⟨s.clients ++ [(client, entry)], emitted⟩ := by
  refine ⟨?_, ?_, ?_, ?_⟩
  · rw [List.map_append, List.nodup_append]
    refine ⟨h.keys, List.nodup_singleton _, ?_⟩
    rintro c hc c' hc' rfl
    rw [List.map_cons, List.map_nil, List.mem_singleton] at hc'
    rw [hc'] at hc
    exact hnew hc
  · rw [List.length_append]
    exact hroom
  · intro e he
    rcases List.mem_append.mp he with he | he
    · exact Int.le_trans (h.seen e he) hnow
    · rw [List.mem_singleton.mp he]
      exact Int.le_of_eq hlast
  · rw [List.pairwise_append]
    refine ⟨h.ordered, List.pairwise_singleton _ _, ?_⟩
    intro e he e' he'
    rw [List.mem_singleton.mp he']
    dsimp only
    rw [hlast]
    exact Int.le_trans (h.seen e he) hnow

/-- Every client is live before it is seen again. -/
theorem Tidy.moveToEnd (h : Tidy limits clock s) (hnow : clock ≤ now) {client : String}
    {old entry : Client} (hold : s.clients.lookup client = some old) (hlast : entry.last = now) :
    Tidy limits now ⟨moveToEnd s.clients client entry, s.emitted⟩ := by
  have hsub : (Tables.erase s.clients client).Sublist s.clients := List.filter_sublist
  have hmem : client ∈ s.clients.map Prod.fst := by
    rw [← Tables.lookup_isSome, hold]
    rfl
  have hkeys := Tables.map_erase h.keys client
  have hnot : client ∉ (Tables.erase s.clients client).map Prod.fst := by
    rw [hkeys]
    exact h.keys.not_mem_erase
  have hshort : (Tables.erase s.clients client).length < s.clients.length := by
    have hlength := congrArg List.length hkeys
    rw [List.length_map, List.length_erase_of_mem hmem, List.length_map] at hlength
    have hpos := List.length_pos_of_mem hmem
    rw [List.length_map] at hpos
    omega
  exact (h.sublist hsub s.emitted).append hnow hnot (Nat.lt_of_lt_of_le hshort h.bound) hlast _

/-- The entry that a record makes room for. -/
theorem record_opened (limits : Limits) {s : SessionStats} {client kind : String}
    (hkind : KINDS.contains kind = true) (hnew : s.clients.lookup client = none) (count now : Int) :
    ∃ gone left, s.clients = gone ++ left ∧
      (gone = [] ∧ s.clients.length < limits.maxClients ∨
        ∃ oldest, gone = [oldest] ∧ limits.maxClients ≤ s.clients.length) ∧
      record limits s client kind count now = (.done,
        ⟨left ++ [(client, (Client.new now).count kind count now)],
          s.emitted ++ gone.map (report "evicted")⟩) := by
  unfold record
  rw [hkind, Bool.not_true, if_neg Bool.false_ne_true, hnew]
  dsimp only
  by_cases hfull : limits.maxClients ≤ s.clients.length
  · rw [if_pos hfull, if_pos hfull]
    cases hclients : s.clients with
    | nil =>
        have hpos := limits.maxClients_pos
        rw [hclients, List.length_nil] at hfull
        omega
    | cons oldest rest =>
        exact ⟨[oldest], rest, rfl, Or.inr ⟨oldest, rfl, hclients ▸ hfull⟩, rfl⟩
  · rw [if_neg hfull, if_neg hfull]
    exact ⟨[], s.clients, rfl, Or.inl ⟨rfl, Nat.lt_of_not_le hfull⟩, rfl⟩

theorem Tidy.mono (h : Tidy limits clock s) (hnow : clock ≤ now) : Tidy limits now s :=
  { h with seen := fun entry hentry => Int.le_trans (h.seen entry hentry) hnow }

theorem Tidy.next (h : Tidy limits clock s) {e : Event} (hnow : clock ≤ e.now) :
    Tidy limits e.now (next limits s e).2 := by
  unfold Launcher.next
  cases hop : e.op with
  | record client kind count =>
      dsimp only
      cases hkind : KINDS.contains kind with
      | false =>
          unfold record
          rw [hkind, Bool.not_false, if_pos rfl]
          exact h.mono hnow
      | true =>
          cases hlookup : s.clients.lookup client with
          | some entry =>
              unfold record
              rw [hkind, Bool.not_true, if_neg Bool.false_ne_true, hlookup]
              exact h.moveToEnd hnow hlookup rfl
          | none =>
              obtain ⟨gone, left, hsplit, hroom, hrecord⟩ :=
                record_opened limits hkind hlookup count.toInt e.now
              rw [hrecord]
              have hleft : left.Sublist s.clients := by
                rw [hsplit]
                exact List.sublist_append_right gone left
              have hnew : client ∉ left.map Prod.fst := by
                intro hmem
                have hmem := Tables.lookup_isSome.mpr ((hleft.map Prod.fst).subset hmem)
                rw [hlookup] at hmem
                cases hmem
              have hlength : left.length < limits.maxClients := by
                have hbound := h.bound
                rw [hsplit, List.length_append] at hroom hbound
                rcases hroom with ⟨rfl, hroom⟩ | ⟨oldest, rfl, -⟩
                · rw [List.length_nil] at hroom
                  omega
                · rw [List.length_singleton] at hbound
                  omega
              exact (h.sublist hleft s.emitted).append hnow hnew hlength rfl _
  | touch client =>
      dsimp only
      unfold touch
      cases hlookup : s.clients.lookup client with
      | none => exact h.mono hnow
      | some entry => exact h.moveToEnd hnow hlookup rfl
  | expire => exact (h.sublist (List.dropWhile_sublist _) _).mono hnow
  | stop => exact (h.sublist (List.nil_sublist _) _).mono hnow

end Launcher

/-! ## Nothing is lost -/

theorem live_append (a b : List (String × Launcher.Client)) (client kind : String) :
    live (a ++ b) client kind = live a client kind + live b client kind := by
  unfold live
  rw [List.map_append, List.sum_append]

theorem reported_append (a b : List Report) (client kind : String) :
    reported (a ++ b) client kind = reported a client kind + reported b client kind := by
  unfold reported
  rw [List.map_append, List.sum_append]

theorem live_singleton (name : String) (entry : Launcher.Client) (client kind : String) :
    live [(name, entry)] client kind = if name = client then entry.counts kind else 0 := by
  unfold live
  rw [List.map_singleton, List.sum_singleton]

/-- A line has the counts of its entry. -/
theorem reported_report (ended : String) (entries : List (String × Launcher.Client))
    (client kind : String) :
    reported (entries.map (Launcher.report ended)) client kind = live entries client kind := by
  unfold reported live
  rw [List.map_map]
  rfl

theorem live_perm {a b : List (String × Launcher.Client)} (h : a.Perm b) (client kind : String) :
    live a client kind = live b client kind := by
  unfold live
  exact (h.map _).sum_eq

namespace Launcher

variable {s : SessionStats}

theorem counts_count (entry : Client) (kind : String) (count now : Int) (k : String) :
    (entry.count kind count now).counts k = entry.counts k + if k = kind then count else 0 := by
  unfold Client.count set
  dsimp only
  split
  · rename_i h
    rw [h]
  · rw [Int.add_zero]

/-- An entry of a client that was live or was not, with one more count. -/
theorem live_count (name : String) (entry : Client) (kind : String) (count now : Int)
    (client k : String) : live [(name, entry.count kind count now)] client k =
      live [(name, entry)] client k + if name = client ∧ kind = k then count else 0 := by
  rw [live_singleton, live_singleton, counts_count]
  by_cases hname : name = client
  · rw [if_pos hname, if_pos hname]
    congr 1
    exact if_congr (by rw [and_iff_right hname]; exact eq_comm) rfl rfl
  · rw [if_neg hname, if_neg hname, if_neg fun h => hname h.1, Int.add_zero]

theorem live_new (name : String) (now : Int) (client k : String) :
    live [(name, Client.new now)] client k = 0 := by
  rw [live_singleton]
  split <;> rfl

/-- What an event counts is in the lines and the live entries behind it. -/
theorem counted_next (limits : Limits) (hkeys : (s.clients.map Prod.fst).Nodup) (e : Event)
    (client kind : String) :
    reported (next limits s e).2.emitted client kind + live (next limits s e).2.clients client kind =
      reported s.emitted client kind + live s.clients client kind + e.counts client kind := by
  have hsame : ∀ {name : String} {old : Client} (_ : s.clients.lookup name = some old)
      (entry : Client),
      live (moveToEnd s.clients name entry) client kind + live [(name, old)] client kind =
        live s.clients client kind + live [(name, entry)] client kind := by
    intro name old hold entry
    have hperm := live_perm (Tables.perm_erase hkeys hold) client kind
    rw [live_append] at hperm
    unfold moveToEnd
    rw [live_append]
    omega
  unfold Launcher.next Event.counts
  cases hop : e.op with
  | record name k count =>
      dsimp only
      cases hkind : KINDS.contains k with
      | false =>
          unfold record
          rw [hkind, Bool.not_false, if_pos rfl, if_neg fun h => Bool.false_ne_true h.2.2,
            Int.add_zero]
      | true =>
          have hadd : (if name = client ∧ k = kind ∧ true = true then count.toInt else 0) =
              if name = client ∧ k = kind then count.toInt else 0 :=
            if_congr (by simp) rfl rfl
          rw [hadd]
          cases hlookup : s.clients.lookup name with
          | some entry =>
              unfold record
              rw [hkind, Bool.not_true, if_neg Bool.false_ne_true, hlookup]
              dsimp only
              have hmoved := hsame hlookup (entry.count k count.toInt e.now)
              rw [live_count] at hmoved
              omega
          | none =>
              obtain ⟨gone, left, hsplit, -, hrecord⟩ :=
                record_opened limits hkind hlookup count.toInt e.now
              rw [hrecord]
              dsimp only
              rw [reported_append, reported_report, live_append, live_count, live_new, hsplit,
                live_append]
              omega
  | touch name =>
      dsimp only
      unfold touch
      cases hlookup : s.clients.lookup name with
      | none =>
          dsimp only
          omega
      | some entry =>
          dsimp only
          have hmoved := hsame hlookup { entry with last := e.now }
          rw [live_singleton, live_singleton] at hmoved
          dsimp only at hmoved
          omega
  | expire =>
      unfold expire
      dsimp only
      rw [reported_append, reported_report]
      have hparts := live_append (s.clients.takeWhile fun entry =>
        !decide (e.now - entry.2.last < limits.idleSeconds)) (s.clients.dropWhile fun entry =>
          !decide (e.now - entry.2.last < limits.idleSeconds)) client kind
      rw [List.takeWhile_append_dropWhile] at hparts
      omega
  | stop =>
      unfold stop
      dsimp only
      rw [reported_append, reported_report]
      have hnil : live [] client kind = 0 := rfl
      omega

/-- Every entry that is made stays live or is in one line. -/
theorem once_next (limits : Limits) (hkeys : (s.clients.map Prod.fst).Nodup) (e : Event)
    (client : String) :
    ((next limits s e).2.emitted.map Report.client).count client +
        ((next limits s e).2.clients.map Prod.fst).count client =
      (s.emitted.map Report.client).count client + (s.clients.map Prod.fst).count client +
        (opens s e).toList.count client := by
  have hmoved : ∀ {name : String} {old entry : Client} (_ : s.clients.lookup name = some old),
      ((moveToEnd s.clients name entry).map Prod.fst).count client =
        (s.clients.map Prod.fst).count client := by
    intro name old entry hold
    have hperm := ((Tables.perm_erase hkeys hold).map Prod.fst).count_eq client
    rw [List.map_append] at hperm
    unfold moveToEnd
    rw [List.map_append]
    exact hperm.symm
  have hreport : ∀ (ended : String) (gone : List (String × Client)),
      (gone.map (report ended)).map Report.client = gone.map Prod.fst := by
    intro ended gone
    rw [List.map_map]
    rfl
  unfold Launcher.next opens
  cases hop : e.op with
  | record name k count =>
      dsimp only
      cases hkind : KINDS.contains k with
      | false =>
          unfold record
          rw [hkind, Bool.not_false, if_pos rfl, if_neg fun h => Bool.false_ne_true h.1]
          rfl
      | true =>
          cases hlookup : s.clients.lookup name with
          | some entry =>
              unfold record
              rw [hkind, Bool.not_true, if_neg Bool.false_ne_true, hlookup,
                if_neg fun h => Option.some_ne_none _ h.2]
              dsimp only
              rw [hmoved hlookup]
              rfl
          | none =>
              obtain ⟨gone, left, hsplit, -, hrecord⟩ :=
                record_opened limits hkind hlookup count.toInt e.now
              rw [hrecord, if_pos ⟨rfl, rfl⟩]
              dsimp only
              rw [List.map_append, hreport, List.map_append, hsplit, List.map_append,
                List.count_append, List.count_append, List.count_append]
              change _ + (_ + [name].count client) = _ + _ + [name].count client
              omega
  | touch name =>
      dsimp only
      unfold touch
      cases hlookup : s.clients.lookup name with
      | none => rfl
      | some entry =>
          dsimp only
          rw [hmoved hlookup]
          rfl
  | expire =>
      unfold expire
      dsimp only
      rw [List.map_append, hreport, List.count_append, Nat.add_assoc, ← List.count_append,
        ← List.map_append, List.takeWhile_append_dropWhile]
      rfl
  | stop =>
      unfold stop
      dsimp only
      rw [List.map_append, hreport, List.count_append]
      rfl

end Launcher

/-! ## The twins -/

/-- The entry as the launcher has it. -/
def Edge.Entry.view (e : Edge.Entry) : Launcher.Client :=
  ⟨e.first, e.last, fun k => (e.counts k).toInt⟩

/-- Both sides have the same entries in the same order, and printed the same. -/
structure Agree (p : Launcher.SessionStats) (g : Edge.Stats) : Prop where
  order : g.order = p.clients.map Prod.fst
  keys : (g.clients.map Prod.fst).Nodup
  entries : ∀ client, (g.clients.lookup client).map Edge.Entry.view = p.clients.lookup client
  emitted : g.emitted = p.emitted

theorem agree_new : Agree .new .new := ⟨rfl, List.nodup_nil, fun _ => rfl, rfl⟩

namespace Edge

theorem view_new (now : Int) : (Entry.new now).view = Launcher.Client.new now := rfl

theorem view_count {e : Entry} {kind : String} {count : Int64}
    (hlow : -2 ^ 63 ≤ (e.counts kind).toInt + count.toInt)
    (hhigh : (e.counts kind).toInt + count.toInt < 2 ^ 63) (now : Int) :
    (e.count kind count now).view = e.view.count kind count.toInt now := by
  have hsum : (e.counts kind + count).toInt = (e.counts kind).toInt + count.toInt := by
    rw [Int64.toInt_add]
    apply Int.bmod_eq_of_le_mul_two <;> omega
  unfold Entry.view Entry.count Launcher.Client.count set
  congr 1
  funext k
  dsimp only
  split
  · exact hsum
  · rfl

theorem report_view (ended : String) (client : String) (e : Entry) :
    report ended (client, e) = Launcher.report ended (client, e.view) := rfl

end Edge

/-- The counter that an entry has. -/
theorem live_of_lookup {clients : List (String × Launcher.Client)}
    (hkeys : (clients.map Prod.fst).Nodup) {client : String} {entry : Launcher.Client}
    (h : clients.lookup client = some entry) (kind : String) :
    live clients client kind = entry.counts kind := by
  have hnot : client ∉ (Tables.erase clients client).map Prod.fst := by
    rw [Tables.map_erase hkeys]
    exact hkeys.not_mem_erase
  have hzero : live (Tables.erase clients client) client kind = 0 := by
    unfold live
    refine List.sum_eq_zero fun x hx => ?_
    obtain ⟨p, hp, rfl⟩ := List.mem_map.mp hx
    exact if_neg fun heq => hnot (List.mem_map.mpr ⟨p, hp, heq⟩)
  rw [live_perm (Tables.perm_erase hkeys h), live_append, hzero, live_singleton, if_pos rfl,
    Int.zero_add]

variable {p : Launcher.SessionStats} {g : Edge.Stats}

/-- The entry of a client that is live on both sides. -/
theorem Agree.lookup (h : Agree p g) {client : String} {entry : Launcher.Client}
    (hentry : p.clients.lookup client = some entry) :
    ∃ e, g.clients.lookup client = some e ∧ e.view = entry := by
  have hmap := h.entries client
  rw [hentry] at hmap
  exact Option.map_eq_some_iff.mp hmap

theorem Agree.lookup_none (h : Agree p g) {client : String}
    (hnone : p.clients.lookup client = none) : g.clients.lookup client = none := by
  have hmap := h.entries client
  rw [hnone] at hmap
  exact Option.map_eq_none_iff.mp hmap

/-- A client is seen again on both sides. -/
theorem Agree.moveToEnd (h : Agree p g) (hkeys : (p.clients.map Prod.fst).Nodup) (client : String)
    {entry : Launcher.Client} {e : Edge.Entry} (hview : e.view = entry) :
    Agree { p with clients := Launcher.moveToEnd p.clients client entry }
      { g with
        clients := Tables.assign g.clients client e
        order := Edge.touchLocked g.order client } := by
  have hmoved := Tables.map_erase hkeys client
  have hnot : client ∉ (Tables.erase p.clients client).map Prod.fst := by
    rw [hmoved]
    exact hkeys.not_mem_erase
  refine ⟨?_, Tables.nodup_assign h.keys client e, ?_, h.emitted⟩
  · unfold Launcher.moveToEnd Edge.touchLocked
    rw [List.map_append, hmoved, h.order]
    rfl
  · intro other
    unfold Launcher.moveToEnd
    by_cases hother : other = client
    · rw [hother, Tables.lookup_assign_self, List.lookup_append, Tables.lookup_erase_self,
        Option.none_or, List.lookup_cons_self, ← hview]
      rfl
    · have hsingle : [(client, entry)].lookup other = none := by
        rw [List.lookup_cons, beq_false_of_ne hother, List.lookup_nil]
      rw [Tables.lookup_assign_of_ne hother, List.lookup_append, Tables.lookup_erase_of_ne hother,
        hsingle, Option.or_none]
      exact h.entries other

/-- The entry that was seen longest ago is pushed out on both sides. -/
theorem Agree.evict (h : Agree p g) (hkeys : (p.clients.map Prod.fst).Nodup)
    {oldest : String × Launcher.Client} {rest : List (String × Launcher.Client)}
    (hclients : p.clients = oldest :: rest) : ∃ e, g.clients.lookup oldest.1 = some e ∧
      Agree ⟨rest, p.emitted ++ [Launcher.report "evicted" oldest]⟩
        ⟨Tables.erase g.clients oldest.1, rest.map Prod.fst,
          g.emitted ++ [Edge.report "evicted" (oldest.1, e)]⟩ := by
  have hfound : p.clients.lookup oldest.1 = some oldest.2 := by
    rw [hclients, List.lookup_cons_self]
  obtain ⟨e, he, hview⟩ := h.lookup hfound
  rw [hclients, List.map_cons, List.nodup_cons] at hkeys
  refine ⟨e, he, rfl, Tables.nodup_erase h.keys _, ?_, ?_⟩
  · intro other
    by_cases hother : other = oldest.1
    · rw [hother, Tables.lookup_erase_self]
      have hgone : rest.lookup oldest.1 = none :=
        Option.not_isSome_iff_eq_none.mp fun h => hkeys.1 (Tables.lookup_isSome.mp h)
      exact hgone.symm
    · have hentry := h.entries other
      rw [hclients, List.lookup_cons, beq_false_of_ne hother] at hentry
      rw [Tables.lookup_erase_of_ne hother]
      exact hentry
  · dsimp only
    rw [h.emitted, Edge.report_view, hview]

/-- Entries that stand in the order of a condition that none meets behind one that does not. -/
theorem takeWhile_eq_filter {α : Type*} {cond : α → Bool} {l : List α}
    (h : l.Pairwise fun a b => cond b = true → cond a = true) :
    l.takeWhile cond = l.filter cond ∧ l.dropWhile cond = l.filter fun a => !cond a := by
  induction l with
  | nil => exact ⟨rfl, rfl⟩
  | cons a l ih =>
      rw [List.pairwise_cons] at h
      cases ha : cond a with
      | true =>
          obtain ⟨htake, hdrop⟩ := ih h.2
          rw [List.takeWhile_cons_of_pos ha, List.dropWhile_cons_of_pos ha,
            List.filter_cons_of_pos ha, List.filter_cons_of_neg (by simp [ha]), htake, hdrop]
          exact ⟨rfl, rfl⟩
      | false =>
          have hnone : ∀ b ∈ a :: l, cond b = false := by
            intro b hb
            rcases List.mem_cons.mp hb with rfl | hb
            · exact ha
            · refine Bool.eq_false_iff.mpr fun htrue => ?_
              rw [h.1 b hb htrue] at ha
              cases ha
          rw [List.takeWhile_cons_of_neg (by simp [ha]), List.dropWhile_cons_of_neg (by simp [ha])]
          constructor
          · symm
            refine List.filter_eq_nil_iff.mpr fun b hb => ?_
            rw [hnone b hb]
            exact Bool.false_ne_true
          · symm
            refine List.filter_eq_self.mpr fun b hb => ?_
            rw [hnone b hb]
            rfl

/-- The loop of the Edge server finds the entries that are idle. -/
theorem expireLoop_eq (limits : Limits) (now : Int) {l : List (String × Launcher.Client)}
    (hkeys : (l.map Prod.fst).Nodup) {m : List (String × Edge.Entry)}
    (hm : (m.map Prod.fst).Nodup)
    (hentries : ∀ entry ∈ l, (m.lookup entry.1).map Edge.Entry.view = some entry.2) :
    ∃ finished m', Edge.expireLoop limits now (l.map Prod.fst) m = some (finished,
        (l.filter fun entry => !!decide (now - entry.2.last < limits.idleSeconds)).map Prod.fst, m') ∧
      finished.map (fun f => (f.1, f.2.view)) =
        l.filter (fun entry => !decide (now - entry.2.last < limits.idleSeconds)) ∧
      (m'.map Prod.fst).Nodup ∧ ∀ client, m'.lookup client =
        if client ∈ finished.map Prod.fst then none else m.lookup client := by
  induction l generalizing m with
  | nil => exact ⟨[], m, rfl, rfl, hm, fun _ => rfl⟩
  | cons entry rest ih =>
      rw [List.map_cons, List.nodup_cons] at hkeys
      obtain ⟨e, he, hview⟩ := Option.map_eq_some_iff.mp (hentries entry List.mem_cons_self)
      have hlast : e.last = entry.2.last := congrArg Launcher.Client.last hview
      rw [List.map_cons, Edge.expireLoop, he]
      dsimp only
      rw [hlast]
      by_cases hidle : limits.idleSeconds ≤ now - entry.2.last
      · have hrest : ∀ other ∈ rest,
            ((Tables.erase m entry.1).lookup other.1).map Edge.Entry.view = some other.2 := by
          intro other hother
          have hne : other.1 ≠ entry.1 := fun heq =>
            hkeys.1 (heq ▸ List.mem_map_of_mem hother)
          rw [Tables.lookup_erase_of_ne hne]
          exact hentries other (List.mem_cons_of_mem _ hother)
        obtain ⟨finished, m', hloop, hfinished, hm', hlookup⟩ :=
          ih hkeys.2 (Tables.nodup_erase hm entry.1) hrest
        have hnot : decide (now - entry.2.last < limits.idleSeconds) = false :=
          decide_eq_false (Int.not_lt.mpr hidle)
        refine ⟨(entry.1, e) :: finished, m', ?_, ?_, hm', ?_⟩
        · rw [if_pos hidle, hloop, List.filter_cons_of_neg (by simp [hnot])]
          rfl
        · rw [List.map_cons, hfinished, hview, List.filter_cons_of_pos (by simp [hnot])]
        · intro client
          rw [hlookup, List.map_cons]
          by_cases hclient : client = entry.1
          · rw [hclient, if_pos List.mem_cons_self, Tables.lookup_erase_self, ite_self]
          · rw [Tables.lookup_erase_of_ne hclient]
            exact if_congr (by rw [List.mem_cons, or_iff_right hclient]) rfl rfl
      · have hrest : ∀ other ∈ rest, (m.lookup other.1).map Edge.Entry.view = some other.2 :=
          fun other hother => hentries other (List.mem_cons_of_mem _ hother)
        obtain ⟨finished, m', hloop, hfinished, hm', hlookup⟩ := ih hkeys.2 hm hrest
        have hnot : decide (now - entry.2.last < limits.idleSeconds) = true :=
          decide_eq_true (Int.not_le.mp hidle)
        refine ⟨finished, m', ?_, ?_, hm', hlookup⟩
        · rw [if_neg hidle, hloop, List.filter_cons_of_pos (by simp [hnot])]
          rfl
        · rw [hfinished, List.filter_cons_of_neg (by simp [hnot])]

theorem stop_eq {l : List (String × Launcher.Client)} {m : List (String × Edge.Entry)}
    (hentries : ∀ entry ∈ l, (m.lookup entry.1).map Edge.Entry.view = some entry.2) :
    ∃ finished, ((l.map Prod.fst).mapM fun client => (m.lookup client).map (client, ·)) =
        some finished ∧ finished.map (fun f => (f.1, f.2.view)) = l := by
  induction l with
  | nil => exact ⟨[], rfl, rfl⟩
  | cons entry rest ih =>
      obtain ⟨e, he, hview⟩ := Option.map_eq_some_iff.mp (hentries entry List.mem_cons_self)
      obtain ⟨finished, hloop, hfinished⟩ :=
        ih fun other hother => hentries other (List.mem_cons_of_mem _ hother)
      refine ⟨(entry.1, e) :: finished, ?_, ?_⟩
      · rw [List.map_cons, List.mapM_cons, he, hloop]
        rfl
      · rw [List.map_cons, hfinished, hview]

/-- As many entries on both sides. -/
theorem Agree.length (h : Agree p g) (hkeys : (p.clients.map Prod.fst).Nodup) :
    g.clients.length = p.clients.length := by
  refine Tables.length_eq_of_lookup h.keys hkeys fun client => ?_
  rw [← h.entries client, Option.isSome_map]

/-- The entries of the launcher are found in the map. -/
theorem Agree.found (h : Agree p g) (hkeys : (p.clients.map Prod.fst).Nodup) :
    ∀ entry ∈ p.clients, (g.clients.lookup entry.1).map Edge.Entry.view = some entry.2 := by
  intro entry hentry
  rw [h.entries entry.1]
  exact Tables.lookup_of_mem hkeys hentry

/-- Lines of entries that agree. -/
theorem map_report (ended : String) {finished : List (String × Edge.Entry)}
    {l : List (String × Launcher.Client)} (h : finished.map (fun f => (f.1, f.2.view)) = l) :
    finished.map (Edge.report ended) = l.map (Launcher.report ended) := by
  rw [← h, List.map_map]
  rfl

/-- A counter of an entry that is new fits. -/
theorem view_first (kind : String) (count : Int64) (now : Int) :
    ((Edge.Entry.new now).count kind count now).view =
      (Launcher.Client.new now).count kind count.toInt now := by
  have hzero : ((Edge.Entry.new now).counts kind).toInt = 0 := rfl
  refine (Edge.view_count ?_ ?_ now).trans (congrArg (·.count kind count.toInt now) (Edge.view_new now))
  · rw [hzero, Int.zero_add]
    exact count.le_toInt
  · rw [hzero, Int.zero_add]
    exact count.toInt_lt

theorem Agree.record {limits : Limits} {clock : Int} (h : Agree p g)
    (htidy : Launcher.Tidy limits clock p) {client kind : String} {count : Int64} {now : Int}
    (hfits : Fits p ⟨.record client kind count, now⟩) :
    ∃ g', Edge.record limits g client kind count now =
        some ((Launcher.record limits p client kind count.toInt now).1, g') ∧
      Agree (Launcher.record limits p client kind count.toInt now).2 g' := by
  cases hkind : KINDS.contains kind with
  | false =>
      refine ⟨g, ?_, ?_⟩
      · unfold Edge.record Launcher.record
        rw [hkind, Bool.not_false, if_pos rfl, if_pos rfl]
      · unfold Launcher.record
        rw [hkind, Bool.not_false, if_pos rfl]
        exact h
  | true =>
      cases hlookup : p.clients.lookup client with
      | some entry =>
          obtain ⟨e, he, hview⟩ := h.lookup hlookup
          have hcounts : (e.counts kind).toInt = live p.clients client kind := by
            rw [live_of_lookup htidy.keys hlookup, ← hview]
            rfl
          have hcount : (e.count kind count now).view = entry.count kind count.toInt now := by
            obtain ⟨hlow, hhigh⟩ := hfits
            rw [← hview]
            apply Edge.view_count
            · rw [hcounts]
              exact hlow
            · rw [hcounts]
              exact hhigh
          unfold Edge.record Launcher.record
          rw [hkind, Bool.not_true, if_neg Bool.false_ne_true, if_neg Bool.false_ne_true, he, hlookup]
          exact ⟨_, rfl, h.moveToEnd htidy.keys client hcount⟩
      | none =>
          have hnone := h.lookup_none hlookup
          obtain ⟨gone, left, hsplit, hroom, hrecord⟩ :=
            Launcher.record_opened limits hkind hlookup count.toInt now
          have hnew : ∀ {l : List (String × Launcher.Client)}, l.Sublist p.clients →
              Tables.erase l client = l := by
            intro l hsub
            refine Tables.erase_of_not_mem fun hmem => ?_
            have hmem := Tables.lookup_isSome.mpr ((hsub.map Prod.fst).subset hmem)
            rw [hlookup] at hmem
            cases hmem
          rw [hrecord]
          unfold Edge.record
          rw [hkind, Bool.not_true, if_neg Bool.false_ne_true, hnone]
          dsimp only
          rw [h.length htidy.keys]
          rcases hroom with ⟨rfl, hroom⟩ | ⟨oldest, rfl, hfull⟩
          · rw [if_pos hroom]
            rw [List.nil_append] at hsplit
            refine ⟨_, rfl, ?_⟩
            have hagree := h.moveToEnd htidy.keys client (view_first kind count now)
            unfold Launcher.moveToEnd at hagree
            rw [hnew (List.Sublist.refl _)] at hagree
            rw [← hsplit, List.map_nil, List.append_nil]
            exact hagree
          · rw [if_neg (Nat.not_lt.mpr hfull)]
            rw [List.singleton_append] at hsplit
            obtain ⟨e, he, hevict⟩ := h.evict htidy.keys hsplit
            have horder : g.order = oldest.1 :: left.map Prod.fst := by
              rw [h.order, hsplit, List.map_cons]
            have hkeys := htidy.keys
            rw [hsplit, List.map_cons, List.nodup_cons] at hkeys
            rw [horder]
            dsimp only
            rw [he]
            refine ⟨_, rfl, ?_⟩
            have hagree := hevict.moveToEnd hkeys.2 client (view_first kind count now)
            unfold Launcher.moveToEnd at hagree
            rw [hnew (hsplit ▸ List.sublist_cons_self oldest left)] at hagree
            exact hagree

/-- One operation on both sides. -/
theorem Agree.next {limits : Limits} {clock : Int} (h : Agree p g)
    (htidy : Launcher.Tidy limits clock p) {e : Event} (hfits : Fits p e) :
    ∃ g', Edge.next limits g e = some ((Launcher.next limits p e).1, g') ∧
      Agree (Launcher.next limits p e).2 g' := by
  obtain ⟨op, now⟩ := e
  cases op with
  | record client kind count => exact h.record htidy hfits
  | touch client =>
      cases hlookup : p.clients.lookup client with
      | none =>
          have hnone := h.lookup_none hlookup
          refine ⟨g, ?_, ?_⟩
          · unfold Edge.next Launcher.next Edge.touch Launcher.touch
            dsimp only
            rw [hnone, hlookup]
          · unfold Launcher.next Launcher.touch
            dsimp only
            rw [hlookup]
            exact h
      | some entry =>
          obtain ⟨e, he, hview⟩ := h.lookup hlookup
          have hseen : ({ e with last := now } : Edge.Entry).view = { entry with last := now } := by
            rw [← hview]
            rfl
          unfold Edge.next Launcher.next Edge.touch Launcher.touch
          dsimp only
          rw [he, hlookup]
          exact ⟨_, rfl, h.moveToEnd htidy.keys client hseen⟩
  | expire =>
      obtain ⟨finished, m', hloop, hfinished, hm', hlookup⟩ :=
        expireLoop_eq limits now htidy.keys h.keys (h.found htidy.keys)
      have hordered : p.clients.Pairwise fun entry entry' =>
          (!decide (now - entry'.2.last < limits.idleSeconds)) = true →
            (!decide (now - entry.2.last < limits.idleSeconds)) = true := by
        refine htidy.ordered.imp ?_
        intro entry entry' hle hidle
        simp only [Bool.not_eq_true', decide_eq_false_iff_not] at hidle ⊢
        omega
      obtain ⟨htake, hdrop⟩ := takeWhile_eq_filter hordered
      unfold Edge.next Launcher.next Edge.expire Launcher.expire
      dsimp only
      rw [h.order, hloop, htake, hdrop, ← hfinished]
      refine ⟨_, by rw [Option.map_some, map_report "idle" rfl], ?_⟩
      refine ⟨rfl, hm', ?_, ?_⟩
      · intro client
        dsimp only
        rw [hlookup, Tables.lookup_filter htidy.keys]
        cases hclient : p.clients.lookup client with
        | none =>
            rw [h.lookup_none hclient, ite_self]
            rfl
        | some entry =>
            obtain ⟨e, he, hview⟩ := h.lookup hclient
            rw [Option.filter_some]
            have hmem : client ∈ finished.map Prod.fst ↔
                ¬ (now - entry.last < limits.idleSeconds) := by
              have hkeys : finished.map Prod.fst =
                  (finished.map fun f => (f.1, f.2.view)).map Prod.fst := by
                rw [List.map_map]
                rfl
              rw [hkeys, hfinished, ← Tables.lookup_isSome, Tables.lookup_filter htidy.keys,
                hclient, Option.filter_some]
              by_cases hidle : now - entry.last < limits.idleSeconds <;> simp [hidle]
            by_cases hidle : now - entry.last < limits.idleSeconds
            · rw [if_neg fun hm => hmem.mp hm hidle, he, if_pos (by simp [hidle]), ← hview]
              rfl
            · rw [if_pos (hmem.mpr hidle), if_neg (by simp [hidle])]
              rfl
      · dsimp only
        rw [h.emitted]
  | stop =>
      obtain ⟨finished, hloop, hfinished⟩ := stop_eq (h.found htidy.keys)
      unfold Edge.next Launcher.next Edge.stop Launcher.stop
      dsimp only
      rw [h.order, hloop, Option.map_some, map_report "stopped" hfinished]
      refine ⟨_, rfl, rfl, List.nodup_nil, fun _ => rfl, ?_⟩
      dsimp only
      rw [h.emitted]

/-- Both sides print a line alike. -/
theorem line_eq (service : String) (r : Report) : Edge.line service r = Launcher.line service r := by
  unfold Edge.line Launcher.line KINDS
  simp only [List.foldl_cons, List.foldl_nil, List.map_cons, List.map_nil,
    String.intercalate_cons_cons, String.intercalate_singleton, String.append_assoc]

/-! ## Runs -/

variable {limits : Limits} {clock : Int}

/-- What holds of every regular run. -/
structure Twins.Ok (limits : Limits) (t : Twins) : Prop where
  tidy : Launcher.Tidy limits t.clock t.launcher
  agree : ∃ g, t.edge = some g ∧ Agree t.launcher g
  counted : ∀ client kind, reported t.launcher.emitted client kind +
    live t.launcher.clients client kind = recorded t.history client kind
  once : ∀ client, (t.launcher.emitted.map Report.client).count client +
    (t.launcher.clients.map Prod.fst).count client = t.opened.count client

theorem Twins.Ok.next {t : Twins} (h : t.Ok limits) {e : Event} (hregular : Regular t e) :
    (t.next limits e).Ok limits := by
  obtain ⟨hnow, hfits⟩ := hregular
  obtain ⟨g, hedge, hagree⟩ := h.agree
  obtain ⟨g', hnext, hagree'⟩ := hagree.next h.tidy hfits
  refine ⟨h.tidy.next hnow, ⟨g', ?_, hagree'⟩, ?_, ?_⟩
  · unfold Twins.next
    dsimp only
    rw [hedge, Option.bind_some, hnext, Option.map_some]
  · intro client kind
    have hcounted := Launcher.counted_next limits h.tidy.keys e client kind
    rw [h.counted client kind] at hcounted
    unfold Twins.next recorded
    rw [List.map_append, List.sum_append, List.map_singleton, List.sum_singleton]
    exact hcounted
  · intro client
    have honce := Launcher.once_next limits h.tidy.keys e client
    rw [h.once client] at honce
    unfold Twins.next
    rw [List.count_append]
    exact honce

theorem ok_of_reached {t : Twins} (h : (runs limits clock).ReachedWhen Regular t) : t.Ok limits := by
  refine @System.ReachedWhen.invariant _ _ _ _ (fun t => Twins.Ok limits t) ?_ ?_ t h
  · rintro t rfl
    exact ⟨Launcher.tidy_new, ⟨_, rfl, agree_new⟩, fun _ _ => rfl, fun _ => rfl⟩
  · rintro t e u ht hregular rfl
    exact ht.next hregular

/-- What `expire` ends and what it leaves. -/
theorem expire_eq {s : Launcher.SessionStats} (h : Launcher.Tidy limits clock s) (now : Int) :
    Launcher.expire limits s now = (.lines ((s.clients.filter fun entry =>
        limits.idleSeconds ≤ now - entry.2.last).map (Launcher.report "idle")),
      ⟨s.clients.filter fun entry => now - entry.2.last < limits.idleSeconds,
        s.emitted ++ (s.clients.filter fun entry =>
          limits.idleSeconds ≤ now - entry.2.last).map (Launcher.report "idle")⟩) := by
  have hordered : s.clients.Pairwise fun entry entry' =>
      (!decide (now - entry'.2.last < limits.idleSeconds)) = true →
        (!decide (now - entry.2.last < limits.idleSeconds)) = true := by
    refine h.ordered.imp ?_
    intro entry entry' hle hidle
    simp only [Bool.not_eq_true', decide_eq_false_iff_not] at hidle ⊢
    omega
  obtain ⟨htake, hdrop⟩ := takeWhile_eq_filter hordered
  have hidle : (fun entry : String × Launcher.Client =>
      !decide (now - entry.2.last < limits.idleSeconds)) =
        fun entry => decide (limits.idleSeconds ≤ now - entry.2.last) := by
    funext entry
    rw [← decide_not]
    exact decide_eq_decide.mpr Int.not_lt
  unfold Launcher.expire
  dsimp only
  rw [htake, hdrop, hidle]
  simp only [Bool.not_not]

/-- The limits of the servers. -/
def udpfs : Limits := ⟨"udpfs", 64, 60, by decide⟩

/-- Two clients, one of which is idle. -/
def twoClients : List Event :=
  [⟨.record "10.0.0.2" "open" 1, 0⟩, ⟨.record "10.0.0.3" "read" 1, 30⟩,
    ⟨.record "10.0.0.3" "bytes" 2048, 31⟩, ⟨.expire, 61⟩]

/-- A regular run, step by step. -/
theorem reached_twoClients :
    (runs udpfs 0).ReachedWhen Regular (twoClients.foldl (Twins.next udpfs) (.start 0)) := by
  refine System.ReachedWhen.along (.init rfl) ?_
  refine ⟨⟨?_, ?_, ?_⟩, ⟨?_, ?_, ?_⟩, ⟨?_, ?_, ?_⟩, ⟨?_, trivial⟩, trivial⟩ <;> decide +kernel

/-- A counter that is filled and gets one more. -/
def overflowing : List Event :=
  [⟨.record "10.0.0.2" "bytes" (Int64.ofInt (2 ^ 63 - 1)), 0⟩, ⟨.record "10.0.0.2" "bytes" 1, 0⟩,
    ⟨.stop, 0⟩]

end Ps2Servers.Sessions
