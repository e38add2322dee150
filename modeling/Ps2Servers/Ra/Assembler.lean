import Ps2Servers.Lib.Runs
import Ps2Servers.Lib.Tables
import Ps2Servers.Ra.Protocol
import Mathlib.Data.List.Perm.Subperm
import Mathlib.Data.List.Range

/-!
# Snapshot assembly

The parts of a frame come in any order, repeated, or not at all. Whatever is fed, a value that is
returned is one frame: its parts carry one sequence number, and all of them were fed. The sequence
numbers move forward on a ring, so that a number comes back when the ring was gone round.

## Implementation notes

Times are of any type with a difference and an order: nothing depends on how the clock moves. A
trace records what the assembler does not keep: the packets fed, how far the sequence number has
moved since the last time-out, and where it stood when frames were returned.
-/

namespace Ps2Servers.Ra

open Runs

/-- What a `SnapshotAssembler` is made for. -/
structure Session (T : Type) where
  serial : Str
  count : Nat
  sizes : List Nat
  timeout : T
  serial_ne : serial ≠ []
  count_range : 1 ≤ count ∧ count ≤ 4096
  sizes_ne : sizes ≠ []
  sizes_range : ∀ size ∈ sizes, 1 ≤ size ∧ size ≤ MAX_VALUES

/-- `max(self.sizes)`. -/
def Session.largest {T : Type} (session : Session T) : Nat := session.sizes.foldr max 0

/-- `SnapshotAssembler`. -/
structure Assembler (T : Type) where
  sequence : Option Nat
  parts : Option Nat
  fragments : List (Nat × Bytes)
  blocked : Bool
  completed : Bool
  lastSeen : Option T
  deriving DecidableEq, Repr

inductive FeedError
  | value (message : String)
  | key
  deriving DecidableEq, Repr

namespace Assembler

variable {T : Type}

def reset : Assembler T := ⟨none, none, [], false, false, none⟩

/-- How far a sequence number is ahead of another. -/
def distance (sequence current : Nat) : Nat :=
  (((sequence : Int) - current) % SEQUENCE_MODULUS).toNat

/-- The frame of a part replaces the one in work. -/
def start (s : Assembler T) (part : SnapshotPart) : Assembler T :=
  { s with
    sequence := some part.sequence
    parts := some part.parts
    fragments := []
    blocked := false
    completed := false }

def block (s : Assembler T) : Assembler T := { s with blocked := true, fragments := [] }

/-- The assembler at the frame of a part, or nothing for a delayed old frame. -/
def advance (s : Assembler T) (part : SnapshotPart) : Option (Assembler T) :=
  match s.sequence with
  | none => some (s.start part)
  | some current =>
      if SEQUENCE_MODULUS / 2 ≤ distance part.sequence current then none
      else if distance part.sequence current ≠ 0 then some (s.start part)
      else some s

/-- The bytes of the fragments. -/
def retained (fragments : List (Nat × Bytes)) : Nat := (fragments.map fun f => f.2.length).sum

/-- Parts whose lengths do not make a frame of the session. -/
def uneven (session : Session T) (lengths : List Nat) : Bool :=
  !lengths.dropLast.all (· = lengths.headD 0) ||
    (1 < lengths.length && lengths.headD 0 < lengths.getLastD 0) ||
    !session.sizes.contains lengths.sum

/-- The end of `feed`, when a fragment was taken. -/
def finish (session : Session T) (s : Assembler T) :
    Except FeedError (Option Bytes) × Assembler T :=
  if some s.fragments.length ≠ s.parts then (.ok none, s)
  else
    match (List.range s.fragments.length).mapM fun i => s.fragments.lookup i with
    | none => (.error .key, s)
    | some values =>
        if uneven session (values.map List.length) then (.ok none, s.block)
        else (.ok (some values.flatten), { s with completed := true, fragments := [] })

/-- A part of the frame in work. -/
def add (session : Session T) (s : Assembler T) (part : SnapshotPart) (now : T) :
    Except FeedError (Option Bytes) × Assembler T :=
  if s.blocked ∨ s.completed then (.ok none, s)
  else if some part.parts ≠ s.parts then (.ok none, s.block)
  else
    let previous := s.fragments.lookup part.index
    if previous ≠ none ∧ previous ≠ some part.values then (.ok none, s.block)
    else
      let fragments := Tables.assign s.fragments part.index part.values
      if session.largest < retained fragments then
        (.ok none, { s with fragments := fragments }.block)
      else
        let lastSeen := if previous = none then some now else s.lastSeen
        finish session { s with fragments := fragments, lastSeen := lastSeen }

variable [Sub T] [LE T] [DecidableLE T]

def timedOut (session : Session T) (s : Assembler T) (now : T) : Bool :=
  match s.lastSeen with
  | none => false
  | some last => session.timeout ≤ now - last

def feed (session : Session T) (s : Assembler T) (packet : Bytes) (now : T) :
    Except FeedError (Option Bytes) × Assembler T :=
  match parseSnapshot packet with
  | .error message => (.error (.value message), s)
  | .ok part =>
      if part.serial ≠ session.serial ∨ part.count ≠ session.count then (.ok none, s)
      else
        let s := if s.timedOut session now then reset else s
        match s.advance part with
        | none => (.ok none, s)
        | some s => s.add session part now

end Assembler

/-! ## Traces -/

variable {T : Type}

structure Event (T : Type) where
  packet : Bytes
  now : T
  deriving DecidableEq, Repr

/-- An assembler and what happened to it. -/
structure Trace (T : Type) where
  assembler : Assembler T
  fed : List Bytes
  travelled : Nat
  returned : List (Nat × Nat)
  deriving DecidableEq, Repr

def Trace.start : Trace T := ⟨.reset, [], 0, []⟩

/-- How far the sequence number moves. -/
def moved : Option Nat → Option Nat → Nat
  | some old, some new => Assembler.distance new old
  | _, _ => 0

/-- The packet carries a part of the session. -/
def Session.takes (session : Session T) (packet : Bytes) (part : SnapshotPart) : Prop :=
  parseSnapshot packet = .ok part ∧ part.serial = session.serial ∧ part.count = session.count

section

variable [Sub T] [LE T] [DecidableLE T]

/-- The packet is the session's and finds it timed out. -/
def expires (session : Session T) (s : Assembler T) (e : Event T) : Bool :=
  match parseSnapshot e.packet with
  | .error _ => false
  | .ok part =>
      part.serial = session.serial && part.count = session.count && s.timedOut session e.now

/-- A frame is returned. -/
def yields : Except FeedError (Option Bytes) → Bool
  | .ok (some _) => true
  | _ => false

def Trace.next (session : Session T) (t : Trace T) (e : Event T) : Trace T :=
  let result := t.assembler.feed session e.packet e.now
  let expired := expires session t.assembler e
  let travelled := if expired then 0 else t.travelled + moved t.assembler.sequence result.2.sequence
  let returned := if expired then [] else t.returned
  { assembler := result.2
    fed := t.fed ++ [e.packet]
    travelled := travelled
    returned := if yields result.1 then returned ++ [(result.2.sequence.getD 0, travelled)]
      else returned }

/-- All runs of an assembler. -/
def runs (session : Session T) : System (Trace T) (Event T) := .ofNext .start (Trace.next session)

end

/-! ## One packet -/

namespace Assembler

variable {session : Session T}

/-- What a part of the frame in work does. -/
inductive Added (session : Session T) (s : Assembler T) (part : SnapshotPart) :
    Except FeedError (Option Bytes) → Assembler T → Prop
  | closed (h : s.blocked = true ∨ s.completed = true) : Added session s part (.ok none) s
  | blocked {t : Assembler T} (hopen : s.completed = false) (hcompleted : t.completed = false)
      (hsequence : t.sequence = s.sequence) (hnil : t.fragments = []) :
      Added session s part (.ok none) t
  | stored {t : Assembler T} (hopen : s.completed = false) (hcompleted : t.completed = false)
      (hsequence : t.sequence = s.sequence) (hparts : s.parts = some part.parts)
      (hsame : t.parts = s.parts)
      (hfragments : t.fragments = Tables.assign s.fragments part.index part.values)
      (hfits : retained t.fragments ≤ session.largest) : Added session s part (.ok none) t
  | finished {t : Assembler T} {values : List Bytes} (hopen : s.completed = false)
      (hcompleted : t.completed = true) (hsequence : t.sequence = s.sequence)
      (hparts : s.parts = some part.parts) (hnil : t.fragments = [])
      (hvalues : (List.range part.parts).mapM (fun i =>
        (Tables.assign s.fragments part.index part.values).lookup i) = some values)
      (hsize : (values.map List.length).sum ∈ session.sizes) :
      Added session s part (.ok (some values.flatten)) t
  | missing {t : Assembler T} (hopen : s.completed = false) (hcompleted : t.completed = false)
      (hsequence : t.sequence = s.sequence) (hparts : s.parts = some part.parts)
      (hlength : (Tables.assign s.fragments part.index part.values).length = part.parts)
      (hvalues : (List.range part.parts).mapM (fun i =>
        (Tables.assign s.fragments part.index part.values).lookup i) = none) :
      Added session s part (.error .key) t

theorem added_add (session : Session T) (s : Assembler T) (part : SnapshotPart) (now : T) :
    Added session s part (s.add session part now).1 (s.add session part now).2 := by
  unfold add
  split
  · rename_i h
    exact .closed h
  rename_i hopen
  have hopen : s.completed = false := by simpa using (not_or.mp hopen).2
  split
  · exact .blocked hopen hopen rfl rfl
  rename_i hparts
  have hparts : s.parts = some part.parts := (not_not.mp hparts).symm
  dsimp only
  split
  · exact .blocked hopen hopen rfl rfl
  split
  · exact .blocked hopen hopen rfl rfl
  rename_i hfits
  unfold finish
  dsimp only
  split
  · exact .stored hopen hopen rfl hparts rfl rfl (Nat.le_of_not_lt hfits)
  rename_i hlength
  have hlength : (Tables.assign s.fragments part.index part.values).length = part.parts := by
    rw [hparts] at hlength
    exact Option.some.inj (not_not.mp hlength)
  rw [hlength]
  split
  · rename_i hvalues
    exact .missing hopen hopen rfl hparts hlength hvalues
  · rename_i values hvalues
    split
    · exact .blocked hopen hopen rfl rfl
    · rename_i heven
      have hsize : (values.map List.length).sum ∈ session.sizes := by
        simp only [uneven, Bool.or_eq_true, not_or, Bool.not_eq_true', Bool.not_eq_false] at heven
        simpa using heven.2
      exact .finished hopen rfl rfl hparts rfl hvalues hsize

/-- Which frame is in work when a part is taken. -/
inductive Advanced (s : Assembler T) (part : SnapshotPart) : Assembler T → Prop
  | first (h : s.sequence = none) : Advanced s part (s.start part)
  | forward {current : Nat} (h : s.sequence = some current)
      (hpos : 0 < distance part.sequence current)
      (hhalf : distance part.sequence current < SEQUENCE_MODULUS / 2) :
      Advanced s part (s.start part)
  | same {current : Nat} (h : s.sequence = some current)
      (hzero : distance part.sequence current = 0) : Advanced s part s

theorem advanced_of_advance {s u : Assembler T} {part : SnapshotPart}
    (h : s.advance part = some u) : Advanced s part u := by
  unfold advance at h
  split at h
  · rename_i hnone
    cases h
    exact .first hnone
  · rename_i current hcurrent
    split at h
    · cases h
    rename_i hhalf
    split at h
    · rename_i hne
      cases h
      exact .forward hcurrent (Nat.pos_of_ne_zero hne) (Nat.lt_of_not_le hhalf)
    · rename_i hzero
      cases h
      exact .same hcurrent (not_not.mp hzero)

end Assembler

section

variable [Sub T] [LE T] [DecidableLE T] {session : Session T}

/-- What a packet does. -/
inductive Fed (session : Session T) (s : Assembler T) (e : Event T) :
    Except FeedError (Option Bytes) → Assembler T → Prop
  | refused {outcome : Except FeedError (Option Bytes)} (hexpires : expires session s e = false)
      (hnone : ∀ values, outcome ≠ .ok (some values)) (hkey : outcome ≠ .error .key) :
      Fed session s e outcome s
  | worked {part : SnapshotPart} {u t : Assembler T} {outcome : Except FeedError (Option Bytes)}
      (htakes : session.takes e.packet part)
      (hframe : (if expires session s e then Assembler.reset else s).Advanced part u)
      (hadd : u.Added session part outcome t) : Fed session s e outcome t

theorem fed_feed (session : Session T) (s : Assembler T) (e : Event T) :
    Fed session s e (s.feed session e.packet e.now).1 (s.feed session e.packet e.now).2 := by
  unfold Assembler.feed
  cases hparse : parseSnapshot e.packet with
  | error message =>
      refine .refused ?_ ?_ ?_
      · rw [expires, hparse]
      · rintro values ⟨⟩
      · rintro ⟨⟩
  | ok part =>
      dsimp only
      by_cases hother : part.serial ≠ session.serial ∨ part.count ≠ session.count
      · rw [if_pos hother]
        refine .refused ?_ ?_ ?_
        · rw [expires, hparse]
          rcases hother with h | h <;> simp [h]
        · rintro values ⟨⟩
        · rintro ⟨⟩
      rw [if_neg hother]
      obtain ⟨hserial, hcount⟩ := not_or.mp hother
      have hexpires : expires session s e = s.timedOut session e.now := by
        rw [expires, hparse]
        simp [not_not.mp hserial, not_not.mp hcount]
      rw [← hexpires]
      cases hframe : (if expires session s e = true then Assembler.reset else s).advance part with
      | some u =>
          exact .worked ⟨hparse, not_not.mp hserial, not_not.mp hcount⟩
            (Assembler.advanced_of_advance hframe) (Assembler.added_add session u part e.now)
      | none =>
          cases hexpired : expires session s e with
          | true =>
              rw [hexpired, if_pos rfl] at hframe
              cases hframe
          | false =>
              refine .refused hexpired ?_ ?_
              · rintro values ⟨⟩
              · rintro ⟨⟩

/-! ## Frames -/

/-- What is kept of the frame in work was fed, and is no more than the largest frame. -/
structure Assembling (session : Session T) (fed : List Bytes) (s : Assembler T) : Prop where
  pieces : ∀ f ∈ s.fragments, ∃ sequence parts, s.sequence = some sequence ∧
    s.parts = some parts ∧ ∃ packet ∈ fed,
      parseSnapshot packet = .ok ⟨session.serial, sequence, session.count, f.1, parts, f.2⟩
  keys : (s.fragments.map Prod.fst).Nodup
  bounded : Assembler.retained s.fragments ≤ session.largest
  onRing : ∀ sequence, s.sequence = some sequence → sequence < SEQUENCE_MODULUS

/-- The values are one frame of the session: its parts were fed. -/
def Frame (session : Session T) (fed : List Bytes) (values : Bytes) : Prop :=
  ∃ sequence parts, ∃ pieces : List Bytes, pieces.length = parts ∧ pieces.flatten = values ∧
    values.length ∈ session.sizes ∧ ∀ i (h : i < pieces.length), ∃ packet ∈ fed,
      parseSnapshot packet = .ok ⟨session.serial, sequence, session.count, i, parts, pieces[i]⟩

omit [Sub T] [LE T] [DecidableLE T] in
theorem Assembling.of_nil {fed : List Bytes} {s : Assembler T} (h : s.fragments = [])
    (honRing : ∀ sequence, s.sequence = some sequence → sequence < SEQUENCE_MODULUS) :
    Assembling session fed s := by
  refine ⟨?_, ?_, ?_, honRing⟩
  · rw [h]
    rintro f ⟨⟩
  · rw [h]
    exact List.nodup_nil
  · rw [h]
    exact Nat.zero_le _

omit [Sub T] [LE T] [DecidableLE T] in
theorem Assembling.mono {fed fed' : List Bytes} {s : Assembler T} (h : Assembling session fed s)
    (hsub : fed ⊆ fed') : Assembling session fed' s := by
  refine { h with pieces := fun f hf => ?_ }
  obtain ⟨sequence, parts, hsequence, hparts, packet, hpacket, hparse⟩ := h.pieces f hf
  exact ⟨sequence, parts, hsequence, hparts, packet, hsub hpacket, hparse⟩

omit [Sub T] [LE T] [DecidableLE T] in
/-- The frame in work is the part's. -/
theorem Assembling.advanced {fed : List Bytes} {s u : Assembler T} {packet : Bytes}
    {part : SnapshotPart} (h : Assembling session fed s) (htakes : session.takes packet part)
    (hframe : s.Advanced part u) :
    Assembling session fed u ∧ u.sequence = some part.sequence := by
  have hlt := (parseSnapshot_ok htakes.1).1
  have hstart : Assembling session fed (s.start part) := by
    refine .of_nil rfl fun sequence hsequence => ?_
    obtain rfl := Option.some.inj hsequence
    exact hlt
  cases hframe with
  | first => exact ⟨hstart, rfl⟩
  | forward => exact ⟨hstart, rfl⟩
  | same hcurrent hzero =>
      rename_i current
      refine ⟨h, ?_⟩
      have hcurrentlt := h.onRing current hcurrent
      unfold Assembler.distance at hzero
      unfold SEQUENCE_MODULUS at hzero hlt hcurrentlt
      rw [hcurrent, Option.some_inj]
      omega

/-- Fragments of all the indices, when there are as many of them. -/
theorem exists_lookup {fragments : List (Nat × Bytes)} (hkeys : (fragments.map Prod.fst).Nodup)
    (hlt : ∀ f ∈ fragments, f.1 < fragments.length) {i : Nat} (hi : i < fragments.length) :
    ∃ v, fragments.lookup i = some v := by
  have hsub : fragments.map Prod.fst ⊆ List.range fragments.length := by
    intro k hk
    obtain ⟨f, hf, rfl⟩ := List.mem_map.mp hk
    exact List.mem_range.mpr (hlt f hf)
  have hperm : (fragments.map Prod.fst).Perm (List.range fragments.length) := by
    apply (List.subperm_of_subset hkeys hsub).perm_of_length_le
    rw [List.length_range, List.length_map]
  have hmem : i ∈ fragments.map Prod.fst := hperm.mem_iff.mpr (List.mem_range.mpr hi)
  exact Option.isSome_iff_exists.mp (Tables.lookup_isSome.mpr hmem)

theorem length_of_mapM {α β : Type*} {f : α → Option β} {l : List α} {values : List β}
    (h : l.mapM f = some values) : values.length = l.length ∧
      ∀ i (hi : i < values.length) (hl : i < l.length), f l[i] = some values[i] := by
  induction l generalizing values with
  | nil =>
      obtain rfl : [] = values := by simpa using h
      exact ⟨rfl, fun i hi => absurd hi (Nat.not_lt_zero i)⟩
  | cons a l ih =>
      simp only [List.mapM_cons, Option.bind_eq_bind, Option.bind_eq_some_iff] at h
      obtain ⟨b, hb, rest, hrest, hvalues⟩ := h
      obtain rfl := Option.some.inj hvalues
      obtain ⟨hlength, hget⟩ := ih hrest
      refine ⟨by rw [List.length_cons, List.length_cons, hlength], ?_⟩
      rintro (- | i) hi hl
      · exact hb
      · exact hget i (Nat.lt_of_succ_lt_succ hi) (Nat.lt_of_succ_lt_succ hl)

theorem mapM_isSome {α β : Type*} {f : α → Option β} {l : List α} (h : ∀ a ∈ l, (f a).isSome) :
    l.mapM f ≠ none := by
  induction l with
  | nil =>
      rw [List.mapM_nil]
      exact fun h => by cases h
  | cons a l ih =>
      obtain ⟨b, hb⟩ := Option.isSome_iff_exists.mp (h a List.mem_cons_self)
      obtain ⟨values, hvalues⟩ :=
        Option.ne_none_iff_exists'.mp (ih fun a ha => h a (List.mem_cons_of_mem _ ha))
      rw [List.mapM_cons, hb, hvalues]
      exact fun h => by cases h

variable {outcome : Except FeedError (Option Bytes)} {s t : Assembler T} {fed : List Bytes}
  {packet : Bytes} {part : SnapshotPart}

omit [Sub T] [LE T] [DecidableLE T] in
/-- The fragments with those of a part that was fed. -/
theorem Assembling.assign (h : Assembling session fed s) (hsequence : s.sequence = some part.sequence)
    (hparts : s.parts = some part.parts) (htakes : session.takes packet part)
    (hfed : packet ∈ fed) : ∀ f ∈ Tables.assign s.fragments part.index part.values,
      ∃ packet ∈ fed, parseSnapshot packet =
        .ok ⟨session.serial, part.sequence, session.count, f.1, part.parts, f.2⟩ := by
  intro f hf
  rcases Tables.mem_assign hf with hf | rfl
  · obtain ⟨sequence, parts, hq, hn, packet, hpacket, hparse⟩ := h.pieces f hf
    obtain rfl := Option.some.inj (hsequence.symm.trans hq)
    obtain rfl := Option.some.inj (hparts.symm.trans hn)
    exact ⟨packet, hpacket, hparse⟩
  · obtain ⟨hparse, hserial, hcount⟩ := htakes
    refine ⟨packet, hfed, ?_⟩
    rw [hparse, ← hserial, ← hcount]

omit [Sub T] [LE T] [DecidableLE T] in
/-- What is returned is one frame, nothing is missing from it, and what is kept stays in order. -/
theorem Assembling.added (h : Assembling session fed s) (hsequence : s.sequence = some part.sequence)
    (htakes : session.takes packet part) (hfed : packet ∈ fed)
    (hadd : s.Added session part outcome t) :
    Assembling session fed t ∧ t.sequence = s.sequence ∧ outcome ≠ .error .key ∧
      ∀ values, outcome = .ok (some values) → Frame session fed values := by
  have honRing : ∀ t : Assembler T, t.sequence = s.sequence →
      ∀ sequence, t.sequence = some sequence → sequence < SEQUENCE_MODULUS := by
    intro t hsame sequence hq
    exact h.onRing sequence (hsame.symm.trans hq)
  have hkeys := Tables.nodup_assign h.keys part.index part.values
  cases hadd with
  | closed => exact ⟨h, rfl, nofun, nofun⟩
  | blocked _ _ hsame hnil => exact ⟨.of_nil hnil (honRing t hsame), hsame, nofun, nofun⟩
  | stored _ _ hsame hparts hkept hfragments hfits =>
      refine ⟨⟨?_, ?_, hfits, honRing t hsame⟩, hsame, nofun, nofun⟩
      · intro f hf
        rw [hfragments] at hf
        exact ⟨part.sequence, part.parts, hsame.trans hsequence, hkept.trans hparts,
          h.assign hsequence hparts htakes hfed f hf⟩
      · rw [hfragments]
        exact hkeys
  | @finished _ pieces _ _ hsame hparts hnil hvalues hsize =>
      refine ⟨.of_nil hnil (honRing t hsame), hsame, nofun, ?_⟩
      rintro values hvalue
      obtain rfl := Option.some.inj (Except.ok.inj hvalue)
      obtain ⟨hlength, hget⟩ := length_of_mapM hvalues
      rw [List.length_range] at hlength
      refine ⟨part.sequence, part.parts, pieces, hlength, rfl, ?_, ?_⟩
      · rw [List.length_flatten]
        exact hsize
      · intro i hi
        have hlookup := hget i hi (by rw [List.length_range]; omega)
        rw [List.getElem_range] at hlookup
        exact h.assign hsequence hparts htakes hfed _ (Tables.mem_of_lookup hlookup)
  | missing _ _ _ hparts hlength hvalues =>
      refine absurd hvalues (mapM_isSome fun i hi => ?_)
      rw [← hlength] at hi
      have hlt : ∀ f ∈ Tables.assign s.fragments part.index part.values,
          f.1 < (Tables.assign s.fragments part.index part.values).length := by
        intro f hf
        obtain ⟨packet, -, hparse⟩ := h.assign hsequence hparts htakes hfed f hf
        rw [hlength]
        exact (parseSnapshot_ok hparse).2
      exact Option.isSome_iff_exists.mpr (exists_lookup hkeys hlt (List.mem_range.mp hi))

omit [Sub T] [LE T] [DecidableLE T] in
theorem assembling_reset : Assembling session fed (Assembler.reset : Assembler T) :=
  .of_nil rfl nofun

theorem Assembling.step (h : Assembling session fed s) {e : Event T} (hfed : e.packet ∈ fed)
    (hstep : Fed session s e outcome t) :
    Assembling session fed t ∧ outcome ≠ .error .key ∧
      ∀ values, outcome = .ok (some values) → Frame session fed values := by
  cases hstep with
  | refused hexpires hnone hkey => exact ⟨h, hkey, fun values hvalue => absurd hvalue (hnone values)⟩
  | worked htakes hframe hadd =>
      have hbase : Assembling session fed (if expires session s e then Assembler.reset else s) := by
        split
        · exact assembling_reset
        · exact h
      obtain ⟨hu, hsequence⟩ := hbase.advanced htakes hframe
      obtain ⟨ht, -, hkey, hvalues⟩ := hu.added hsequence htakes hfed hadd
      exact ⟨ht, hkey, hvalues⟩

/-! ## Sequence numbers -/

omit [Sub T] [LE T] [DecidableLE T]

/-- Frames were returned at places behind the one in work, and at this one if it is completed. -/
structure Forward (sequence : Option Nat) (completed : Bool) (travelled : Nat)
    (returned : List (Nat × Nat)) : Prop where
  ordered : returned.Pairwise fun r r' =>
    r.2 < r'.2 ∧ (r.1 + (r'.2 - r.2)) % SEQUENCE_MODULUS = r'.1 % SEQUENCE_MODULUS
  behind : ∀ r ∈ returned, r.2 ≤ travelled ∧ (r.2 = travelled → completed = true) ∧
    ∃ current, sequence = some current ∧
      (r.1 + (travelled - r.2)) % SEQUENCE_MODULUS = current % SEQUENCE_MODULUS

theorem Forward.empty (sequence : Option Nat) (completed : Bool) (travelled : Nat) :
    Forward sequence completed travelled [] := ⟨List.Pairwise.nil, nofun⟩

variable {sequence : Option Nat} {travelled : Nat} {returned : List (Nat × Nat)}

/-- The next frame is some way ahead. -/
theorem Forward.ahead {current : Nat} {completed : Bool}
    (h : Forward (some current) completed travelled returned) {next : Nat}
    (hpos : 0 < Assembler.distance next current) :
    Forward (some next) false (travelled + Assembler.distance next current) returned := by
  refine ⟨h.ordered, fun r hr => ?_⟩
  obtain ⟨hle, -, current', hcurrent, haligned⟩ := h.behind r hr
  obtain rfl := Option.some.inj hcurrent
  refine ⟨by omega, fun heq => by omega, next, rfl, ?_⟩
  have hdistance : ((Assembler.distance next current : Nat) : Int) =
      ((next : Int) - current) % 1000000 := by
    unfold Assembler.distance SEQUENCE_MODULUS
    omega
  unfold SEQUENCE_MODULUS at haligned ⊢
  omega

/-- A frame is returned where none was. -/
theorem Forward.finish {current : Nat}
    (h : Forward (some current) false travelled returned) :
    Forward (some current) true travelled (returned ++ [(current, travelled)]) := by
  refine ⟨?_, ?_⟩
  · rw [List.pairwise_append]
    refine ⟨h.ordered, List.pairwise_singleton _ _, ?_⟩
    rintro r hr r' hr'
    obtain rfl := List.mem_singleton.mp hr'
    obtain ⟨hle, hopen, current', hcurrent, haligned⟩ := h.behind r hr
    obtain rfl := Option.some.inj hcurrent
    refine ⟨Nat.lt_of_le_of_ne hle fun heq => Bool.false_ne_true (hopen heq), haligned⟩
  · intro r hr
    rcases List.mem_append.mp hr with hr | hr
    · obtain ⟨hle, -, hcurrent⟩ := h.behind r hr
      exact ⟨hle, fun _ => rfl, hcurrent⟩
    · obtain rfl := List.mem_singleton.mp hr
      refine ⟨Nat.le_refl _, fun _ => rfl, current, rfl, ?_⟩
      rw [Nat.sub_self, Nat.add_zero]

theorem distance_self (sequence : Nat) : Assembler.distance sequence sequence = 0 := by
  unfold Assembler.distance
  rw [Int.sub_self]
  rfl

theorem moved_self (sequence : Option Nat) : moved sequence sequence = 0 := by
  cases sequence with
  | none => rfl
  | some sequence => exact distance_self sequence

theorem Forward.advanced {s u : Assembler T} {part : SnapshotPart}
    (h : Forward s.sequence s.completed travelled returned) (hframe : s.Advanced part u) :
    Forward u.sequence u.completed (travelled + moved s.sequence u.sequence) returned := by
  cases hframe with
  | first hnone =>
      have hempty : returned = [] := by
        refine List.eq_nil_iff_forall_not_mem.mpr fun r hr => ?_
        obtain ⟨-, -, current, hcurrent, -⟩ := h.behind r hr
        rw [hnone] at hcurrent
        cases hcurrent
      rw [hempty]
      exact .empty _ _ _
  | forward hcurrent hpos =>
      rw [hcurrent] at h ⊢
      exact h.ahead hpos
  | same =>
      rw [moved_self, Nat.add_zero]
      exact h

/-- What a part does keeps the order. -/
theorem Forward.added {s t : Assembler T} {part : SnapshotPart}
    {outcome : Except FeedError (Option Bytes)} (hsequence : s.sequence = some part.sequence)
    (h : Forward s.sequence s.completed travelled returned)
    (hadd : s.Added session part outcome t) :
    t.sequence = s.sequence ∧ Forward t.sequence t.completed travelled
      (if yields outcome then returned ++ [(t.sequence.getD 0, travelled)] else returned) := by
  cases hadd with
  | closed => exact ⟨rfl, h⟩
  | blocked hopen hcompleted hsame =>
      refine ⟨hsame, ?_⟩
      rw [hsame, hcompleted, ← hopen]
      exact h
  | stored hopen hcompleted hsame =>
      refine ⟨hsame, ?_⟩
      rw [hsame, hcompleted, ← hopen]
      exact h
  | finished hopen hcompleted hsame =>
      refine ⟨hsame, ?_⟩
      rw [hopen, hsequence] at h
      rw [hsame, hcompleted, hsequence]
      exact h.finish
  | missing hopen hcompleted hsame =>
      refine ⟨hsame, ?_⟩
      rw [hsame, hcompleted, ← hopen]
      exact h

end

section

variable [Sub T] [LE T] [DecidableLE T] {session : Session T}

/-- What holds of every trace. -/
structure Trace.Ok (session : Session T) (t : Trace T) : Prop where
  assembling : Assembling session t.fed t.assembler
  forward : Forward t.assembler.sequence t.assembler.completed t.travelled t.returned

theorem Trace.Ok.next {t : Trace T} (h : t.Ok session) (e : Event T) : (t.next session e).Ok session := by
  have hstep := fed_feed session t.assembler e
  have hmono := h.assembling.mono (List.subset_append_left t.fed [e.packet])
  have hfed : e.packet ∈ t.fed ++ [e.packet] := List.mem_append_right _ List.mem_cons_self
  have hassembling := (hmono.step hfed hstep).1
  refine ⟨hassembling, ?_⟩
  unfold Trace.next
  dsimp only
  generalize (t.assembler.feed session e.packet e.now).1 = outcome at hstep ⊢
  generalize (t.assembler.feed session e.packet e.now).2 = a at hstep ⊢
  cases hstep with
  | refused hexpires hnone =>
      have hyields : yields outcome = false := by
        cases outcome with
        | error => rfl
        | ok value =>
            cases value with
            | none => rfl
            | some values => exact absurd rfl (hnone values)
      rw [hexpires, if_neg Bool.false_ne_true, if_neg Bool.false_ne_true, hyields,
        if_neg Bool.false_ne_true, moved_self, Nat.add_zero]
      exact h.forward
  | worked htakes hframe hadd =>
      rename_i part u
      cases hexpired : expires session t.assembler e with
      | true =>
          rw [hexpired, if_pos rfl] at hframe
          obtain ⟨-, hsequence⟩ :=
            (assembling_reset : Assembling session t.fed .reset).advanced htakes hframe
          exact (Forward.added hsequence (.empty _ _ 0) hadd).2
      | false =>
          rw [hexpired, if_neg Bool.false_ne_true] at hframe
          obtain ⟨-, hsequence⟩ := h.assembling.advanced htakes hframe
          obtain ⟨hsame, hforward⟩ := (h.forward.advanced hframe).added hsequence hadd
          rw [← hsame] at hforward
          exact hforward

theorem ok_of_reached {t : Trace T} (h : (runs session).Reached t) : t.Ok session := by
  refine @System.ReachedWhen.invariant _ _ _ _ (fun t => Trace.Ok session t) ?_ ?_ t h
  · rintro t rfl
    exact ⟨assembling_reset, .empty _ _ _⟩
  · rintro t e u ht - rfl
    exact ht.next e

/-- In every run what is kept stays below the largest frame, and a value returned is one frame of
parts that were fed. Between time-outs the frame in work moves forward by less than half the ring,
and frames are returned at places ever farther on: a number comes back a whole ring later. -/
theorem snapshot_assembly {t : Trace T} (h : (runs session).Reached t) :
    Assembler.retained t.assembler.fragments ≤ session.largest ∧
    (∀ (e : Event T) values, (t.assembler.feed session e.packet e.now).1 = .ok (some values) →
      Frame session (t.fed ++ [e.packet]) values) ∧
    (∀ e : Event T, (t.assembler.feed session e.packet e.now).1 ≠ .error .key) ∧
    (t.returned.Pairwise fun r r' => r.2 < r'.2 ∧
      (r.1 + (r'.2 - r.2)) % SEQUENCE_MODULUS = r'.1 % SEQUENCE_MODULUS ∧
      (r.1 = r'.1 → r.2 + SEQUENCE_MODULUS ≤ r'.2)) ∧
    (∀ (e : Event T) old new, expires session t.assembler e = false → t.assembler.sequence = some old →
      (t.next session e).assembler.sequence = some new → new = old ∨
        0 < Assembler.distance new old ∧ Assembler.distance new old < SEQUENCE_MODULUS / 2) := by
  have hok := ok_of_reached h
  have hfed : ∀ e : Event T, e.packet ∈ t.fed ++ [e.packet] :=
    fun e => List.mem_append_right _ List.mem_cons_self
  have hmono : ∀ e : Event T, Assembling session (t.fed ++ [e.packet]) t.assembler :=
    fun e => hok.assembling.mono (List.subset_append_left t.fed [e.packet])
  refine ⟨hok.assembling.bounded, ?_, ?_, ?_, ?_⟩
  · intro e values hvalues
    exact ((hmono e).step (hfed e) (fed_feed session t.assembler e)).2.2 values hvalues
  · intro e
    exact ((hmono e).step (hfed e) (fed_feed session t.assembler e)).2.1
  · refine hok.forward.ordered.imp ?_
    rintro r r' ⟨hlt, haligned⟩
    refine ⟨hlt, haligned, fun heq => ?_⟩
    unfold SEQUENCE_MODULUS at haligned ⊢
    omega
  · intro e old new hexpires hold hnew
    have hstep := fed_feed session t.assembler e
    change (t.assembler.feed session e.packet e.now).2.sequence = some new at hnew
    generalize (t.assembler.feed session e.packet e.now).1 = outcome at hstep
    generalize (t.assembler.feed session e.packet e.now).2 = a at hstep hnew
    cases hstep with
    | refused =>
        rw [hold] at hnew
        exact Or.inl (Option.some.inj hnew).symm
    | worked htakes hframe hadd =>
        rw [hexpires, if_neg Bool.false_ne_true] at hframe
        obtain ⟨hu, hsequence⟩ := hok.assembling.advanced htakes hframe
        obtain ⟨-, hsame, -, -⟩ :=
          (hu.mono (List.subset_append_left t.fed [e.packet])).added hsequence htakes (hfed e) hadd
        rw [hsame] at hnew
        cases hframe with
        | first hnone =>
            rw [hold] at hnone
            cases hnone
        | forward hcurrent hpos hhalf =>
            obtain rfl := Option.some.inj (hold.symm.trans hcurrent)
            obtain rfl := Option.some.inj hnew
            exact Or.inr ⟨hpos, hhalf⟩
        | same hcurrent =>
            rw [hold] at hnew
            exact Or.inl (Option.some.inj hnew).symm

end

/-- `SLUS_210.65` -/
def serialBytes : Bytes := [0x53, 0x4c, 0x55, 0x53, 0x5f, 0x32, 0x31, 0x30, 0x2e, 0x36, 0x35]

/-- A watch list of two values in four bytes. -/
def twoValues : Session Int :=
  ⟨Text.latin1 serialBytes, 2, [4], 15, by decide, by decide, by decide, by decide⟩

/-- A frame in one part, with the digits of its sequence number. -/
def frame (sequence : Bytes) : Bytes :=
  TELEMETRY ++ [0x73, 0x71, 0x3d] ++ sequence ++
    [0x20, 0x76, 0x62, 0x3d, 0x30, 0x30, 0x30, 0x34, 0x20, 0x6e, 0x3d, 0x30, 0x30, 0x30, 0x32,
      0x20, 0x70, 0x74, 0x3d, 0x30, 0x20, 0x6e, 0x70, 0x3d, 0x31] ++
    SERIAL_MARKER ++ serialBytes ++ [0x7e, 0x7e, 0x7e, 0x7e, 0x20] ++ [1, 2, 3, 4]

/-- Frames 0, 400000, 800000 and 0, all within the time-out. -/
def wrapped : Trace Int :=
  ([[0x30, 0x30, 0x30, 0x30, 0x30, 0x30], [0x34, 0x30, 0x30, 0x30, 0x30, 0x30],
    [0x38, 0x30, 0x30, 0x30, 0x30, 0x30], [0x30, 0x30, 0x30, 0x30, 0x30, 0x30]].map
      fun sequence => (⟨frame sequence, 0⟩ : Event Int)).foldl (Trace.next twoValues) .start

theorem reached_wrapped : (runs twoValues).Reached wrapped :=
  System.ReachedWhen.along (.init rfl) (Along.of_forall (fun _ _ => trivial) _ _)

theorem snapshot_assembly_wrapped :
    Assembler.retained wrapped.assembler.fragments ≤ twoValues.largest ∧
    (∀ (e : Event Int) values, (wrapped.assembler.feed twoValues e.packet e.now).1 = .ok (some values) →
      Frame twoValues (wrapped.fed ++ [e.packet]) values) ∧
    (∀ e : Event Int, (wrapped.assembler.feed twoValues e.packet e.now).1 ≠ .error .key) ∧
    (wrapped.returned.Pairwise fun r r' => r.2 < r'.2 ∧
      (r.1 + (r'.2 - r.2)) % SEQUENCE_MODULUS = r'.1 % SEQUENCE_MODULUS ∧
      (r.1 = r'.1 → r.2 + SEQUENCE_MODULUS ≤ r'.2)) ∧
    (∀ (e : Event Int) old new, expires twoValues wrapped.assembler e = false →
      wrapped.assembler.sequence = some old →
      (wrapped.next twoValues e).assembler.sequence = some new → new = old ∨
        0 < Assembler.distance new old ∧ Assembler.distance new old < SEQUENCE_MODULUS / 2) :=
  snapshot_assembly reached_wrapped

/-- Without a time-out number 0 is returned twice: the ring was gone round once. -/
theorem returned_twice_wrapped : (runs twoValues).Reached wrapped ∧
    wrapped.returned = [(0, 0), (400000, 400000), (800000, 800000), (0, 1000000)] := by
  refine ⟨System.ReachedWhen.along (.init rfl) (Along.of_forall (fun _ _ => trivial) _ _), ?_⟩
  decide +kernel

end Ps2Servers.Ra
