import Ps2Servers.Lib.Bytes
import Ps2Servers.Lib.Effects
import Ps2Servers.Lib.Intervals

/-!
# The track layout of a CD image

`chd_cuebin`: the tracks of a CHD are laid out in a virtual BIN file. Pregaps and postgaps that are
not stored become silence there, and the frames that pad a track to a multiple of four are left out.

## Implementation notes

The numbers of a track are natural, since the parser of the metadata rejects the others. A `-1` of the
source, for no INDEX 00 and for no stored frames, is `none`.
-/

namespace Ps2Servers.CueBin

open Intervals
open Effects (bind_eq_ok)

def CD_FRAME_BYTES : Nat := 2448

def CD_SECTOR_BYTES : Nat := 2352

def MAX_HUNK_BYTES : Nat := 16 * 1024 * 1024

def PADDING_FRAMES : Nat := 4

def RAW_TRACK_TYPES : List String := ["MODE1_RAW", "MODE2_RAW", "AUDIO"]

inductive ChdCueError
  | logicalSize
  | unsupportedType (number : Nat) (kind : String)
  | frameCounts (number : Nat)
  | longPregap (number : Nat)
  | longPostgap (number : Nat)
  | pregapMetadata (number : Nat)
  | pregapConsumes (number : Nat)
  | beyondRange (number : Nat)
  | tooLarge
  deriving DecidableEq, Repr

structure Track where
  number : Nat
  kind : String
  frames : Nat
  pregap : Nat
  pregapKind : String
  postgap : Nat
  deriving DecidableEq, Repr

def Track.audio (t : Track) : Bool := t.kind = "AUDIO"

def Track.storedPregap (t : Track) : Bool := t.pregapKind.toList.head? = some 'V'

structure Span where
  start : Nat
  frames : Nat
  physicalStart : Option Nat
  audio : Bool
  deriving DecidableEq, Repr

structure TrackIndex where
  track : Track
  index0 : Option Nat
  index1 : Nat
  deriving DecidableEq, Repr

structure Layout where
  spans : List Span
  tracks : List TrackIndex
  totalFrames : Nat
  deriving DecidableEq, Repr

def Layout.size (l : Layout) : Nat := l.totalFrames * CD_SECTOR_BYTES

structure TrackTable where
  hunkBytes : Nat
  logicalBytes : Nat
  tracks : List Track
  deriving DecidableEq, Repr

/-- What the loop of `layout` has laid out. -/
structure Builder where
  spans : List Span
  indexes : List TrackIndex
  virtualFrame : Nat
  physicalFrame : Nat
  deriving DecidableEq, Repr

def Builder.addSilence (b : Builder) (track : Track) (frames : Nat) : Builder :=
  { b with
    spans := b.spans ++ [⟨b.virtualFrame, frames, none, track.audio⟩]
    virtualFrame := b.virtualFrame + frames }

/-- The pregap of a track, with its INDEX 00 and INDEX 01. -/
def Builder.addPregap (b : Builder) (track : Track) :
    Except ChdCueError (Builder × Option Nat × Nat) :=
  if track.pregap ≠ 0 ∧ track.storedPregap then
    if track.frames ≤ track.pregap then .error (.pregapConsumes track.number)
    else .ok (b, some b.virtualFrame, b.virtualFrame + track.pregap)
  else if track.pregap ≠ 0 then
    .ok (b.addSilence track track.pregap, some b.virtualFrame, b.virtualFrame + track.pregap)
  else .ok (b, none, b.virtualFrame)

/-- The frames of a track, its indexes, and its padding. -/
def Builder.addFrames (b : Builder) (track : Track) (index0 : Option Nat) (index1 : Nat) : Builder where
  spans := b.spans ++ [⟨b.virtualFrame, track.frames, some b.physicalFrame, track.audio⟩]
  indexes := b.indexes ++ [⟨track, index0, index1⟩]
  virtualFrame := b.virtualFrame + track.frames
  physicalFrame := b.physicalFrame + track.frames +
    (PADDING_FRAMES - track.frames % PADDING_FRAMES) % PADDING_FRAMES

def Builder.addPostgap (b : Builder) (track : Track) : Builder :=
  if track.postgap ≠ 0 then b.addSilence track track.postgap else b

/-- One round of the loop of `layout`. -/
def Builder.addTrack (totalFrames : Nat) (b : Builder) (track : Track) :
    Except ChdCueError Builder :=
  if track.kind ∉ RAW_TRACK_TYPES then .error (.unsupportedType track.number track.kind)
  else if track.frames = 0 then .error (.frameCounts track.number)
  else if track.frames < track.pregap then .error (.longPregap track.number)
  else if track.pregapKind.toList.any fun c => 128 ≤ c.toNat then
    .error (.pregapMetadata track.number)
  else
    match b.addPregap track with
    | .error e => .error e
    | .ok (b, index0, index1) =>
        if totalFrames < b.physicalFrame + track.frames then .error (.beyondRange track.number)
        else .ok ((b.addFrames track index0 index1).addPostgap track)

def TrackTable.layout (table : TrackTable) : Except ChdCueError Layout :=
  if table.logicalBytes = 0 ∨ table.logicalBytes % CD_FRAME_BYTES ≠ 0 then .error .logicalSize
  else
    match table.tracks.foldlM (Builder.addTrack (table.logicalBytes / CD_FRAME_BYTES))
        ⟨[], [], 0, 0⟩ with
    | .error e => .error e
    | .ok b =>
        if 0x7fffffffffffffff < b.virtualFrame * CD_SECTOR_BYTES then .error .tooLarge
        else .ok ⟨b.spans, b.indexes, b.virtualFrame⟩

/-- One round of the loop of the Edge server's `layout`. -/
def Builder.addTrackEdge (chdFrames : Nat) (b : Builder) (track : Track) :
    Except ChdCueError Builder :=
  if track.kind ∉ RAW_TRACK_TYPES then .error (.unsupportedType track.number track.kind)
  else if track.frames = 0 ∨ track.frames < track.pregap then .error (.frameCounts track.number)
  else if chdFrames < track.postgap then .error (.longPostgap track.number)
  else
    match b.addPregap track with
    | .error e => .error e
    | .ok (b, index0, index1) =>
        if chdFrames < b.physicalFrame ∨ chdFrames - b.physicalFrame < track.frames then
          .error (.beyondRange track.number)
        else .ok ((b.addFrames track index0 index1).addPostgap track)

/-- `layout` of the Edge server. -/
def TrackTable.layoutEdge (table : TrackTable) : Except ChdCueError Layout :=
  if table.logicalBytes = 0 ∨ table.logicalBytes % CD_FRAME_BYTES ≠ 0 then .error .logicalSize
  else
    match table.tracks.foldlM (Builder.addTrackEdge (table.logicalBytes / CD_FRAME_BYTES))
        ⟨[], [], 0, 0⟩ with
    | .error e => .error e
    | .ok b =>
        if 0x7fffffffffffffff / CD_SECTOR_BYTES < b.virtualFrame then .error .tooLarge
        else .ok ⟨b.spans, b.indexes, b.virtualFrame⟩

def Span.stop (s : Span) : Nat := s.start + s.frames

def Layout.spanAt (l : Layout) (frame : Nat) : Option Span :=
  match before Span.start l.spans frame with
  | none => none
  | some span => if frame < span.stop then some span else none

/-- A position as minutes, seconds and frames. -/
structure Msf where
  minutes : Nat
  seconds : Nat
  frames : Nat
  deriving DecidableEq, Repr

/-- `_msf`, before it is printed. -/
def msf (frame : Nat) : Msf :=
  let remainder := frame % (75 * 60)
  ⟨frame / (75 * 60), remainder / 75, remainder % 75⟩

/-- The order of times on a sheet. -/
def Msf.Before (a b : Msf) : Prop :=
  a.minutes < b.minutes ∨ a.minutes = b.minutes ∧
    (a.seconds < b.seconds ∨ a.seconds = b.seconds ∧ a.frames < b.frames)

/-! ## What a virtual BIN is -/

/-- Where the bytes of a virtual frame come from. -/
inductive Source
  | silence
  | stored (frame : Nat) (audio : Bool)
  deriving DecidableEq, Repr

/-- The frames of a track that is stored from a frame on: a pregap that is not stored, the frames of
the track, a postgap. -/
def Track.sources (t : Track) (physical : Nat) : List Source :=
  (if t.storedPregap then [] else List.replicate t.pregap .silence) ++
    (List.range t.frames).map (fun i => .stored (physical + i) t.audio) ++
    List.replicate t.postgap .silence

/-- Where the next track is stored: behind as many frames as make a multiple of four. -/
def Track.next (t : Track) (physical : Nat) : Nat :=
  physical + (t.frames + PADDING_FRAMES - 1) / PADDING_FRAMES * PADDING_FRAMES

/-- The frames of a virtual BIN whose tracks are stored from a frame on. -/
def binSources : Nat → List Track → List Source
  | _, [] => []
  | physical, t :: rest => t.sources physical ++ binSources (t.next physical) rest

/-! ## Layouts -/

/-- What a span has at an offset. -/
def Span.sourceAt (s : Span) (offset : Nat) : Source :=
  match s.physicalStart with
  | none => .silence
  | some physicalStart => .stored (physicalStart + offset) s.audio

/-- The stored frames of one span are before those of another. -/
def Span.Below (s t : Span) : Prop :=
  ∀ p q, s.physicalStart = some p → t.physicalStart = some q → p + s.frames ≤ q

/-- What is laid out so far: spans without a gap, stored frames in order and within the image, and
indexes in order. -/
structure Builder.Ok (totalFrames : Nat) (b : Builder) : Prop where
  spans : Contiguous Span.start Span.stop 0 b.virtualFrame b.spans
  inside : ∀ s ∈ b.spans, ∀ p, s.physicalStart = some p →
    p + s.frames ≤ totalFrames ∧ p + s.frames ≤ b.physicalFrame
  below : b.spans.Pairwise Span.Below
  index : ∀ i ∈ b.indexes, i.index1 < b.virtualFrame ∧ ∀ n, i.index0 = some n → n < i.index1
  order : b.indexes.Pairwise fun i j => i.index1 < j.index0.getD j.index1

variable {totalFrames : Nat} {b b' : Builder} {track : Track}

theorem Builder.Ok.start : Builder.Ok totalFrames ⟨[], [], 0, 0⟩ where
  spans := Contiguous.nil
  inside := by
    intro s hs
    cases hs
  below := List.Pairwise.nil
  index := by
    intro i hi
    cases hi
  order := List.Pairwise.nil

theorem Builder.Ok.addSilence (hb : b.Ok totalFrames) {frames : Nat} (hpos : 0 < frames) :
    (b.addSilence track frames).Ok totalFrames where
  spans :=
    @Contiguous.snoc _ _ _ _ _ _ (⟨b.virtualFrame, frames, none, track.audio⟩ : Span) hb.spans rfl
      (Nat.lt_add_of_pos_right hpos)
  inside := by
    intro s hs p hp
    rcases List.mem_append.mp hs with hs | hs
    · exact hb.inside s hs p hp
    · rw [List.mem_singleton.mp hs] at hp
      cases hp
  below := by
    apply List.pairwise_append.mpr
    refine ⟨hb.below, List.pairwise_singleton _ _, ?_⟩
    intro s _ t ht p q _ hq
    rw [List.mem_singleton.mp ht] at hq
    cases hq
  index := by
    intro i hi
    obtain ⟨hlt, hindex⟩ := hb.index i hi
    exact ⟨Nat.lt_add_right _ hlt, hindex⟩
  order := hb.order

theorem Builder.Ok.addFrames (hb : b.Ok totalFrames) {index0 : Option Nat} {index1 : Nat}
    (hpos : 0 < track.frames) (hroom : b.physicalFrame + track.frames ≤ totalFrames)
    (hafter : ∀ i ∈ b.indexes, i.index1 < index0.getD index1)
    (hindex : ∀ n, index0 = some n → n < index1)
    (hbefore : index1 < b.virtualFrame + track.frames) :
    (b.addFrames track index0 index1).Ok totalFrames where
  spans :=
    @Contiguous.snoc _ _ _ _ _ _
      (⟨b.virtualFrame, track.frames, some b.physicalFrame, track.audio⟩ : Span) hb.spans rfl
      (Nat.lt_add_of_pos_right hpos)
  inside := by
    intro s hs p hp
    have hphysical : b.physicalFrame + track.frames ≤ (b.addFrames track index0 index1).physicalFrame :=
      Nat.le_add_right _ _
    rcases List.mem_append.mp hs with hs | hs
    · have hinside := hb.inside s hs p hp
      omega
    · rw [List.mem_singleton.mp hs] at hp ⊢
      cases hp
      exact ⟨hroom, hphysical⟩
  below := by
    apply List.pairwise_append.mpr
    refine ⟨hb.below, List.pairwise_singleton _ _, ?_⟩
    intro s hs t ht p q hp hq
    rw [List.mem_singleton.mp ht] at hq
    cases hq
    exact (hb.inside s hs p hp).2
  index := by
    intro i hi
    rcases List.mem_append.mp hi with hi | hi
    · obtain ⟨hlt, hi⟩ := hb.index i hi
      exact ⟨Nat.lt_add_right _ hlt, hi⟩
    · rw [List.mem_singleton.mp hi]
      exact ⟨hbefore, hindex⟩
  order := by
    apply List.pairwise_append.mpr
    refine ⟨hb.order, List.pairwise_singleton _ _, ?_⟩
    intro i hi j hj
    rw [List.mem_singleton.mp hj]
    exact hafter i hi

/-- The frames that are laid out. -/
def Builder.sources (b : Builder) : List Source :=
  pieces Span.sourceAt Span.start Span.stop b.spans

theorem Builder.sources_addSilence (frames : Nat) :
    (b.addSilence track frames).sources = b.sources ++ List.replicate frames .silence := by
  unfold Builder.sources Builder.addSilence
  rw [pieces_concat]
  unfold Span.start Span.stop
  dsimp only
  rw [Nat.add_sub_cancel_left]
  have hsilence : Span.sourceAt ⟨b.virtualFrame, frames, none, track.audio⟩ = fun _ => .silence := rfl
  rw [hsilence, List.map_const', List.length_range]

theorem Builder.sources_addFrames (index0 : Option Nat) (index1 : Nat) :
    (b.addFrames track index0 index1).sources =
      b.sources ++
        (List.range track.frames).map fun i => .stored (b.physicalFrame + i) track.audio := by
  unfold Builder.sources Builder.addFrames
  rw [pieces_concat]
  unfold Span.start Span.stop
  dsimp only
  rw [Nat.add_sub_cancel_left]
  rfl

/-- A pregap goes in front of the frames, and the indexes are where it starts and ends. -/
theorem Builder.Ok.addPregap (hb : b.Ok totalFrames) (hpos : 0 < track.frames)
    {index0 : Option Nat} {index1 : Nat} (h : b.addPregap track = .ok (b', index0, index1)) :
    b'.Ok totalFrames ∧ b'.physicalFrame = b.physicalFrame ∧ b'.indexes = b.indexes ∧
      b'.sources = b.sources ++
        (if track.storedPregap then [] else List.replicate track.pregap .silence) ∧
      (∀ i ∈ b'.indexes, i.index1 < index0.getD index1) ∧ (∀ n, index0 = some n → n < index1) ∧
      index1 < b'.virtualFrame + track.frames := by
  unfold Builder.addPregap at h
  split at h
  case isTrue hstored =>
    split at h
    · cases h
    case isFalse hlong =>
      cases h
      rw [if_pos hstored.2, List.append_nil]
      refine ⟨hb, rfl, rfl, rfl, fun i hi => (hb.index i hi).1, ?_, by omega⟩
      intro n hn
      cases hn
      omega
  case isFalse hstored =>
    split at h
    case isTrue hpregap =>
      cases h
      have hsilent : ¬ track.storedPregap = true := fun hs => hstored ⟨hpregap, hs⟩
      rw [if_neg hsilent]
      have hpregap' : 0 < track.pregap := Nat.pos_of_ne_zero hpregap
      refine ⟨hb.addSilence hpregap', rfl, rfl, Builder.sources_addSilence _,
        fun i hi => (hb.index i hi).1, ?_, Nat.lt_add_of_pos_right hpos⟩
      intro n hn
      cases hn
      omega
    case isFalse hpregap =>
      cases h
      rw [not_not.mp hpregap, List.replicate_zero, ite_self, List.append_nil]
      refine ⟨hb, rfl, rfl, rfl, fun i hi => (hb.index i hi).1, ?_, Nat.lt_add_of_pos_right hpos⟩
      intro n hn
      cases hn

theorem Builder.Ok.addPostgap (hb : b.Ok totalFrames) : (b.addPostgap track).Ok totalFrames := by
  unfold Builder.addPostgap
  split
  case isTrue h => exact hb.addSilence (Nat.pos_of_ne_zero h)
  case isFalse => exact hb

theorem Builder.sources_addPostgap :
    (b.addPostgap track).sources = b.sources ++ List.replicate track.postgap .silence := by
  unfold Builder.addPostgap
  split
  case isTrue => exact Builder.sources_addSilence _
  case isFalse h => rw [not_not.mp h, List.replicate_zero, List.append_nil]

theorem Builder.addPostgap_keeps : (b.addPostgap track).physicalFrame = b.physicalFrame ∧
    (b.addPostgap track).indexes = b.indexes := by
  unfold Builder.addPostgap
  split
  case isTrue => exact ⟨rfl, rfl⟩
  case isFalse => exact ⟨rfl, rfl⟩

/-- A round lays one track out. -/
structure Lays (b : Builder) (track : Track) (b' : Builder) : Prop where
  physical : b'.physicalFrame = track.next b.physicalFrame
  indexes : b'.indexes.map TrackIndex.track = b.indexes.map TrackIndex.track ++ [track]
  sources : b'.sources = b.sources ++ track.sources b.physicalFrame

/-- The part of a round behind the checks of a track. -/
theorem Builder.Ok.addTrack (hb : b.Ok totalFrames) (hpos : 0 < track.frames) {b₁ : Builder}
    {index0 : Option Nat} {index1 : Nat} (h : b.addPregap track = .ok (b₁, index0, index1))
    (hroom : b₁.physicalFrame + track.frames ≤ totalFrames) :
    ((b₁.addFrames track index0 index1).addPostgap track).Ok totalFrames ∧
      Lays b track ((b₁.addFrames track index0 index1).addPostgap track) := by
  obtain ⟨hb₁, hphysical, hindexes, hsources, hafter, hindex, hbefore⟩ := hb.addPregap hpos h
  refine ⟨(hb₁.addFrames hpos hroom hafter hindex hbefore).addPostgap, ?_, ?_, ?_⟩
  · rw [Builder.addPostgap_keeps.1, Track.next, ← hphysical]
    unfold Builder.addFrames PADDING_FRAMES
    dsimp only
    omega
  · rw [Builder.addPostgap_keeps.2, ← hindexes]
    exact List.map_append
  · rw [Builder.sources_addPostgap, Builder.sources_addFrames, hsources, hphysical]
    unfold Track.sources
    rw [List.append_assoc, List.append_assoc, List.append_assoc]

theorem Builder.Ok.addTrackOf (hb : b.Ok totalFrames)
    (h : b.addTrack totalFrames track = .ok b') : b'.Ok totalFrames ∧ Lays b track b' := by
  unfold Builder.addTrack at h
  split at h
  · cases h
  split at h
  · cases h
  split at h
  · cases h
  split at h
  · cases h
  case isFalse hframes _ _ =>
    split at h
    · cases h
    case h_2 b₁ index0 index1 hpregap =>
      split at h
      · cases h
      case isFalse hroom =>
        cases h
        exact hb.addTrack (Nat.pos_of_ne_zero hframes) hpregap (Nat.le_of_not_lt hroom)

theorem Builder.Ok.addTrackEdge (hb : b.Ok totalFrames)
    (h : b.addTrackEdge totalFrames track = .ok b') : b'.Ok totalFrames ∧ Lays b track b' := by
  unfold Builder.addTrackEdge at h
  split at h
  · cases h
  split at h
  · cases h
  split at h
  · cases h
  case isFalse hframes _ =>
    split at h
    · cases h
    case h_2 b₁ index0 index1 hpregap =>
      split at h
      · cases h
      case isFalse hroom =>
        cases h
        exact hb.addTrack (by omega) hpregap (by omega)

/-- A loop whose rounds lay out a track each lays the tracks out one behind the other. -/
theorem Builder.Ok.run {add : Builder → Track → Except ChdCueError Builder}
    (hadd : ∀ b b' track, Builder.Ok totalFrames b → add b track = .ok b' →
      b'.Ok totalFrames ∧ Lays b track b')
    (hb : b.Ok totalFrames) {tracks : List Track} (h : tracks.foldlM add b = .ok b') :
    b'.Ok totalFrames ∧
      b'.indexes.map TrackIndex.track = b.indexes.map TrackIndex.track ++ tracks ∧
      b'.sources = b.sources ++ binSources b.physicalFrame tracks := by
  induction tracks generalizing b with
  | nil =>
      cases h
      exact ⟨hb, (List.append_nil _).symm, (List.append_nil _).symm⟩
  | cons track rest ih =>
      obtain ⟨b₁, hround, hrest⟩ := bind_eq_ok.mp h
      obtain ⟨hb₁, hlays⟩ := hadd b b₁ track hb hround
      obtain ⟨hb', hindexes, hsources⟩ := ih hb₁ hrest
      refine ⟨hb', ?_, ?_⟩
      · rw [hindexes, hlays.indexes, List.append_assoc]
        rfl
      · rw [hsources, hlays.sources, hlays.physical, List.append_assoc]
        rfl

/-- The spans of a layout follow one another without a gap up to its end; their stored frames are in
order, so they do not overlap, and within the image. Each track has its indexes, INDEX 00 before
INDEX 01 and both behind those of the track before. What is at a virtual frame is what the tracks
say. -/
structure Layout.Sound (table : TrackTable) (l : Layout) : Prop where
  partition : Contiguous Span.start Span.stop 0 l.totalFrames l.spans
  inside : ∀ s ∈ l.spans, ∀ p, s.physicalStart = some p →
    p + s.frames ≤ table.logicalBytes / CD_FRAME_BYTES
  below : l.spans.Pairwise Span.Below
  tracks : l.tracks.map TrackIndex.track = table.tracks
  index : ∀ i ∈ l.tracks, ∀ n, i.index0 = some n → (msf n).Before (msf i.index1)
  order : l.tracks.Pairwise fun i j => (msf i.index1).Before (msf (j.index0.getD j.index1))
  sources : pieces Span.sourceAt Span.start Span.stop l.spans = binSources 0 table.tracks

theorem msf_before {n m : Nat} (h : n < m) : (msf n).Before (msf m) := by
  unfold Msf.Before msf
  dsimp only
  omega

theorem Layout.Sound.of_run {table : TrackTable}
    {add : Builder → Track → Except ChdCueError Builder}
    (hadd : ∀ b b' track, Builder.Ok (table.logicalBytes / CD_FRAME_BYTES) b →
      add b track = .ok b' → b'.Ok (table.logicalBytes / CD_FRAME_BYTES) ∧ Lays b track b')
    (hrun : table.tracks.foldlM add ⟨[], [], 0, 0⟩ = .ok b) :
    Layout.Sound table ⟨b.spans, b.indexes, b.virtualFrame⟩ := by
  obtain ⟨hb, htracks, hsources⟩ := Builder.Ok.run hadd Builder.Ok.start hrun
  refine ⟨hb.spans, fun s hs p hp => (hb.inside s hs p hp).1, hb.below, htracks, ?_, ?_, hsources⟩
  · intro i hi n hn
    exact msf_before ((hb.index i hi).2 n hn)
  · exact hb.order.imp fun h => msf_before h

theorem TrackTable.layout_sound {table : TrackTable} {l : Layout} (h : table.layout = .ok l) :
    l.Sound table := by
  unfold TrackTable.layout at h
  split at h
  · cases h
  split at h
  · cases h
  case h_2 hrun =>
    split at h
    · cases h
    cases h
    exact Layout.Sound.of_run (fun _ _ _ => Builder.Ok.addTrackOf) hrun

/-- The Edge server's layouts are sound, too. -/
theorem TrackTable.layoutEdge_sound {table : TrackTable} {l : Layout}
    (h : table.layoutEdge = .ok l) : l.Sound table := by
  unfold TrackTable.layoutEdge at h
  split at h
  · cases h
  split at h
  · cases h
  case h_2 hrun =>
    split at h
    · cases h
    cases h
    exact Layout.Sound.of_run (fun _ _ _ => Builder.Ok.addTrackEdge) hrun

/-- A round of the Edge server takes the virtual frames at most three times the image further. -/
theorem Builder.addTrackEdge_le (h : b.addTrackEdge totalFrames track = .ok b') :
    b'.virtualFrame ≤ b.virtualFrame + 3 * totalFrames ∧ b'.physicalFrame ≤ totalFrames + 3 := by
  unfold Builder.addTrackEdge at h
  split at h
  · cases h
  split at h
  · cases h
  split at h
  · cases h
  case isFalse hframes hpostgap =>
    split at h
    · cases h
    case h_2 b₁ index0 index1 hpregap =>
      have hb₁ : b₁.virtualFrame ≤ b.virtualFrame + track.pregap := by
        unfold Builder.addPregap at hpregap
        split at hpregap
        · split at hpregap
          · cases hpregap
          · cases hpregap
            exact Nat.le_add_right _ _
        · split at hpregap
          · cases hpregap
            exact Nat.le_refl _
          · cases hpregap
            exact Nat.le_add_right _ _
      split at h
      · cases h
      case isFalse hroom =>
        cases h
        rw [Builder.addPostgap_keeps.1]
        unfold Builder.addPostgap Builder.addSilence Builder.addFrames PADDING_FRAMES
        dsimp only
        split <;> dsimp only <;> omega

/-- The numbers of the Edge server's layouts are no longer than an `int64`, before they are
checked, too. -/
theorem Builder.edge_int64 {tracks : List Track} (hlength : tracks.length ≤ 99)
    (htotal : totalFrames ≤ 0x7fffffffffffffff / CD_FRAME_BYTES)
    (h : tracks.foldlM (Builder.addTrackEdge totalFrames) ⟨[], [], 0, 0⟩ = .ok b) :
    b.virtualFrame < 0x8000000000000000 := by
  have hle {tracks : List Track} {b b' : Builder}
      (h : tracks.foldlM (Builder.addTrackEdge totalFrames) b = .ok b') :
      b'.virtualFrame ≤ b.virtualFrame + tracks.length * (3 * totalFrames) := by
    induction tracks generalizing b with
    | nil =>
        cases h
        exact Nat.le_add_right _ _
    | cons track rest ih =>
        obtain ⟨b₁, hround, hrest⟩ := bind_eq_ok.mp h
        have hfirst := (Builder.addTrackEdge_le hround).1
        have hothers := ih hrest
        rw [List.length_cons, Nat.succ_mul]
        omega
  have hbound := hle h
  have hmul := Nat.mul_le_mul_right (3 * totalFrames) hlength
  unfold CD_FRAME_BYTES at htotal
  dsimp only at hbound
  omega

/-- There is no hole: a search finds the span of a frame, which says where the frame comes from. -/
theorem Layout.Sound.spanAt {table : TrackTable} {l : Layout} (h : l.Sound table) {frame : Nat}
    (hlt : frame < l.totalFrames) : ∃ span ∈ l.spans, l.spanAt frame = some span ∧
      span.start ≤ frame ∧ frame < span.stop ∧
      (binSources 0 table.tracks)[frame]? = some (span.sourceAt (frame - span.start)) := by
  obtain ⟨span, hspan, hfrom, hto, hsource⟩ :=
    h.partition.getElem?_pieces Span.sourceAt (Nat.zero_le frame) hlt
  rw [h.sources, Nat.sub_zero] at hsource
  refine ⟨span, hspan, ?_, hfrom, hto, hsource⟩
  unfold Layout.spanAt
  rw [before_of_mem h.partition.between.ordered hspan hfrom hto]
  exact if_pos hto

theorem Layout.Sound.length_binSources {table : TrackTable} {l : Layout} (h : l.Sound table) :
    (binSources 0 table.tracks).length = l.totalFrames := by
  rw [← h.sources, h.partition.length_pieces, Nat.sub_zero]

end Ps2Servers.CueBin
