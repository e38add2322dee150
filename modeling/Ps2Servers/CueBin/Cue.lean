import Ps2Servers.Lib.Strconv
import Ps2Servers.Lib.Utf8
import Ps2Servers.CueBin.Layout
import Mathlib.Data.List.DropRight

/-!
# CUE sheets

The FILE line of a generated sheet names the virtual BIN. The Edge server quotes the name as a Go
string, the Python server writes it as it is between quotes; a reader of the sheet takes what is
between the quotes.

## Implementation notes

The names of files are byte strings, and the text of a sheet is a string of code points until it is
encoded. The printable runes past Latin-1 are a table of the Go library, which is a parameter.
-/

namespace Ps2Servers.CueBin

open Text

/-! ## Quoting -/

/-- `strconv.IsPrint`. -/
def isPrint (table : CodePoint → Bool) (r : CodePoint) : Bool :=
  if r.toNat ≤ 0xff then
    (0x20 ≤ r.toNat && r.toNat < 0x7f) || (0xa1 ≤ r.toNat && r.toNat ≠ 0xad)
  else table r

def hexDigit (n : Nat) : CodePoint := .char ("0123456789abcdef".toList.getD n '0')

/-- The last hexadecimal digits of a number. -/
def hex : Nat → Nat → Str
  | 0, _ => []
  | width + 1, n => hex width (n / 16) ++ [hexDigit (n % 16)]

/-- `appendEscapedRune`, between double quotes. -/
def escapeRune (table : CodePoint → Bool) (r : CodePoint) : Str :=
  if r = .char '"' ∨ r = .char '\\' then [.char '\\', r]
  else if isPrint table r then [r]
  else
    match r.toNat with
    | 0x07 => lit "\\a"
    | 0x08 => lit "\\b"
    | 0x0c => lit "\\f"
    | 0x0a => lit "\\n"
    | 0x0d => lit "\\r"
    | 0x09 => lit "\\t"
    | 0x0b => lit "\\v"
    | n =>
        if n < 0x20 ∨ n = 0x7f then lit "\\x" ++ hex 2 n
        else if n < 0x10000 then lit "\\u" ++ hex 4 n
        else lit "\\U" ++ hex 8 n

/-- `strconv.Quote` of a valid string. -/
def quote (table : CodePoint → Bool) (s : Str) : Str :=
  .char '"' :: s.flatMap (escapeRune table) ++ [.char '"']

/-- What stands between the first two quotes of a sheet. -/
def plainUnquote (sheet : Bytes) : Bytes :=
  ((sheet.dropWhile (· ≠ 0x22)).drop 1).takeWhile (· ≠ 0x22)

/-! ## Sheets -/

/-- `%02d`. -/
def twoDigits (n : Nat) : Str :=
  let digits := (Nat.toDigits 10 n).map CodePoint.char
  if n < 10 then .char '0' :: digits else digits

def Msf.text (t : Msf) : Str :=
  twoDigits t.minutes ++ lit ":" ++ twoDigits t.seconds ++ lit ":" ++ twoDigits t.frames

def Track.cueMode (t : Track) : Str :=
  if t.kind = "MODE1_RAW" then lit "MODE1/2352"
  else if t.kind = "MODE2_RAW" then lit "MODE2/2352"
  else lit "AUDIO"

/-- The lines of a track. -/
def TrackIndex.lines (i : TrackIndex) : Str :=
  lit "  TRACK " ++ twoDigits i.track.number ++ lit " " ++ i.track.cueMode ++ lit "\r\n" ++
    (match i.index0 with
      | some index0 => lit "    INDEX 00 " ++ (msf index0).text ++ lit "\r\n"
      | none => []) ++
    lit "    INDEX 01 " ++ (msf i.index1).text ++ lit "\r\n"

/-- `cue` of the Edge server. -/
def Layout.cue (table : CodePoint → Bool) (l : Layout) (binName : Str) : Bytes :=
  encodeReplace
    (lit "FILE " ++ quote table binName ++ lit " BINARY\r\n" ++ l.tracks.flatMap TrackIndex.lines)

/-- `cue_sheet` of the Python server. -/
def Layout.cueSheet (l : Layout) (binName : Str) : Option Bytes :=
  encode
    (lit "FILE \"" ++ binName ++ lit "\" BINARY\r\n" ++ l.tracks.flatMap TrackIndex.lines)

/-! ## Names -/

/-- A rune that a name in a sheet may have. -/
def safeRune (r : CodePoint) : Bool :=
  r ≠ .char '"' && r ≠ .char '\\' && 0x20 ≤ r.toNat && r.toNat ≠ 0x7f

/-- `safeCueName` of the Edge server. -/
def safeCueName (name : Bytes) : Bool :=
  match decode name with
  | none => false
  | some runes => name.length ≤ 255 && runes.all safeRune

/-- `_safe_cue_name` of the Python server. -/
def safeCueNamePy (name : Str) : Bool :=
  match encode name with
  | none => false
  | some bytes => bytes.length ≤ 255 && name.all safeRune

/-- `filepath.Ext` of a file name. -/
def ext (name : Bytes) : Bytes :=
  if 0x2e ∈ name then 0x2e :: List.rtakeWhile (· ≠ 0x2e) name else []

/-- A file name without its extension. -/
def stem (name : Bytes) : Bytes := name.take (name.length - (ext name).length)

inductive Kind
  | cue
  | bin
  deriving DecidableEq, Repr

def Kind.ext : Kind → Bytes
  | cue => [0x2e, 0x63, 0x75, 0x65]
  | bin => [0x2e, 0x62, 0x69, 0x6e]

/-- `VirtualCDFile`, in the directory of its source. -/
structure VirtualCDFile where
  name : Bytes
  source : Bytes
  kind : Kind
  size : Nat
  layout : Layout
  cueData : Bytes
  deriving DecidableEq, Repr

/-- `makeVirtualCDPair`. -/
def makeVirtualCDPair (table : CodePoint → Bool) (source : Bytes) (layout : Layout) :
    Option (VirtualCDFile × VirtualCDFile) :=
  let cueName := stem source ++ Kind.cue.ext
  let binName := stem source ++ Kind.bin.ext
  if !safeCueName binName || 255 < cueName.length || 255 < binName.length then none
  else
    match decode binName with
    | none => none
    | some runes =>
        let cue := layout.cue table runes
        some (⟨cueName, source, .cue, cue.length, layout, cue⟩,
          ⟨binName, source, .bin, layout.size, layout, []⟩)

/-! ## What a sheet names -/

variable {table : CodePoint → Bool}

theorem mem_encodeReplace_ascii {s : Str} {c : Char} (hc : c.toNat < 0x80)
    (h : CodePoint.char c ∈ s) : UInt8.ofNat c.toNat ∈ encodeReplace s := by
  refine List.mem_flatMap.mpr ⟨_, h, ?_⟩
  rw [CodePoint.utf8_ascii (CodePoint.isAscii_char.mpr hc)]
  exact List.mem_singleton.mpr rfl

theorem quote_notMem_encodeReplace {s : Str} (h : CodePoint.char '"' ∉ s) :
    (0x22 : UInt8) ∉ encodeReplace s := by
  intro hb
  exact h (mem_of_mem_encodeReplace hb (by decide) (by decide))

theorem backslash_notMem_encodeReplace {s : Str} (h : CodePoint.char '\\' ∉ s) :
    (0x5c : UInt8) ∉ encodeReplace s := by
  intro hb
  exact h (mem_of_mem_encodeReplace hb (by decide) (by decide))

/-- What stands between the first two quotes of a text is its body, if there is none in it. -/
theorem plainUnquote_eq {front body : Str} (back : Str) (hfront : CodePoint.char '"' ∉ front)
    (hbody : CodePoint.char '"' ∉ body) :
    plainUnquote (encodeReplace ((front ++ .char '"' :: body) ++ .char '"' :: back)) =
      encodeReplace body := by
  have hsplit : encodeReplace ((front ++ .char '"' :: body) ++ .char '"' :: back) =
      encodeReplace front ++ 0x22 :: (encodeReplace body ++ 0x22 :: encodeReplace back) := by
    have hcons (s : Str) : encodeReplace (.char '"' :: s) = 0x22 :: encodeReplace s := rfl
    rw [encodeReplace_append, encodeReplace_append, hcons, hcons, List.append_assoc,
      List.cons_append]
  have hfront' : ∀ b ∈ encodeReplace front, decide (b ≠ 0x22) = true := by
    rintro b hb
    apply decide_eq_true
    rintro rfl
    exact quote_notMem_encodeReplace hfront hb
  have hbody' : ∀ b ∈ encodeReplace body, decide (b ≠ 0x22) = true := by
    rintro b hb
    apply decide_eq_true
    rintro rfl
    exact quote_notMem_encodeReplace hbody hb
  unfold plainUnquote
  rw [hsplit, List.dropWhile_append_of_pos hfront', List.dropWhile_cons_of_neg (by decide),
    List.drop_succ_cons, List.drop_zero, List.takeWhile_append_of_pos hbody',
    List.takeWhile_cons_of_neg (by decide), List.append_nil]

theorem hexDigit_ne_quote (n : Nat) : hexDigit n ≠ .char '"' := by
  have hdigits : ∀ c ∈ "0123456789abcdef".toList, c ≠ '"' := by simp
  intro h
  have hchar := CodePoint.char.inj h
  rw [List.getD_eq_getElem?_getD] at hchar
  cases hget : "0123456789abcdef".toList[n]? with
  | none =>
      rw [hget] at hchar
      exact absurd hchar (by decide)
  | some c =>
      rw [hget] at hchar
      exact hdigits c (List.mem_of_getElem? hget) hchar

theorem quote_notMem_hex (width n : Nat) : CodePoint.char '"' ∉ hex width n := by
  induction width generalizing n with
  | zero => exact List.not_mem_nil
  | succ width ih =>
      unfold hex
      rw [List.mem_append, List.mem_singleton, not_or]
      exact ⟨ih _, fun h => hexDigit_ne_quote _ h.symm⟩

/-- Of a rune that is no quote there is no quote in its escape. -/
theorem quote_notMem_escapeRune {r : CodePoint} (h : r ≠ .char '"') :
    CodePoint.char '"' ∉ escapeRune table r := by
  have hescape {front : Str} (hfront : CodePoint.char '"' ∉ front) (width n : Nat) :
      CodePoint.char '"' ∉ front ++ hex width n := by
    rw [List.mem_append, not_or]
    exact ⟨hfront, quote_notMem_hex width n⟩
  unfold escapeRune
  split
  · intro hmem
    rcases List.mem_cons.mp hmem with hmem | hmem
    · cases hmem
    · exact h (List.mem_singleton.mp hmem).symm
  split
  · exact fun hmem => h (List.mem_singleton.mp hmem).symm
  split
  case h_8 =>
    split
    · exact hescape (by decide) 2 _
    split
    · exact hescape (by decide) 4 _
    · exact hescape (by decide) 8 _
  all_goals decide

/-- A rune that is not printable is escaped. -/
theorem backslash_mem_escapeRune {r : CodePoint} (h : isPrint table r = false) :
    CodePoint.char '\\' ∈ escapeRune table r := by
  unfold escapeRune
  split
  · exact List.mem_cons_self
  rw [h, if_neg Bool.false_ne_true]
  split
  case h_8 =>
    split
    · exact List.mem_append_left _ (by decide)
    split
    · exact List.mem_append_left _ (by decide)
    · exact List.mem_append_left _ (by decide)
  all_goals decide

theorem safeRune_iff {r : CodePoint} : safeRune r = true ↔
    r ≠ .char '"' ∧ r ≠ .char '\\' ∧ 0x20 ≤ r.toNat ∧ r.toNat ≠ 0x7f := by
  unfold safeRune
  rw [Bool.and_eq_true, Bool.and_eq_true, Bool.and_eq_true, decide_eq_true_iff, decide_eq_true_iff,
    decide_eq_true_iff, decide_eq_true_iff, and_assoc, and_assoc]

/-- A safe name is escaped to itself if and only if all of it is printable. -/
theorem unquote_cue_iff {l : Layout} {runes : Str} (hsafe : ∀ r ∈ runes, safeRune r = true) :
    plainUnquote (l.cue table runes) = encodeReplace runes ↔ ∀ r ∈ runes, isPrint table r = true := by
  have hbody : CodePoint.char '"' ∉ runes.flatMap (escapeRune table) := by
    intro hmem
    obtain ⟨r, hr, hmem⟩ := List.mem_flatMap.mp hmem
    exact quote_notMem_escapeRune (safeRune_iff.mp (hsafe r hr)).1 hmem
  have hsheet : plainUnquote (l.cue table runes) =
      encodeReplace (runes.flatMap (escapeRune table)) := by
    unfold Layout.cue quote
    rw [List.append_assoc, ← List.append_assoc (lit "FILE "), List.append_assoc, List.singleton_append]
    exact plainUnquote_eq _ (by decide) hbody
  rw [hsheet]
  constructor
  · intro heq r hr
    by_contra hprint
    have hescaped : CodePoint.char '\\' ∈ runes.flatMap (escapeRune table) :=
      List.mem_flatMap.mpr ⟨r, hr, backslash_mem_escapeRune (Bool.eq_false_iff.mpr hprint)⟩
    have hbyte : (0x5c : UInt8) ∈ encodeReplace runes :=
      heq ▸ mem_encodeReplace_ascii (by decide) hescaped
    refine backslash_notMem_encodeReplace ?_ hbyte
    exact fun hmem => (safeRune_iff.mp (hsafe _ hmem)).2.1 rfl
  · intro hprint
    have hself : ∀ r ∈ runes, escapeRune table r = [r] := by
      intro r hr
      have hr' := safeRune_iff.mp (hsafe r hr)
      unfold escapeRune
      rw [if_neg (not_or.mpr ⟨hr'.1, hr'.2.1⟩), if_pos (hprint r hr)]
    rw [List.flatMap_congr hself, List.flatMap_singleton']

/-- The sheet of the Python server always names its BIN. -/
theorem unquote_cueSheet {l : Layout} {binName : Str} (hsafe : safeCueNamePy binName = true)
    {sheet : Bytes} (h : l.cueSheet binName = some sheet) :
    encode binName = some (plainUnquote sheet) := by
  unfold safeCueNamePy at hsafe
  cases hname : encode binName with
  | none =>
      rw [hname] at hsafe
      cases hsafe
  | some bytes =>
      rw [hname] at hsafe
      dsimp only at hsafe
      rw [Bool.and_eq_true, List.all_eq_true] at hsafe
      have hbody : CodePoint.char '"' ∉ binName :=
        fun hmem => (safeRune_iff.mp (hsafe.2 _ hmem)).1 rfl
      have hfront : lit "FILE \"" ++ binName = lit "FILE " ++ .char '"' :: binName := rfl
      unfold Layout.cueSheet at h
      rw [hfront, List.append_assoc] at h
      rw [← encodeReplace_of_encode h, ← encodeReplace_of_encode hname]
      exact congrArg some (plainUnquote_eq _ (by decide) hbody).symm

/-- What the sheet of a pair says between its quotes is the name of its BIN if and only if the whole
name is printable. -/
theorem cue_names_bin_iff {source : Bytes} {l : Layout} {cue bin : VirtualCDFile}
    (h : makeVirtualCDPair table source l = some (cue, bin)) :
    plainUnquote cue.cueData = bin.name ↔
      ∀ runes, decode bin.name = some runes → ∀ r ∈ runes, isPrint table r = true := by
  unfold makeVirtualCDPair at h
  dsimp only at h
  split at h
  · cases h
  case isFalse hsafe =>
    split at h
    · cases h
    case h_2 runes hrunes =>
      cases h
      dsimp only
      have hsafe' : safeCueName (stem source ++ Kind.bin.ext) = true := by
        by_contra hno
        rw [Bool.eq_false_iff.mpr hno] at hsafe
        exact hsafe rfl
      unfold safeCueName at hsafe'
      rw [hrunes] at hsafe'
      dsimp only at hsafe'
      rw [Bool.and_eq_true, List.all_eq_true] at hsafe'
      have hname : stem source ++ Kind.bin.ext = encodeReplace runes :=
        (encodeReplace_of_encode (encode_of_decode hrunes)).symm
      rw [hrunes, hname]
      apply (unquote_cue_iff hsafe'.2).trans
      constructor
      · rintro hprint _ hsome
        cases hsome
        exact hprint
      · exact fun hall => hall runes rfl

/-- A source whose BIN has a safe name has its pair. -/
theorem makeVirtualCDPair_eq {source : Bytes} {runes : Str} (l : Layout)
    (hruns : encode runes = some (stem source ++ Kind.bin.ext))
    (hlength : (stem source ++ Kind.bin.ext).length ≤ 255)
    (hsafe : runes.all safeRune = true) :
    makeVirtualCDPair table source l =
      some (⟨stem source ++ Kind.cue.ext, source, .cue, (l.cue table runes).length, l,
          l.cue table runes⟩,
        ⟨stem source ++ Kind.bin.ext, source, .bin, l.size, l, []⟩) := by
  have hdecode := decode_of_encode hruns
  have hcue : (stem source ++ Kind.cue.ext).length ≤ 255 := by
    rw [List.length_append] at hlength ⊢
    exact hlength
  have hname : safeCueName (stem source ++ Kind.bin.ext) = true := by
    unfold safeCueName
    rw [hdecode]
    dsimp only
    rw [hsafe, Bool.and_true, decide_eq_true_iff]
    exact hlength
  unfold makeVirtualCDPair
  dsimp only
  rw [hname, decide_eq_false (Nat.not_lt.mpr hcue), decide_eq_false (Nat.not_lt.mpr hlength), hdecode]
  rfl

/-- The runes past Latin-1 of the examples are printable. -/
def printableTable : CodePoint → Bool := fun _ => true

theorem cue_names_ascii :
    plainUnquote (Layout.cue printableTable ⟨[], [], 0⟩ (lit "Game.bin")) = "Game.bin".toUTF8.toList := by
  have hpair := @makeVirtualCDPair_eq printableTable "Game.chd".toUTF8.toList (lit "Game.bin")
    ⟨[], [], 0⟩ (by decide +kernel) (by decide +kernel) (by decide +kernel)
  have hnames := (cue_names_bin_iff hpair).mpr
  have hdecode := decode_of_encode (show encode (lit "Game.bin") =
    some (stem "Game.chd".toUTF8.toList ++ Kind.bin.ext) by decide +kernel)
  refine (hnames ?_).trans (by decide +kernel)
  intro runes hruns
  rw [hdecode] at hruns
  cases hruns
  decide +kernel

/-- A no-break space is safe, but not printable. -/
theorem cue_names_no_bin : ∃ cue bin,
    makeVirtualCDPair printableTable "My\u00a0Game.chd".toUTF8.toList ⟨[], [], 0⟩ = some (cue, bin) ∧
      plainUnquote cue.cueData ≠ bin.name := by
  have hpair := @makeVirtualCDPair_eq printableTable "My\u00a0Game.chd".toUTF8.toList
    (lit "My\u00a0Game.bin") ⟨[], [], 0⟩ (by decide +kernel) (by decide +kernel) (by decide +kernel)
  refine ⟨_, _, hpair, ?_⟩
  decide +kernel

end Ps2Servers.CueBin
